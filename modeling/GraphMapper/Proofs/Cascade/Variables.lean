import Mathlib.Data.List.Nodup
import GraphMapper.Proofs.Cascade.Rendering
import GraphMapper.Proofs.Cypher.Scope

/-!
# The variables of a delete

The variables of an edge and of the entity at its far end are made from that of the entity where the
edge begins and from the name of the relationship, reduced to the characters of identifiers. Along a
walk they come to the variable of the root, the reduced names with `_node_` between each two, and a
word for the side (`sideVar`). They are distinct exactly where the walks within the limit are told
apart by their texts (`cascade_vars_distinct_iff`).

Where names that a type declares are reduced to the same, or one of them reads like a walk, two
clauses have a variable in common, and the later one matches nothing but what the earlier one did
(`draft_posts_share_var`). Names of which none reads like a walk, and that are reduced to different
ones on each type, are told apart (`textsDistinct_of_namesApart`).
-/

namespace GraphMapper

open Cypher

/-- The reduced names of a walk, as they stand in the variables of its last edge. -/
def walkText (walk : List Relationship) : String :=
  Text.joined "_node_" (walk.map fun rel => identifierPart rel.name)

/-- The variable of one side of the last edge of a walk with the given text. -/
def sideVar (var text : String) (side : Side) : String :=
  var ++ "_" ++ text ++ "_" ++ side.word

/-- The walks within the limit are told apart by their texts. -/
def TextsDistinct (registry : Registry) (levels : Nat) (model : EntityType) : Prop :=
  ∀ walk walk', DeleteWalk registry model walk → walk.length ≤ levels →
    DeleteWalk registry model walk' → walk'.length ≤ levels →
    walkText walk = walkText walk' → walk = walk'

/-- The names that types declare can be told apart in the texts of walks: on each type they are
reduced to different ones, and none of them reads like a walk. -/
def NamesApart (registry : Registry) (model : EntityType) : Prop :=
  ∀ owner, owner = model ∨ owner ∈ registry.models →
    (owner.cascading.map fun rel => identifierPart rel.name).Nodup ∧
    ∀ rel ∈ owner.cascading,
      ¬ "_node_".toList.IsInfix ((identifierPart rel.name).toList ++ ['_'])

/-- The variables of an edge and of what it leads to. -/
def CascadeClause.vars (clause : CascadeClause) : String × String :=
  (clause.var, clause.node)

/-- The variables of an edge and of what it leads to, made from a text. -/
def textVars (var text : String) : String × String :=
  (sideVar var text .relationship, sideVar var text .node)

/-- All variables of a plan. -/
def CascadePlan.vars (plan : CascadePlan) : List String :=
  plan.var :: plan.clauses.flatMap fun clause => [clause.var, clause.node]

/-- The variables that a path of a match adds to those that are known where it begins: that of its
node if it stands alone, and those behind the first node otherwise. -/
def Cypher.Path.matched (path : Path) : List String :=
  match path.elements with
  | [.node pattern] => pattern.var.toList
  | elements => elements.tail.filterMap PathElement.var?

/-- The variables that the paths of a match add to those that are known. -/
def Cypher.Statement.matched (s : Statement) : List String :=
  s.paths.flatMap Path.matched

variable {registry : Registry} {levels : Nat} {var : String} {model target : EntityType}
  {rel : Relationship} {walk walk' : List Relationship} {plan : CascadePlan}

/-- A walk that goes on has the text of the rest behind the name of its first relationship. -/
theorem walkText_cons (hwalk : walk ≠ []) :
    walkText (rel :: walk) = identifierPart rel.name ++ "_node_" ++ walkText walk := by
  obtain ⟨next, rest, rfl⟩ := List.exists_cons_of_ne_nil hwalk
  rfl

/-- A variable behind the far end of an edge is one of the longer text. -/
theorem sideVar_nestedVar (name text : String) (side : Side) :
    sideVar (nestedVar var name .node) text side =
      sideVar var (identifierPart name ++ "_node_" ++ text) side := by
  simp only [sideVar, nestedVar, Side.word, ← String.toList_inj, String.toList_append]
  simp

/-- The last edge of a walk has the variables of the text of the walk. -/
theorem vars_of_clausesAlong (hwalk : walk ≠ []) :
    (clausesAlong registry var walk).getLast?.map CascadeClause.vars =
      some (textVars var (walkText walk)) := by
  induction walk generalizing var with
  | nil => exact absurd rfl hwalk
  | cons rel rest ih =>
    cases rest with
    | nil => rfl
    | cons next rest =>
      have hrest : next :: rest ≠ [] := List.cons_ne_nil next rest
      rw [walkText_cons hrest, textVars, ← sideVar_nestedVar, ← sideVar_nestedVar, ← textVars,
        ← ih hrest]
      rfl

/-- The clauses of a plan have the variables of the texts of the walks, in their order. -/
theorem vars_of_ofModel (h : CascadePlan.ofModel registry levels var (some model) = .ok plan) :
    plan.clauses.map CascadeClause.vars =
      ((cascadeWalks registry levels model).map walkText).map (textVars var) := by
  have hpaths := plan.map_getLast?_paths
  rw [paths_of_ofModel h, List.map_map] at hpaths
  have hvars := congrArg (List.map (Option.map CascadeClause.vars)) hpaths
  refine List.map_injective_iff.mpr (fun _ _ => Option.some.inj) ?_
  calc (plan.clauses.map CascadeClause.vars).map some
      = (plan.clauses.map some).map (Option.map CascadeClause.vars) := by
        rw [List.map_map, List.map_map]
        rfl
    _ = ((cascadeWalks registry levels model).map
          (List.getLast? ∘ clausesAlong registry var)).map (Option.map CascadeClause.vars) :=
        hvars.symm
    _ = (((cascadeWalks registry levels model).map walkText).map (textVars var)).map some := by
        rw [List.map_map, List.map_map, List.map_map]
        refine List.map_congr_left fun walk hwalk => vars_of_clausesAlong fun hnil => ?_
        exact nil_not_mem_cascadeWalks (hnil ▸ hwalk)

/-- A variable tells which text it was made from, and for which side. -/
theorem sideVar_inj {text text' : String} {side side' : Side}
    (h : sideVar var text side = sideVar var text' side') : text = text' ∧ side = side' := by
  simp only [sideVar, String.append_assoc, String.append_right_inj] at h
  have hside : side = side' := by
    -- The words of the two sides end in different characters.
    have hlast := congrArg (fun s : String => s.toList.getLast?) h
    cases side <;> cases side' <;> first | rfl | simp [Side.word] at hlast
  subst hside
  simpa [← String.toList_inj] using h

/-- The variable of the root is not that of an edge, nor of what an edge leads to. -/
theorem var_ne_sideVar (text : String) (side : Side) : var ≠ sideVar var text side := by
  intro h
  have hlength := congrArg String.length h
  simp only [sideVar, String.length_append] at hlength
  have hunderscore : "_".length = 1 := rfl
  omega

/-- The variables of texts are distinct exactly if the texts are. -/
theorem textVars_nodup_iff {texts : List String} :
    (var :: (texts.map (textVars var)).flatMap fun pair => [pair.1, pair.2]).Nodup ↔
      texts.Nodup := by
  rw [List.nodup_cons, List.flatMap_map, List.nodup_flatMap]
  have hroot : var ∉ texts.flatMap fun text => [(textVars var text).1, (textVars var text).2] := by
    intro hmem
    obtain ⟨text, -, hvar⟩ := List.mem_flatMap.mp hmem
    rcases List.mem_pair.mp hvar with hvar | hvar
    · exact var_ne_sideVar text _ hvar
    · exact var_ne_sideVar text _ hvar
  have hpair : ∀ text ∈ texts, [(textVars var text).1, (textVars var text).2].Nodup := by
    intro text _
    rw [List.nodup_cons]
    refine ⟨fun hmem => ?_, List.nodup_singleton _⟩
    cases (sideVar_inj (List.mem_singleton.mp hmem)).2
  have hdisjoint : ∀ text text' : String, Function.onFun List.Disjoint
      (fun text => [(textVars var text).1, (textVars var text).2]) text text' ↔ text ≠ text' := by
    intro text text'
    constructor
    · rintro h rfl
      exact h List.mem_cons_self List.mem_cons_self
    · intro hne name hname hname'
      rcases List.mem_pair.mp hname with rfl | rfl
      all_goals rcases List.mem_pair.mp hname' with h | h
      all_goals exact hne (sideVar_inj h).1
  rw [List.Pairwise.iff hdisjoint]
  exact ⟨fun h => h.2.2, fun h => ⟨hroot, hpair, h⟩⟩

/-- The texts of the walks that are listed are distinct if the walks are told apart by them. -/
theorem map_walkText_nodup_iff :
    ((cascadeWalks registry levels model).map walkText).Nodup ↔
      TextsDistinct registry levels model := by
  have hwalks : (cascadeWalks registry levels model).Nodup :=
    cascadeWalks_names_nodup.of_map _
  rw [List.nodup_map_iff_inj_on hwalks]
  simp only [mem_cascadeWalks, and_imp]
  constructor
  · intro h walk walk' hwalk hlength hwalk' hlength'
    exact h walk hwalk hlength walk' hwalk' hlength'
  · intro h walk hwalk hlength walk' hwalk' hlength'
    exact h walk walk' hwalk hlength hwalk' hlength'

section

variable (h : CascadePlan.ofModel registry levels var (some model) = .ok plan)

include h

/-- The variables of a plan are distinct exactly if the walks are told apart by their texts. -/
theorem vars_nodup_iff : plan.vars.Nodup ↔ TextsDistinct registry levels model := by
  have hvars : plan.vars = plan.var ::
      (plan.clauses.map CascadeClause.vars).flatMap fun pair => [pair.1, pair.2] := by
    rw [List.flatMap_map]
    rfl
  rw [hvars, vars_of_ofModel h, (var_of_ofModel h).1, textVars_nodup_iff, map_walkText_nodup_iff]

/-- The far ends of the clauses have the variables of the texts of the walks. -/
theorem nodes_of_ofModel : plan.clauses.map CascadeClause.node =
    ((cascadeWalks registry levels model).map walkText).map fun text => sideVar var text .node := by
  have hsecond := congrArg (List.map Prod.snd) (vars_of_ofModel h)
  rw [List.map_map, List.map_map] at hsecond
  exact hsecond

/-- No entity is deleted under two variables, or twice under one, exactly if the walks are told
apart by their texts. -/
theorem deleted_nodup_iff :
    (plan.descendants ++ [plan.var]).Nodup ↔ TextsDistinct registry levels model := by
  have hinjective : Function.Injective fun text => sideVar var text .node :=
    fun _ _ heq => (sideVar_inj heq).1
  have hroot : var ∉ ((cascadeWalks registry levels model).map walkText).map
      fun text => sideVar var text .node := by
    intro hmem
    obtain ⟨text, -, heq⟩ := List.mem_map.mp hmem
    exact var_ne_sideVar text _ heq.symm
  rw [plan.descendants_eq, nodes_of_ofModel h, (var_of_ofModel h).1,
    (List.perm_append_singleton _ _).nodup_iff, List.nodup_cons, List.nodup_map_iff hinjective,
    map_walkText_nodup_iff]
  exact and_iff_right hroot

end

/-- What stands before a separator is no longer than what stands before another one, if it holds
none itself. -/
theorem length_le_of_append_separator {front front' rest rest' : List Char}
    (hnone : ¬ "_node_".toList.IsInfix (front' ++ ['_']))
    (h : front ++ ("_node_".toList ++ rest) = front' ++ ("_node_".toList ++ rest')) :
    front'.length ≤ front.length := by
  by_contra hlonger
  obtain ⟨more, rfl⟩ : ∃ more, front' = front ++ more := by
    have hprefix : front.IsPrefix front' :=
      List.prefix_of_prefix_length_le (h ▸ List.prefix_append _ _) (List.prefix_append _ _)
        (by omega)
    obtain ⟨more, hmore⟩ := hprefix
    exact ⟨more, hmore.symm⟩
  rw [List.append_assoc, List.append_cancel_left_eq] at h
  have hword : "_node_".toList = ['_', 'n', 'o', 'd', 'e', '_'] := rfl
  rw [hword] at h hnone
  simp only [List.cons_append, List.nil_append] at h
  -- No proper end of the separator begins it, but for the last underscore.
  match more with
  | [] => simp at hlonger
  | [a] => simp at h
  | [a, b] => simp at h
  | [a, b, c] => simp at h
  | [a, b, c, d] => simp at h
  | [a, b, c, d, e] =>
    simp only [List.cons_append, List.nil_append, List.cons.injEq] at h
    obtain ⟨rfl, rfl, rfl, rfl, rfl, -⟩ := h
    exact hnone ⟨front, [], by simp⟩
  | a :: b :: c :: d :: e :: f :: last =>
    simp only [List.cons_append, List.cons.injEq] at h
    obtain ⟨rfl, rfl, rfl, rfl, rfl, rfl, -⟩ := h
    exact hnone ⟨front, last ++ ['_'], by simp⟩

/-- Texts that hold no separator are told apart by what they begin. -/
theorem append_separator_inj {front front' rest rest' : List Char}
    (hnone : ¬ "_node_".toList.IsInfix (front ++ ['_']))
    (hnone' : ¬ "_node_".toList.IsInfix (front' ++ ['_']))
    (h : front ++ ("_node_".toList ++ rest) = front' ++ ("_node_".toList ++ rest')) :
    front = front' ∧ rest = rest' := by
  have hlength := Nat.le_antisymm (length_le_of_append_separator hnone h.symm)
    (length_le_of_append_separator hnone' h)
  obtain ⟨hfront, hrest⟩ := List.append_inj h hlength
  exact ⟨hfront, List.append_cancel_left hrest⟩

/-- A text that holds no separator is not one that does. -/
theorem ne_append_separator {front front' rest : List Char}
    (hnone : ¬ "_node_".toList.IsInfix (front ++ ['_'])) :
    front ≠ front' ++ ("_node_".toList ++ rest) := by
  rintro rfl
  exact hnone ⟨front', rest ++ ['_'], by simp⟩

/-- A walk that goes on has the characters of the rest behind those of its first name and a
separator. -/
theorem toList_walkText_cons (hwalk : walk ≠ []) :
    (walkText (rel :: walk)).toList =
      (identifierPart rel.name).toList ++ ("_node_".toList ++ (walkText walk).toList) := by
  rw [walkText_cons hwalk, String.toList_append, String.toList_append, List.append_assoc]

/-- No walk is empty. -/
theorem DeleteWalk.ne_nil (h : DeleteWalk registry model walk) : walk ≠ [] := by
  rintro rfl
  cases h

/-- Of the relationships of a type, only one is reduced to a name. -/
theorem NamesApart.eq_of_reduced (h : NamesApart registry model) {other : Relationship}
    (hrel : rel ∈ model.cascading) (hother : other ∈ model.cascading)
    (hreduced : identifierPart rel.name = identifierPart other.name) : rel = other :=
  List.inj_on_of_nodup_map (h model (.inl rfl)).1 hrel hother hreduced

/-- A name does not read like a walk that goes on. -/
theorem NamesApart.walkText_ne (h : NamesApart registry model) {other : Relationship}
    (hrel : rel ∈ model.cascading) (hwalk : walk ≠ []) :
    walkText [rel] ≠ walkText (other :: walk) := by
  intro htext
  have hseparated := (congrArg String.toList htext).trans (toList_walkText_cons hwalk)
  exact ne_append_separator ((h model (.inl rfl)).2 rel hrel) hseparated

/-- Names are apart on the types that relationships lead to. -/
theorem NamesApart.of_target (h : NamesApart registry model)
    (htarget : registry.target? rel = some target) : NamesApart registry target := by
  intro owner howner
  refine h owner (.inr ?_)
  rcases howner with rfl | howner
  · exact mem_models_of_target? htarget
  · exact howner

/-- Walks along names that are apart are told apart by their texts. -/
theorem eq_of_walkText (h : NamesApart registry model) (hwalk : DeleteWalk registry model walk)
    (hwalk' : DeleteWalk registry model walk') (htext : walkText walk = walkText walk') :
    walk = walk' := by
  induction hwalk generalizing walk' with
  | @last model rel hrel =>
    cases hwalk' with
    | last hother => rw [h.eq_of_reduced hrel hother htext]
    | step _ _ hrest => exact absurd htext (h.walkText_ne hrel hrest.ne_nil)
  | @step model target rel rest hrel htarget hrest ih =>
    cases hwalk' with
    | last hother => exact absurd htext.symm (h.walkText_ne hother hrest.ne_nil)
    | @step _ target' other rest' hother htarget' hrest' =>
      have hchars := congrArg String.toList htext
      rw [toList_walkText_cons hrest.ne_nil, toList_walkText_cons hrest'.ne_nil] at hchars
      obtain ⟨hreduced, htail⟩ := append_separator_inj ((h model (.inl rfl)).2 rel hrel)
        ((h model (.inl rfl)).2 other hother) hchars
      obtain rfl := h.eq_of_reduced hrel hother (String.toList_inj.mp hreduced)
      obtain rfl : target = target' := Option.some.inj (htarget.symm.trans htarget')
      rw [ih (h.of_target htarget) hrest' (String.toList_inj.mp htail)]

/-- Where names are apart, the walks are told apart by their texts. -/
theorem textsDistinct_of_namesApart (h : NamesApart registry model) :
    TextsDistinct registry levels model :=
  fun _ _ hwalk _ hwalk' _ htext => eq_of_walkText h hwalk hwalk' htext

/-- A clause adds its variables to those that are known. -/
theorem matched_clause {clause : CascadeClause} (hnode : clause.node ≠ "") :
    clause.statement.matched = [clause.var, clause.node] := by
  simp [CascadeClause.statement, pathStatement, Statement.matched, Path.matched, PathElement.var?,
    entityPattern, hnode]

/-- The statement of the root adds its variable. -/
theorem matched_rootStatement {param : String} (hvar : plan.var ≠ "") :
    (plan.rootStatement param).matched = [plan.var] := by
  simp [CascadePlan.rootStatement, Draft.addPredicate, pathStatement, Statement.matched,
    Path.matched, entityPattern, hvar]

/-- What an edge leads to has a variable. -/
theorem node_ne_empty (h : CascadePlan.ofModel registry levels var (some model) = .ok plan)
    {clause : CascadeClause} (hclause : clause ∈ plan.clauses) : clause.node ≠ "" := by
  have hnode : clause.node ∈ plan.clauses.map CascadeClause.node := List.mem_map_of_mem hclause
  rw [nodes_of_ofModel h] at hnode
  obtain ⟨text, -, hnode⟩ := List.mem_map.mp hnode
  intro hempty
  have hlength := congrArg String.length (hnode.trans hempty)
  simp only [sideVar, String.length_append] at hlength
  have hunderscore : "_".length = 1 := rfl
  have hnone : "".length = 0 := rfl
  omega

/-- The statements of a delete add the variables of the plan, in their order, and delete the
entities that are matched and then the root. -/
theorem matched_of_drafted {identity : Identity} {draft : Draft} (hvar : plan.var ≠ "")
    (hnodes : ∀ clause ∈ plan.clauses, clause.node ≠ "") (h : plan.Drafted identity draft) :
    draft.statements.flatMap Statement.matched = plan.vars ∧
      draft.statements.flatMap Statement.detachDelete = plan.descendants ++ [plan.var] := by
  obtain ⟨param, front, last, -, hall, hstatements, hnone⟩ := h.statements
  constructor
  · -- Which variables a match adds does not depend on what it deletes.
    have hsame : draft.statements.flatMap Statement.matched =
        (front ++ [last]).flatMap Statement.matched := by
      rw [hstatements, List.flatMap_append, List.flatMap_append]
      rfl
    have hclauses : (plan.clauses.map CascadeClause.statement).flatMap Statement.matched =
        plan.clauses.flatMap fun clause => [clause.var, clause.node] := by
      rw [List.flatMap_map, List.flatMap_def, List.flatMap_def]
      exact congrArg List.flatten
        (List.map_congr_left fun clause hclause => matched_clause (hnodes clause hclause))
    rw [hsame, ← hall, List.flatMap_cons, matched_rootStatement hvar, hclauses]
    rfl
  · have hfront : front.flatMap Statement.detachDelete = [] :=
      List.flatMap_eq_nil_iff.mpr fun s hs => (hnone s hs).2
    rw [hstatements, List.flatMap_append, hfront, plan.descendants_eq]
    simp

/-- When the variables of a delete are distinct. The statements of a plan add its variables one
after the other, and delete every entity of it by its variable. No statement adds a variable that
another one has added, exactly if the walks within the limit are told apart by their texts; and so
it is with entities that are named twice in the delete. Walks are told apart wherever names are. -/
theorem cascade_vars_distinct_iff {identity : Identity} {draft : Draft}
    (hvar : isIdentifier var.toList)
    (hplan : CascadePlan.ofModel registry levels var (some model) = .ok plan)
    (hdraft : Draft.run {} (plan.steps identity) = .ok draft) :
    draft.statements.flatMap Statement.matched = plan.vars ∧
    draft.statements.flatMap Statement.detachDelete = plan.descendants ++ [plan.var] ∧
    (plan.vars.Nodup ↔ TextsDistinct registry levels model) ∧
    ((plan.descendants ++ [plan.var]).Nodup ↔ TextsDistinct registry levels model) ∧
    (NamesApart registry model → TextsDistinct registry levels model) := by
  have hroot : plan.var ≠ "" := by
    rw [(var_of_ofModel hplan).1]
    rintro rfl
    cases hvar
  obtain ⟨found, hfound, hdrafted⟩ := exists_draft_of_steps plan identity
  obtain rfl : found = draft := Except.ok.inj (hfound.symm.trans hdraft)
  obtain ⟨hmatched, hdeleted⟩ :=
    matched_of_drafted hroot (fun clause => node_ne_empty hplan) hdrafted
  exact ⟨hmatched, hdeleted, vars_nodup_iff hplan, deleted_nodup_iff hplan,
    textsDistinct_of_namesApart⟩

/-- A type of nodes with relationships of the given names to posts, which go with their owner. -/
def ownerOfPosts (name : String) (keys : List String) (hkeys : keys.Nodup) : EntityType where
  name := name
  labels := [name]
  properties := []
  relationships := keys.map fun key =>
    { name := key, shape := .nodes, type := "WROTE", direction := .outgoing,
      target := .model "Post", cascade := .delete }
  labels_ne_nil := by simp
  labels_ascending := by simp
  properties_nodup := List.nodup_nil
  relationships_nodup := by
    rw [List.map_map]
    exact hkeys.map fun _ _ h => h
  keys_disjoint := by simp
  primary_le_one := by decide

/-- Blogs, whose posts are under the given keys. -/
def blogs (keys : List String) (hkeys : keys.Nodup) : Registry :=
  ⟨[ownerOfPosts "Post" ["replies"] (by decide), ownerOfPosts "Blog" keys hkeys], by
    simp [ownerOfPosts]⟩

/-- The variables of the delete of a blog and of its posts, with their replies, are distinct. -/
theorem blog_vars_distinct :
    ∃ plan draft,
      isIdentifier "this".toList ∧
      CascadePlan.ofModel (blogs ["drafts", "posts"] (by decide)) 2 "this"
        (some (ownerOfPosts "Blog" ["drafts", "posts"] (by decide))) = .ok plan ∧
      Draft.run {} (plan.steps 7) = .ok draft ∧
      draft.statements.flatMap Statement.matched = plan.vars ∧
      draft.statements.flatMap Statement.detachDelete = plan.descendants ++ [plan.var] ∧
      plan.descendants = ["this_drafts_node", "this_drafts_node_replies_node", "this_posts_node",
        "this_posts_node_replies_node"] ∧
      plan.vars.Nodup ∧
      TextsDistinct (blogs ["drafts", "posts"] (by decide)) 2
        (ownerOfPosts "Blog" ["drafts", "posts"] (by decide)) := by
  have hvar : isIdentifier "this".toList := rfl
  have hplan : ∃ plan, CascadePlan.ofModel (blogs ["drafts", "posts"] (by decide)) 2 "this"
      (some (ownerOfPosts "Blog" ["drafts", "posts"] (by decide))) = .ok plan ∧
      plan.descendants = ["this_drafts_node", "this_drafts_node_replies_node", "this_posts_node",
        "this_posts_node_replies_node"] ∧ plan.vars.Nodup :=
    ⟨_, rfl, rfl, by decide⟩
  obtain ⟨plan, hplan, hdescendants, hnodup⟩ := hplan
  obtain ⟨draft, hdraft, -⟩ := exists_draft_of_steps plan 7
  obtain ⟨hmatched, hdeleted, hiff, -, -⟩ := cascade_vars_distinct_iff hvar hplan hdraft
  exact ⟨plan, draft, hvar, hplan, hdraft, hmatched, hdeleted, hdescendants, hnodup,
    hiff.mp hnodup⟩

/-- Two keys of a blog that are reduced to the same name share their variables: the second clause
matches what the first has matched, and the posts that are under the second key alone are not
deleted. -/
theorem draft_posts_share_var :
    ∃ plan,
      isIdentifier "this".toList ∧
      CascadePlan.ofModel (blogs ["draft posts", "draft_posts"] (by decide)) 1 "this"
        (some (ownerOfPosts "Blog" ["draft posts", "draft_posts"] (by decide))) = .ok plan ∧
      plan.vars = ["this", "this_draft_posts_rel", "this_draft_posts_node", "this_draft_posts_rel",
        "this_draft_posts_node"] ∧
      ¬plan.vars.Nodup ∧ ¬(plan.descendants ++ [plan.var]).Nodup :=
  ⟨_, rfl, rfl, rfl, by decide, by decide⟩

end GraphMapper

import Mathlib.Data.List.Induction
import Mathlib.Data.List.Nodup
import GraphMapper.Proofs.Hydration
import GraphMapper.Proofs.Schema.Registration

/-!
# Types and their labels

A node that is loaded without being told its type is given the one that its labels have. Their order
does not count, nor how often they are listed, for a type keeps them as a set
(`EntityType.hasLabels_iff`). Of several types with the same labels the one that was registered
first is found, so that exactly the types that are the first with their labels are identified by
them (`Registry.identifies_iff`), and then a node is loaded as if its type had been given.

Registering a type looks at its name alone. Whether a registry keeps its types apart by their labels
therefore depends on the calls that were made: a type that is added must bring labels that none of
the others has (`labelsApart_of_appends`, and for all calls `labelsApart_reached`), which an
extension by a label that its parent has already does not (`not_identifies_of_extends`). Two cards
that are labelled alike are the simplest registry where one type is taken for the other
(`bankCard_loaded_as_badge`), and what the one hides is shown.
-/

namespace GraphMapper

open Hydration

/-! ## Lists of the same labels -/

/-- Two lists have the same labels, in any order and with repetitions. -/
def SameLabels (labels others : List String) : Prop :=
  ∀ label, label ∈ labels ↔ label ∈ others

/-- Two ascending lists of the same labels are equal. -/
theorem SameLabels.eq_of_ascending {labels others : List String} (h : SameLabels labels others)
    (hlabels : labels.Pairwise (· < ·)) (hothers : others.Pairwise (· < ·)) : labels = others := by
  have hnodup {list : List String} (hlist : list.Pairwise (· < ·)) : list.Nodup :=
    hlist.imp String.ne_of_lt
  have hperm := (List.perm_ext_iff_of_nodup (hnodup hlabels) (hnodup hothers)).mpr h
  exact hperm.eq_of_pairwise (fun _ _ _ _ hab hba => absurd hba (String.lt_asymm hab)) hlabels
    hothers

/-- A list of labels is that of a type if it has the same labels. -/
theorem EntityType.hasLabels_iff {model : EntityType} {labels : List String} :
    model.hasLabels labels ↔ SameLabels labels model.labels := by
  have hset : SameLabels (labelSet labels) labels := fun label => mem_labelSet
  rw [EntityType.hasLabels, decide_eq_true_iff]
  constructor
  · intro heq label
    rw [← heq, hset]
  · intro h
    have hsame : SameLabels (labelSet labels) model.labels := fun label =>
      (hset label).trans (h label)
    exact hsame.eq_of_ascending (labelSet_ascending labels) model.labels_ascending

/-! ## What identifies a type -/

/-- The value is a node with the labels of the type, as the database hands it out or as it was
projected. -/
inductive Value.IsNodeOf (model : EntityType) : Value → Prop
  | stored {labels : List String} (h : SameLabels labels model.labels) (identity : Identity)
      (properties : Bag) : IsNodeOf model (.node identity labels properties)
  | projected {entries : Bag} {identity : Identity} {labels : List String}
      (hidentity : HasIdentity entries identity) (hlabels : HasLabels entries labels)
      (h : SameLabels labels model.labels) : IsNodeOf model (.map entries)

/-- The labels of a type are enough to find it, and to load its nodes. -/
structure Registry.Identifies (registry : Registry) (model : EntityType) : Prop where
  found : ∀ labels, SameLabels labels model.labels → registry.byLabels? labels = some model
  /-- A node of the type is loaded as if the type had been given. -/
  loaded : ∀ limit depth value, value.IsNodeOf model →
    Node.ofValue registry limit depth none value =
      Node.ofValue registry limit depth (some model) value
  typed : ∀ limit depth value node, value.IsNodeOf model →
    Node.ofValue registry limit depth none value = .ok node → node.model = model
  /-- A node that the database hands out is loaded. -/
  stored : ∀ limit depth identity labels properties, SameLabels labels model.labels →
    ∃ node, Node.ofValue registry limit depth none (.node identity labels properties) = .ok node
  /-- So is whatever has the shape of the projection of the type and carries its labels. -/
  projected : ∀ limit var projection value,
    Projection.ofModel registry (Projection.levels limit 1) var (some model) = .ok projection →
    projection.Shaped registry value → value.IsNodeOf model →
    ∃ node, Node.ofValue registry limit 1 none value = .ok node ∧
      projection.Mirrors registry (some model) value node

/-- No type that was registered before has the labels of the type. -/
def Registry.IsFirst (registry : Registry) (model : EntityType) : Prop :=
  ∃ before after, registry.models = before ++ model :: after ∧
    ∀ other ∈ before, other.labels ≠ model.labels

section

variable {registry changed : Registry} {model : EntityType}

/-- A type is found by the lists of its labels if it is the first that has them. -/
theorem Registry.byLabels?_eq_some_iff {labels : List String} :
    registry.byLabels? labels = some model ↔
      SameLabels labels model.labels ∧ registry.IsFirst model := by
  rw [Registry.byLabels?, List.find?_eq_some_iff_append, EntityType.hasLabels_iff]
  refine and_congr_right fun hsame => ?_
  -- A type that does not match the list has other labels than the one that does.
  have hother (other : EntityType) :
      (!other.hasLabels labels) = true ↔ other.labels ≠ model.labels := by
    rw [Bool.not_eq_true', ← Bool.not_eq_true, EntityType.hasLabels_iff]
    refine not_congr ⟨fun h => ?_, fun heq => heq ▸ hsame⟩
    have hlabels : SameLabels other.labels model.labels := fun label =>
      (h label).symm.trans (hsame label)
    exact hlabels.eq_of_ascending other.labels_ascending model.labels_ascending
  simp only [Registry.IsFirst, hother]

/-- A type that is found by the labels of a node is the one the node is read with. -/
theorem readSource_of_isNodeOf (hfirst : registry.IsFirst model) {value : Value}
    (hvalue : value.IsNodeOf model) :
    readSource registry none value = readSource registry (some model) value := by
  cases hvalue with
  | stored hsame identity properties =>
    have hfound := Registry.byLabels?_eq_some_iff.mpr ⟨hsame, hfirst⟩
    simp only [readSource, modelOf, hfound]
  | projected hidentity hlabels hsame =>
    have hfound := Registry.byLabels?_eq_some_iff.mpr ⟨hsame, hfirst⟩
    simp only [readSource, projectedIdentity_of_hasIdentity hidentity,
      projectedLabels_of_hasLabels hlabels, modelOf, hfound]

/-- What is read with a type is a node of that type. -/
theorem model_of_readSource {value : Value} {source : Source}
    (h : readSource registry (some model) value = .ok source) : source.model = model := by
  unfold readSource at h
  split at h
  · obtain ⟨identity, -, h⟩ := bind_eq_ok.mp h
    cases h
    rfl
  · cases h
    rfl
  · cases h

/-- What is loaded with a type is a node of that type. -/
theorem model_of_node {levels : Nat} {typed : Bool} {value : Value} {loaded : Node}
    (h : Hydration.node registry levels typed (some model) value = .ok loaded) :
    loaded.model = model := by
  cases levels with
  | zero =>
    obtain ⟨source, hsource, h⟩ := bind_eq_ok.mp h
    cases h
    exact model_of_readSource hsource
  | succ levels =>
    obtain ⟨source, hsource, h⟩ := bind_eq_ok.mp h
    have hmodel := model_of_readSource hsource
    split at h
    · obtain ⟨fields, -, h⟩ := bind_eq_ok.mp h
      cases h
      exact hmodel
    · cases h
      exact hmodel

/-- A node is loaded with the type that its labels identify. -/
theorem ofValue_of_isNodeOf (hfirst : registry.IsFirst model) {value : Value}
    (hvalue : value.IsNodeOf model) (limit depth : Nat) :
    Node.ofValue registry limit depth none value =
      Node.ofValue registry limit depth (some model) value := by
  have hread := readSource_of_isNodeOf hfirst hvalue
  unfold Node.ofValue
  cases Projection.levels limit depth with
  | zero => rw [Hydration.node, Hydration.node, hread]
  | succ levels => rw [Hydration.node, Hydration.node, hread]

/-- The types that are identified by their labels are those that are the first with them. -/
theorem Registry.identifies_iff : registry.Identifies model ↔ registry.IsFirst model := by
  constructor
  · intro h
    have hfound := h.found model.labels fun _ => Iff.rfl
    exact (Registry.byLabels?_eq_some_iff.mp hfound).2
  · intro hfirst
    constructor
    case found => exact fun labels hsame => Registry.byLabels?_eq_some_iff.mpr ⟨hsame, hfirst⟩
    case loaded =>
      exact fun limit depth value hvalue => ofValue_of_isNodeOf hfirst hvalue limit depth
    case typed =>
      intro limit depth value node hvalue hnode
      rw [ofValue_of_isNodeOf hfirst hvalue] at hnode
      exact model_of_node hnode
    case stored =>
      intro limit depth identity labels properties hsame
      rw [ofValue_of_isNodeOf hfirst (.stored hsame identity properties)]
      unfold Node.ofValue
      cases Projection.levels limit depth with
      | zero => exact ⟨_, rfl⟩
      | succ levels => exact ⟨_, rfl⟩
    case projected =>
      intro limit var projection value hprojection hshaped hvalue
      rw [ofValue_of_isNodeOf hfirst hvalue]
      exact ofValue_mirrors hprojection hshaped

/-! ## Registries that keep their types apart -/

/-- No two types have the same labels. -/
def Registry.LabelsApart (registry : Registry) : Prop :=
  (registry.models.map EntityType.labels).Nodup

/-- The labels of a type are those of no type that is there. -/
def Registry.FreeLabels (registry : Registry) (model : EntityType) : Prop :=
  ∀ other ∈ registry.models, other.labels ≠ model.labels

/-- All types are identified by their labels if no two of them have the same. -/
theorem Registry.forall_identifies_iff :
    (∀ model ∈ registry.models, registry.Identifies model) ↔ registry.LabelsApart := by
  have hnodup : registry.models.Nodup := List.Nodup.of_map EntityType.name registry.names_nodup
  rw [Registry.LabelsApart, List.nodup_iff_pairwise_ne, List.pairwise_map]
  constructor
  · intro h
    refine List.Pairwise.imp_of_mem (fun {a b} ha hb hne heq => ?_) hnodup
    -- Both are found by the same labels.
    have hfirst : registry.byLabels? a.labels = some a := (h a ha).found _ fun _ => Iff.rfl
    have hsecond : registry.byLabels? a.labels = some b := (h b hb).found _ fun _ => heq ▸ Iff.rfl
    exact hne (Option.some.inj (hfirst.symm.trans hsecond))
  · intro h model hmodel
    obtain ⟨before, after, hmodels⟩ := List.append_of_mem hmodel
    rw [hmodels, List.pairwise_append] at h
    exact Registry.identifies_iff.mpr
      ⟨before, after, hmodels, fun other hother => h.2.2 other hother model List.mem_cons_self⟩

/-- A registry with one more type keeps its types apart if the labels of that one are new. -/
theorem labelsApart_of_appends (h : registry.Appends model changed) :
    changed.LabelsApart ↔ registry.LabelsApart ∧ registry.FreeLabels model := by
  rw [Registry.LabelsApart, h.models, List.map_append, List.map_singleton, List.nodup_append]
  simp [Registry.LabelsApart, Registry.FreeLabels]

/-- An extension by a label that its parent has already is taken for the parent. -/
theorem not_identifies_of_extends {base : EntityType} {label : String} {additions : List Addition}
    (hbase : base ∈ registry.models) (hlabel : label ∈ base.labels)
    (hextends : base.Extends label additions model) (happends : registry.Appends model changed) :
    ¬ changed.Identifies model := by
  intro h
  have hsame : SameLabels base.labels model.labels := by
    intro other
    rw [hextends.labels, or_iff_left_of_imp]
    rintro rfl
    exact hlabel
  have hfound : changed.byLabels? base.labels = some model := h.found _ hsame
  -- The parent comes first, so that the type would be one of those that were there.
  have hbefore : (registry.models.find? fun other => other.hasLabels base.labels).isSome :=
    List.find?_isSome.mpr ⟨base, hbase, EntityType.hasLabels_iff.mpr fun _ => Iff.rfl⟩
  obtain ⟨other, hother⟩ := Option.isSome_iff_exists.mp hbefore
  rw [Registry.byLabels?, happends.models, List.find?_append, hother, Option.some_or,
    Option.some.injEq] at hfound
  have hmem : model ∈ registry.models := hfound ▸ List.mem_of_find?_eq_some hother
  exact NamedList.find?_eq_none.mp happends.free (List.mem_map_of_mem hmem)

/-- The types that a call adds to a registry have labels of their own. -/
def RegistryCall.BringsLabels (registry : Registry) : RegistryCall → Prop
  | .register draft => ∀ model, draft.build = .ok model → registry.FreeLabels model
  | .extend parent name label additions => ∀ base model, registry.find? parent = some base →
      (additions (base.extend name label)).build = .ok model → registry.FreeLabels model
  | .load document => ∀ changed, document.toRegistry = .ok changed → changed.LabelsApart

/-- A call that brings labels of its own keeps the types apart. -/
theorem labelsApart_after {call : RegistryCall} (hcall : call.BringsLabels registry)
    (h : registry.LabelsApart) : (call.after registry).LabelsApart := by
  unfold RegistryCall.after
  split
  · next changed hchanged =>
    cases call with
    | register draft =>
      obtain ⟨model, hbuild, hregister⟩ := bind_eq_ok.mp hchanged
      have happends := Registry.register_eq_ok.mp hregister
      exact (labelsApart_of_appends happends).mpr ⟨h, hcall model hbuild⟩
    | extend parent name label additions =>
      obtain ⟨base, model, hbase, hbuild, happends⟩ := Registry.extend_eq_ok.mp hchanged
      exact (labelsApart_of_appends happends).mpr ⟨h, hcall base model hbase hbuild⟩
    | load document => exact hcall changed hchanged
  · exact h

/-- Calls that each bring labels of their own keep the types apart. -/
theorem labelsApart_reached {calls : List RegistryCall}
    (h : ∀ before call after, calls = before ++ call :: after →
      call.BringsLabels (Registry.reached before)) : (Registry.reached calls).LabelsApart := by
  -- The induction is on the calls from the last one on.
  induction calls using List.reverseRecOn with
  | nil => exact List.nodup_nil
  | append_singleton before call ih =>
    have hreached : Registry.reached (before ++ [call]) = call.after (Registry.reached before) := by
      rw [Registry.reached, List.foldl_append]
      rfl
    rw [hreached]
    refine labelsApart_after (h before call [] rfl) (ih fun first other rest hbefore => ?_)
    exact h first other (rest ++ [call]) (by rw [hbefore, List.append_assoc, List.cons_append])

end

/-- **Labels identify the first type that has them.** Whatever calls were made, a type in the
registry is found by every list of its labels, and its nodes are loaded as nodes of it, exactly if no
type that was registered before has the same labels. So all types are identified exactly if no two
of them have the same labels, which is so as long as every call brings labels of its own. -/
theorem identified_by_labels (calls : List RegistryCall) :
    let registry := Registry.reached calls
    (∀ model ∈ registry.models, registry.Identifies model ↔ registry.IsFirst model) ∧
    ((∀ model ∈ registry.models, registry.Identifies model) ↔ registry.LabelsApart) ∧
    ((∀ before call after, calls = before ++ call :: after →
      call.BringsLabels (Registry.reached before)) → registry.LabelsApart) :=
  ⟨fun _ _ => Registry.identifies_iff, Registry.forall_identifies_iff, labelsApart_reached⟩

/-- A person has an address. -/
def personDraft : EntityDraft where
  name := "Person"
  properties := [{ name := "email", type := .string }]
  relationships := []
  relationships_nodup := List.nodup_nil

/-- Persons are registered, and administrators are persons with one more label. -/
def staffCalls : List RegistryCall :=
  [.register personDraft,
    .extend "Person" "Admin" "Admin" (·.property { name := "level", type := .integer })]

/-- Persons and administrators are identified by their labels. -/
theorem staff_identified :
    (Registry.reached staffCalls).models.map EntityType.labels = [["Person"], ["Admin", "Person"]] ∧
      ∀ model ∈ (Registry.reached staffCalls).models,
        (Registry.reached staffCalls).Identifies model := by
  have hlabels : (Registry.reached staffCalls).models.map EntityType.labels =
      [["Person"], ["Admin", "Person"]] := rfl
  have hapart : (Registry.reached staffCalls).LabelsApart := by
    rw [Registry.LabelsApart, hlabels]
    decide
  exact ⟨hlabels, (identified_by_labels staffCalls).2.1.mpr hapart⟩

/-- A badge is a card with a number that anyone may see. -/
def badgeDraft : EntityDraft where
  name := "Badge"
  labels := ["Card"]
  properties := [{ name := "number", type := .string }]
  relationships := []
  relationships_nodup := List.nodup_nil

/-- A bank card is a card of a bank, whose number no result shows. -/
def bankCardDraft : EntityDraft where
  name := "BankCard"
  labels := ["Card"]
  properties := [{ name := "number", type := .string, hidden := true },
    { name := "bank", type := .string }]
  relationships := []
  relationships_nodup := List.nodup_nil

/-- Badges and bank cards are registered, which are labelled alike. -/
def cardCalls : List RegistryCall := [.register badgeDraft, .register bankCardDraft]

/-- A bank card is loaded as a badge, without its bank and with its hidden number. -/
theorem bankCard_loaded_as_badge :
    ∃ card ∈ (Registry.reached cardCalls).models, card.name = "BankCard" ∧
      card.hiddenKeys = ["number"] ∧ ¬ (Registry.reached cardCalls).Identifies card ∧
      ∃ node, Node.ofValue (Registry.reached cardCalls) 3 1 none
          (.node 7 card.labels [("bank", .string "Credit Union"), ("number", .string "4111")]) =
            .ok node ∧
        node.model.name = "Badge" ∧ node.properties = [("number", .string "4111")] := by
  refine ⟨_, List.mem_cons_of_mem _ List.mem_cons_self, rfl, rfl, fun h => ?_, _, rfl, rfl, rfl⟩
  have hfound := congrArg (Option.map EntityType.name) (h.found ["Card"] fun _ => Iff.rfl)
  have hbadge : ((Registry.reached cardCalls).byLabels? ["Card"]).map EntityType.name =
      some "Badge" := rfl
  have hnames : "Badge" = "BankCard" := Option.some.inj (hbadge.symm.trans hfound)
  exact absurd hnames (by decide)

end GraphMapper

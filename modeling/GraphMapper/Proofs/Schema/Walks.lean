import GraphMapper.Proofs.Schema.Declarations

/-!
# Walks over a schema

A walk goes from type to type: along a relationship of the type it begins at, then along one of the
registered type at its far end, and so on, each time along one of those that are chosen, such as the
eager ones or those along which a delete is carried on. Types may refer to each other in circles, so
that only a limit of length ends a walk.

The walks within a limit are listed in depth-first order, each of them once (`mem_walksWithin`,
`walksWithin_pairwise`, `walksWithin_names_nodup`). A relationship may lead to a type that is not
registered (`Registry.Misses`); whatever is built level by level along walks fails exactly where one
of them ends so (`Walk.not_misses`, `exists_walk_of_fails`).
-/

namespace GraphMapper

/-- The relationship leads to a type that is not registered. -/
def Registry.Misses (registry : Registry) (rel : Relationship) : Prop :=
  ∃ name, rel.target = .model name ∧ registry.find? name = none

/-- Depth-first order of walks: a walk comes before those that go on from where it ends, and of two
walks that part the one comes first whose relationship is declared first. -/
inductive Precedes (registry : Registry) :
    EntityType → List Relationship → List Relationship → Prop
  | shorter {model : EntityType} {rel : Relationship} {walk : List Relationship} :
    Precedes registry model [] (rel :: walk)
  | earlier {model : EntityType} {rel other : Relationship} {walk walk' : List Relationship}
    (declared : [rel, other].Sublist model.relationships) :
    Precedes registry model (rel :: walk) (other :: walk')
  | deeper {model target : EntityType} {rel : Relationship} {walk walk' : List Relationship}
    (registered : registry.target? rel = some target) (rest : Precedes registry target walk walk') :
    Precedes registry model (rel :: walk) (rel :: walk')

/-- The walks that begin with a relationship, if those from the type at its far end are given. -/
def walksAlong (registry : Registry) (below : EntityType → List (List Relationship))
    (rel : Relationship) : List (List Relationship) :=
  [rel] :: ((registry.target? rel).toList.flatMap below).map (rel :: ·)

/-- A row of relationships of those that `along` chooses: the first is one of the type, and each of
the others one of the registered type at the far end of the one before it. -/
inductive Walk (registry : Registry) (along : EntityType → List Relationship) :
    EntityType → List Relationship → Prop
  | last {model : EntityType} {rel : Relationship} (chosen : rel ∈ along model) :
    Walk registry along model [rel]
  | step {model target : EntityType} {rel : Relationship} {walk : List Relationship}
    (chosen : rel ∈ along model) (registered : registry.target? rel = some target)
    (rest : Walk registry along target walk) : Walk registry along model (rel :: walk)

/-- The walks of at most so many relationships. -/
def walksWithin (registry : Registry) (along : EntityType → List Relationship) :
    Nat → EntityType → List (List Relationship)
  | 0, _ => []
  | levels + 1, model =>
    (along model).flatMap (walksAlong registry (walksWithin registry along levels))

variable {registry : Registry} {along : EntityType → List Relationship} {levels : Nat}
  {model target : EntityType} {rel : Relationship} {walk walk' : List Relationship}

/-- The far end of a relationship is known unless it is a type that is not registered. -/
theorem target_eq_ok {found : Option EntityType} :
    registry.target rel = .ok found ↔ ¬registry.Misses rel ∧ registry.target? rel = found := by
  unfold Registry.target Registry.target? Registry.Misses Registry.model
  cases htarget : rel.target with
  | any => simp [Target.name?]
  | model name =>
    cases hfind : registry.find? name with
    | none => simp [Target.name?, hfind, Except.map]
    | some model => simp [Target.name?, hfind, Except.map]

/-- A relationship to a type that is not registered leads nowhere. -/
theorem misses_of_target_eq_error {e : SchemaError} (h : registry.target rel = .error e) :
    registry.Misses rel := by
  refine Classical.byContradiction fun hknown => ?_
  rw [target_eq_ok.mpr ⟨hknown, rfl⟩] at h
  cases h

/-- Where a walk is of several relationships, it goes on from the registered type at the far end of
the first. -/
theorem Walk.exists_target (h : Walk registry along model (rel :: walk)) (hmore : walk ≠ []) :
    ∃ target, rel ∈ along model ∧ registry.target? rel = some target ∧
      Walk registry along target walk := by
  cases h with
  | last => exact absurd rfl hmore
  | step hrel htarget hrest => exact ⟨_, hrel, htarget, hrest⟩

/-- The last relationship of a walk is one of the type that the walk begins at, or of a registered
one. -/
theorem Walk.exists_owner (h : Walk registry along model (walk ++ [rel])) :
    ∃ owner, (owner = model ∨ owner ∈ registry.models) ∧ rel ∈ along owner := by
  induction walk generalizing model with
  | nil =>
    cases h with
    | last hrel => exact ⟨model, .inl rfl, hrel⟩
    | step _ _ hrest => cases hrest
  | cons first rest ih =>
    obtain ⟨target, -, htarget, hrest⟩ := h.exists_target (by simp)
    obtain ⟨owner, howner, hrel⟩ := ih hrest
    refine ⟨owner, .inr ?_, hrel⟩
    rcases howner with rfl | howner
    · exact mem_models_of_target? htarget
    · exact howner

/-- No walk within a limit ends in a type that is not registered, if something holds of a type and a
limit only where no relationship of the type does, and holds of all far ends for one less. -/
theorem Walk.not_misses {holds : Nat → EntityType → Prop}
    (hstep : ∀ {levels model rel}, holds (levels + 1) model → rel ∈ along model →
      ¬registry.Misses rel ∧ ∀ target, registry.target? rel = some target → holds levels target)
    (h : holds levels model) (hwalk : Walk registry along model (walk ++ [rel]))
    (hlength : walk.length < levels) : ¬registry.Misses rel := by
  induction levels generalizing model walk with
  | zero => omega
  | succ levels ih =>
    cases walk with
    | nil =>
      cases hwalk with
      | last hrel => exact (hstep h hrel).1
      | step _ _ hrest => cases hrest
    | cons first rest =>
      obtain ⟨target, hfirst, htarget, hrest⟩ := hwalk.exists_target (by simp)
      exact ih ((hstep h hfirst).2 target htarget) hrest (by simpa using hlength)

/-- Some walk within a limit ends in a type that is not registered, if something fails of a type and
a limit, and this can only be because of such a relationship of the type, or because it fails of a
far end for one less. -/
theorem exists_walk_of_fails {fails : Nat → EntityType → Prop}
    {blames : EntityType → Relationship → Prop}
    (hstep : ∀ {levels model}, fails levels model → ∃ fewer rel, levels = fewer + 1 ∧
      rel ∈ along model ∧ (registry.Misses rel ∧ blames model rel ∨
        ∃ target, registry.target? rel = some target ∧ fails fewer target))
    (h : fails levels model) :
    ∃ (walk : List Relationship) (rel : Relationship) (owner : EntityType),
      Walk registry along model (walk ++ [rel]) ∧ walk.length < levels ∧ registry.Misses rel ∧
      rel ∈ along owner ∧ blames owner rel := by
  induction levels generalizing model with
  | zero =>
    obtain ⟨fewer, rel, hlevels, -⟩ := hstep h
    cases hlevels
  | succ levels ih =>
    obtain ⟨fewer, rel, hlevels, hrel, ⟨hmisses, hblames⟩ | ⟨target, htarget, hfails⟩⟩ := hstep h
    · exact ⟨[], rel, model, .last hrel, Nat.succ_pos levels, hmisses, hrel, hblames⟩
    · cases hlevels
      obtain ⟨walk, last, owner, hwalk, hlength, hlast⟩ := ih hfails
      exact ⟨rel :: walk, last, owner, .step hrel htarget hwalk, Nat.succ_lt_succ hlength, hlast⟩

section

variable {below : EntityType → List (List Relationship)}

/-- A walk that begins with a relationship ends there, or goes on from the type at its far end. -/
theorem mem_walksAlong :
    walk ∈ walksAlong registry below rel ↔
      walk = [rel] ∨ ∃ target rest, registry.target? rel = some target ∧ rest ∈ below target ∧
        walk = rel :: rest := by
  rw [walksAlong, List.mem_cons]
  cases registry.target? rel with
  | none => simp
  | some target => simp [eq_comm]

/-- The walks that begin with a relationship are in depth-first order if those from the type at its
far end are. -/
theorem walksAlong_pairwise (h : ∀ target, (below target).Pairwise (Precedes registry target))
    (hnonempty : ∀ target, [] ∉ below target) :
    (walksAlong registry below rel).Pairwise (Precedes registry model) := by
  unfold walksAlong
  cases htarget : registry.target? rel with
  | none => simp
  | some target =>
    simp only [Option.toList_some, List.flatMap_singleton, List.pairwise_cons, List.pairwise_map]
    refine ⟨fun walk hwalk => ?_, (h target).imp fun hrest => .deeper htarget hrest⟩
    obtain ⟨rest, hrest, rfl⟩ := List.mem_map.mp hwalk
    -- What goes on from the far end is not empty.
    cases rest with
    | nil => exact absurd hrest (hnonempty target)
    | cons next rest => exact .deeper htarget .shorter

end

/-- The walks within a limit are listed. -/
theorem mem_walksWithin :
    walk ∈ walksWithin registry along levels model ↔
      Walk registry along model walk ∧ walk.length ≤ levels := by
  induction levels generalizing model walk with
  | zero =>
    refine ⟨fun h => absurd h List.not_mem_nil, ?_⟩
    rintro ⟨hwalk, hlength⟩
    cases hwalk <;> simp at hlength
  | succ levels ih =>
    rw [walksWithin, List.mem_flatMap]
    constructor
    · rintro ⟨rel, hrel, hwalk⟩
      rcases mem_walksAlong.mp hwalk with rfl | ⟨target, rest, htarget, hrest, rfl⟩
      · exact ⟨.last hrel, by simp⟩
      · obtain ⟨hon, hlength⟩ := ih.mp hrest
        exact ⟨.step hrel htarget hon, by simpa using hlength⟩
    · rintro ⟨hwalk, hlength⟩
      cases hwalk with
      | last hrel => exact ⟨_, hrel, mem_walksAlong.mpr (.inl rfl)⟩
      | step hrel htarget hrest =>
        have hlisted := ih.mpr ⟨hrest, by simpa using hlength⟩
        exact ⟨_, hrel, mem_walksAlong.mpr (.inr ⟨_, _, htarget, hlisted, rfl⟩)⟩

/-- No walk is empty. -/
theorem nil_not_mem_walksWithin : [] ∉ walksWithin registry along levels model := by
  intro h
  cases (mem_walksWithin.mp h).1

/-- Walks along relationships that are chosen in the order of their declaration are listed in
depth-first order. -/
theorem walksWithin_pairwise (hdeclared : ∀ model, (along model).Sublist model.relationships) :
    (walksWithin registry along levels model).Pairwise (Precedes registry model) := by
  induction levels generalizing model with
  | zero => exact .nil
  | succ levels ih =>
    rw [walksWithin, List.pairwise_flatMap]
    refine ⟨fun rel _ => walksAlong_pairwise (fun _ => ih) fun _ => nil_not_mem_walksWithin, ?_⟩
    rw [List.pairwise_iff_forall_sublist]
    intro rel other hchosen walk hwalk walk' hwalk'
    -- Walks that begin with different relationships are in the order of these.
    have hearlier : [rel, other].Sublist model.relationships := hchosen.trans (hdeclared model)
    obtain ⟨rest, rfl⟩ : ∃ rest, walk = rel :: rest := by
      rcases mem_walksAlong.mp hwalk with rfl | ⟨_, rest, -, -, rfl⟩
      · exact ⟨[], rfl⟩
      · exact ⟨rest, rfl⟩
    obtain ⟨rest', rfl⟩ : ∃ rest', walk' = other :: rest' := by
      rcases mem_walksAlong.mp hwalk' with rfl | ⟨_, rest', -, -, rfl⟩
      · exact ⟨[], rfl⟩
      · exact ⟨rest', rfl⟩
    exact .earlier hearlier

/-- Walks of which one precedes the other do not have the same names. -/
theorem Precedes.names_ne (h : Precedes registry model walk walk') :
    walk.map Relationship.name ≠ walk'.map Relationship.name := by
  induction h with
  | shorter => exact List.cons_ne_nil _ _ ∘ Eq.symm
  | @earlier model rel other walk walk' hdeclared =>
    intro hnames
    have hnodup := model.relationships_nodup.sublist (hdeclared.map Relationship.name)
    rw [List.map_cons, List.map_cons, List.cons.injEq] at hnames
    rw [List.map_cons, List.map_singleton, hnames.1] at hnodup
    simp at hnodup
  | deeper _ _ ih =>
    intro hnames
    rw [List.map_cons, List.map_cons, List.cons.injEq] at hnames
    exact ih hnames.2

/-- No two walks that are listed have the same names. -/
theorem walksWithin_names_nodup (hdeclared : ∀ model, (along model).Sublist model.relationships) :
    ((walksWithin registry along levels model).map (List.map Relationship.name)).Nodup :=
  List.Pairwise.map _ (fun _ _ h => h.names_ne) (walksWithin_pairwise hdeclared)

end GraphMapper

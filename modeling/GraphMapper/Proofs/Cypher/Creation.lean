import GraphMapper.Proofs.Cypher.Meaning

/-!
# What a creation of a node stores

A draft that creates one node, takes its variable over and returns expressions of it stands for a
creation (`Draft.creation?`): what is stored has the labels and the values of the pattern, and each
of these is found under the parameter that the pattern names. `run_creation` says what the draft of
the creation of one entity stands for.
-/

namespace GraphMapper.Cypher

/-- The creation of a node with a variable, and the expressions that are returned of it. -/
structure NodeCreation where
  var : String
  node : StoredNode
  returns : List String

/-- A statement that creates a node, and does nothing else. -/
def creationStatement (node : NodePattern) : Statement :=
  { head := .paths .create, paths := [⟨[.node node]⟩] }

/-- A statement that takes a variable over and returns expressions, and does nothing else. -/
def returnStatement (var : String) (returns : List String) : Statement :=
  { head := .carry [var], returns := returns }

/-- The node that a statement creates, with its variable, if it creates one. -/
def Statement.created? (params : Bag) (s : Statement) : Option (String × StoredNode) :=
  match s.paths with
  | [⟨[.node ⟨some var, labels, pairs⟩]⟩] =>
    if s = creationStatement ⟨some var, labels, pairs⟩ then do
      let inline ← pairs.mapM (PropertyPair.resolved? params)
      return (var, (StoredNode.bare labels).assignAll inline)
    else none
  | _ => none

/-- The creation that a draft stands for, if it is one. -/
def Draft.creation? (draft : Draft) : Option NodeCreation :=
  match draft.statements with
  | [first, last] => do
    let (var, node) ← first.created? draft.params
    if last = returnStatement var last.returns then some ⟨var, node, last.returns⟩ else none
  | _ => none

/-- A statement that creates a node creates it with what its pairs ask for. -/
theorem created?_eq_some {params inline : Bag} {var : String} {labels : List String}
    {pairs : List PropertyPair}
    (hinline : List.Forall₂ (fun pair entry => pair.resolved? params = some entry) pairs inline) :
    (creationStatement ⟨some var, labels, pairs⟩).created? params =
      some (var, (StoredNode.bare labels).assignAll inline) := by
  simp only [Statement.created?, creationStatement, if_true, mapM_eq_some.mpr hinline]
  rfl

/-- The query that creates one entity, and then returns it, stands for the creation of the
entity. -/
theorem run_creation {var : String} (hvar : var ≠ "") (labels : List String) {inline : Bag}
    (hinline : ∀ entry ∈ inline, entry.2.isNull = false) (returns : List String) :
    ∃ draft, Draft.run {} [.start .create var labels inline, .carry [var], .returning returns] =
        .ok draft ∧
      draft.creation? = some ⟨var, (StoredNode.bare labels).assignAll inline, returns⟩ := by
  obtain ⟨-, hentries⟩ := entries_addProperties {} var inline
  obtain ⟨hclosed, hcurrent⟩ := addProperties_keeps {} var inline
  rw [nonNull_eq_self hinline] at hentries
  have hcreated := @created?_eq_some _ _ var labels _ hentries
  refine ⟨_, rfl, ?_⟩
  rw [creationStatement] at hcreated
  simp [Draft.creation?, Draft.statements, Draft.openStatement, returnStatement, hclosed, hcurrent,
    hvar, hcreated]

end GraphMapper.Cypher

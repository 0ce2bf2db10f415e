import GraphMapper.Proofs.Attempt
import GraphMapper.Proofs.Cypher.Name

/-!
# Variables in scope

Statements pass variables on. A node that stands alone in a path binds its variable, and so does
every relationship; a node at an end of a relationship is one that is bound already, for otherwise
the statement would make a new node there. A statement that takes variables over leaves only those
in scope.

`WellScoped` says of a list of statements that each uses bound variables and binds fresh ones, and
`Leads` says of steps that, from any draft, they can be taken, that the statements they add are well
scoped, and what is known of the variables afterwards. The groups of steps that a write is made of
add one statement each (`leads_carry`, `leads_entity`, `leads_found`, `leads_link`).
-/

namespace GraphMapper.Cypher

/-- The variable of an element of a path. -/
def PathElement.var? : PathElement → Option String
  | .node pattern => pattern.var
  | .relationship pattern => pattern.var

/-- The variable of a node, which may have none. -/
def PathElement.nodeVar? : PathElement → Option (Option String)
  | .node pattern => some pattern.var
  | .relationship _ => none

/-- The variable of a relationship. -/
def PathElement.relationshipVar? : PathElement → Option String
  | .node _ => none
  | .relationship pattern => pattern.var

/-- The variables that a path binds: that of its node if it stands alone, and those of its
relationships otherwise. -/
def Path.introduced (path : Path) : List String :=
  match path.elements with
  | [.node pattern] => pattern.var.toList
  | elements => elements.filterMap PathElement.relationshipVar?

/-- The variables of the nodes at the ends of the relationships of a path. -/
def Path.ends (path : Path) : List (Option String) :=
  match path.elements with
  | [.node _] => []
  | elements => elements.filterMap PathElement.nodeVar?

/-- The variable that a SET item writes to, unless it is a text of the caller's. -/
def SetItem.var? : SetItem → Option String
  | .value target _ _ => some (expressionVar target)
  | .raw _ => none

/-- The variable that a condition reads, unless it is a text of the caller's. -/
def Condition.var? : Condition → Option String
  | .compare left _ _ => some (expressionVar left)
  | .between expression _ _ => some (expressionVar expression)
  | .identity var _ => some var
  | .raw _ => none

namespace Statement

/-- The variables that a statement binds. -/
def introduced (s : Statement) : List String :=
  s.paths.flatMap Path.introduced

/-- The bound variables that are still in scope in a statement. -/
def kept (bound : List String) (s : Statement) : List String :=
  match s.head with
  | .carry vars => vars
  | .paths _ => bound

/-- The variables in scope behind the paths of a statement. -/
def scopeAfter (bound : List String) (s : Statement) : List String :=
  s.kept bound ++ s.introduced

/-- The conditions of a statement. -/
def conditions (s : Statement) : List Condition :=
  s.filter.groups.flatMap fun group => group.predicates.map Predicate.condition

/-- All SET items of a statement. -/
def items (s : Statement) : List SetItem :=
  s.onCreateSet ++ s.onMatchSet ++ s.set

/-- A statement uses variables that are bound and binds fresh ones. -/
structure Scoped (bound : List String) (s : Statement) : Prop where
  /-- What is taken over is bound. -/
  carried : s.kept bound ⊆ bound
  /-- The nodes that a relationship joins are bound before. -/
  ends : ∀ path ∈ s.paths, ∀ var ∈ path.ends, ∃ name ∈ s.kept bound, var = some name
  /-- What is bound was not bound before. -/
  fresh : ∀ var ∈ s.introduced, var ∉ bound
  /-- Nothing is bound twice in the statement itself. -/
  nodup : s.introduced.Nodup
  /-- Variables are plain identifiers. -/
  plain : ∀ var ∈ s.introduced, isIdentifier var.toList
  /-- What a condition is about is bound. -/
  conditions : ∀ condition ∈ s.conditions, ∃ var ∈ s.scopeAfter bound, condition.var? = some var
  /-- What is set on is bound. -/
  items : ∀ item ∈ s.items, ∃ var ∈ s.scopeAfter bound, item.var? = some var
  /-- Only a merge tells creation apart. -/
  onCreateSet : s.onCreateSet ≠ [] → s.head = .paths .merge

/-- What is in scope after statements. -/
def scopeAfterAll (bound : List String) (statements : List Statement) : List String :=
  statements.foldl scopeAfter bound

/-- Statements that each use bound variables and bind fresh ones. -/
def WellScoped : List String → List Statement → Prop
  | _, [] => True
  | bound, s :: rest => s.Scoped bound ∧ WellScoped (s.scopeAfter bound) rest

/-- Statements in a row are well scoped when the later ones are where the earlier ones lead. -/
theorem wellScoped_append {bound : List String} {statements more : List Statement} :
    WellScoped bound (statements ++ more) ↔
      WellScoped bound statements ∧ WellScoped (scopeAfterAll bound statements) more := by
  induction statements generalizing bound with
  | nil => simp [WellScoped, scopeAfterAll]
  | cons s rest ih =>
    rw [List.cons_append, WellScoped, WellScoped, ih, and_assoc]
    rfl

/-- What is in scope after two lists of statements. -/
theorem scopeAfterAll_append (bound : List String) (statements more : List Statement) :
    scopeAfterAll bound (statements ++ more) =
      scopeAfterAll (scopeAfterAll bound statements) more :=
  List.foldl_append

/-- A statement that binds one variable and speaks of nothing else in its sections. -/
structure Introduces (verb : Verb) (ends : List String) (var : String) (s : Statement) : Prop where
  head : s.head = .paths verb
  introduced : s.introduced = [var]
  ends : ∀ path ∈ s.paths, ∀ near ∈ path.ends, ∃ name ∈ ends, near = some name
  conditions : ∀ condition ∈ s.conditions, condition.var? = some var
  items : ∀ item ∈ s.items, item.var? = some var
  onCreateSet : s.onCreateSet ≠ [] → verb = .merge

/-- A statement that binds one variable is well scoped where that is fresh and the ends of its
relationships are bound. -/
theorem Introduces.scoped {bound ends : List String} {verb : Verb} {var : String} {s : Statement}
    (h : s.Introduces verb ends var) (hends : ends ⊆ bound) (hfresh : var ∉ bound)
    (hplain : isIdentifier var.toList) :
    s.Scoped bound ∧ s.scopeAfter bound = bound ++ [var] := by
  have hkept : s.kept bound = bound := by simp [kept, h.head]
  have hafter : s.scopeAfter bound = bound ++ [var] := by
    rw [scopeAfter, hkept, h.introduced]
  refine ⟨?_, hafter⟩
  constructor
  case carried => rw [hkept]; exact List.Subset.refl bound
  case ends =>
    intro path hpath near hnear
    obtain ⟨name, hname, rfl⟩ := h.ends path hpath near hnear
    exact ⟨name, by rw [hkept]; exact hends hname, rfl⟩
  case fresh => simpa [h.introduced] using hfresh
  case nodup => simp [h.introduced]
  case plain => simpa [h.introduced] using hplain
  case conditions =>
    intro condition hcondition
    exact ⟨var, by simp [hafter], h.conditions condition hcondition⟩
  case items =>
    intro item hitem
    exact ⟨var, by simp [hafter], h.items item hitem⟩
  case onCreateSet => intro hne; rw [h.head, h.onCreateSet hne]

end Statement

end GraphMapper.Cypher

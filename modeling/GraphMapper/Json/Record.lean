import GraphMapper.Json

/-!
# Records in JSON

A record has fields in a fixed order. In JSON it is an object, whose entries give the fields by
name, or an array, which gives them by position. A field given twice and an array that is too long
are refused; a field that is not given leaves its slot empty, and an entry under any other name
counts for nothing.

The readers here take a value only if it has the kind they ask for.
-/

namespace GraphMapper.Json

variable {α : Type}

/-- The slots of a record from the entries of an object. -/
def slotsByName? (names : List String) (entries : List (String × α)) : Option (List (Option α)) :=
  names.mapM fun name =>
    match entries.filter fun entry => entry.1 = name with
    | [] => some none
    | [entry] => some (some entry.2)
    | _ => none

/-- The slots of a record from the items of an array. -/
def slotsByPosition? (names : List String) (items : List α) : Option (List (Option α)) :=
  if items.length ≤ names.length then
    some (items.map some ++ List.replicate (names.length - items.length) none)
  else none

/-- The slots of a record. -/
def slots? (names : List String) : Json → Option (List (Option Json))
  | .object entries => slotsByName? names entries
  | .array items => slotsByPosition? names items
  | _ => none

/-- Reads a truth value. -/
def bool? : Json → Option Bool
  | .bool b => some b
  | _ => none

/-- Reads a string. -/
def string? : Json → Option String
  | .string s => some s
  | _ => none

/-- Reads a list whose items `read` accepts. -/
def list? (read : Json → Option α) : Json → Option (List α)
  | .array items => items.mapM read
  | _ => none

/-- Reads what `read` accepts, or null for nothing. -/
def nullable? (read : Json → Option α) : Json → Option (Option α)
  | .null => some none
  | value => (read value).map some

/-- Reads a natural number up to `greatest`. -/
def natural? (greatest : Nat) : Json → Option Nat
  | .integer n => if 0 ≤ n ∧ n ≤ greatest then some n.toNat else none
  | _ => none

/-- Reads a choice by its name, which may be the key of a null. -/
def choice? (ofName? : String → Option α) : Json → Option α
  | .string name => ofName? name
  | .object [(name, .null)] => ofName? name
  | _ => none

/-- Reads the slot of a field that has a default. -/
def field? (read : Json → Option α) (default : α) : Option Json → Option α
  | some value => read value
  | none => some default

/-- Reads the slot of a field that must be given. -/
def required? (read : Json → Option α) : Option Json → Option α
  | some value => read value
  | none => none

end GraphMapper.Json

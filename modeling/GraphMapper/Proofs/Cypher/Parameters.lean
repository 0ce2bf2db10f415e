import GraphMapper.Cypher.Draft
import GraphMapper.Proofs.Cypher.Name
import GraphMapper.Proofs.KeyedList
import Mathlib.Data.List.Nodup
import Mathlib.Data.List.Perm.Subperm

/-!
# Names of parameters

A parameter is named after what it is bound for: the name is reduced to a plain identifier and, if
it is taken, numbered from two on. Numbered names are distinct (`numbered_injective`), so that among
one more of them than there are parameters one is free, and `freshName` finds it
(`freshName_not_mem`). A reduced and numbered name may be that of another text (`x_2` is the second
`x` and the first `x-2`), and therefore nothing but the table itself tells whether a name is free.

A name that is bound is a new key, so that no binding changes another (`get?_addParam`). What is
bound therefore stays bound while a statement is built (`Keeps`), whatever values it is changed by
(`exists_modifyWith`).
-/

namespace GraphMapper

namespace Cypher

/-- A number is read back from its decimal digits. -/
theorem toString_injective {i j : Nat} (h : toString i = toString j) : i = j := by
  have hdigits := congrArg (fun s => Nat.ofDigitChars 10 s.toList 0) h
  simpa [Nat.toString_eq_ofList_toDigits] using hdigits

/-- Numbered names are distinct. -/
theorem numbered_injective (name : String) : Function.Injective (numbered name) := by
  -- A numbered name is longer than the bare one, which is numbered zero.
  have hne : ∀ n, numbered name 0 ≠ numbered name (n + 1) := by
    intro n h
    have hlength := congrArg String.length h
    simp only [numbered, String.length_append] at hlength
    have hunderscore : "_".length = 1 := rfl
    omega
  intro i j h
  cases i with
  | zero =>
    cases j with
    | zero => rfl
    | succ j => exact absurd h (hne j)
  | succ i =>
    cases j with
    | zero => exact absurd h.symm (hne i)
    | succ j =>
      have hlist := congrArg String.toList h
      simp only [numbered, String.toList_append] at hlist
      have hnumber := toString_injective (String.toList_inj.mp (List.append_cancel_left hlist))
      omega

/-- Of one more numbered name than there are keys, one is no key. -/
theorem exists_numbered_not_mem (params : Bag) (name : String) :
    ∃ n ∈ List.range (params.length + 1), numbered name n ∉ KeyedList.keys params := by
  -- Else there would be more distinct keys than entries.
  by_contra hall
  have hsubset : (List.range (params.length + 1)).map (numbered name) ⊆ KeyedList.keys params := by
    intro other hother
    obtain ⟨n, hn, rfl⟩ := List.mem_map.mp hother
    exact Decidable.byContradiction fun hnot => hall ⟨n, hn, hnot⟩
  have hnodup : ((List.range (params.length + 1)).map (numbered name)).Nodup :=
    List.Nodup.map (numbered_injective name) List.nodup_range
  have hlength := (hnodup.subperm hsubset).length_le
  have hkeys : (KeyedList.keys params).length = params.length := List.length_map ..
  rw [List.length_map, List.length_range, hkeys] at hlength
  omega

/-- A fresh name is no key. -/
theorem freshName_not_mem (params : Bag) (name : String) :
    freshName params name ∉ KeyedList.keys params := by
  obtain ⟨n, hn, hfree⟩ := exists_numbered_not_mem params name
  unfold freshName
  cases hfind : (List.range (params.length + 1)).find? fun n =>
      !KeyedList.has params (numbered name n) with
  | none =>
    have htaken := List.find?_eq_none.mp hfind n hn
    rw [KeyedList.has_eq_false_iff.mpr hfree] at htaken
    exact absurd rfl htaken
  | some found =>
    have hfound := List.find?_some hfind
    rw [Bool.not_eq_true', KeyedList.has_eq_false_iff] at hfound
    exact hfound

/-- A text is reduced to a plain identifier. -/
theorem isIdentifier_paramBase (base : String) : isIdentifier (paramBase base).toList := by
  have hchars := isIdentifierChar_identifierPart base
  unfold paramBase
  dsimp only
  split
  · decide
  · next c rest hname =>
    rw [hname] at hchars
    split
    · rw [String.toList_append, hname]
      exact isIdentifier_append (by decide) hchars
    · next hdigit =>
      -- What may occur in an identifier and is no digit may also begin one.
      have hstart : isIdentifierStart c := by
        have hc := hchars c List.mem_cons_self
        simp only [isIdentifierChar, Char.isAlphanum, Bool.or_eq_true, decide_eq_true_eq,
          Bool.not_eq_true] at hc hdigit
        simpa [isIdentifierStart, hdigit] using hc
      rw [hname]
      simp only [isIdentifier, Bool.and_eq_true, List.all_eq_true]
      exact ⟨hstart, hchars⟩

/-- Whatever is taken, a fresh name is a plain identifier. -/
theorem isIdentifier_freshName (params : Bag) (base : String) :
    isIdentifier (freshName params (paramBase base)).toList := by
  have hbase := isIdentifier_paramBase base
  unfold freshName
  dsimp only
  generalize (Option.getD _ params.length) = n
  cases n with
  | zero => exact hbase
  | succ n =>
    have hunderscore : ∀ c ∈ "_".toList, isIdentifierChar c := List.all_eq_true.mp rfl
    simp only [numbered, String.toList_append]
    exact isIdentifier_append (isIdentifier_append hbase hunderscore) (isIdentifierChar_toString _)

namespace Draft

variable (draft : Draft) (base : String) (value : Value)

/-- A bound name is a plain identifier. -/
theorem isIdentifier_addParam : isIdentifier (draft.addParam base value).1.toList :=
  isIdentifier_freshName draft.params base

/-- A bound name was free. -/
theorem addParam_not_mem : (draft.addParam base value).1 ∉ KeyedList.keys draft.params :=
  freshName_not_mem draft.params (paramBase base)

/-- The bound name shows its value, and every other name what it did. -/
theorem get?_addParam (key : String) :
    KeyedList.get? (draft.addParam base value).2.params key =
      if (draft.addParam base value).1 = key then some value
      else KeyedList.get? draft.params key :=
  KeyedList.get?_put draft.params _ key value

/-- To bind a value leaves what is bound under other names as it is, so that nothing that was bound
is changed. -/
theorem get?_addParam_of_eq_some {key : String} {held : Value}
    (h : KeyedList.get? draft.params key = some held) :
    KeyedList.get? (draft.addParam base value).2.params key = some held := by
  have hkey : key ∈ KeyedList.keys draft.params := by
    rw [← KeyedList.isSome_get?_iff, h]
    rfl
  have hne : (draft.addParam base value).1 ≠ key := fun hname =>
    draft.addParam_not_mem base value (hname ▸ hkey)
  rw [get?_addParam, if_neg hne, h]

end Draft

/-- Whatever is bound is bound to the same value in the other parameters. -/
def Keeps (params others : Bag) : Prop :=
  ∀ key value, KeyedList.get? params key = some value → KeyedList.get? others key = some value

variable {draft : Draft} {s : Statement}

/-- A value is bound to its name, and what was bound before stays so. -/
theorem addParam_keeps (draft : Draft) (base : String) (value : Value) :
    KeyedList.get? (draft.addParam base value).2.params (draft.addParam base value).1 =
        some value ∧
      Keeps draft.params (draft.addParam base value).2.params := by
  refine ⟨?_, fun key held => draft.get?_addParam_of_eq_some base value⟩
  rw [Draft.get?_addParam, if_pos rfl]

/-- A change of the open statement by a value is made under a parameter that binds the value. -/
theorem exists_modifyWith (hcurrent : draft.current = some s) (base : String) (value : Value)
    (change : String → Statement → Statement) :
    ∃ after name, draft.modifyWith base value change = .ok after ∧ after.closed = draft.closed ∧
      after.current = some (change name s) ∧ Keeps draft.params after.params ∧
      KeyedList.get? after.params name = some value := by
  obtain ⟨hbound, hkeeps⟩ := addParam_keeps draft base value
  refine ⟨{ (draft.addParam base value).2 with
    current := some (change (draft.addParam base value).1 s) }, (draft.addParam base value).1,
    ?_, rfl, rfl, hkeeps, hbound⟩
  simp [Draft.modifyWith, hcurrent, Draft.addParam, Draft.modify]

end Cypher

end GraphMapper

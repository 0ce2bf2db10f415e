import GraphMapper.Proofs.KeyedList
import GraphMapper.Value

/-!
# Values and what a bag has of them

What the tests of a value say of its form, and what a bag has under a key when something is stored
there or taken out.
-/

namespace GraphMapper

namespace Value

variable {value : Value}

/-- A value has items if it is a list. -/
theorem items?_eq_some {items : List Value} : value.items? = some items ↔ value = .list items := by
  cases value <;> simp [items?]

/-- A value has entries if it is a map. -/
theorem entries?_eq_some {entries : Bag} :
    value.entries? = some entries ↔ value = .map entries := by
  cases value <;> simp [entries?]

/-- There is one null. -/
theorem isNull_iff : value.isNull = true ↔ value = .null := by
  cases value <;> simp [isNull]

end Value

variable {bag : Bag} {key name : String} {value : Value}

/-- A bag has what is found under a key and is no null. -/
theorem present?_eq_some :
    bag.present? key = some value ↔ KeyedList.get? bag key = some value ∧ value.isNull = false := by
  rw [Bag.present?, Option.filter_eq_some_iff, Bool.not_eq_true']

/-- What is under a key and no null is what is found there. -/
theorem present?_congr {other : Bag} (h : KeyedList.get? other key = KeyedList.get? bag key) :
    other.present? key = bag.present? key := by
  rw [Bag.present?, Bag.present?, h]

/-- What is stored under a key is there unless it is null. -/
theorem present?_put (key : String) (value : Value) :
    Bag.present? (KeyedList.put bag key value) key =
      if value.isNull then none else some value := by
  rw [Bag.present?, KeyedList.get?_put, if_pos rfl]
  cases hnull : value.isNull <;> simp [hnull]

/-- What is stored in a bag leaves all else there. -/
theorem present?_put_of_ne (h : name ≠ key) (value : Value) :
    Bag.present? (KeyedList.put bag name value) key = bag.present? key :=
  present?_congr (by rw [KeyedList.get?_put, if_neg h])

/-- What is taken out of a bag is no longer there, and all else is. -/
theorem present?_remove (bag : Bag) (name key : String) :
    Bag.present? (KeyedList.remove bag name) key =
      if name = key then none else bag.present? key := by
  rw [Bag.present?, KeyedList.get?_remove]
  split <;> rfl

/-- A bag without nulls loses nothing when they are left out. -/
theorem nonNull_eq_self (h : ∀ entry ∈ bag, entry.2.isNull = false) : Bag.nonNull bag = bag :=
  List.filter_eq_self.mpr fun entry hentry => by rw [h entry hentry]; rfl

end GraphMapper

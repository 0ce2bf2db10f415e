import GraphMapper.Mapper.Preparation
import GraphMapper.Proofs.Attempt
import Mathlib.Data.List.Forall2

/-!
# What a preparation yields

A preparation draws on the supply and may fail. `Preparing.Yields` says that from some supply it
comes to a value, and leaves the supply out: what a preparation does to the keys of relationships
does not depend on what it draws.
-/

namespace GraphMapper

namespace Preparing

variable {α β : Type}

/-- From some supply the computation comes to this value. -/
def Yields (x : Preparing α) (a : α) : Prop :=
  ∃ before after, x.run.run before = (.ok a, after)

/-- A run that succeeds after another one starts from the supply that that one leaves. -/
theorem exists_run_of_bind {x : Preparing α} {f : α → Preparing β} {b : β} {before after : Supply}
    (h : (x >>= f).run.run before = (.ok b, after)) :
    ∃ a mid, x.run.run before = (.ok a, mid) ∧ (f a).run.run mid = (.ok b, after) := by
  rw [ExceptT.run_bind, StateT.run_bind] at h
  cases hx : x.run.run before with
  | mk result mid =>
    rw [hx] at h
    cases result with
    | error e => cases h
    | ok a => exact ⟨a, mid, rfl, h⟩

/-- A computation that runs to a value is followed by the next one. -/
theorem run_bind_of_run {x : Preparing α} {f : α → Preparing β} {a : α} {before after : Supply}
    (h : x.run.run before = (.ok a, after)) : (x >>= f).run.run before = (f a).run.run after := by
  rw [ExceptT.run_bind, StateT.run_bind, h]
  rfl

/-- A computation that is refused is not followed by the next one. -/
theorem run_bind_of_run_error {x : Preparing α} {f : α → Preparing β} {e : MapperError}
    {before after : Supply} (h : x.run.run before = (.error e, after)) :
    (x >>= f).run.run before = (.error e, after) := by
  rw [ExceptT.run_bind, StateT.run_bind, h]
  rfl

/-- The error as it is seen from further out: the fields of a failed validation have other names. -/
def errorUnder (path : String) : MapperError → MapperError
  | .validation e => .validation (e.under path)
  | e => e

/-- To name the fields from further out changes what a run is refused with, and nothing else. -/
theorem run_under (x : Preparing α) (path : String) (supply : Supply) :
    (x.under path).run.run supply =
      ((x.run.run supply).1.mapError (errorUnder path), (x.run.run supply).2) := by
  cases hx : x.run.run supply with
  | mk result rest =>
    have hrun : StateT.run x supply = (result, rest) := hx
    simp only [under, tryCatch, tryCatchThe, MonadExceptOf.tryCatch, ExceptT.tryCatch, ExceptT.run,
      ExceptT.mk, StateT.run_bind, hrun]
    cases result with
    | ok a => rfl
    | error e => cases e <;> rfl

/-- What may be refused, and takes nothing from the supply, leaves the supply as it is. -/
theorem run_ofExcept {attempt : Except MapperError α} {a : α} {before after : Supply}
    (h : (ofExcept attempt).run.run before = (.ok a, after)) :
    attempt = .ok a ∧ before = after := by
  cases attempt with
  | error e => cases h
  | ok b =>
    cases h
    exact ⟨rfl, rfl⟩

/-- What comes to a value after another computation does so with a value of that. -/
theorem Yields.of_bind {x : Preparing α} {f : α → Preparing β} {b : β} (h : (x >>= f).Yields b) :
    ∃ a, x.Yields a ∧ (f a).Yields b := by
  obtain ⟨before, after, h⟩ := h
  obtain ⟨a, mid, hx, hf⟩ := exists_run_of_bind h
  exact ⟨a, ⟨before, mid, hx⟩, mid, after, hf⟩

/-- What takes nothing from the supply comes to its own value. -/
theorem Yields.of_pure {a b : α} (h : (pure a : Preparing α).Yields b) : a = b := by
  obtain ⟨before, after, h⟩ := h
  cases h
  rfl

/-- To name the fields from further out changes no value. -/
theorem Yields.of_under {x : Preparing α} {path : String} {a : α} (h : (x.under path).Yields a) :
    x.Yields a := by
  obtain ⟨before, after, h⟩ := h
  rw [run_under, Prod.mk.injEq, mapError_eq_ok] at h
  exact ⟨before, after, Prod.ext h.1 h.2⟩

/-- A validation comes to what it accepts. -/
theorem Yields.of_ofValidation {checked : Except ValidationError α} {a : α}
    (h : (ofValidation checked).Yields a) : checked = .ok a := by
  obtain ⟨before, after, h⟩ := h
  obtain ⟨hattempt, -⟩ := run_ofExcept h
  cases checked with
  | error e => cases hattempt
  | ok b =>
    cases hattempt
    rfl

/-- What only draws on the supply comes to its value. -/
theorem Yields.of_lift {x : StateM Supply α} {a : α} (h : (liftM x : Preparing α).Yields a) :
    ∃ before, (x.run before).1 = a := by
  obtain ⟨before, after, h⟩ := h
  have hrun : (liftM x : Preparing α).run.run before =
      (.ok (x.run before).1, (x.run before).2) := rfl
  rw [hrun] at h
  cases h
  exact ⟨before, rfl⟩

/-- Computations on the items of a list come to a value each. -/
theorem Yields.of_mapM {f : α → Preparing β} {items : List α} {results : List β}
    (h : (items.mapM f).Yields results) :
    List.Forall₂ (fun a b => (f a).Yields b) items results := by
  induction items generalizing results with
  | nil =>
    rw [List.mapM_nil] at h
    cases h.of_pure
    exact .nil
  | cons item rest ih =>
    rw [List.mapM_cons] at h
    obtain ⟨b, hb, h⟩ := h.of_bind
    obtain ⟨bs, hbs, h⟩ := h.of_bind
    cases h.of_pure
    exact .cons hb (ih hbs)

/-- Computations on a state, one after the other, keep what each of them keeps. -/
theorem Yields.of_foldlM {step : β → α → Preparing β} {items : List α} {state after : β}
    (h : (items.foldlM step state).Yields after) (holds : β → Prop)
    (hstep : ∀ state item after, holds state → (step state item).Yields after → holds after)
    (hstate : holds state) : holds after := by
  induction items generalizing state with
  | nil =>
    rw [List.foldlM_nil] at h
    exact h.of_pure ▸ hstate
  | cons item rest ih =>
    rw [List.foldlM_cons] at h
    obtain ⟨mid, hmid, h⟩ := h.of_bind
    exact ih h (hstep state item mid hstate hmid)

end Preparing

end GraphMapper

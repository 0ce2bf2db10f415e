import Mathlib.Data.List.Forall2

/-!
# Attempts

An attempt is a computation that may fail with an error. Of attempts made one after the other the
whole succeeds exactly when each of them does, and its result is made of theirs; where the whole
fails, one of them has failed (`exists_of_mapM_eq_error`).
-/

namespace GraphMapper

universe u

variable {ε : Type u} {α β : Type}

/-- Two attempts in a row succeed when the first does and the second does on its result. -/
theorem bind_eq_ok {x : Except ε α} {f : α → Except ε β} {b : β} :
    x >>= f = .ok b ↔ ∃ a, x = .ok a ∧ f a = .ok b := by
  cases x with
  | error e => simp [bind, Except.bind]
  | ok a => simp [bind, Except.bind]

/-- Whether an attempt succeeds with a result of some kind can be tested. -/
instance decidableExistsOk {p : α → Prop} [DecidablePred p] :
    (x : Except ε α) → Decidable (∃ a, x = .ok a ∧ p a)
  | .error _ => .isFalse fun ⟨_, h, _⟩ => nomatch h
  | .ok a => decidable_of_iff (p a) ⟨fun h => ⟨a, rfl, h⟩, fun ⟨_, rfl, h⟩ => h⟩

/-- An attempt whose result is changed succeeds when it does. -/
theorem map_eq_ok {x : Except ε α} {f : α → β} {b : β} :
    x.map f = .ok b ↔ ∃ a, x = .ok a ∧ f a = b := by
  cases x with
  | error e => simp [Except.map]
  | ok a => simp [Except.map]

/-- An attempt whose result is changed fails when it does, and as it does. -/
theorem map_eq_error {x : Except ε α} {f : α → β} {e : ε} : x.map f = .error e ↔ x = .error e := by
  cases x with
  | error e' => simp [Except.map]
  | ok a => simp [Except.map]

/-- An attempt whose error is changed succeeds when it does. -/
theorem mapError_eq_ok {ε' : Type u} {x : Except ε α} {change : ε → ε'} {a : α} :
    x.mapError change = .ok a ↔ x = .ok a := by
  cases x with
  | error e => simp [Except.mapError]
  | ok b => simp [Except.mapError]

/-- Of two attempts in a row the errors of both are changed. -/
theorem mapError_bind {ε' : Type u} {x : Except ε α} {f : α → Except ε β} {change : ε → ε'} :
    (x >>= f).mapError change = x.mapError change >>= fun a => (f a).mapError change := by
  cases x <;> rfl

/-- The error and the result of an attempt are changed in any order. -/
theorem mapError_map {ε' : Type u} {x : Except ε α} {f : α → β} {change : ε → ε'} :
    (x.map f).mapError change = (x.mapError change).map f := by
  cases x <;> rfl

/-- Of attempts on every item of a list the error of each is changed. -/
theorem mapError_mapM {ε' : Type u} {f : α → Except ε β} {items : List α} {change : ε → ε'} :
    (items.mapM f).mapError change = items.mapM fun a => (f a).mapError change := by
  induction items with
  | nil => rfl
  | cons item rest ih =>
    simp only [List.mapM_cons, mapError_bind, ih]
    rfl

/-- An attempt on every item of a list succeeds when it does on each one. -/
theorem mapM_eq_ok {f : α → Except ε β} {items : List α} {results : List β} :
    items.mapM f = .ok results ↔ List.Forall₂ (fun a b => f a = .ok b) items results := by
  induction items generalizing results with
  | nil => cases results <;> simp [pure, Except.pure]
  | cons item rest ih =>
    rw [List.mapM_cons, bind_eq_ok]
    constructor
    · rintro ⟨b, hb, h⟩
      obtain ⟨bs, hbs, h⟩ := bind_eq_ok.mp h
      cases h
      exact .cons hb (ih.mp hbs)
    · rintro (_ | ⟨hb, hbs⟩)
      exact ⟨_, hb, bind_eq_ok.mpr ⟨_, ih.mpr hbs, rfl⟩⟩

/-- Attempts on items that come to the same one by one come to the same. -/
theorem mapM_eq_of_forall₂ {γ : Type*} {f : α → Except ε β} {g : γ → Except ε β} {items : List α}
    {others : List γ} (h : List.Forall₂ (fun a c => f a = g c) items others) :
    items.mapM f = others.mapM g := by
  induction h with
  | nil => rfl
  | cons hhead _ ih => rw [List.mapM_cons, List.mapM_cons, hhead, ih]

/-- An attempt on every item of a list that fails does so as on one of them. -/
theorem exists_of_mapM_eq_error {f : α → Except ε β} {items : List α} {e : ε}
    (h : items.mapM f = .error e) : ∃ item ∈ items, f item = .error e := by
  induction items with
  | nil => cases h
  | cons item rest ih =>
    cases hitem : f item with
    | error e' =>
      rw [List.mapM_cons, hitem] at h
      cases h
      exact ⟨item, List.mem_cons_self, hitem⟩
    | ok b =>
      cases hrest : rest.mapM f with
      | error e' =>
        rw [List.mapM_cons, hitem, hrest] at h
        cases h
        obtain ⟨other, hother, hfails⟩ := ih hrest
        exact ⟨other, List.mem_cons_of_mem item hother, hfails⟩
      | ok bs =>
        rw [List.mapM_cons, hitem, hrest] at h
        cases h

/-- What may be missing is there for every item of a list when it is for each one. -/
theorem mapM_eq_some {f : α → Option β} {items : List α} {results : List β} :
    items.mapM f = some results ↔ List.Forall₂ (fun a b => f a = some b) items results := by
  induction items generalizing results with
  | nil => cases results <;> simp
  | cons item rest ih =>
    rw [List.mapM_cons]
    constructor
    · intro h
      obtain ⟨b, hb, h⟩ := Option.bind_eq_some_iff.mp h
      obtain ⟨bs, hbs, h⟩ := Option.bind_eq_some_iff.mp h
      cases h
      exact .cons hb (ih.mp hbs)
    · rintro (_ | ⟨hb, hbs⟩)
      exact Option.bind_eq_some_iff.mpr ⟨_, hb, Option.bind_eq_some_iff.mpr ⟨_, ih.mpr hbs, rfl⟩⟩

/-- An attempt on every item succeeds where it succeeds on each one, with results that are related
to the items as each result is to its item. -/
theorem exists_mapM_eq_ok {f : α → Except ε β} {related : α → β → Prop} {items : List α}
    (h : ∀ item ∈ items, ∃ result, f item = .ok result ∧ related item result) :
    ∃ results, items.mapM f = .ok results ∧ List.Forall₂ related items results := by
  induction items with
  | nil => exact ⟨[], by simp [pure, Except.pure], .nil⟩
  | cons item rest ih =>
    obtain ⟨result, hresult, hrelated⟩ := h item List.mem_cons_self
    obtain ⟨results, hresults, hrest⟩ := ih fun item hitem => h item (List.mem_cons_of_mem _ hitem)
    exact ⟨result :: results, mapM_eq_ok.mpr (.cons hresult (mapM_eq_ok.mp hresults)),
      .cons hrelated hrest⟩

/-- Related lists stay related by what follows for the items of the first one. -/
theorem forall₂_imp_of_mem {related weaker : α → β → Prop} {items : List α} {results : List β}
    (h : List.Forall₂ related items results)
    (himp : ∀ a ∈ items, ∀ b, related a b → weaker a b) : List.Forall₂ weaker items results :=
  ((List.forall₂_and_left items results).mpr ⟨fun _ hmem => hmem, h⟩).imp
    fun a b hrelated => himp a hrelated.1 b hrelated.2

/-- Of two lists that are related item by item, each item on the right is related to one on the
left. -/
theorem exists_of_forall₂_right {related : α → β → Prop} {items : List α} {results : List β}
    (h : List.Forall₂ related items results) {b : β} (hb : b ∈ results) :
    ∃ a ∈ items, related a b := by
  induction h with
  | nil => simp at hb
  | @cons a c rest _ hrelated _ ih =>
    rcases List.mem_cons.mp hb with rfl | hb
    · exact ⟨a, List.mem_cons_self, hrelated⟩
    · obtain ⟨d, hd, hrelated⟩ := ih hb
      exact ⟨d, List.mem_cons_of_mem a hd, hrelated⟩

/-- Of lists whose items show the same, one by one, the same is left of what they show. -/
theorem filterMap_of_forall₂ {γ : Type} {show₁ : α → Option γ} {show₂ : β → Option γ}
    {items : List α} {results : List β}
    (h : List.Forall₂ (fun a b => show₂ b = show₁ a) items results) :
    results.filterMap show₂ = items.filterMap show₁ := by
  induction h with
  | nil => rfl
  | cons hhead _ ih => rw [List.filterMap_cons, List.filterMap_cons, hhead, ih]

/-- Two lists that are related to a third one item by item have items at the same places, each pair
related to an item of the third. -/
theorem forall₂_zipIdx {γ : Type} {left : α → β → Prop} {right : α → γ → Prop} {items : List α}
    {results : List β} {others : List γ} (hleft : List.Forall₂ left items results)
    (hright : List.Forall₂ right items others) (start : Nat) :
    List.Forall₂ (fun b c => b.2 = c.2 ∧ ∃ a ∈ items, left a b.1 ∧ right a c.1)
      (results.zipIdx start) (others.zipIdx start) := by
  induction hleft generalizing others start with
  | nil =>
    cases hright
    exact .nil
  | @cons a b items results hhead _ ih =>
    cases hright with
    | cons hother hrest =>
      refine .cons ⟨rfl, a, List.mem_cons_self, hhead, hother⟩ ((ih hrest (start + 1)).imp ?_)
      rintro b c ⟨hplace, a, ha, hrelated⟩
      exact ⟨hplace, a, List.mem_cons_of_mem _ ha, hrelated⟩

/-- Two lists that are related item by item have related items at the same places. -/
theorem zipIdx_of_forall₂ {related : α → β → Prop} {items : List α} {results : List β}
    (h : List.Forall₂ related items results) (start : Nat) :
    List.Forall₂ (fun a b => a.2 = b.2 ∧ related a.1 b.1) (items.zipIdx start)
      (results.zipIdx start) := by
  have hsame : List.Forall₂ Eq items items := List.forall₂_same.mpr fun _ _ => rfl
  refine (forall₂_zipIdx hsame h start).imp ?_
  rintro a b ⟨hplace, _, -, rfl, hrelated⟩
  exact ⟨hplace, hrelated⟩

/-- What stands at a place on the left is related to what stands there on the right. -/
theorem getElem?_of_forall₂ {related : α → β → Prop} {items : List α} {results : List β}
    (h : List.Forall₂ related items results) {index : Nat} {a : α}
    (ha : items[index]? = some a) : ∃ b, results[index]? = some b ∧ related a b := by
  induction h generalizing index with
  | nil => simp at ha
  | cons hrelated _ ih =>
    cases index with
    | zero =>
      cases ha
      exact ⟨_, rfl, hrelated⟩
    | succ index => exact ih ha

/-- An attempt that succeeds has a result of which `good` holds, and one that fails has an error of
which `bad` holds. -/
def Ends (good : α → Prop) (bad : ε → Prop) : Except ε α → Prop
  | .ok a => good a
  | .error e => bad e

section

variable {x : Except ε α} {good : α → Prop} {bad : ε → Prop}

/-- Two attempts in a row end as the second one does, or as the first one where that fails. -/
theorem Ends.bind (h : Ends good bad x) {f : α → Except ε β} {final : β → Prop}
    (hnext : ∀ a, good a → Ends final bad (f a)) : Ends final bad (x >>= f) := by
  cases x with
  | error e => exact h
  | ok a => exact hnext a h

/-- An attempt whose result is changed ends as it does. -/
theorem Ends.map (h : Ends good bad x) {f : α → β} {final : β → Prop}
    (himp : ∀ a, good a → final (f a)) : Ends final bad (x.map f) := by
  cases x with
  | error e => exact h
  | ok a => exact himp a h

/-- An attempt of which every error is changed to one of a kind fails with one of that kind. -/
theorem Ends.mapError {ε' : Type u} {change : ε → ε'} {bad : ε' → Prop}
    (h : ∀ e, bad (change e)) : Ends (fun _ => True) bad (x.mapError change) := by
  cases x with
  | error e => exact h e
  | ok a => exact trivial

end

/-- Attempts made one after the other on a state all succeed, and keep what each of them keeps,
when each succeeds on every state of which that holds. -/
theorem foldlM_keeps {σ : Type} {step : σ → α → Except ε σ} {holds : σ → Prop} {items : List α}
    (hstep : ∀ item ∈ items, ∀ state, holds state →
      ∃ after, step state item = .ok after ∧ holds after)
    {state : σ} (h : holds state) : ∃ after, items.foldlM step state = .ok after ∧ holds after := by
  induction items generalizing state with
  | nil => exact ⟨state, rfl, h⟩
  | cons item rest ih =>
    obtain ⟨mid, hmid, hholds⟩ := hstep item List.mem_cons_self state h
    obtain ⟨after, hafter, hlast⟩ :=
      ih (fun item hitem => hstep item (List.mem_cons_of_mem _ hitem)) hholds
    refine ⟨after, ?_, hlast⟩
    rw [List.foldlM_cons]
    exact bind_eq_ok.mpr ⟨mid, hmid, hafter⟩

/-- Attempts made one after the other on a state that all succeed keep what each of them keeps where
it succeeds. -/
theorem holds_of_foldlM {σ : Type} {step : σ → α → Except ε σ} (holds : σ → Prop) {items : List α}
    (hstep : ∀ item ∈ items, ∀ state after, holds state → step state item = .ok after →
      holds after)
    {state after : σ} (h : items.foldlM step state = .ok after) (hstate : holds state) :
    holds after := by
  induction items generalizing state with
  | nil =>
    cases h
    exact hstate
  | cons item rest ih =>
    rw [List.foldlM_cons] at h
    obtain ⟨mid, hmid, hrest⟩ := bind_eq_ok.mp h
    exact ih (fun item hitem => hstep item (List.mem_cons_of_mem _ hitem)) hrest
      (hstep item List.mem_cons_self state mid hstate hmid)

/-- Two attempts have the same outcome: they fail with the same error, or succeed with related
results. -/
inductive SameOutcome {γ : Type} (related : α → γ → Prop) : Except ε α → Except ε γ → Prop
  | error (e : ε) : SameOutcome related (.error e) (.error e)
  | ok {a : α} {c : γ} (h : related a c) : SameOutcome related (.ok a) (.ok c)

namespace SameOutcome

variable {γ δ : Type} {related : α → γ → Prop} {final : β → δ → Prop}

/-- Attempts that go on alike from related results have the same outcome. -/
theorem bind {x : Except ε α} {y : Except ε γ} {f : α → Except ε β} {g : γ → Except ε δ}
    (h : SameOutcome related x y) (hnext : ∀ a c, related a c → SameOutcome final (f a) (g c)) :
    SameOutcome final (x >>= f) (y >>= g) := by
  cases h with
  | error e => exact .error e
  | ok h => exact hnext _ _ h

/-- Results of attempts with the same outcome may be changed alike. -/
theorem map {x : Except ε α} {y : Except ε γ} {f : α → β} {g : γ → δ}
    (h : SameOutcome related x y) (hchange : ∀ a c, related a c → final (f a) (g c)) :
    SameOutcome final (x.map f) (y.map g) := by
  cases h with
  | error e => exact .error e
  | ok h => exact .ok (hchange _ _ h)

/-- Errors of attempts with the same outcome may be changed alike. -/
theorem mapError {ε' : Type u} {x : Except ε α} {y : Except ε γ} (h : SameOutcome related x y)
    (change : ε → ε') : SameOutcome related (x.mapError change) (y.mapError change) := by
  cases h with
  | error e => exact .error _
  | ok h => exact .ok h

/-- What is said of related results may take into account where the first one comes from. -/
theorem imp {x : Except ε α} {y : Except ε γ} {weaker : α → γ → Prop}
    (h : SameOutcome related x y) (himp : ∀ a c, x = .ok a → related a c → weaker a c) :
    SameOutcome weaker x y := by
  cases h with
  | error e => exact .error e
  | ok h => exact .ok (himp _ _ rfl h)

/-- An attempt has the same outcome as itself. -/
theorem refl {x : Except ε α} {same : α → α → Prop} (h : ∀ a, same a a) :
    SameOutcome same x x := by
  cases x with
  | error e => exact .error e
  | ok a => exact .ok (h a)

/-- Attempts on the items of two lists have the same outcome if they do item by item. -/
theorem mapM {f : α → Except ε β} {g : γ → Except ε δ} {items : List α} {others : List γ}
    (h : List.Forall₂ (fun a c => SameOutcome final (f a) (g c)) items others) :
    SameOutcome (List.Forall₂ final) (items.mapM f) (others.mapM g) := by
  induction h with
  | nil => exact .ok .nil
  | cons hhead _ ih =>
    rw [List.mapM_cons, List.mapM_cons]
    exact hhead.bind fun b d hbd => ih.bind fun bs ds hrest => .ok (.cons hbd hrest)

end SameOutcome

end GraphMapper

import GraphMapper.KeyedList

/-!
# Keyed lists made of pairs

`KeyedList.ofPairs` sorts pairs by their keys. What it holds under a key is what the pairs have
there, if they agree on it (`get?_ofPairs`), and where no key occurs twice it holds the very pairs
(`ofPairs_perm`).
-/

namespace GraphMapper.KeyedList

variable {α : Type} {entries : KeyedList α} {key : String}

/-- An entry is found under exactly the keys. -/
theorem isSome_get?_iff : (get? entries key).isSome ↔ key ∈ keys entries := by
  induction entries with
  | nil => simp [get?, keys]
  | cons entry rest ih =>
    obtain ⟨other, value⟩ := entry
    have hkeys : keys ((other, value) :: rest) = other :: keys rest := rfl
    rw [hkeys, List.mem_cons, get?]
    by_cases hkey : other = key
    · simp [hkey]
    · rw [if_neg hkey, ih]
      simp [Ne.symm hkey]

/-- Nothing is found under exactly the strings that are no key. -/
theorem get?_eq_none_iff : get? entries key = none ↔ key ∉ keys entries := by
  rw [← isSome_get?_iff]
  simp

/-- A list has an entry under exactly its keys. -/
theorem has_eq_false_iff : has entries key = false ↔ key ∉ keys entries := by
  rw [← isSome_get?_iff, has]
  simp

/-- Nothing is left under a key that is removed. -/
theorem not_mem_remove {value : α} : (key, value) ∉ remove entries key := by
  intro h
  have hkey : key ∈ keys (remove entries key) := List.mem_map_of_mem h
  rw [← isSome_get?_iff, get?_remove, if_pos rfl] at hkey
  cases hkey

/-- What is found under a key is an entry. -/
theorem mem_of_get?_eq_some {value : α} (h : get? entries key = some value) :
    (key, value) ∈ entries := by
  induction entries with
  | nil => simp [get?] at h
  | cons entry rest ih =>
    obtain ⟨other, held⟩ := entry
    rw [get?] at h
    split at h
    · next hkey =>
      cases h
      rw [hkey]
      exact List.mem_cons_self
    · exact List.mem_cons_of_mem _ (ih h)

/-- A list of entries is not empty when something is found in it. -/
theorem ne_nil_iff : entries ≠ [] ↔ ∃ key value, get? entries key = some value := by
  cases entries with
  | nil => simp [get?]
  | cons entry rest =>
    obtain ⟨key, value⟩ := entry
    simp only [ne_eq, reduceCtorEq, not_false_eq_true, true_iff]
    exact ⟨key, value, by simp [get?]⟩

/-- Where no key occurs twice, every entry is found under its key. -/
theorem get?_of_mem (hnodup : (keys entries).Nodup) {entry : String × α} (hmem : entry ∈ entries) :
    get? entries entry.1 = some entry.2 := by
  induction entries with
  | nil => simp at hmem
  | cons head rest ih =>
    obtain ⟨key, value⟩ := head
    simp only [keys, List.map_cons, List.nodup_cons] at hnodup ih
    rcases List.mem_cons.mp hmem with rfl | hmem
    · simp [get?]
    · have hne : key ≠ entry.1 := fun e => hnodup.1 (e ▸ List.mem_map_of_mem hmem)
      simpa [get?, hne] using ih hnodup.2 hmem

/-- Pairs that are stored one after the other show what they agree on, and leave the other keys as
they are. -/
theorem get?_foldl_put {pairs : List (String × α)} {held : String → Option α}
    (hheld : ∀ pair ∈ pairs, held pair.1 = some pair.2) (key : String) :
    get? (pairs.foldl (fun entries pair => put entries pair.1 pair.2) entries) key =
      if key ∈ keys pairs then held key else get? entries key := by
  induction pairs generalizing entries with
  | nil => simp [keys]
  | cons pair rest ih =>
    have hrest : ∀ pair ∈ rest, held pair.1 = some pair.2 := fun pair hmem =>
      hheld pair (List.mem_cons_of_mem _ hmem)
    have hpair := hheld pair List.mem_cons_self
    have hkeys : keys (pair :: rest) = pair.1 :: keys rest := rfl
    rw [List.foldl_cons, ih hrest, get?_put, hkeys]
    by_cases hin : key ∈ keys rest
    · simp [hin]
    · by_cases hkey : pair.1 = key
      · simp [← hkey, hpair]
      · simp [hin, hkey, Ne.symm hkey]

/-- A sorted list of pairs holds what the pairs agree on. -/
theorem get?_ofPairs {pairs : List (String × α)} {held : String → Option α}
    (hheld : ∀ pair ∈ pairs, held pair.1 = some pair.2) (key : String) :
    get? (ofPairs pairs) key = if key ∈ keys pairs then held key else none :=
  get?_foldl_put hheld key

/-- Where no key occurs twice, a sorted list of pairs holds each of them. -/
theorem get?_ofPairs_of_mem {pairs : List (String × α)} (hnodup : (keys pairs).Nodup)
    {pair : String × α} (hmem : pair ∈ pairs) : get? (ofPairs pairs) pair.1 = some pair.2 := by
  have hkey : pair.1 ∈ keys pairs := List.mem_map_of_mem hmem
  rw [get?_ofPairs (fun pair hpair => get?_of_mem hnodup hpair), if_pos hkey,
    get?_of_mem hnodup hmem]

/-- A sorted list of pairs ascends. -/
theorem ofPairs_ascending (pairs : List (String × α)) : Ascending (ofPairs pairs) := by
  suffices h : ∀ entries : KeyedList α, Ascending entries →
      Ascending (pairs.foldl (fun entries pair => put entries pair.1 pair.2) entries) from
    h [] List.Pairwise.nil
  induction pairs with
  | nil => exact fun _ h => h
  | cons pair rest ih => exact fun entries h => ih _ (put_ascending h pair.1 pair.2)

/-- The entries of a sorted list of pairs are pairs of it. -/
theorem mem_of_mem_ofPairs {pairs : List (String × α)} {entry : String × α}
    (h : entry ∈ ofPairs pairs) : entry ∈ pairs := by
  suffices hfold : ∀ entries : KeyedList α,
      entry ∈ pairs.foldl (fun entries pair => put entries pair.1 pair.2) entries →
      entry ∈ pairs ∨ entry ∈ entries by
    rcases hfold [] h with hmem | hmem
    · exact hmem
    · cases hmem
  clear h
  induction pairs with
  | nil => exact fun _ hmem => .inr hmem
  | cons pair rest ih =>
    intro entries hmem
    rcases ih _ hmem with hmem | hmem
    · exact .inl (List.mem_cons_of_mem pair hmem)
    · rcases mem_put hmem with rfl | hmem
      · exact .inl List.mem_cons_self
      · exact .inr hmem

/-- Ascending keys are distinct. -/
theorem keys_nodup (h : Ascending entries) : (keys entries).Nodup :=
  List.Pairwise.map Prod.fst (fun _ _ hlt heq => String.lt_irrefl _ (heq ▸ hlt)) h

/-- Two lists with ascending keys and the same entries are equal. -/
theorem eq_of_mem_iff {others : KeyedList α} (h : Ascending entries) (hothers : Ascending others)
    (hmem : ∀ entry, entry ∈ others ↔ entry ∈ entries) : others = entries := by
  have hnodup : ∀ {list : KeyedList α}, Ascending list → list.Nodup := by
    refine fun hlist => List.Pairwise.imp ?_ hlist
    rintro a b hlt rfl
    exact String.lt_irrefl _ hlt
  have hperm := (List.perm_ext_iff_of_nodup (hnodup hothers) (hnodup h)).mpr hmem
  exact hperm.eq_of_pairwise (fun _ _ _ _ hab hba => absurd hba (String.lt_asymm hab)) hothers h

/-- To store what is found under a key changes nothing. -/
theorem put_eq_self (h : Ascending entries) {value : α} (hget : get? entries key = some value) :
    put entries key value = entries := by
  induction entries with
  | nil => cases hget
  | cons entry rest ih =>
    obtain ⟨other, held⟩ := entry
    rw [Ascending, List.pairwise_cons] at h
    rw [get?] at hget
    split at hget
    · next hkey =>
      cases hget
      rw [put, if_pos hkey.symm, hkey]
    · next hkey =>
      -- The key comes later, and so after this one.
      have hlt : other < key := h.1 _ (mem_of_get?_eq_some hget)
      have hnot : ¬ key < other := fun hgt => String.lt_irrefl _ (String.lt_trans hlt hgt)
      rw [put, if_neg (Ne.symm hkey), if_neg hnot, ih h.2 hget]

/-- Two lists with ascending keys are equal if the same is found in them under every key. -/
theorem eq_of_get?_eq {others : KeyedList α} (h : Ascending entries) (hothers : Ascending others)
    (hget : ∀ key, get? others key = get? entries key) : others = entries := by
  refine eq_of_mem_iff h hothers fun entry => ⟨fun hmem => ?_, fun hmem => ?_⟩
  · exact mem_of_get?_eq_some ((hget entry.1).symm.trans (get?_of_mem (keys_nodup hothers) hmem))
  · exact mem_of_get?_eq_some ((hget entry.1).trans (get?_of_mem (keys_nodup h) hmem))

/-- What is taken out of a list is put back where it was. -/
theorem put_remove (h : Ascending entries) {value : α} (hget : get? entries key = some value) :
    put (remove entries key) key value = entries := by
  refine eq_of_get?_eq h (put_ascending (remove_ascending h key) key value) fun other => ?_
  rw [get?_put, get?_remove]
  by_cases hkey : key = other
  · rw [if_pos hkey, ← hkey, hget]
  · rw [if_neg hkey, if_neg hkey]

/-- A value that is stored under a new key is one entry more. -/
theorem put_perm {key : String} (h : key ∉ keys entries) (value : α) :
    (put entries key value).Perm ((key, value) :: entries) := by
  induction entries with
  | nil => exact .refl _
  | cons head rest ih =>
    obtain ⟨other, held⟩ := head
    simp only [keys, List.map_cons, List.mem_cons, not_or] at h ih
    by_cases hlt : key < other
    · simp [put, h.1, hlt]
    · simp only [put, h.1, hlt, if_false]
      exact ((ih h.2).cons _).trans (.swap _ _ _)

/-- Which keys there are after a value is stored depends on the keys that were there alone. -/
theorem keys_put_congr {β : Type} {others : KeyedList β} (h : keys others = keys entries)
    (value : α) (other : β) : keys (put others key other) = keys (put entries key value) := by
  induction entries generalizing others with
  | nil =>
    obtain rfl : others = [] := List.map_eq_nil_iff.mp h
    rfl
  | cons entry rest ih =>
    cases others with
    | nil => cases h
    | cons entry' rest' =>
      obtain ⟨name, held⟩ := entry
      obtain ⟨name', held'⟩ := entry'
      obtain ⟨rfl, hrest⟩ : name' = name ∧ keys rest' = keys rest := List.cons_eq_cons.mp h
      have hput := ih hrest
      simp only [put]
      split
      · exact congrArg (key :: ·) hrest
      · split
        · exact congrArg (fun names => key :: name' :: names) hrest
        · exact congrArg (name' :: ·) hput

/-- To change no value changes nothing. -/
theorem mapValues_id (entries : KeyedList α) : mapValues id entries = entries :=
  List.map_id entries

/-- To change a value that is stored is to store the changed value. -/
theorem mapValues_put {β : Type} (f : α → β) (key : String) (value : α) :
    mapValues f (put entries key value) = put (mapValues f entries) key (f value) := by
  induction entries with
  | nil => rfl
  | cons entry rest ih =>
    simp only [mapValues, put, List.map_cons] at ih ⊢
    split
    · rfl
    · split
      · rfl
      · rw [List.map_cons, ih]

/-- To change the values of a sorted list is to sort the changed pairs. -/
theorem mapValues_ofPairs {β : Type} (f : α → β) (pairs : List (String × α)) :
    mapValues f (ofPairs pairs) = ofPairs (mapValues f pairs) := by
  suffices h : ∀ entries : KeyedList α,
      mapValues f (pairs.foldl (fun entries pair => put entries pair.1 pair.2) entries) =
        (mapValues f pairs).foldl (fun entries pair => put entries pair.1 pair.2)
          (mapValues f entries) from h []
  induction pairs with
  | nil => exact fun _ => rfl
  | cons pair rest ih =>
    intro entries
    rw [List.foldl_cons, ih, mapValues_put]
    rfl

/-- Each value is changed in a way that may depend on its key. -/
def mapKeyed {β : Type} (change : String → α → β) (entries : KeyedList α) : KeyedList β :=
  entries.map fun entry => (entry.1, change entry.1 entry.2)

/-- What is found under a key is what was there, changed. -/
theorem get?_mapKeyed {β : Type} (change : String → α → β) (entries : KeyedList α) (key : String) :
    get? (mapKeyed change entries) key = (get? entries key).map (change key) := by
  induction entries with
  | nil => rfl
  | cons entry rest ih =>
    simp only [mapKeyed, List.map_cons, get?] at ih ⊢
    split
    · next hkey => rw [hkey, Option.map_some]
    · exact ih

/-- What is kept under a key whose entries are all kept is found as before. -/
theorem get?_filter {keep : String × α → Bool} {key : String}
    (h : ∀ value, keep (key, value) = true) : get? (entries.filter keep) key = get? entries key := by
  induction entries with
  | nil => rfl
  | cons entry rest ih =>
    obtain ⟨other, value⟩ := entry
    by_cases hkey : other = key
    · subst hkey
      rw [List.filter_cons_of_pos (h value), get?, get?, if_pos rfl, if_pos rfl]
    · cases hkeep : keep (other, value) with
      | true => rw [List.filter_cons_of_pos hkeep, get?, get?, if_neg hkey, if_neg hkey, ih]
      | false => rw [List.filter_cons_of_neg (by simp [hkeep]), get?, if_neg hkey, ih]

/-- Where no key occurs twice, the sorted list holds the very pairs. -/
theorem ofPairs_perm {pairs : List (String × α)} (hnodup : (keys pairs).Nodup) :
    (ofPairs pairs).Perm pairs := by
  suffices h : ∀ entries : KeyedList α, (keys (pairs ++ entries)).Nodup →
      (pairs.foldl (fun entries pair => put entries pair.1 pair.2) entries).Perm
        (pairs ++ entries) by
    simpa [ofPairs] using h [] (by simpa using hnodup)
  clear hnodup
  -- What was stored before has other keys, so that each pair is one entry more.
  induction pairs with
  | nil => exact fun entries _ => .refl _
  | cons pair rest ih =>
    intro entries hnodup
    have hperm : (pair :: (rest ++ entries)).Perm (rest ++ pair :: entries) :=
      List.perm_middle.symm
    have hkeys := (hperm.map Prod.fst).nodup_iff.mp hnodup
    have hnew : pair.1 ∉ keys entries := by
      simp only [List.map_cons, List.map_append, List.nodup_append, List.nodup_cons] at hkeys
      exact hkeys.2.1.1
    have hput := put_perm hnew pair.2
    have hkeys' : (keys (rest ++ put entries pair.1 pair.2)).Nodup :=
      ((hput.append_left rest).map Prod.fst).nodup_iff.mpr hkeys
    rw [List.foldl_cons]
    exact ((ih _ hkeys').trans (hput.append_left rest)).trans hperm.symm

/-- A list with ascending keys is sorted already. -/
theorem ofPairs_eq_self (h : Ascending entries) : ofPairs entries = entries :=
  eq_of_mem_iff h (ofPairs_ascending entries) fun _ => (ofPairs_perm (keys_nodup h)).mem_iff

end GraphMapper.KeyedList

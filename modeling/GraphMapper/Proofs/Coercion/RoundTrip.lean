import GraphMapper.Proofs.Calendar
import GraphMapper.Proofs.Coercion
import GraphMapper.Proofs.Value

/-!
# Values of properties are read back from JSON

A value that is written as JSON loses its type: a date becomes a string, and a map of coordinates is
all that is left of a point. The declared type of the property brings it back. Which values come
back is said by their form, without the two directions (`PropertyType.Serializable`), and they are
the only ones (`coerce_ofJson_json_iff`).

A property of any type gets back what JSON itself can tell (`Value.Plain`): what is built from null,
truth values, integers, finite numbers, strings, lists and maps. This goes by induction over nested
lists and maps (`Value.ofJson_json_iff`), where the entries of a map come back in the order of
their keys. The texts of dates and times are read back by their own readers; a leap second that is
not at the end of its minute has the text of another time and comes back as that
(`strayLeapSecond_misread`).
-/

namespace GraphMapper

namespace Value

/-! ## What JSON itself can tell -/

/-- The value is built from null, truth values, integers, finite numbers, strings, lists and maps
with ascending keys. -/
inductive Plain : Value → Prop
  | null : Plain .null
  | bool (b : Bool) : Plain (.bool b)
  | int (i : Int64) : Plain (.int i)
  | float {x : Binary64} (h : x.isFinite) : Plain (.float x)
  | string (s : String) : Plain (.string s)
  | list {items : List Value} (h : ∀ item ∈ items, Plain item) : Plain (.list items)
  | map {entries : Bag} (hkeys : KeyedList.Ascending entries)
      (h : ∀ entry ∈ entries, Plain entry.2) : Plain (.map entries)

variable {items : List Value} {entries : Bag}

/-- An integer of 64 bits is read back. -/
theorem ofInteger_toInt (i : Int64) : ofInteger i.toInt = .int i := by
  have hfits : Int64.minValue.toInt ≤ i.toInt ∧ i.toInt ≤ Int64.maxValue.toInt :=
    ⟨i.minValue_le_toInt, i.toInt_le⟩
  rw [ofInteger, if_pos hfits, Int64.ofInt_toInt]

/-- A number is read back if it is finite. -/
theorem ofJson_floatJson_iff {x : Binary64} : ofJson (floatJson x) = .float x ↔ x.isFinite := by
  unfold floatJson
  split
  · next h => simp [ofJson, h]
  · next h => simp [ofJson, h]

/-- The items of a list are read back if each one is. -/
theorem ofJsonItems_jsonItems_iff :
    ofJsonItems (jsonItems items) = items ↔ ∀ item ∈ items, ofJson item.json = item := by
  induction items with
  | nil => simp [jsonItems, ofJsonItems]
  | cons item rest ih => rw [jsonItems, ofJsonItems, List.cons.injEq, ih, List.forall_mem_cons]

/-- The entries of a map are read back under the keys that they had. -/
theorem ofJsonEntries_jsonEntries (entries : Bag) :
    ofJsonEntries (jsonEntries entries) =
      KeyedList.mapValues (fun value => ofJson value.json) entries := by
  induction entries with
  | nil => rfl
  | cons entry rest ih =>
    rw [jsonEntries, ofJsonEntries, ih]
    rfl

/-- A map is read back if its keys ascend and each of its values is read back. -/
theorem ofPairs_jsonEntries_iff :
    KeyedList.ofPairs (ofJsonEntries (jsonEntries entries)) = entries ↔
      KeyedList.Ascending entries ∧ ∀ entry ∈ entries, ofJson entry.2.json = entry.2 := by
  have hvalues : KeyedList.mapValues (fun value => ofJson value.json) entries = entries ↔
      ∀ entry ∈ entries, ofJson entry.2.json = entry.2 := by
    calc KeyedList.mapValues (fun value => ofJson value.json) entries = entries
        ↔ entries.map (fun entry => (entry.1, ofJson entry.2.json)) = entries.map id := by
          rw [List.map_id, KeyedList.mapValues]
      _ ↔ ∀ entry ∈ entries, (entry.1, ofJson entry.2.json) = entry := List.map_inj_left
      _ ↔ ∀ entry ∈ entries, ofJson entry.2.json = entry.2 := by simp [Prod.ext_iff]
  rw [ofJsonEntries_jsonEntries, ← KeyedList.mapValues_ofPairs]
  constructor
  · intro h
    -- The keys are those of a sorted list.
    have hkeys : KeyedList.Ascending entries := by
      rw [← h, KeyedList.Ascending, KeyedList.mapValues, List.pairwise_map]
      exact KeyedList.ofPairs_ascending entries
    rw [KeyedList.ofPairs_eq_self hkeys] at h
    exact ⟨hkeys, hvalues.mp h⟩
  · rintro ⟨hkeys, h⟩
    rw [KeyedList.ofPairs_eq_self hkeys]
    exact hvalues.mpr h

mutual

/-- What is read back from JSON is built of what JSON can tell. -/
theorem plain_of_ofJson_json : (value : Value) → ofJson value.json = value → value.Plain
  | .null, _ => .null
  | .bool b, _ => .bool b
  | .int i, _ => .int i
  | .float _, h => .float (ofJson_floatJson_iff.mp h)
  | .string s, _ => .string s
  | .list items, h => by
    have hitems : ofJsonItems (jsonItems items) = items := Value.list.inj h
    exact .list (plain_of_items items (ofJsonItems_jsonItems_iff.mp hitems))
  | .map entries, h => by
    have hentries := ofPairs_jsonEntries_iff.mp (Value.map.inj h)
    exact .map hentries.1 (plain_of_entries entries hentries.2)
  | .date _, h => nomatch h
  | .dateTime _, h => nomatch h
  | .localDateTime _, h => nomatch h
  | .localTime _, h => nomatch h
  | .point _, h => nomatch h
  | .node .., h => nomatch h
  | .relationship .., h => nomatch h

/-- So are the items of a list. -/
theorem plain_of_items : (items : List Value) → (∀ item ∈ items, ofJson item.json = item) →
    ∀ item ∈ items, item.Plain
  | [], _, _, hitem => by cases hitem
  | first :: rest, h, item, hitem => by
    obtain ⟨hfirst, hrest⟩ := List.forall_mem_cons.mp h
    rcases List.mem_cons.mp hitem with heq | hitem
    · rw [heq]
      exact plain_of_ofJson_json first hfirst
    · exact plain_of_items rest hrest item hitem

/-- So are the values of a map. -/
theorem plain_of_entries : (entries : List (String × Value)) →
    (∀ entry ∈ entries, ofJson entry.2.json = entry.2) → ∀ entry ∈ entries, entry.2.Plain
  | [], _, _, hentry => by cases hentry
  | (_, value) :: rest, h, entry, hentry => by
    obtain ⟨hfirst, hrest⟩ := List.forall_mem_cons.mp h
    rcases List.mem_cons.mp hentry with heq | hentry
    · rw [heq]
      exact plain_of_ofJson_json value hfirst
    · exact plain_of_entries rest hrest entry hentry

end

/-- The values that are read back from JSON without a declared type are those that are built of what
JSON can tell. -/
theorem ofJson_json_iff {value : Value} : ofJson value.json = value ↔ value.Plain := by
  refine ⟨plain_of_ofJson_json value, fun h => ?_⟩
  -- The induction is on how the value is built, with the members of lists and maps.
  induction h with
  | null | bool | string => rfl
  | int i => exact ofInteger_toInt i
  | float hfinite => exact ofJson_floatJson_iff.mpr hfinite
  | list _ ih => exact congrArg Value.list (ofJsonItems_jsonItems_iff.mpr ih)
  | map hkeys _ ih => exact congrArg Value.map (ofPairs_jsonEntries_iff.mpr ⟨hkeys, ih⟩)

end Value

open Coercion

/-! ## What the declared type brings back -/

/-- The value is one of the declared type that JSON keeps: a finite number, a time with leap seconds
at the ends of minutes alone, a moment whose year has four digits and whose offset is one of whole
minutes, a point of the plane, and of any type what JSON itself can tell. -/
inductive PropertyType.Serializable : PropertyType → Value → Prop
  | any {value : Value} (h : value.Plain) : Serializable .any value
  | string (s : String) : Serializable .string (.string s)
  | integer (i : Int64) : Serializable .integer (.int i)
  | float {x : Binary64} (h : x.isFinite) : Serializable .float (.float x)
  | wholeNumber (i : Int64) : Serializable .number (.int i)
  | number {x : Binary64} (h : x.isFinite) : Serializable .number (.float x)
  | boolean (b : Bool) : Serializable .boolean (.bool b)
  | uuid {s : String} (h : Uuid.Canonical s) : Serializable .uuid (.string s)
  | date (d : Date) : Serializable .date (.date d)
  | dateTime {m : DateTime} (hyear : 0 ≤ m.moment.date.year ∧ m.moment.date.year ≤ 9999)
      (htime : m.moment.time.Regular) (hoffset : m.offset % 60 = 0) :
      Serializable .dateTime (.dateTime m)
  | localDateTime {m : LocalDateTime} (h : m.time.Regular) :
      Serializable .localDateTime (.localDateTime m)
  | localTime {t : Time} (h : t.Regular) : Serializable .localTime (.localTime t)
  | point {x y : Binary64} (hx : x.isFinite) (hy : y.isFinite) :
      Serializable .point (.point (.cartesian x y))

/-- A number that is not finite is written as null, which is no number. -/
theorem isFinite_of_coerce {type : PropertyType} (htype : type = .float ∨ type = .number)
    {x : Binary64} (h : coerce type (.ofJson (Value.float x).json) = .ok (.float x)) :
    x.isFinite := by
  by_contra hfinite
  have hnull : Value.ofJson (Value.float x).json = .null := by
    simp [Value.json, Value.floatJson, Value.ofJson, hfinite]
  rw [hnull] at h
  rcases htype with rfl | rfl <;> cases h

/-- The point that is read from the coordinates that are written of one. -/
theorem coerce_pointJson (p : Point) :
    coerce .point (.ofJson (Value.point p).json) =
      if p.x.isFinite ∧ p.y.isFinite then .ok (.point (.cartesian p.x p.y))
      else .error .incompletePoint := by
  have hfloat (x : Binary64) : (Value.ofJson (Value.floatJson x)).float? =
      if x.isFinite then some x else none := by
    unfold Value.floatJson
    split <;> rfl
  -- A third coordinate is written if there is one, and is not read.
  obtain ⟨height, hjson, hheight⟩ : ∃ height, (Value.point p).json =
      .object (("srid", .integer p.srid) :: ("x", Value.floatJson p.x) ::
        ("y", Value.floatJson p.y) :: height) ∧
      (height = [] ∨ ∃ z, height = [("z", z)]) := by
    refine ⟨_, rfl, ?_⟩
    cases p.z with
    | none => exact .inl rfl
    | some z => exact .inr ⟨_, rfl⟩
  have hentries : KeyedList.Ascending (Value.ofJsonEntries (("srid", .integer p.srid) ::
      ("x", Value.floatJson p.x) :: ("y", Value.floatJson p.y) :: height)) := by
    refine List.pairwise_map.mp (?_ : (List.map Prod.fst _).Pairwise (· < ·))
    rcases hheight with rfl | ⟨z, rfl⟩
    · exact (by decide : ["srid", "x", "y"].Pairwise (· < ·))
    · exact (by decide : ["srid", "x", "y", "z"].Pairwise (· < ·))
  have hlatitude : KeyedList.get? (Value.ofJsonEntries height) "latitude" = none := by
    rcases hheight with rfl | ⟨z, rfl⟩ <;> simp [Value.ofJsonEntries, KeyedList.get?]
  -- The keys are written in ascending order, so that reading does not move them.
  rw [hjson, Value.ofJson, KeyedList.ofPairs_eq_self hentries]
  change pointOf _ = _
  by_cases hx : p.x.isFinite <;> by_cases hy : p.y.isFinite <;>
    simp [pointOf, coordinate?, KeyedList.get?, Value.ofJsonEntries, hlatitude, hfloat, hx, hy]

/-- What a value is made of was found in the text that it is read from. -/
theorem eq_some_of_orRefused {α : Type} {refusal : Refusal} {found : Option α} {make : α → Value}
    {a : α} (hmake : ∀ {b}, make a = make b → a = b)
    (h : orRefused refusal (found.map make) = .ok (make a)) : found = some a := by
  obtain ⟨b, hb, heq⟩ := exists_of_orRefused h
  rw [hb, hmake heq]

/-- What is brought back is of the declared type, and JSON keeps it. -/
theorem serializable_of_coerce {type : PropertyType} {value : Value}
    (h : coerce type (.ofJson value.json) = .ok value) : type.Serializable value := by
  -- The cases are the values of a declared type. JSON loses numbers, times and points of some.
  cases holds_of_coerce h with
  | any => exact .any (Value.ofJson_json_iff.mp (Except.ok.inj h))
  | string s => exact .string s
  | integer i => exact .integer i
  | float x => exact .float (isFinite_of_coerce (.inl rfl) h)
  | wholeNumber i => exact .wholeNumber i
  | number x => exact .number (isFinite_of_coerce (.inr rfl) h)
  | boolean b => exact .boolean b
  | uuid hs => exact .uuid hs
  | date d => exact .date d
  | dateTime m =>
    have hread : ofText m.text .dateTime = .ok (.dateTime m) := h
    rw [ofText] at hread
    have hfound := eq_some_of_orRefused Value.dateTime.inj hread
    obtain ⟨hyear, htime, hoffset⟩ := DateTime.ofText?_text_iff.mp hfound
    exact .dateTime hyear htime hoffset
  | localDateTime m =>
    have hread : ofText m.text .localDateTime = .ok (.localDateTime m) := h
    rw [ofText] at hread
    have hfound := eq_some_of_orRefused Value.localDateTime.inj hread
    exact .localDateTime (LocalDateTime.ofText?_text_iff.mp hfound)
  | localTime t =>
    have hread : ofText t.text .localTime = .ok (.localTime t) := h
    rw [ofText] at hread
    have hfound := eq_some_of_orRefused Value.localTime.inj hread
    exact .localTime (Time.ofText?_text_iff.mp hfound)
  | point p =>
    rw [coerce_pointJson] at h
    split at h
    · next hfinite =>
      rw [← Value.point.inj (Except.ok.inj h)]
      exact .point hfinite.1 hfinite.2
    · cases h

/-- A value of the declared type that JSON keeps is brought back: as it is read already, or from its
text, or from its coordinates. -/
theorem coerce_of_serializable {type : PropertyType} {value : Value}
    (h : type.Serializable value) : coerce type (.ofJson value.json) = .ok value := by
  -- Some are what JSON gives back already, and coercion leaves values of the type as they are.
  have hheld {value : Value} (hvalue : Value.ofJson value.json = value)
      (hholds : type.Holds value) : coerce type (.ofJson value.json) = .ok value := by
    rw [hvalue]
    exact hholds.coerce
  cases h with
  | any h => exact hheld (Value.ofJson_json_iff.mpr h) (.any _)
  | string s => exact hheld rfl (.string s)
  | integer i => exact hheld (Value.ofInteger_toInt i) (.integer i)
  | float h => exact hheld (Value.ofJson_floatJson_iff.mpr h) (.float _)
  | wholeNumber i => exact hheld (Value.ofInteger_toInt i) (.wholeNumber i)
  | number h => exact hheld (Value.ofJson_floatJson_iff.mpr h) (.number _)
  | boolean b => exact hheld rfl (.boolean b)
  | uuid hs => exact hheld rfl (.uuid hs)
  | date d =>
    have hread : ofText d.text .date = .ok (.date d) := by rw [ofText, Date.ofText?_text]; rfl
    exact hread
  | @dateTime m hyear htime hoffset =>
    have hread : ofText m.text .dateTime = .ok (.dateTime m) := by
      rw [ofText, DateTime.ofText?_text_iff.mpr ⟨hyear, htime, hoffset⟩]
      rfl
    exact hread
  | @localDateTime m htime =>
    have hread : ofText m.text .localDateTime = .ok (.localDateTime m) := by
      rw [ofText, LocalDateTime.ofText?_text_iff.mpr htime]
      rfl
    exact hread
  | @localTime t htime =>
    have hread : ofText t.text .localTime = .ok (.localTime t) := by
      rw [ofText, Time.ofText?_text_iff.mpr htime]
      rfl
    exact hread
  | @point x y hx hy =>
    rw [coerce_pointJson]
    exact if_pos ⟨hx, hy⟩

/-- **The values that are read back.** A value that is written as JSON is brought back by coercion
to its declared type exactly if it is of that type and JSON keeps it. -/
theorem coerce_ofJson_json_iff (type : PropertyType) (value : Value) :
    coerce type (.ofJson value.json) = .ok value ↔ type.Serializable value :=
  ⟨serializable_of_coerce, coerce_of_serializable⟩

/-- The leap second behind 23:56:04, when a third of it has passed. -/
def strayLeapSecond : Time where
  hour := 23
  minute := 56
  second := 4
  nano := 1333333333
  hour_lt := by decide
  minute_lt := by decide
  second_lt := by decide
  nano_lt := by decide

/-- It has the text of a third of the second behind it, and comes back as that. -/
theorem strayLeapSecond_misread :
    PropertyType.localTime.Holds (.localTime strayLeapSecond) ∧
    coerce .localTime (.ofJson (Value.localTime strayLeapSecond).json) ≠
      .ok (.localTime strayLeapSecond) ∧
    ∃ t : Time, (t.hour = 23 ∧ t.minute = 56 ∧ t.second = 5 ∧ t.nano = 333333333) ∧
      (Value.localTime t).json = .string "23:56:05.333333333" ∧
      (Value.localTime strayLeapSecond).json = .string "23:56:05.333333333" ∧
      coerce .localTime (.ofJson (Value.localTime strayLeapSecond).json) = .ok (.localTime t) := by
  have hread : coerce .localTime (.ofJson (Value.localTime strayLeapSecond).json) =
      .ok (.localTime strayLeapSecond.asWritten) := by rfl
  have hother : strayLeapSecond.asWritten ≠ strayLeapSecond := by decide
  have htext : (Value.localTime strayLeapSecond).json = .string "23:56:05.333333333" := by rfl
  have hsame : (Value.localTime strayLeapSecond.asWritten).json =
      (Value.localTime strayLeapSecond).json :=
    congrArg Json.string strayLeapSecond.text_asWritten
  refine ⟨.localTime _, fun h => ?_, strayLeapSecond.asWritten, ⟨rfl, rfl, rfl, rfl⟩,
    hsame.trans htext, htext, hread⟩
  rw [hread] at h
  exact hother (Value.localTime.inj (Except.ok.inj h))

end GraphMapper

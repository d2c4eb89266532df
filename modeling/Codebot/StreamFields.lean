import Codebot.JsonReadings

/-!
The fields of a stream entry: each value of a message is written as a text, and what a
text stands for is guessed when the entry is read.
-/
namespace Codebot.StreamFields
open Texts JsonTexts JsonDumps JsonReadings List

/-- The payload of a message, a `dict` of the values that Python has. -/
structure Payload where
  entries : List (Text × Json)
  once : (entries.map Prod.fst).Nodup
  proper : ∀ entry ∈ entries, Throughout Proper entry.2
/-- `str` of a float, which has its own words for the three that are not finite. -/
def strFloat (source : Text) : Text :=
  if source = text "NaN" then text "nan"
  else if source = text "Infinity" then text "inf"
  else if source = text "-Infinity" then text "-inf"
  else source
/-- The text of a field. An integer of too many digits raises, also inside of a value. -/
def encodeField : Json → Option Text
  | .bool value => some (if value then text "1" else text "0")
  | .integer n => if (natText n.natAbs).length ≤ maxDigits then some (dumpInteger n) else none
  | .float source => some (strFloat source)
  | .text t => some t
  | value => if Throughout Short value then some (dumps compactSeparators (sortKeys value)) else none
def isNone : Json → Bool
  | .null => true
  | _ => false
/-- The entries that are not `None`. -/
def present (entries : List (Text × Json)) : List (Text × Json) := entries.filter fun entry => !isNone entry.2
def encodeStreamFields (payload : List (Text × Json)) : Option (List (Text × Text)) :=
  (present payload).mapM fun entry => (encodeField entry.2).map fun t => (entry.1,t)
/-- The value of a field: its JSON, or its text where that is none. Only `JSONDecodeError` is caught. -/
def decodeField (t : Text) : Option Json :=
  match loads t with
  | .ok value => some value
  | .error .decode => some (.text t)
  | .error .digits => none
def decodeStreamFields (fields : List (Text × Text)) : Option (List (Text × Json)) :=
  fields.mapM fun field => (decodeField field.2).map fun value => (field.1,value)
/-- `str(value)` of a value that `or` keeps, given it for floats, arrays and objects. -/
def strKept (str : Json → Option Text) : Json → Option Text
  | .null => none
  | .bool value => if value then some (text "True") else none
  | .integer n => if n = 0 then none else some (dumpInteger n)
  | .text t => if t = [] then none else some t
  | value => str value
/-- `str(payload.get("event_id") or redis_entry_id)`. -/
def sourceEventId (str : Json → Option Text) (redisEntryId : Text) (payload : List (Text × Json)) : Text :=
  ((payload.lookup (text "event_id")).bind (strKept str)).getD redisEntryId
/-- `==` of values and of their types: the order of an object's keys does not count. -/
def Same (value other : Json) : Prop := sortKeys value = sortKeys other
/-- The message is read as it was made, and named as its maker names it. -/
structure Kept (payload decoded : List (Text × Json)) : Prop where
  values : List.Forall₂ (fun entry other => entry.1 = other.1 ∧ Same entry.2 other.2) decoded (present payload)
  eventId : ∀ t, payload.lookup (text "event_id") = some (.text t) →
    ∀ str redisEntryId, sourceEventId str redisEntryId decoded = sourceEventId str redisEntryId payload
def RoundTrips (payload : Payload) : Prop :=
  ∃ decoded, (encodeStreamFields payload.entries).bind decodeStreamFields = some decoded ∧ Kept payload.entries decoded

/-- The values that are read as they are written. -/
def Survives : Json → Prop
  | .null => True
  | .bool _ => False
  | .integer n => (natText n.natAbs).length ≤ maxDigits
  | .float source => source ∉ specials
  | .text t => loads t = .error .decode
  | value => Throughout Short value ∧ Throughout TextsApart value

variable {t : Text}
theorem same_text {value : Json} : Same value (.text t) ↔ value = .text t := by
  cases value <;> simp [Same,sortKeys]

theorem decodeField_text (t : Text) : decodeField t = some (.text t) ↔ loads t = .error .decode := by
  unfold decodeField
  constructor
  · intro decoded
    split at decoded
    · rename_i value read
      cases decoded
      exact absurd rfl (loads_text_ne read)
    · rename_i failed
      exact failed
    · cases decoded
  · intro failed
    rw [failed]

def trip (value : Json) : Option Json := (encodeField value).bind decodeField
theorem trip_ok {value read : Json} (encoded : encodeField value = some t) (isRead : loads t = .ok read) :
    trip value = some read := by
  rw [trip,encoded,Option.bind_some,decodeField,isRead]
theorem blank_compact : ∀ c ∈ compactSeparators.item ++ compactSeparators.key, c = 32 := by
  intro c member
  cases member

theorem trip_integer (n : Int) : trip (.integer n) = some (.integer n) ↔ (natText n.natAbs).length ≤ maxDigits := by
  constructor
  · intro read
    by_contra many
    rw [trip,encodeField,if_neg many] at read
    cases read
  · intro few
    exact trip_ok (if_pos few) (@JsonGrammar.loads_dumps compactSeparators (.integer n) few)

theorem trip_bool (value : Bool) : trip (.bool value) = some (.integer (if value then 1 else 0)) := by
  cases value
  · exact trip_ok (t := text "0") rfl rfl
  · exact trip_ok (t := text "1") rfl rfl

variable {source : Text}
theorem trip_special (special : source ∈ specials) : ∃ t, trip (.float source) = some (.text t) := by
  simp only [specials,mem_cons,not_mem_nil,or_false] at special
  rcases special with rfl | rfl | rfl
  · exact ⟨text "nan",rfl⟩
  · exact ⟨text "inf",rfl⟩
  · exact ⟨text "-inf",rfl⟩
theorem trip_float (proper : Proper (.float source)) (finite : source ∉ specials) :
    trip (.float source) = some (.float source) := by
  have written : strFloat source = source := by
    simp only [specials,mem_cons,not_mem_nil,or_false,not_or] at finite
    rw [strFloat,if_neg finite.1,if_neg finite.2.1,if_neg finite.2.2]
  exact trip_ok (congrArg some written) (@JsonGrammar.loads_dumps compactSeparators (.float source) proper)

theorem trip_nested {value : Json} (nested : (∃ items, value = .array items) ∨ ∃ entries, value = .object entries)
    (proper : Throughout Proper value) :
    (∃ read, trip value = some read ∧ Same read value) ↔ Throughout Short value ∧ Throughout TextsApart value := by
  have encoded : encodeField value = if Throughout Short value then some (dumps compactSeparators (sortKeys value)) else none := by
    rcases nested with ⟨items,rfl⟩ | ⟨entries,rfl⟩ <;> rfl
  rw [trip,encoded]
  by_cases short : Throughout Short value
  · rw [if_pos short,Option.bind_some,← loads_sorted_iff blank_compact proper short,and_iff_right short]
    constructor
    · rintro ⟨read,decoded,same⟩
      unfold decodeField at decoded
      split at decoded
      · rename_i other isRead
        cases decoded
        exact ⟨read,isRead,same⟩
      · cases decoded
        have isText := same_text.mp same.symm
        rcases nested with ⟨items,rfl⟩ | ⟨entries,rfl⟩ <;> cases isText
      · cases decoded
    · rintro ⟨read,isRead,same⟩
      exact ⟨read,by rw [decodeField,isRead],same⟩
  · rw [if_neg short]
    constructor
    · rintro ⟨read,decoded,_⟩
      cases decoded
    · rintro ⟨isShort,_⟩
      exact absurd isShort short

theorem survives_iff {value : Json} (proper : Throughout Proper value) (notNone : isNone value = false) :
    (∃ read, trip value = some read ∧ Same read value) ↔ Survives value := by
  cases value with
  | null => cases notNone
  | bool b =>
    rw [trip_bool]
    refine iff_of_false ?_ id
    rintro ⟨read,⟨⟩,same⟩
    cases same
  | integer n =>
    rw [Survives,← trip_integer]
    constructor
    · rintro ⟨read,decoded,same⟩
      cases read <;> cases same
      exact decoded
    · intro decoded
      exact ⟨_,decoded,rfl⟩
  | float source =>
    constructor
    · rintro ⟨read,decoded,same⟩ special
      obtain ⟨t,isText⟩ := trip_special special
      cases isText.symm.trans decoded
      cases same
    · intro finite
      exact ⟨_,trip_float proper finite,rfl⟩
  | text t =>
    rw [Survives,← decodeField_text]
    constructor
    · rintro ⟨read,decoded,same⟩
      cases same_text.mp same
      exact decoded
    · intro decoded
      exact ⟨_,decoded,rfl⟩
  | array items => exact trip_nested (.inl ⟨items,rfl⟩) proper
  | object entries => exact trip_nested (.inr ⟨entries,rfl⟩) proper

theorem mapM_some {α β : Type} {f : α → Option β} {items : List α} {results : List β} :
    items.mapM f = some results ↔ List.Forall₂ (fun item result => f item = some result) items results := by
  induction items generalizing results with
  | nil => simp [eq_comm]
  | cons item rest ih =>
    simp only [mapM_cons,bind,pure,Option.bind_eq_some_iff,Option.some.injEq,forall₂_cons_left_iff]
    constructor
    · rintro ⟨first,isFirst,others,areOthers,rfl⟩
      exact ⟨first,others,isFirst,ih.mp areOthers,rfl⟩
    · rintro ⟨first,others,isFirst,areOthers,rfl⟩
      exact ⟨first,isFirst,others,ih.mpr areOthers,rfl⟩

variable {decoded entries : List (Text × Json)}

theorem decoded_iff :
    (encodeStreamFields entries).bind decodeStreamFields = some decoded ↔
      List.Forall₂ (fun entry read => read.1 = entry.1 ∧ trip entry.2 = some read.2) (present entries) decoded := by
  simp only [Option.bind_eq_some_iff,encodeStreamFields,decodeStreamFields,mapM_some]
  generalize present entries = kept
  induction kept generalizing decoded with
  | nil =>
    constructor
    · rintro ⟨fields,encoded,reads⟩
      cases encoded
      cases reads
      exact .nil
    · rintro ⟨⟩
      exact ⟨[],.nil,.nil⟩
  | cons entry rest ih =>
    constructor
    · rintro ⟨fields,encoded,reads⟩
      obtain ⟨field,others,isField,areOthers,rfl⟩ := forall₂_cons_left_iff.mp encoded
      obtain ⟨read,more,isRead,areMore,rfl⟩ := forall₂_cons_left_iff.mp reads
      obtain ⟨t,isText,rfl⟩ := Option.map_eq_some_iff.mp isField
      obtain ⟨value,isValue,rfl⟩ := Option.map_eq_some_iff.mp isRead
      exact .cons ⟨rfl,by rw [trip,isText,Option.bind_some,isValue]⟩ (ih.mp ⟨others,areOthers,areMore⟩)
    · intro all
      obtain ⟨⟨key,value⟩,more,⟨rfl,isTrip⟩,areMore,rfl⟩ := forall₂_cons_left_iff.mp all
      obtain ⟨fields,encoded,reads⟩ := ih.mpr areMore
      obtain ⟨t,isText,isValue⟩ := Option.bind_eq_some_iff.mp isTrip
      exact ⟨(entry.1,t) :: fields,.cons (by rw [isText,Option.map_some]) encoded,.cons (by rw [isValue,Option.map_some]) reads⟩

variable {key : Text}

theorem lookup_decoded
    (values : List.Forall₂ (fun entry other => entry.1 = other.1 ∧ Same entry.2 other.2) decoded entries)
    (found : entries.lookup key = some (.text t)) : decoded.lookup key = some (.text t) := by
  induction values with
  | nil => cases found
  | @cons read entry decoded entries first _ ih =>
    obtain ⟨read,value⟩ := read
    obtain ⟨key',other⟩ := entry
    obtain ⟨rfl,same⟩ := first
    simp only [lookup_cons] at found ⊢
    split at found
    · cases found
      exact congrArg some (same_text.mp same)
    · exact ih found

theorem lookup_present (found : entries.lookup key = some (.text t)) :
    (present entries).lookup key = some (.text t) := by
  induction entries with
  | nil => cases found
  | cons entry rest ih =>
    obtain ⟨other,value⟩ := entry
    simp only [lookup_cons] at found
    unfold present
    rw [filter_cons]
    split at found
    · rename_i same
      cases found
      rw [if_pos (by rfl),lookup_cons,same]
    · rename_i differs
      split
      · rw [lookup_cons,differs]
        exact ih found
      · exact ih found

theorem fields_iff :
    (∃ decoded : List (Text × Json),
        List.Forall₂ (fun entry read => read.1 = entry.1 ∧ trip entry.2 = some read.2) entries decoded ∧
        List.Forall₂ (fun read entry => read.1 = entry.1 ∧ Same read.2 entry.2) decoded entries) ↔
      ∀ entry ∈ entries, ∃ read, trip entry.2 = some read ∧ Same read entry.2 := by
  induction entries with
  | nil => exact ⟨fun _ _ member => absurd member not_mem_nil,fun _ => ⟨[],.nil,.nil⟩⟩
  | cons entry rest ih =>
    rw [forall_mem_cons,← ih]
    constructor
    · rintro ⟨decoded,trips,same⟩
      obtain ⟨read,more,⟨_,isTrip⟩,areTrips,rfl⟩ := forall₂_cons_left_iff.mp trips
      obtain ⟨⟨_,isSame⟩,areSame⟩ := forall₂_cons.mp same
      exact ⟨⟨read.2,isTrip,isSame⟩,more,areTrips,areSame⟩
    · rintro ⟨⟨read,isTrip,isSame⟩,more,areTrips,areSame⟩
      exact ⟨(entry.1,read) :: more,.cons ⟨rfl,isTrip⟩ areTrips,.cons ⟨rfl,isSame⟩ areSame⟩

/-- A tick whose id is a number of JSON. -/
def numbered : Payload where
  entries := [(text "event_id",.text (text "1e5"))]
  once := List.nodup_singleton _
  proper := by
    intro entry member
    rw [List.mem_singleton] at member
    subst member
    unfold Throughout Proper
    decide

end Codebot.StreamFields

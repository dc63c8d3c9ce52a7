import SearchRelay.Message.Decoding
import SearchRelay.Message.Encoding
import SearchRelay.Proofs.Json.Record

namespace SearchRelay

open Json Json.Decoder

theorem ToMembers.toList_toText {α : Type} [ToMembers α] (a : α) : (ToMembers.toText a).toList =
    '\x7b' :: (joined true ((ToMembers.members a).map Value.memberChars) ++ ['\x7d']) :=
  Value.chars_object (ToMembers.members a)

namespace Emit

def eventPart (e : Emit) : Decoder.Part Emit :=
  ⟨"event", Cursor.quoted e.event, fun x => { x with event := e.event }⟩

def dataPart (e : Emit) : Decoder.Part Emit :=
  ⟨"data", e.data.chars, fun x => { x with data := e.data }⟩

def parts (e : Emit) : List (Decoder.Part Emit) := [e.eventPart, e.dataPart]

theorem chars_parts (e : Emit) :
    e.parts.map Decoder.Part.chars = (ToMembers.members e).map Value.memberChars := by
  have hevent : (Value.string e.event).chars = Cursor.quoted e.event := Value.chars_string e.event
  simp [parts, eventPart, dataPart, ToMembers.members, Decoder.Part.chars, Value.memberChars,
    hevent]

theorem toList_toText (e : Emit) :
    e.toText.toList = '\x7b' :: (joined true (e.parts.map Decoder.Part.chars) ++ ['\x7d']) := by
  rw [toText, ToMembers.toList_toText, chars_parts]

def eventField : Decoder.Field Emit :=
  field "event" (Decoder.text "a string") fun x e => { e with event := x }

def dataField : Decoder.Field Emit := field "data" Decoder.free fun x e => { e with data := x }

structure RoundTrip (e : Emit) : Prop where
  shallow : e.data.nesting ≤ 126 → run decoder e.toText = .ok e
  deep : 126 < e.data.nesting →
    ∃ place, run decoder e.toText = .error ⟨.fault .tooDeep, some place⟩
  stable (e' : Emit) : run decoder e.toText = .ok e' → e'.toText = e.toText

theorem eventPart_fits (e : Emit) : e.eventPart.Fits [eventField, dataField] 126 :=
  ⟨eventField, rfl, fun rest _ => field_takes (text_takes _ _ rest)⟩

theorem run_shallow {e : Emit} (proper : e.data.Proper) (h : e.data.nesting ≤ 126) :
    run decoder e.toText = .ok e := by
  have fits : ∀ q ∈ e.parts, q.Fits [eventField, dataField] 126 := by
    intro q hq
    simp only [parts, List.mem_cons, List.not_mem_nil, or_false] at hq
    rcases hq with rfl | rfl
    · exact e.eventPart_fits
    · exact ⟨dataField, rfl, fun rest hrest => field_takes (free_takes proper h hrest)⟩
  have hread := record_joined "Emit" e.parts fits (by simp [parts, eventPart, dataPart])
    (by simp [parts, eventPart, dataPart, eventField, dataField, field]) ⟨"", .null⟩ []
  rw [← toList_toText] at hread
  exact run_of_takes hread

theorem run_deep {e : Emit} (proper : e.data.Proper) (h : 126 < e.data.nesting) :
    ∃ place, run decoder e.toText = .error ⟨.fault .tooDeep, some place⟩ := by
  have fails (rest : List Char) (p : Place) (hrest : EndsNumber rest) :
      ∃ err, (∃ place, err = ⟨.fault .tooDeep, some place⟩) ∧
        dataField.read 126 ⟨e.data.chars ++ rest, p⟩ = .error err := by
    obtain ⟨q, hq⟩ := free_deep proper h hrest p
    exact ⟨_, ⟨q, rfl⟩, by simp only [dataField, field, hq, Except.map]⟩
  have known : ([eventField, dataField].find? fun f => f.name == e.dataPart.key) = some dataField :=
    rfl
  have hrecord := record_fails known fails "Emit" [e.eventPart] []
    (by simpa using e.eventPart_fits) (by simp [eventPart, dataPart]) ⟨"", .null⟩ .start
  obtain ⟨err, ⟨place, rfl⟩, hrecord⟩ := hrecord
  refine ⟨place, run_of_fails ?_⟩
  rw [toList_toText]
  exact hrecord

/-- Every event whose data have no floats can be read by whom it is sent to, unless the data are
nested too deep. -/
theorem round_trip {e : Emit} (proper : e.data.Proper) : RoundTrip e := by
  refine ⟨run_shallow proper, run_deep proper, fun e' he' => ?_⟩
  by_cases h : e.data.nesting ≤ 126
  · rw [run_shallow proper h] at he'
    obtain rfl := Except.ok.inj he'
    rfl
  · obtain ⟨place, hdeep⟩ := run_deep proper (Nat.lt_of_not_le h)
    rw [hdeep] at he'
    cases he'

/-- Controls, quotes and characters beyond the first plane, and both ends of the integers. -/
theorem round_trip_extreme :
    Value.Proper (.object [("\x01\"\\", .array [.nat 18446744073709551615, .null]),
      ("🌲", .number (.integer (-9223372036854775808)))]) ∧
    RoundTrip ⟨"\x00\n🌲", .object [("\x01\"\\", .array [.nat 18446744073709551615, .null]),
      ("🌲", .number (.integer (-9223372036854775808)))]⟩ := by
  have each : ∀ m ∈ [("\x01\"\\", Value.array [.nat 18446744073709551615, .null]),
      ("🌲", .number (.integer (-9223372036854775808)))], m.2.Proper := by
    simp only [List.forall_mem_cons]
    refine ⟨.array ?_, .integer (by decide) (by decide), nofun⟩
    simp only [List.forall_mem_cons]
    exact ⟨.integer (by decide) (by decide), .null, nofun⟩
  have proper := Value.Proper.object (by decide) each
  exact ⟨proper, round_trip proper⟩

end Emit

end SearchRelay

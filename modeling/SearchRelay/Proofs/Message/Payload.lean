import SearchRelay.Message.Extraction
import SearchRelay.Proofs.Json.Meaning
import SearchRelay.Proofs.Message.Envelope
import SearchRelay.Proofs.Timestamp.Text
import SearchRelay.Proofs.Uuid

namespace SearchRelay

open Json Json.Decoder

theorem ClientId.means (u : ClientId) : Means decoder ofValue (.string u.toText) u := by
  have hvalue : ofValue = Extractor.parsed expectation ofText := by
    funext v
    cases v <;> rfl
  have htext : ofText u.toText = .ok u := by rw [ofText, Uuid.parse_toText]
  rw [hvalue]
  exact .of_parsed expectation htext

theorem ControllerState.means (s : ControllerState) : Means decoder ofValue (.string s.name) s :=
  .of_variant (by cases s <;> rfl)

theorem Timestamp.means {t : Timestamp} (valid : t.Valid) :
    Means decoder ofValue (.string t.toText) t := by
  have hdecoder : decoder =
      Decoder.parsed "an RFC 3339 formatted date and time string" ofText := rfl
  have htext : ofText t.toText = .ok t := by rw [ofText, parse_toText valid]
  rw [hdecoder, ofValue]
  exact .of_parsed _ htext

structure Reads {α : Type} [ToMembers α] (decoder : Decoder α) (extractor : Extractor α) (a : α) :
    Prop where
  flat : Flat (ToMembers.members a)
  direct : Means decoder extractor (.object (ToMembers.members a)) a
  sorted : Means decoder extractor (ToMembers.toValue a) a

theorem reads_of_filled {α : Type} [ToMembers α] {fields : List (Decoder.Field α)}
    {extractors : List (Extractor.Field α)} {name : String} {blank a : α} (slots : List (Slot α))
    (members : ToMembers.members a = slots.map Slot.entry) (all : Slot.setAll slots blank = a)
    (scalars : ∀ q ∈ slots, q.value.Scalar) (filled : Filled fields extractors slots)
    (apart : ∀ q ∈ slots, ∀ r ∈ slots, ∀ x : α, r.set (q.set x) = q.set (r.set x)) :
    Reads (record name fields blank) (Extractor.record name extractors blank) a := by
  constructor
  case flat =>
    have hkeys : (slots.map Slot.entry).map Prod.fst = slots.map Slot.key := List.map_map
    rw [members]
    exact ⟨hkeys ▸ filled.once, List.forall_mem_map.2 scalars⟩
  case direct =>
    rw [members, ← all]
    exact filled.means name blank
  case sorted =>
    rw [ToMembers.toValue, members, ← all]
    exact filled.means_sorted apart name blank

namespace StatusPayload

structure Valid (s : StatusPayload) : Prop where
  files : s.files < Nat.pow 2 64
  scans : s.scans < Nat.pow 2 64
  updatedAt : s.updatedAt.Valid

def slots (s : StatusPayload) : List (Slot StatusPayload) :=
  [⟨"state", .string s.state.name, fun x => { x with state := s.state }⟩,
    ⟨"root", .string s.root, fun x => { x with root := s.root }⟩,
    ⟨"files", .nat s.files, fun x => { x with files := s.files }⟩,
    ⟨"scans", .nat s.scans, fun x => { x with scans := s.scans }⟩,
    ⟨"mock", .bool s.mock, fun x => { x with mock := s.mock }⟩,
    ⟨"updated_at", .string s.updatedAt.toText, fun x => { x with updatedAt := s.updatedAt }⟩]

theorem reads {s : StatusPayload} (valid : s.Valid) : Reads decoder ofValue s := by
  refine reads_of_filled s.slots rfl rfl ?_ ⟨?_, ?_, ?_, ?_⟩ (by simp [slots])
  · simp only [slots, List.forall_mem_cons]
    exact ⟨.string _, .string _, .nat valid.files, .nat valid.scans, .bool _, .string _, nofun⟩
  · simp only [slots, List.forall_mem_cons]
    exact ⟨⟨_, _, rfl, rfl, .field _ _ s.state.means⟩, ⟨_, _, rfl, rfl, .field _ _ (.of_text _ _)⟩,
      ⟨_, _, rfl, rfl, .field _ _ (.of_word valid.files)⟩,
      ⟨_, _, rfl, rfl, .field _ _ (.of_word valid.scans)⟩,
      ⟨_, _, rfl, rfl, .field _ _ (.of_bool _)⟩,
      ⟨_, _, rfl, rfl, .field _ _ (Timestamp.means valid.updatedAt)⟩, nofun⟩
  all_goals simp [slots, field, Extractor.field]

end StatusPayload

namespace IndexUpdate

structure Valid (u : IndexUpdate) : Prop where
  files : u.files < Nat.pow 2 64
  added : u.added < Nat.pow 2 64
  removed : u.removed < Nat.pow 2 64

def slots (u : IndexUpdate) : List (Slot IndexUpdate) :=
  [⟨"files", .nat u.files, fun x => { x with files := u.files }⟩,
    ⟨"added", .nat u.added, fun x => { x with added := u.added }⟩,
    ⟨"removed", .nat u.removed, fun x => { x with removed := u.removed }⟩]

theorem reads {u : IndexUpdate} (valid : u.Valid) : Reads decoder ofValue u := by
  refine reads_of_filled u.slots rfl rfl ?_ ⟨?_, ?_, ?_, ?_⟩ (by simp [slots])
  · simp only [slots, List.forall_mem_cons]
    exact ⟨.nat valid.files, .nat valid.added, .nat valid.removed, nofun⟩
  · simp only [slots, List.forall_mem_cons]
    exact ⟨⟨_, _, rfl, rfl, .field _ _ (.of_word valid.files)⟩,
      ⟨_, _, rfl, rfl, .field _ _ (.of_word valid.added)⟩,
      ⟨_, _, rfl, rfl, .field _ _ (.of_word valid.removed)⟩, nofun⟩
  all_goals simp [slots, field, Extractor.field]

end IndexUpdate

namespace Progress

structure Valid (p : Progress) : Prop where
  scanned : p.scanned < Nat.pow 2 64
  total : p.total < Nat.pow 2 64

def slots (p : Progress) : List (Slot Progress) :=
  [⟨"scanned", .nat p.scanned, fun x => { x with scanned := p.scanned }⟩,
    ⟨"total", .nat p.total, fun x => { x with total := p.total }⟩]

theorem reads {p : Progress} (valid : p.Valid) : Reads decoder ofValue p := by
  refine reads_of_filled p.slots rfl rfl ?_ ⟨?_, ?_, ?_, ?_⟩ (by simp [slots])
  · simp only [slots, List.forall_mem_cons]
    exact ⟨.nat valid.scanned, .nat valid.total, nofun⟩
  · simp only [slots, List.forall_mem_cons]
    exact ⟨⟨_, _, rfl, rfl, .field _ _ (.of_word valid.scanned)⟩,
      ⟨_, _, rfl, rfl, .field _ _ (.of_word valid.total)⟩, nofun⟩
  all_goals simp [slots, field, Extractor.field]

end Progress

namespace Welcome

def slots (w : Welcome) : List (Slot Welcome) :=
  [⟨"client_id", .string w.client.toText, fun _ => ⟨w.client⟩⟩]

theorem reads (w : Welcome) : Reads decoder ofValue w := by
  refine reads_of_filled w.slots rfl rfl ?_ ⟨?_, ?_, ?_, ?_⟩ (by simp [slots])
  · simp only [slots, List.forall_mem_cons]
    exact ⟨.string _, nofun⟩
  · simp only [slots, List.forall_mem_cons]
    exact ⟨⟨_, _, rfl, rfl, .field _ _ (ClientId.means w.client)⟩, nofun⟩
  all_goals simp [slots, field, Extractor.field]

end Welcome

/-- How a payload travels as the data of an event. -/
structure Travels {α : Type} [ToMembers α] (decoder : Decoder α) (extractor : Extractor α) (a : α) :
    Prop where
  sorted : ∃ ms, ToMembers.toValue a = .object ms ∧ ms.Pairwise (·.1 < ·.1) ∧
    ms.Perm (ToMembers.members a)
  /-- A client gets the event back, and from its data, or from their text, the payload. -/
  comes (event : String) : ∃ e, run Emit.decoder (Emit.ofPayload event a).toText = .ok e ∧
    e.event = event ∧ extractor e.data = .ok a ∧ run decoder e.data.toText = .ok a

structure Legible {α : Type} (valid : α → Prop) (decoder : Decoder α) (text : α → String) :
    Prop where
  back {a : α} : valid a → run decoder (text a) = .ok a
  distinct {a b : α} : valid a → valid b → text a = text b → a = b

theorem Legible.of_back {α : Type} {valid : α → Prop} {decoder : Decoder α} {text : α → String}
    (back : ∀ a, valid a → run decoder (text a) = .ok a) : Legible valid decoder text := by
  refine ⟨fun h => back _ h, fun {a b} ha hb htext => ?_⟩
  have hread := back a ha
  rw [htext, back b hb] at hread
  exact (Except.ok.inj hread).symm

namespace Reads

variable {α : Type} [ToMembers α] {decoder : Decoder α} {extractor : Extractor α} {a : α}

theorem travels (h : Reads decoder extractor a) : Travels decoder extractor a := by
  have hnesting : (ToMembers.toValue a).nesting = 1 := h.flat.sorted.nesting
  refine ⟨⟨_, rfl, Members.sorted_ofList _, Members.ofList_perm h.flat.once⟩, fun event => ?_⟩
  have hframe := Emit.run_shallow (e := Emit.ofPayload event a) h.flat.proper
    (by rw [Emit.ofPayload, hnesting]; decide)
  exact ⟨_, hframe, rfl, h.sorted.extracts, h.sorted.run (by rw [hnesting]; decide)⟩

theorem run_toText (h : Reads decoder extractor a) : run decoder (ToMembers.toText a) = .ok a :=
  h.direct.run (by rw [h.flat.nesting]; decide)

end Reads

namespace QueueMessage

variable {depth : Nat} (fuel : Nat) (first : Bool) (acc : List (String × Value))
  (more : List (List Char)) (rest : List Char) (p : Place)

theorem kind_takes {k : Kind} {name : String} (known : kinds.lookup name = some k) :
    Cursor.Takes (kind depth) (Cursor.quoted name) k rest :=
  parsed_takes _ (by simp only [known]) rest

theorem tagged_kind {k : Kind} {name : String} (known : kinds.lookup name = some k) :
    tagged depth (fuel + 1) first none acc
        ⟨joined first (Value.memberChars ("kind", .string name) :: more) ++ rest, p⟩ =
      tagged depth fuel false (some k) acc ⟨joined false more ++ rest,
        p.past (joined first [Value.memberChars ("kind", .string name)])⟩ := by
  have hkind (q : Place) : kind depth ⟨Cursor.quoted name ++ (joined false more ++ rest), q⟩ =
      .ok (k, ⟨joined false more ++ rest, q.past (Cursor.quoted name)⟩) := kind_takes _ known q
  rw [tagged, Value.memberChars, Cursor.nextKey_joined, past_joined]
  simp only [Cursor.string_quoted, List.cons_append, Cursor.colon_cons, if_true, Except.bind,
    Value.chars_string, hkind]
  simp [joined]

theorem tagged_other {k : Option Kind} {key : String} {v : Value} (other : key ≠ "kind")
    (proper : v.Proper) (shallow : v.nesting ≤ depth)
    (hends : EndsNumber (joined false more ++ rest)) :
    tagged depth (fuel + 1) first k acc
        ⟨joined first (Value.memberChars (key, v) :: more) ++ rest, p⟩ =
      tagged depth fuel false k ((key, v) :: acc) ⟨joined false more ++ rest,
        p.past (joined first [Value.memberChars (key, v)])⟩ := by
  have hvalue (q : Place) := free_takes proper shallow hends q
  rw [tagged, Value.memberChars, Cursor.nextKey_joined, past_joined]
  simp only [free] at hvalue
  simp only [Cursor.string_quoted, List.cons_append, Cursor.colon_cons, if_neg other, Except.bind,
    hvalue]
  simp [joined]

theorem tagged_end (k : Kind) : tagged depth (fuel + 1) first (some k) acc ⟨'\x7d' :: rest, p⟩ =
    .ok (.ok (k, .members acc.reverse), ⟨'\x7d' :: rest, p⟩) := by
  rw [tagged, Cursor.nextKey_end]

theorem tagged_members (client : ClientId) {fuel : Nat} (hfuel : 2 < fuel) :
    tagged depth fuel true none []
        ⟨joined true ((ToMembers.members (newConnection client)).map Value.memberChars) ++
          '\x7d' :: rest, p⟩ =
      .ok (.ok (.newConnection, .members [("client_id", .string client.toText)]),
        ⟨'\x7d' :: rest, p.past
          (joined true ((ToMembers.members (newConnection client)).map Value.memberChars))⟩) := by
  obtain ⟨fuel, rfl⟩ := Nat.exists_eq_add_of_lt hfuel
  have hsteps : 2 + fuel + 1 = fuel + 1 + 1 + 1 := by omega
  have hends : EndsNumber (joined false [] ++ '\x7d' :: rest) := by
    rintro y ⟨⟩
    decide
  have hother : "client_id" ≠ "kind" := by decide
  have hmembers : (ToMembers.members (newConnection client)).map Value.memberChars =
      [Value.memberChars ("kind", .string "new_connection"),
        Value.memberChars ("client_id", .string client.toText)] := rfl
  rw [hmembers, hsteps, tagged_kind _ _ _ _ _ _ (k := .newConnection) rfl,
    tagged_other _ _ _ _ _ _ hother (.string client.toText) (Nat.zero_le _) hends, joined,
    List.nil_append, tagged_end]
  simp [joined]

theorem run_toText (m : QueueMessage) : run decoder (ToMembers.toText m) = .ok m := by
  cases m with
  | newConnection client =>
    apply run_of_takes
    rw [ToMembers.toList_toText]
    intro p
    generalize hbody :
      joined true ((ToMembers.members (newConnection client)).map Value.memberChars) = body
    have hstart : starting ⟨'\x7b' :: (body ++ ['\x7d']), p⟩ =
        .ok ('\x7b', ⟨'\x7b' :: (body ++ ['\x7d']), p⟩) := rfl
    have htagged := @tagged_members 126 [] (p.after '\x7b') client (body.length + 3) (by omega)
    rw [hbody] at htagged
    have hclient : clientOf (.members [("client_id", .string client.toText)]) = .ok client := by
      have htext : ClientId.ofValue (.string client.toText) = .ok client :=
        (ClientId.means client).extracts
      simp [clientOf, clientOfMembers, htext]
    have hclose (content : Kind × Content) (q : Place) :
        close (Cursor.closeObject ⟨['\x7d'], q⟩) (.ok content) =
          .ok (content, ⟨[], q.after '\x7d'⟩) := rfl
    simp only [List.append_nil, decoder, hstart, bind, Except.bind]
    simp [maxDepth, htagged, hclose, hclient, pure, Except.pure]

end QueueMessage

/-- What is sent is what arrives: payloads as the data of events, and every message in its own
text. -/
structure WireFaithful : Prop where
  status {s : StatusPayload} : s.Valid → Travels StatusPayload.decoder StatusPayload.ofValue s
  update {u : IndexUpdate} : u.Valid → Travels IndexUpdate.decoder IndexUpdate.ofValue u
  progress {p : Progress} : p.Valid → Travels Progress.decoder Progress.ofValue p
  welcome (w : Welcome) : Travels Welcome.decoder Welcome.ofValue w
  statusTexts : Legible StatusPayload.Valid StatusPayload.decoder fun s => ToMembers.toText s
  updateTexts : Legible IndexUpdate.Valid IndexUpdate.decoder fun u => ToMembers.toText u
  progressTexts : Legible Progress.Valid Progress.decoder fun p => ToMembers.toText p
  welcomeTexts : Legible (fun _ => True) Welcome.decoder fun w => ToMembers.toText w
  clientTexts : Legible (fun _ => True) ClientId.decoder fun u => quote u.toText
  stateTexts : Legible (fun _ => True) ControllerState.decoder fun s => quote s.name
  signalTexts : Legible (fun _ => True) QueueMessage.decoder fun m => ToMembers.toText m
  /-- A moment is written as its date and its time of day, and with the fewest digits behind the
  point. -/
  moments {t : Timestamp} : t.Valid → ∃ year month day digits : Nat,
    Timestamp.OnDate t.day year month day ∧ Timestamp.Fewest (t.nano % 10 ^ 9) digits ∧
      t.toText.toList = Timestamp.charsOf year month day t.second (t.nano / 10 ^ 9)
        (t.nano % 10 ^ 9) digits
  /-- An identifier is written in lower-case digits, with hyphens between the groups. -/
  identifiers (u : Uuid) : ∃ ds : List Char, ds.length = 32 ∧ (∀ c ∈ ds, c ∈ Uuid.lowerHex) ∧
    Text.natOfDigits? 16 ds 0 = some u.bits.toNat ∧ u.toText.toList = Uuid.hyphenate ds

theorem wire_faithful : WireFaithful where
  status valid := (StatusPayload.reads valid).travels
  update valid := (IndexUpdate.reads valid).travels
  progress valid := (Progress.reads valid).travels
  welcome w := w.reads.travels
  statusTexts := .of_back fun _ h => (StatusPayload.reads h).run_toText
  updateTexts := .of_back fun _ h => (IndexUpdate.reads h).run_toText
  progressTexts := .of_back fun _ h => (Progress.reads h).run_toText
  welcomeTexts := .of_back fun w _ => w.reads.run_toText
  clientTexts := .of_back fun u _ => (ClientId.means u).run (Nat.zero_le _)
  stateTexts := .of_back fun s _ => s.means.run (Nat.zero_le _)
  signalTexts := .of_back fun m _ => m.run_toText
  moments {t} valid := by
    obtain ⟨year, month, day, shown, date⟩ := valid.date
    have hnano := valid.nano
    obtain ⟨digits, fewest, hchars⟩ := Timestamp.toList_toText shown date.years (by omega)
    exact ⟨year, month, day, digits, date, fewest, hchars⟩
  identifiers u := ⟨u.digits, u.length_digits, fun _ => Uuid.mem_digits, u.natOfDigits?_digits,
    u.toList_toText⟩

/-- The last leap second of the year 9999, and counters that can go no further. -/
theorem wire_faithful_last : Travels StatusPayload.decoder StatusPayload.ofValue
    ⟨.stopped, "🌲\n\"", 18446744073709551615, 18446744073709551615, true,
      ⟨2932896, 86399, 1999999999⟩⟩ :=
  wire_faithful.status ⟨by decide, by decide, by decide, by decide, by decide⟩

end SearchRelay

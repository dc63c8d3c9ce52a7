import SearchRelay.Json.Decoder
import SearchRelay.Message.Basic

namespace SearchRelay

open Json (Decoder Value)
open Json.Decoder (Outcome field record)

namespace ClientId

def expectation : String := "a formatted UUID string"

def ofText (s : String) : Except Mismatch ClientId :=
  match Uuid.parse s with
  | .ok u => .ok u
  | .error e => .error (.custom e.message)

def decoder : Decoder ClientId := Decoder.parsed expectation ofText

def ofValue : Value → Except Mismatch ClientId
  | .string s => ofText s
  | v => .error (.invalidType v.found expectation)

end ClientId

namespace QueueMessage

inductive Kind
  | newConnection
  deriving DecidableEq, Repr

def kinds : List (String × Kind) := [("new_connection", .newConnection)]

def kind : Decoder Kind :=
  Decoder.parsed "variant identifier" fun s =>
    match kinds.lookup s with
    | some k => .ok k
    | none => .error (.unknownVariant s (kinds.map Prod.fst))

inductive Content
  | items (values : List Value)
  | members (values : List (String × Value))
  deriving Repr

/-- Reads an object whose member `kind` may stand anywhere. -/
def tagged (depth : Nat) :
    Nat → Bool → Option Kind → List (String × Value) → Json.Cursor → Outcome (Kind × Content)
  | 0, _, _, _, c => c.fail .endInObject
  | fuel + 1, first, k, acc, c =>
    match c.nextKey first with
    | .error e => .error e
    | .ok (false, c) =>
      match k with
      | some k => .ok (.ok (k, .members acc.reverse), c)
      | none => .ok (.error (.missingField "kind"), c)
    | .ok (true, c) =>
      match c.advance.string with
      | .error e => .error e
      | .ok (key, c) =>
        if key = "kind" then
          if k.isSome then .ok (.error (.duplicateField "kind"), c)
          else
            match c.colon.bind (kind depth) with
            | .error e => .error e
            | .ok (k, c) => tagged depth fuel false (some k) acc c
        else
          match c.colon.bind (Json.Cursor.value depth) with
          | .error e => .error e
          | .ok (v, c) => tagged depth fuel false k ((key, v) :: acc) c

def taggedItems (depth : Nat) (c : Json.Cursor) :
    Except Json.Error (Except Mismatch (Kind × Content) × Json.Cursor) := do
  match ← c.nextItem true with
  | (false, c) => pure (.error (.missingField "kind"), c)
  | (true, c) =>
    let (k, c) ← kind depth c
    let (vs, c) ← Value.readItems depth c.enough false c
    pure (.ok (k, .items vs), c)

def clientOfMembers : List (String × Value) → Option ClientId → Except Mismatch ClientId
  | [], some c => .ok c
  | [], none => .error (.missingField "client_id")
  | (k, v) :: r, seen =>
    if k = "client_id" then
      if seen.isSome then .error (.duplicateField k)
      else
        match ClientId.ofValue v with
        | .ok c => clientOfMembers r (some c)
        | .error m => .error m
    else clientOfMembers r seen

def clientOf : Content → Except Mismatch ClientId
  | .members ms => clientOfMembers ms none
  | .items [] =>
    .error (.invalidLength 0 "struct variant QueueMessage::NewConnection with 1 element")
  | .items (v :: r) => do
    let c ← ClientId.ofValue v
    if r.isEmpty then pure c
    else .error (.invalidLength (r.length + 1) "1 element in sequence")

/-- The parts of a message are read before any of them is looked at, so what is wrong with them has
no place. -/
def decoder : Decoder QueueMessage := fun depth c => do
  let (x, c) ← Decoder.starting c
  let ((_, content), c) ← (
    if x = '[' ∨ x = '\x7b' then
      match depth with
      | 0 => c.refuse .tooDeep
      | depth + 1 =>
        if x = '[' then do
          let (outcome, c) ← taggedItems depth c.advance
          Decoder.close c.closeArray outcome
        else do
          let (outcome, c) ← tagged depth (c.rest.length + 1) true none [] c.advance
          Decoder.close c.closeObject outcome
    else Decoder.unexpected "internally tagged enum QueueMessage" c)
  match clientOf content with
  | .ok client => pure (.newConnection client, c)
  | .error m => .error ⟨.mismatch m, none⟩

end QueueMessage

namespace Emit

def decoder : Decoder Emit :=
  record "Emit"
    [field "event" (Decoder.text "a string") fun x (e : Emit) => { e with event := x },
      field "data" Decoder.free fun x e => { e with data := x }]
    ⟨"", .null⟩

end Emit

namespace ControllerState

def decoder : Decoder ControllerState :=
  Decoder.variant ([indexing, ready, stopped].map fun s => (s.name, s))

end ControllerState

namespace Timestamp

def decoder : Decoder Timestamp :=
  Decoder.parsed "an RFC 3339 formatted date and time string" fun s =>
    match Timestamp.parse s with
    | .ok t => .ok t
    | .error e => .error (.custom e.message)

end Timestamp

namespace StatusPayload

def decoder : Decoder StatusPayload :=
  record "StatusPayload"
    [field "state" ControllerState.decoder fun x (s : StatusPayload) => { s with state := x },
      field "root" (Decoder.text "a string") fun x s => { s with root := x },
      field "files" Decoder.word fun x s => { s with files := x },
      field "scans" Decoder.word fun x s => { s with scans := x },
      field "mock" Decoder.bool fun x s => { s with mock := x },
      field "updated_at" Timestamp.decoder fun x s => { s with updatedAt := x }]
    ⟨.indexing, "", 0, 0, false, ⟨0, 0, 0⟩⟩

end StatusPayload

namespace IndexUpdate

def decoder : Decoder IndexUpdate :=
  record "IndexUpdate"
    [field "files" Decoder.word fun x (u : IndexUpdate) => { u with files := x },
      field "added" Decoder.word fun x u => { u with added := x },
      field "removed" Decoder.word fun x u => { u with removed := x }]
    ⟨0, 0, 0⟩

end IndexUpdate

namespace Progress

def decoder : Decoder Progress :=
  record "Progress"
    [field "scanned" Decoder.word fun x (p : Progress) => { p with scanned := x },
      field "total" Decoder.word fun x p => { p with total := x }]
    ⟨0, 0⟩

end Progress

namespace Welcome

def decoder : Decoder Welcome :=
  record "Welcome" [field "client_id" ClientId.decoder fun x (_ : Welcome) => ⟨x⟩] ⟨⟨0⟩⟩

end Welcome

end SearchRelay

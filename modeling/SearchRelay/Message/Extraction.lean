import SearchRelay.Json.Extractor
import SearchRelay.Message.Decoding

namespace SearchRelay

open Json (Extractor)
open Json.Extractor (field record)

namespace ControllerState

def ofValue : Extractor ControllerState :=
  Extractor.variant ([indexing, ready, stopped].map fun s => (s.name, s))

end ControllerState

namespace Timestamp

def ofText (s : String) : Except Mismatch Timestamp :=
  match Timestamp.parse s with
  | .ok t => .ok t
  | .error e => .error (.custom e.message)

def ofValue : Extractor Timestamp :=
  Extractor.parsed "an RFC 3339 formatted date and time string" ofText

end Timestamp

namespace StatusPayload

def ofValue : Extractor StatusPayload :=
  record "StatusPayload"
    [field "state" ControllerState.ofValue fun x (s : StatusPayload) => { s with state := x },
      field "root" (Extractor.text "a string") fun x s => { s with root := x },
      field "files" Extractor.word fun x s => { s with files := x },
      field "scans" Extractor.word fun x s => { s with scans := x },
      field "mock" Extractor.bool fun x s => { s with mock := x },
      field "updated_at" Timestamp.ofValue fun x s => { s with updatedAt := x }]
    ⟨.indexing, "", 0, 0, false, ⟨0, 0, 0⟩⟩

end StatusPayload

namespace IndexUpdate

def ofValue : Extractor IndexUpdate :=
  record "IndexUpdate"
    [field "files" Extractor.word fun x (u : IndexUpdate) => { u with files := x },
      field "added" Extractor.word fun x u => { u with added := x },
      field "removed" Extractor.word fun x u => { u with removed := x }]
    ⟨0, 0, 0⟩

end IndexUpdate

namespace Progress

def ofValue : Extractor Progress :=
  record "Progress"
    [field "scanned" Extractor.word fun x (p : Progress) => { p with scanned := x },
      field "total" Extractor.word fun x p => { p with total := x }]
    ⟨0, 0⟩

end Progress

namespace Welcome

def ofValue : Extractor Welcome :=
  record "Welcome" [field "client_id" ClientId.ofValue fun x (_ : Welcome) => ⟨x⟩] ⟨⟨0⟩⟩

end Welcome

end SearchRelay

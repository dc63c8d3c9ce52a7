import SearchRelay.Message.Basic

namespace SearchRelay

open Json (Value)

class ToMembers (α : Type) where
  members : α → List (String × Value)

namespace ToMembers

variable {α : Type} [ToMembers α]

def toValue (a : α) : Value := .ofMembers (members a)

def toText (a : α) : String := Json.objectText (Value.memberTexts (members a))

end ToMembers

instance : ToMembers QueueMessage where
  members
    | .newConnection c => [("kind", .string "new_connection"), ("client_id", .string c.toText)]

instance : ToMembers Emit where
  members e := [("event", .string e.event), ("data", e.data)]

instance : ToMembers StatusPayload where
  members s :=
    [("state", .string s.state.name), ("root", .string s.root), ("files", .nat s.files),
      ("scans", .nat s.scans), ("mock", .bool s.mock), ("updated_at", .string s.updatedAt.toText)]

instance : ToMembers IndexUpdate where
  members u := [("files", .nat u.files), ("added", .nat u.added), ("removed", .nat u.removed)]

instance : ToMembers Progress where
  members p := [("scanned", .nat p.scanned), ("total", .nat p.total)]

instance : ToMembers Welcome where
  members w := [("client_id", .string w.client.toText)]

namespace Emit

def toText (e : Emit) : String := ToMembers.toText e

def ofPayload {α : Type} [ToMembers α] (event : String) (a : α) : Emit :=
  ⟨event, ToMembers.toValue a⟩

def status (s : StatusPayload) : Emit := ofPayload "status" s
def indexUpdated (u : IndexUpdate) : Emit := ofPayload "index_updated" u
def progress (p : Progress) : Emit := ofPayload "progress" p
def connected (w : Welcome) : Emit := ofPayload "connected" w

end Emit

end SearchRelay

import SearchRelay.Message.Encoding

namespace SearchRelay.Page

open Json (Value)

def member (data : Value) (name : String) : Option Value :=
  match data with
  | .object ms => ms.lookup name
  | _ => none

/-- What stands on the board. A place is blank after a message that lacks what belongs there. -/
structure Board where
  client : Option Value := some (.string "-")
  state : Option Value := some (.string "unknown")
  files : Option Value := some (.nat 0)
  scans : Option Value := some (.nat 0)
  progress : Option (Option Value × Option Value) := none

namespace Board

/-- Nothing is shown of a message with another name, and nothing of one without data. -/
def put (b : Board) (e : Emit) : Board :=
  match e.data with
  | .null => b
  | data =>
    if e.event = "connected" then { b with client := member data "client_id" }
    else if e.event = "status" then
      { b with
        state := member data "state", files := member data "files", scans := member data "scans" }
    else if e.event = "progress" then
      { b with progress := some (member data "scanned", member data "total") }
    else if e.event = "index_updated" then { b with files := member data "files" }
    else b

def ofEmits (es : List Emit) : Board := es.foldl put {}

variable (b : Board)

@[simp] theorem put_status_files (p : StatusPayload) :
    (b.put (.status p)).files = some (.nat p.files) := rfl

@[simp] theorem put_indexUpdated_files (u : IndexUpdate) :
    (b.put (.indexUpdated u)).files = some (.nat u.files) := rfl

theorem ofEmits_concat (es : List Emit) (e : Emit) : ofEmits (es ++ [e]) = (ofEmits es).put e := by
  simp [ofEmits]

end Board

end SearchRelay.Page

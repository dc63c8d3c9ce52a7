import SearchRelay.Page
import SearchRelay.Log

namespace SearchRelay.Http

structure Request where
  method : String
  path : String
  headers : List (String × String) := []
  deriving DecidableEq, Repr

namespace Request

def lower (s : String) : String := s.map Char.toLower

def header? (r : Request) (name : String) : Option String :=
  (r.headers.find? fun h => lower h.1 == name).map Prod.snd

def behindHost (cs : List Char) : List Char :=
  let scheme := cs.takeWhile fun c => c.isAlphanum || c == '+' || c == '-' || c == '.'
  match cs.drop scheme.length with
  | ':' :: '/' :: '/' :: r => if r.contains '/' then r.dropWhile (· != '/') else ['/']
  | _ => cs

/-- The path without a host, a query or a fragment. -/
def target (r : Request) : String :=
  String.ofList (behindHost (r.path.toList.takeWhile fun c => c != '?' && c != '#'))

end Request

structure Response where
  status : Nat
  headers : List (String × String) := []
  body : String := ""
  deriving DecidableEq, Repr

namespace Response

def ofText (status : Nat) (body : String) : Response :=
  { status, headers := [("content-type", "text/plain; charset=utf-8")], body }

def ofHtml (body : String) : Response :=
  { status := 200, headers := [("content-type", "text/html; charset=utf-8")], body }

def withHeader (r : Response) (name value : String) : Response :=
  { r with headers := r.headers ++ [(name, value)] }

def withLength (r : Response) : Response :=
  r.withHeader "content-length" (toString r.body.utf8ByteSize)

def withoutBody (r : Response) : Response := { r with body := "" }

end Response

/-- A page that fails is an error of the server, told in JSON. -/
def ofPageError (e : Page.Error) : Response :=
  let body := Json.Value.ofMembers [("error", .string e.message), ("status", .nat 500)]
  { status := 500, headers := [("content-type", "application/json")], body := body.toText }

def pageErrorLog (e : Page.Error) : LogEntry :=
  ⟨.error, "Request failed", [("error", .plain e.message)]⟩

end SearchRelay.Http

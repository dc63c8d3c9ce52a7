import SearchRelay.Controller.Basic

namespace SearchRelay

inductive Query
  | help
  | briefHelp
  | version
  deriving DecidableEq, Repr

structure CommandLine where
  config : Option Path := none
  words : List String := []
  deriving DecidableEq, Repr

namespace CommandLine

def mode (c : CommandLine) : ControllerMode := .ofWords c.words

inductive Refusal
  | query (q : Query)
  | missingPath
  | repeatedConfig
  | unexpectedValue (q : Query) (value : String)
  deriving DecidableEq, Repr

inductive Argument
  | terminator
  | config (path : Option Path)
  | query (q : Query)
  | queryWithValue (q : Query) (value : String)
  /-- No known option: the path if one is due, else the first word. -/
  | plain
  deriving DecidableEq, Repr

namespace Argument

def ofLong (name : String) (value : Option String) : Argument :=
  let ask (q : Query) : Argument :=
    match value with
    | some v => .queryWithValue q v
    | none => .query q
  match name with
  | "config" => .config value
  | "help" => ask .help
  | "version" => ask .version
  | _ => .plain

def ofLetter? : Char → Option Query
  | 'h' => some .briefHelp
  | 'V' => some .version
  | _ => none

/-- Letters behind one hyphen are options only if all of them are known; the first one decides. -/
def ofLetters (letters : List Char) : Argument :=
  match letters.mapM ofLetter? with
  | some (q :: _) => .query q
  | _ => .plain

def ofText (s : String) : Argument :=
  match s.toList with
  | ['-', '-'] => .terminator
  | '-' :: '-' :: r =>
    let value :=
      match r.dropWhile (· != '=') with
      | _ :: v => some (String.ofList v)
      | [] => none
    ofLong (String.ofList (r.takeWhile (· != '='))) value
  | '-' :: letters => ofLetters letters
  | _ => .plain

end Argument

def objection? (config : Option Path) (path : Path) : Option Refusal :=
  if config.isSome then some .repeatedConfig
  else if path.isEmpty then some .missingPath
  else none

/-- A flag with a value is refused at first sight, before the path in front of it is looked at. -/
def pressing? : List String → Option Refusal
  | [] => none
  | a :: _ =>
    match Argument.ofText a with
    | .queryWithValue q v => some (.unexpectedValue q v)
    | _ => none

def parseFrom (config : Option Path) : List String → Except Refusal CommandLine
  | [] => .ok ⟨config, []⟩
  | a :: r =>
    match Argument.ofText a with
    | .terminator => .ok ⟨config, r⟩
    | .plain => .ok ⟨config, a :: r⟩
    | .query q => .error (.query q)
    | .queryWithValue q v => .error (.unexpectedValue q v)
    | .config (some path) =>
      match objection? config path with
      | some refusal => .error refusal
      | none => parseFrom (some path) r
    | .config none =>
      match r with
      | [] => .error .missingPath
      | path :: s =>
        match Argument.ofText path with
        | .plain =>
          match (objection? config path).map fun o => (pressing? s).getD o with
          | some refusal => .error refusal
          | none => parseFrom (some path) s
        | .queryWithValue q v => .error (.unexpectedValue q v)
        | _ => .error .missingPath

def parse (arguments : List String) : Except Refusal CommandLine := parseFrom none arguments

end CommandLine

end SearchRelay

import SearchRelay.Json.Value

namespace SearchRelay.Json

def escape (c : Char) : List Char :=
  match c with
  | '"' => ['\\', '"']
  | '\\' => ['\\', '\\']
  | '\x08' => ['\\', 'b']
  | '\x0c' => ['\\', 'f']
  | '\n' => ['\\', 'n']
  | '\r' => ['\\', 'r']
  | '\t' => ['\\', 't']
  | c =>
    if c.toNat < 0x20 then
      ['\\', 'u', '0', '0', Nat.digitChar (c.toNat / 16), Nat.digitChar (c.toNat % 16)]
    else [c]

def quote (s : String) : String :=
  String.ofList ('"' :: s.toList.flatMap escape ++ ['"'])

namespace Number

def toText : Number → String
  | integer n => toString n
  | float x => if x.isFinite then x.format .scientific else "null"

end Number

def memberText (key value : String) : String := quote key ++ ":" ++ value

def arrayText (items : List String) : String := "[" ++ ",".intercalate items ++ "]"

def objectText (members : List String) : String := "\x7b" ++ ",".intercalate members ++ "\x7d"

namespace Value

mutual

def toText : Value → String
  | .null => "null"
  | .bool b => if b then "true" else "false"
  | .number n => n.toText
  | .string s => quote s
  | .array items => arrayText (itemTexts items)
  | .object members => objectText (memberTexts members)

def itemTexts : List Value → List String
  | [] => []
  | v :: r => v.toText :: itemTexts r

def memberTexts : List (String × Value) → List String
  | [] => []
  | (k, v) :: r => memberText k v.toText :: memberTexts r

end

end Value

end SearchRelay.Json

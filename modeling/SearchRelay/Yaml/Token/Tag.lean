import SearchRelay.Yaml.Cursor

namespace SearchRelay.Yaml.Tag

/-- Characters of a tag's address; the last three only between angle brackets or in a
directive. -/
def isUri (verbatim : Bool) (c : Char) : Bool :=
  isWord c || ";/?:@&=+$.%!~*'()".toList.contains c || (verbatim && ",[]".toList.contains c)

def octet? (c : Cursor) : Option Nat :=
  match c.rest with
  | '%' :: a :: b :: _ =>
    match Text.digitValue? 16 a, Text.digitValue? 16 b with
    | some x, some y => some (x * 16 + y)
    | _, _ => none
  | _ => none

def leading? (octet : Nat) : Option (Nat × Nat) :=
  if octet < 0x80 then some (0, octet)
  else if octet / 0x20 = 6 then some (1, octet % 0x20)
  else if octet / 0x10 = 14 then some (2, octet % 0x10)
  else if octet / 8 = 30 then some (3, octet % 8)
  else none

def trailing (context : Context) (start : Mark) : Nat → Nat → Cursor → Except Fault (Nat × Cursor)
  | 0, acc, c => .ok (acc, c)
  | n + 1, acc, c =>
    match octet? c with
    | none => c.fail context start .missingUriOctet
    | some o =>
      if o / 0x40 = 2 then trailing context start n (acc * 0x40 + o % 0x40) (c.advance 3)
      else c.fail context start .badTrailingOctet

def leastOf : Nat → Nat
  | 0 => 0
  | 1 => 0x80
  | 2 => 0x800
  | _ => 0x10000

/-- A character written as percent escapes; octets that encode none read as U+FFFD. -/
def escaped (context : Context) (start : Mark) (c : Cursor) : Except Fault (Char × Cursor) :=
  match octet? c with
  | none => c.fail context start .missingUriOctet
  | some o =>
    match leading? o with
    | none => c.fail context start .badLeadingOctet
    | some (n, bits) =>
      match trailing context start n bits (c.advance 3) with
      | .error e => .error e
      | .ok (value, d) =>
        .ok (if value.isValidChar ∧ leastOf n ≤ value then Char.ofNat value else '\ufffd', d)

def uriLoop (verbatim : Bool) (context : Context) (start : Mark) :
    Nat → Cursor → List Char → Except Fault (List Char × Cursor)
  | 0, c, acc => .ok (acc.reverse, c)
  | fuel + 1, c, acc =>
    match c.rest with
    | [] => .ok (acc.reverse, c)
    | x :: _ =>
      if !isUri verbatim x then .ok (acc.reverse, c)
      else if x = '%' then
        match escaped context start c with
        | .error e => .error e
        | .ok (y, d) => uriLoop verbatim context start fuel d (y :: acc)
      else uriLoop verbatim context start fuel (c.advance 1) (x :: acc)

/-- Reads an address that goes on from `head`, of which the leading mark is not repeated. -/
def uri (verbatim : Bool) (context : Context) (start : Mark) (head : List Char) (c : Cursor) :
    Except Fault (List Char × Cursor) :=
  match uriLoop verbatim context start c.rest.length c [] with
  | .error e => .error e
  | .ok (text, d) =>
    if head.isEmpty && d.mark.index == c.mark.index then
      d.fail context start .missingTagUri
    else .ok (head.drop 1 ++ text, d)

def handle (directive : Bool) (start : Mark) (c : Cursor) : Except Fault (List Char × Cursor) :=
  match c.rest with
  | '!' :: _ =>
    let d := c.advance 1
    let name := d.takeWhile isWord
    let e := d.skipWhile isWord
    match e.rest with
    | '!' :: _ => .ok ('!' :: name ++ ['!'], e.advance 1)
    | _ =>
      if directive && !name.isEmpty then e.fail .tagDirectiveBang start .missingTagBang
      else .ok ('!' :: name, e)
  | _ => c.fail (if directive then .tagDirectiveHandle else .tag) start .missingTagBang

/-- A tag before a node, as handle and suffix. A lone exclamation mark is a suffix without a
handle. -/
def read (inFlow : Bool) (start : Cursor) : Except Fault (String × String × Cursor) := do
  let m := start.mark
  let (h, s, c) ← (
    match start.rest with
    | '!' :: '<' :: _ => do
      let (s, c) ← uri true .tagUri m [] (start.advance 2)
      match c.rest with
      | '>' :: _ => pure ([], s, c.advance 1)
      | _ => c.fail .tag m .missingTagClose
    | _ => do
      let (h, c) ← handle false m start
      if 1 < h.length ∧ h.getLast? = some '!' then
        let (s, d) ← uri false .tagUri m [] c
        pure (h, s, d)
      else
        let (s, d) ← uri false .tagUri m h c
        pure (if s.isEmpty then ([], ['!'], d) else (['!'], s, d)))
  let commaAllowed := inFlow && c.rest.head? == some ','
  if commaAllowed || atGap c.rest then pure (String.ofList h, String.ofList s, c)
  else c.fail .tag m .missingBlankOrLineEnd

end SearchRelay.Yaml.Tag

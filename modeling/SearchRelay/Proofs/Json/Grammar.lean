import SearchRelay.Proofs.Json.Values

namespace SearchRelay.Json

structure Blanks where
  chars : List Char := []
  blank : ∀ c ∈ chars, isSpace c := by simp

def Blanks.append (a b : Blanks) : Blanks where
  chars := a.chars ++ b.chars
  blank c hc := (List.mem_append.1 hc).elim (a.blank c) (b.blank c)

structure Digits where
  chars : List Char
  ne_nil : chars ≠ []
  digit : ∀ c ∈ chars, Text.isDigit c

structure Exponent where
  letter : Char
  sign : List Char
  digits : Digits
  isLetter : letter = 'e' ∨ letter = 'E'
  isSign : sign = [] ∨ sign = ['+'] ∨ sign = ['-']

/-- A number as it is written: without a zero in front of its other digits. -/
structure NumberText where
  negative : Bool
  whole : Digits
  fraction : Option Digits
  exponent : Option Exponent
  unpadded : whole.chars.head? = some '0' → whole.chars = ['0']

namespace Exponent

def chars : Option Exponent → List Char
  | none => []
  | some x => x.letter :: (x.sign ++ x.digits.chars)

end Exponent

namespace NumberText

def tail (fraction : Option Digits) (exponent : Option Exponent) : List Char :=
  match fraction with
  | none => Exponent.chars exponent
  | some ds => '.' :: (ds.chars ++ Exponent.chars exponent)

def magnitude (n : NumberText) : List Char := n.whole.chars ++ tail n.fraction n.exponent

def chars (n : NumberText) : List Char := if n.negative then '-' :: n.magnitude else n.magnitude

end NumberText

/-- A character of a string as it is written: as itself, by a letter, or by four digits. -/
inductive Glyph
  | plain (c : Char) (allowed : c ≠ '"' ∧ c ≠ '\\' ∧ 0x20 ≤ c.toNat)
  | named (letter c : Char) (known : Cursor.simpleEscape? letter = some c)
  | unit (digits : List Char) (code : Nat) (four : digits.length = 4)
      (spells : Text.natOfDigits? 16 digits 0 = some code)

namespace Glyph

def chars : Glyph → List Char
  | plain c _ => [c]
  | named letter _ _ => ['\\', letter]
  | unit digits _ _ _ => '\\' :: 'u' :: digits

/-- The characters that glyphs spell, where each half of a pair has its other half behind it. -/
def spell? : List Glyph → Option (List Char)
  | [] => some []
  | plain c _ :: r => (spell? r).map (c :: ·)
  | named _ c _ :: r => (spell? r).map (c :: ·)
  | unit _ n _ _ :: r =>
    if Cursor.isTrailing n then none
    else if Cursor.isLeading n then
      match r with
      | unit _ m _ _ :: r =>
        if Cursor.isTrailing m then
          (spell? r).map (Char.ofNat ((n - 0xd800) * 0x400 + (m - 0xdc00) + 0x10000) :: ·)
        else none
      | _ => none
    else (spell? r).map (Char.ofNat n :: ·)

def quoted (gs : List Glyph) : List Char := '"' :: (gs.flatMap chars ++ ['"'])

end Glyph

structure ItemText where
  before : Blanks := {}
  value : List Char
  behind : Blanks := {}

structure MemberText where
  before : Blanks := {}
  key : List Glyph
  behindKey : Blanks := {}
  item : ItemText

namespace ItemText

def chars (i : ItemText) : List Char := i.before.chars ++ (i.value ++ i.behind.chars)

end ItemText

namespace MemberText

def value (m : MemberText) : List Char := m.item.value

def label (m : MemberText) : List Char :=
  m.before.chars ++ (Glyph.quoted m.key ++ (m.behindKey.chars ++ [':']))

def chars (m : MemberText) : List Char := m.label ++ m.item.chars

def name? (m : MemberText) : Option String := (Glyph.spell? m.key).map String.ofList

def content (m : MemberText) : Option String × List Char := (m.name?, m.value)

end MemberText

/-- The texts of values with at most so many levels of arrays and objects. -/
inductive IsText : Nat → List Char → Prop
  | null {depth : Nat} : IsText depth ['n', 'u', 'l', 'l']
  | bool {depth : Nat} (b : Bool) :
      IsText depth (if b then ['t', 'r', 'u', 'e'] else ['f', 'a', 'l', 's', 'e'])
  | number {depth : Nat} (n : NumberText) : IsText depth n.chars
  | string {depth : Nat} (gs : List Glyph) : IsText depth (Glyph.quoted gs)
  | array {depth : Nat} (gap : Blanks) {items : List ItemText}
      (each : ∀ i ∈ items, IsText depth i.value) :
      IsText (depth + 1) ('[' :: (gap.chars ++ (joined true (items.map ItemText.chars) ++ [']'])))
  | object {depth : Nat} (gap : Blanks) {members : List MemberText}
      (each : ∀ m ∈ members, IsText depth m.value) :
      IsText (depth + 1)
        ('\x7b' :: (gap.chars ++ (joined true (members.map MemberText.chars) ++ ['\x7d'])))

end SearchRelay.Json

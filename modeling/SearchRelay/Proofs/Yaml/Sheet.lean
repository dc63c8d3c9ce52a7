import SearchRelay.Proofs.Numeral
import SearchRelay.Yaml.Node

namespace SearchRelay.Yaml

/-- A name that needs no quotes, as the key of a line. -/
def isName (name : String) : Bool :=
  !name.toList.isEmpty && name.toList.length ≤ 1024 &&
    name.toList.all fun c => c.isLower || c == '_'

abbrev Name := { name : String // isName name }

namespace Name

theorem toList_ne_nil (name : Name) : name.val.toList ≠ [] := by
  have hname := name.property
  simp only [isName, Bool.and_eq_true, Bool.not_eq_true'] at hname
  simpa using hname.1.1

theorem length_le (name : Name) : name.val.toList.length ≤ 1024 := by
  have hname := name.property
  simp only [isName, Bool.and_eq_true, decide_eq_true_eq] at hname
  exact hname.1.2

theorem eq_or_toNat (name : Name) :
    ∀ c ∈ name.val.toList, c = '_' ∨ (97 ≤ c.toNat ∧ c.toNat ≤ 122) := by
  intro c hc
  have hname := name.property
  simp only [isName, Bool.and_eq_true, List.all_eq_true] at hname
  have hlower := hname.2 c hc
  rw [Bool.or_eq_true, beq_iff_eq] at hlower
  refine hlower.symm.imp_right fun h => ?_
  obtain ⟨hlow, hhigh⟩ := Bool.and_eq_true_iff.1 h
  exact ⟨UInt32.le_iff_toNat_le.1 (of_decide_eq_true hlow),
    UInt32.le_iff_toNat_le.1 (of_decide_eq_true hhigh)⟩

end Name

theorem toNat_of_isDigit {c : Char} (h : Text.isDigit c) : 48 ≤ c.toNat ∧ c.toNat ≤ 57 := by
  simp only [Text.isDigit, Bool.and_eq_true, decide_eq_true_eq, Char.le_def,
    UInt32.le_iff_toNat_le] at h
  exact h

/-- Printable ASCII stands for itself, except for the quote and the backslash. -/
def isBare (c : Char) : Bool := 0x20 ≤ c.toNat && c.toNat ≤ 0x7e && c != '"' && c != '\\'

def letters : List (Char × Char) :=
  [('0', '\x00'), ('a', '\x07'), ('b', '\x08'), ('t', '\t'), ('n', '\n'), ('v', '\x0b'),
    ('f', '\x0c'), ('r', '\r'), ('e', '\x1b'), ('"', '"'), ('\\', '\\'), ('N', '\u0085'),
    ('_', '\u00a0'), ('L', '\u2028'), ('P', '\u2029')]

def widths : List (Char × Nat) := [('x', 2), ('u', 4), ('U', 8)]

/-- The ways to write a character as an escape. -/
inductive Escape (c : Char) : List Char → Prop
  | letter {x : Char} (h : (x, c) ∈ letters) : Escape c ['\\', x]
  | digits {x : Char} {ds : List Char} (h : (x, ds.length) ∈ widths)
      (value : Text.natOfDigits? 16 ds 0 = some c.toNat) : Escape c ('\\' :: x :: ds)

/-- A choice of escapes for all characters that need one. -/
structure Spelling where
  escape : Char → List Char
  escapes : ∀ c, isBare c = false → Escape c (escape c)

namespace Spelling

def long : Spelling where
  escape c := '\\' :: 'U' :: Numeral.padded 16 8 c.toNat
  escapes c _ := by
    have hsmall : c.toNat < 16 ^ 8 := c.val.toNat_lt
    refine .digits ?_ (Numeral.natOfDigits?_padded (by decide) (by decide) 8 _)
    rw [Numeral.length_padded (by decide) (by decide) hsmall]
    decide

def char (sp : Spelling) (c : Char) : List Char := if isBare c then [c] else sp.escape c

def text (sp : Spelling) (cs : List Char) : List Char := cs.flatMap sp.char

def quoted (sp : Spelling) (s : String) : List Char := '"' :: (sp.text s.toList ++ ['"'])

end Spelling

/-- A line for the reader only: blank, or a comment. -/
structure Remark where
  column : Nat
  comment : Option String
  onLine : ∀ text ∈ comment, ∀ c ∈ text.toList, Document.isAllowed c ∧ isBreak c = false

namespace Remark

def body (r : Remark) : List Char :=
  match r.comment with
  | none => []
  | some text => '#' :: text.toList

def chars (r : Remark) : List Char := List.replicate r.column ' ' ++ (r.body ++ ['\n'])

end Remark

/-- What stands behind a colon on the same line. -/
inductive Atom
  | number (n : Nat)
  | text (s : String)
  | emptyList

inductive Content
  | member (name : Name) (value : Option Atom)
  | item (text : String)

structure Line where
  remarks : List Remark
  column : Nat
  content : Content

namespace Spelling

variable (sp : Spelling)

def atom : Atom → List Char
  | .number n => Nat.toDigits 10 n
  | .text s => sp.quoted s
  | .emptyList => ['[', ']']

def behindColon : Option Atom → List Char
  | none => []
  | some a => ' ' :: sp.atom a

def content : Content → List Char
  | .member name value => name.val.toList ++ ':' :: sp.behindColon value
  | .item text => '-' :: ' ' :: sp.quoted text

def line (l : Line) : List Char :=
  l.remarks.flatMap Remark.chars ++
    (List.replicate l.column ' ' ++ (sp.content l.content ++ ['\n']))

def lines (ls : List Line) (ending : List Remark) : List Char :=
  ls.flatMap sp.line ++ ending.flatMap Remark.chars

end Spelling

structure Row (V : Type) where
  remarks : List Remark
  name : Name
  value : V

structure Item where
  remarks : List Remark
  text : String

inductive Cell
  | number (n : Nat)
  | text (s : String)
  /-- A list of which the items stand so far to the right of its name. -/
  | list (indent : Nat) (items : List Item)

namespace Cell

def atom? : Cell → Option Atom
  | number n => some (.number n)
  | text s => some (.text s)
  | list _ [] => some .emptyList
  | list _ (_ :: _) => none

def itemLines : Cell → List Line
  | list indent items => items.map fun i => ⟨i.remarks, 2 + indent, .item i.text⟩
  | _ => []

end Cell

abbrev Part := Row (List (Row Cell))

namespace Row

def fieldLines (row : Row Cell) : List Line :=
  ⟨row.remarks, 2, .member row.name row.value.atom?⟩ :: row.value.itemLines

def partLines (part : Part) : List Line :=
  ⟨part.remarks, 0, .member part.name none⟩ :: part.value.flatMap fieldLines

end Row

/-- The text of a document with some sections and remarks at its end. -/
def Spelling.sheet (sp : Spelling) (parts : List Part) (ending : List Remark) : String :=
  String.ofList (sp.lines (parts.flatMap Row.partLines) ending)

end SearchRelay.Yaml

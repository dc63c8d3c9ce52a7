import SearchRelay.Proofs.Yaml.Lines

namespace SearchRelay.Yaml

open Scanner (level kept ended opened)

def entries (items : List Item) : List Lexeme :=
  items.flatMap fun i => [.blockEntry, .scalar i.text .doubleQuoted]

def Cell.lexemes : Cell → List Lexeme
  | .number n => Atom.lexemes (.number n)
  | .text s => Atom.lexemes (.text s)
  | .list _ [] => Atom.lexemes .emptyList
  | .list 0 items => entries items
  | .list (_ + 1) items => .blockSequenceStart :: (entries items ++ [.blockEnd])

namespace Row

variable {V : Type}

/-- What rows say, of which each holds a value. -/
def members (value : V → List Lexeme) (rows : List (Row V)) : List Lexeme :=
  rows.flatMap fun row => [.key, .scalar row.name.val .plain, .value] ++ value row.value

def mapping (value : V → List Lexeme) : List (Row V) → List Lexeme
  | [] => []
  | row :: rows => .blockMappingStart :: (members value (row :: rows) ++ [.blockEnd])

end Row

section

variable {cols : List Nat} {ls : List Line} {rs : List Remark} {column : Nat}
  {content : Content}

theorem lexemesOf_ending (h : firstColumn ls < column) :
    lexemesOf (column :: cols) ls = .blockEnd :: lexemesOf cols ls := by
  cases ls with
  | nil => rfl
  | cons l ls =>
    have hl : l.column < column := h
    simp [lexemesOf, ended, kept, hl]
    rfl

theorem lexemesOf_going :
    lexemesOf (column :: cols) (⟨rs, column, content⟩ :: ls) =
      content.lexemes ++ lexemesOf (column :: cols) ls := by
  simp [lexemesOf, ended, kept, level, opened]

theorem lexemesOf_starting (h : level cols < column) :
    lexemesOf cols (⟨rs, column, content⟩ :: ls) =
      content.opener :: lexemesOf (column :: cols) (⟨rs, column, content⟩ :: ls) := by
  have hstay : ended column cols = 0 ∧ kept column cols = cols := by
    cases cols with
    | nil => exact ⟨rfl, rfl⟩
    | cons c cols =>
      have hc : c < column := Int.ofNat_lt.1 h
      simp [ended, kept, Nat.not_lt.2 (Nat.le_of_lt hc)]
  rw [lexemesOf_going]
  simp [lexemesOf, hstay, h, opened]

theorem lexemesOf_items (items : List Item) :
    lexemesOf (column :: cols) (items.map (fun i => ⟨i.remarks, column, .item i.text⟩) ++ ls) =
      entries items ++ lexemesOf (column :: cols) ls := by
  induction items with
  | nil => rfl
  | cons i items ih =>
    rw [List.map_cons, List.cons_append, lexemesOf_going, ih]
    simp [entries, Content.lexemes]

theorem lexemesOf_field (row : Row Cell) (h : firstColumn ls ≤ 2) :
    lexemesOf (2 :: cols) (row.fieldLines ++ ls) =
      [.key, .scalar row.name.val .plain, .value] ++ row.value.lexemes ++
        lexemesOf (2 :: cols) ls := by
  rw [Row.fieldLines, List.cons_append, lexemesOf_going]
  match hvalue : row.value with
  | .number n => simp [Content.lexemes, Cell.atom?, Cell.itemLines, Cell.lexemes]
  | .text s => simp [Content.lexemes, Cell.atom?, Cell.itemLines, Cell.lexemes]
  | .list _ [] => simp [Content.lexemes, Cell.atom?, Cell.itemLines, Cell.lexemes]
  | .list 0 (i :: items) =>
    rw [Cell.itemLines, lexemesOf_items]
    simp [Content.lexemes, Cell.atom?, Cell.lexemes]
  | .list (indent + 1) (i :: items) =>
    have hopen : lexemesOf (2 :: cols) ((Cell.list (indent + 1) (i :: items)).itemLines ++ ls) =
        .blockSequenceStart :: lexemesOf ((2 + (indent + 1)) :: 2 :: cols)
          ((Cell.list (indent + 1) (i :: items)).itemLines ++ ls) :=
      lexemesOf_starting (show (2 : Int) < (2 + (indent + 1) : Nat) by omega)
    rw [hopen, Cell.itemLines, lexemesOf_items,
      lexemesOf_ending (show firstColumn ls < 2 + (indent + 1) by omega)]
    simp [Content.lexemes, Cell.atom?, Cell.lexemes]

theorem firstColumn_fields (rows : List (Row Cell)) (h : firstColumn ls ≤ 2) :
    firstColumn (rows.flatMap Row.fieldLines ++ ls) ≤ 2 := by
  cases rows with
  | nil => exact h
  | cons row rows => exact Nat.le_refl 2

theorem lexemesOf_fields (rows : List (Row Cell)) (h : firstColumn ls ≤ 2) :
    lexemesOf (2 :: cols) (rows.flatMap Row.fieldLines ++ ls) =
      Row.members Cell.lexemes rows ++ lexemesOf (2 :: cols) ls := by
  induction rows with
  | nil => rfl
  | cons row rows ih =>
    rw [List.flatMap_cons, List.append_assoc, lexemesOf_field row (firstColumn_fields rows h), ih]
    simp [Row.members]

theorem lexemesOf_part (rows : List (Row Cell)) (h : firstColumn ls = 0) :
    lexemesOf [0] (rows.flatMap Row.fieldLines ++ ls) =
      Row.mapping Cell.lexemes rows ++ lexemesOf [0] ls := by
  cases rows with
  | nil => rfl
  | cons row rows =>
    have hopen : lexemesOf [0] ((row :: rows).flatMap Row.fieldLines ++ ls) =
        .blockMappingStart :: lexemesOf [2, 0] ((row :: rows).flatMap Row.fieldLines ++ ls) :=
      lexemesOf_starting (show (0 : Int) < 2 by decide)
    rw [hopen, lexemesOf_fields _ (by omega), lexemesOf_ending (by omega)]
    simp [Row.mapping]

theorem firstColumn_parts (parts : List Part) : firstColumn (parts.flatMap Row.partLines) = 0 := by
  cases parts <;> rfl

theorem lexemesOf_going_parts (parts : List Part) :
    lexemesOf [0] (parts.flatMap Row.partLines) =
      Row.members (Row.mapping Cell.lexemes) parts ++ [.blockEnd] := by
  induction parts with
  | nil => rfl
  | cons part parts ih =>
    rw [List.flatMap_cons, Row.partLines, List.cons_append, lexemesOf_going,
      lexemesOf_part _ (firstColumn_parts parts), ih]
    simp [Row.members, Content.lexemes]

/-- A sheet is a mapping of mappings. -/
theorem lexemesOf_parts (parts : List Part) :
    lexemesOf [] (parts.flatMap Row.partLines) = Row.mapping (Row.mapping Cell.lexemes) parts := by
  cases parts with
  | nil => rfl
  | cons part parts =>
    have hopen : lexemesOf [] ((part :: parts).flatMap Row.partLines) =
        .blockMappingStart :: lexemesOf [0] ((part :: parts).flatMap Row.partLines) :=
      lexemesOf_starting (show (-1 : Int) < 0 by decide)
    rw [hopen, lexemesOf_going_parts]
    rfl

theorem orderly_items (items : List Item) (hls : Orderly ls) :
    Orderly (items.map (fun i => ⟨i.remarks, column, .item i.text⟩) ++ ls) := by
  induction items with
  | nil => exact hls
  | cons i items ih => exact ⟨by simp, ih⟩

theorem orderly_field (row : Row Cell) (h : firstColumn ls ≤ 2) (hls : Orderly ls) :
    Orderly (row.fieldLines ++ ls) := by
  rw [Row.fieldLines, List.cons_append]
  match hvalue : row.value with
  | .number n => exact ⟨fun _ _ _ => h, hls⟩
  | .text s => exact ⟨by simp [Cell.atom?], hls⟩
  | .list _ [] => exact ⟨by simp [Cell.atom?], hls⟩
  | .list _ (i :: items) => exact ⟨by simp [Cell.atom?], orderly_items _ hls⟩

theorem orderly_fields (rows : List (Row Cell)) (h : firstColumn ls ≤ 2) (hls : Orderly ls) :
    Orderly (rows.flatMap Row.fieldLines ++ ls) := by
  induction rows with
  | nil => exact hls
  | cons row rows ih =>
    rw [List.flatMap_cons, List.append_assoc]
    exact orderly_field row (firstColumn_fields rows h) ih

theorem orderly_parts (parts : List Part) : Orderly (parts.flatMap Row.partLines) := by
  induction parts with
  | nil => trivial
  | cons part parts ih =>
    rw [List.flatMap_cons, Row.partLines, List.cons_append]
    exact ⟨by simp, orderly_fields _ (by rw [firstColumn_parts]; decide) ih⟩

end

end SearchRelay.Yaml

import Mathlib.Logic.Relation
import SearchRelay.Proofs.Yaml.Steps

/-!
The tokens of a document line by line. Where a line stands further to the left than the one before,
collections end; where it stands further to the right, one starts.
-/

namespace SearchRelay.Yaml

open Relation (ReflTransGen)
open Scanner

def Atom.lexemes : Atom → List Lexeme
  | number n => [.scalar (String.ofList (Nat.toDigits 10 n)) .plain]
  | text s => [.scalar s .doubleQuoted]
  | emptyList => [.flowSequenceStart, .flowSequenceEnd]

namespace Content

def opener : Content → Lexeme
  | member .. => .blockMappingStart
  | item _ => .blockSequenceStart

def lexemes : Content → List Lexeme
  | member name value =>
    [.key, .scalar name.val .plain, .value] ++ (value.map Atom.lexemes).getD []
  | item s => [.blockEntry, .scalar s .doubleQuoted]

end Content

/-- What lines say where the collections at some columns are open. -/
def lexemesOf : List Nat → List Line → List Lexeme
  | cols, [] => List.replicate cols.length .blockEnd
  | cols, l :: ls =>
    List.replicate (ended l.column cols) .blockEnd ++
      ((if level (kept l.column cols) < l.column then [l.content.opener] else []) ++
        (l.content.lexemes ++ lexemesOf (opened l.column (kept l.column cols)) ls))

def said (ts : List Token) : List Lexeme := (ts.map Token.lexeme).reverse

@[simp] theorem said_cons (t : Token) (ts : List Token) :
    said (t :: ts) = said ts ++ [t.lexeme] := by
  simp [said]

@[simp] theorem said_append (ts us : List Token) : said (ts ++ us) = said us ++ said ts := by
  simp [said]

@[simp] theorem said_replicate (n : Nat) (t : Token) :
    said (List.replicate n t) = List.replicate n t.lexeme := by
  simp [said]

@[simp] theorem said_opening (column : Nat) (cols : List Nat) (t : Token) :
    said (opening column cols t) = if level cols < column then [t.lexeme] else [] := by
  unfold opening
  split <;> rfl

namespace Scanner

structure Moves (s s' : Scanner) : Prop where
  going : s.ending = none
  step : (s.step >>= dropStaleKeys) = .ok s'
  shorter : s'.cursor.rest.length < s.cursor.rest.length

structure Meets (s t : Scanner) : Prop where
  going : s.ending = none
  settles : s.skipToToken.dropStaleKeys = .ok t
  le : t.cursor.rest.length ≤ s.cursor.rest.length

theorem Meets.moves {s t u v : Scanner} (h : Meets s t) (hs : s.step = .ok u)
    (hu : u.dropStaleKeys = .ok v) (hlt : v.cursor.rest.length < t.cursor.rest.length) :
    Moves s v :=
  ⟨h.going, by rw [hs]; exact hu, Nat.lt_of_lt_of_le hlt h.le⟩

variable {c : Cursor} {ts : List Token} {cols : List Nat} {key : Option PossibleKey}
  {allowed : Bool} {r : List Char} {m : Mark}

theorem meets_self (hc : atToken c.rest) (h : ∀ k ∈ key, isStale c.mark k = false) :
    Meets (within c ts cols key allowed) (within c ts cols key allowed) :=
  ⟨rfl, by rw [skipToToken_of_atToken hc, dropStaleKeys_within h], Nat.le_refl _⟩

theorem meets_space (hr : atToken r) :
    Meets (within ⟨' ' :: r, m⟩ ts cols none allowed)
      (within ⟨r, m.right 1⟩ ts cols none allowed) := by
  refine ⟨rfl, ?_, Nat.le_succ _⟩
  rw [skipToToken_space rfl, moved_within, skipToToken_of_atToken hr]
  rfl

theorem bracketed_moves :
    Moves (bracketed ⟨']' :: r, m⟩ ts cols)
      (within ⟨r, m.right 1⟩ (⟨.flowSequenceEnd, m, m.right 1⟩ :: ts) cols none false) :=
  ⟨rfl, by rw [step_bracketed]; exact dropStaleKeys_none, Nat.lt_succ_self _⟩

end Scanner

def firstColumn : List Line → Nat
  | [] => 0
  | l :: _ => l.column

def firstRemarks (ending : List Remark) : List Line → List Remark
  | [] => ending
  | l :: _ => l.remarks

section

variable (sp : Spelling) (ending : List Remark)

def firstText : List Line → List Char
  | [] => []
  | l :: ls => sp.content l.content ++ '\n' :: sp.lines ls ending

theorem lines_eq (ls : List Line) :
    sp.lines ls ending = (firstRemarks ending ls).flatMap Remark.chars ++
      (List.replicate (firstColumn ls) ' ' ++ firstText sp ending ls) := by
  cases ls with
  | nil => simp [Spelling.lines, firstRemarks, firstColumn, firstText]
  | cons l ls => simp [Spelling.lines, Spelling.line, firstRemarks, firstColumn, firstText]

theorem atToken_word {word rest : List Char} (hne : word ≠ [])
    (h : ∀ c ∈ word, PlainScalar.isInner c) : atToken (word ++ rest) := by
  obtain ⟨c, more, rfl⟩ := List.exists_cons_of_ne_nil hne
  have hc := h c (List.mem_cons_self ..)
  simp [PlainScalar.isInner] at hc
  simp [atToken, hc]

theorem atToken_firstText (ls : List Line) : atToken (firstText sp ending ls) := by
  cases ls with
  | nil => rfl
  | cons l ls =>
    cases hl : l.content with
    | member name value =>
      simp only [firstText, hl, Spelling.content, List.append_assoc]
      exact atToken_word name.toList_ne_nil (PlainScalar.isInner_of_isName name)
    | item text => simp [firstText, hl, Spelling.content, atToken, isBlank, isBreak]

/-- The scanner has read everything in front of some lines. -/
def Stands (s : Scanner) (ts : List Token) (cols : List Nat) (ls : List Line) : Prop :=
  ∃ m : Mark, m.column = firstColumn ls ∧
    Meets s (within ⟨firstText sp ending ls, m⟩ ts cols none true)

theorem stands_of_newline {ts : List Token} {cols : List Nat} {key : Option PossibleKey}
    {allowed : Bool} {m : Mark} (ls : List Line)
    (hkey : ∀ k ∈ key, k.required = false ∧ k.mark.line ≤ m.line) :
    Stands sp ending (within ⟨'\n' :: sp.lines ls ending, m⟩ ts cols key allowed) ts cols ls := by
  obtain ⟨m', hcolumn, hline, hskip⟩ := skipToToken_margin
    (s := within ⟨sp.lines ls ending, m.below⟩ ts cols key true) (firstRemarks ending ls)
    (atToken_firstText sp ending ls) (by rw [← lines_eq]; rfl) rfl rfl
  have hstart : (within ⟨'\n' :: sp.lines ls ending, m⟩ ts cols key allowed).skipToToken =
      within ⟨firstText sp ending ls, m'⟩ ts cols key true := by
    rw [skipToToken_newline rfl, within_inFlow, Bool.not_false, Bool.or_true]
    exact hskip
  refine ⟨m', hcolumn, rfl, ?_, ?_⟩
  · rw [hstart, dropStaleKeys_stale]
    intro k hk
    exact ⟨(hkey k hk).1, Nat.lt_of_le_of_lt (hkey k hk).2 hline⟩
  · have hle := length_skipToToken_le (within ⟨'\n' :: sp.lines ls ending, m⟩ ts cols key allowed)
    rwa [hstart] at hle

section

variable (ts : List Token) {cols : List Nat} {m : Mark}

theorem number_scans (n : Nat) (ls : List Line) (hlevel : level cols ≤ m.column)
    (hls : firstColumn ls ≤ level cols) :
    ∃ s' t, Moves (within ⟨' ' :: (Nat.toDigits 10 n ++ '\n' :: sp.lines ls ending), m⟩ ts cols
        none false) s' ∧ t.lexeme = .scalar (String.ofList (Nat.toDigits 10 n)) .plain ∧
      Stands sp ending s' (t :: ts) cols ls := by
  have hne : Nat.toDigits 10 n ≠ [] := Nat.toDigits_ne_nil
  have hinner : ∀ c ∈ Nat.toDigits 10 n, PlainScalar.isInner c := fun c hc =>
    PlainScalar.isInner_of_isDigit (Numeral.isDigit_toDigits n c hc)
  have hmeets : Meets (within ⟨' ' :: (Nat.toDigits 10 n ++ '\n' :: sp.lines ls ending), m⟩ ts cols
      none false) _ := meets_space (atToken_word hne hinner)
  obtain ⟨t, e, hlexeme, hread, hle, hskip⟩ := PlainScalar.read_line hne hinner
    (firstRemarks ending ls) (atToken_firstText sp ending ls)
    (show firstColumn ls < (level cols + 1).toNat by omega) (m.right 1)
  rw [← lines_eq] at hread hle
  have hstep := step_word hmeets.settles hne hinner rfl
  rw [closeBlocks_of_le (by simp; omega), readPlainScalar_behind hread] at hstep
  have hlt : e.rest.length < (Nat.toDigits 10 n ++ '\n' :: sp.lines ls ending).length := by
    simp only [List.length_append, List.length_cons]
    omega
  obtain ⟨m', hcolumn, hrest⟩ := hskip (within e (t :: ts) cols none true) rfl
  rw [moved_within, moved_within] at hrest
  have hshort := length_skipToToken_le (within e (t :: ts) cols none true)
  rw [hrest] at hshort
  exact ⟨_, t, hmeets.moves hstep dropStaleKeys_none hlt, hlexeme, m', hcolumn, rfl,
    by rw [hrest, dropStaleKeys_none], hshort⟩

theorem text_scans (allowed : Bool) (text : String) (ls : List Line)
    (hlevel : level cols ≤ m.column) :
    ∃ s' t, Moves (within ⟨' ' :: (sp.quoted text ++ '\n' :: sp.lines ls ending), m⟩ ts cols
        none allowed) s' ∧ t.lexeme = .scalar text .doubleQuoted ∧
      Stands sp ending s' (t :: ts) cols ls := by
  have hquoted : sp.quoted text ++ '\n' :: sp.lines ls ending =
      '"' :: (sp.text text.toList ++ '"' :: '\n' :: sp.lines ls ending) := by
    simp [Spelling.quoted]
  have hmeets : Meets (within ⟨' ' :: (sp.quoted text ++ '\n' :: sp.lines ls ending), m⟩ ts cols
      none allowed) _ := meets_space (by rw [hquoted]; rfl)
  have hstep := step_quote hmeets.settles hquoted
  obtain ⟨t, key, hlexeme, hkey, hread⟩ := readQuotedScalar_within sp text
    ('\n' :: sp.lines ls ending) ts allowed
    (show level cols ≠ (m.right 1).column by simp; omega)
  obtain ⟨key', hkey', hdrop⟩ := dropStaleKeys_loose
    ⟨'\n' :: sp.lines ls ending, (m.right 1).right (sp.quoted text).length⟩ (t :: ts) cols false
    fun k hk => (hkey k hk).1
  rw [closeBlocks_of_le (by simp; omega), hread] at hstep
  refine ⟨_, t, hmeets.moves hstep hdrop ?_, hlexeme, stands_of_newline sp ending ls ?_⟩
  · simp [Spelling.quoted]
    omega
  · intro k hk
    exact ⟨(hkey k (hkey' k hk)).1, Nat.le_of_eq (hkey k (hkey' k hk)).2⟩

theorem emptyList_scans (ls : List Line) (hlevel : level cols ≤ m.column) :
    ∃ s' ts', ReflTransGen Moves
        (within ⟨' ' :: '[' :: ']' :: '\n' :: sp.lines ls ending, m⟩ ts cols none false) s' ∧
      said ts' = said ts ++ [.flowSequenceStart, .flowSequenceEnd] ∧
      Stands sp ending s' ts' cols ls := by
  have hmeets : Meets (within ⟨' ' :: '[' :: ']' :: '\n' :: sp.lines ls ending, m⟩ ts cols none
      false) _ := meets_space rfl
  have hstep := step_bracket hmeets.settles rfl
  rw [closeBlocks_of_le (by simp; omega), openFlow_within] at hstep
  have hopens := hmeets.moves hstep dropStaleKeys_bracketed (Nat.lt_succ_self _)
  exact ⟨_, _, .tail (.single hopens) bracketed_moves, by simp,
    stands_of_newline sp ending ls (by simp)⟩

theorem value_scans (value : Option Atom) (ls : List Line) (hlevel : level cols ≤ m.column)
    (hls : ∀ n, value = some (.number n) → firstColumn ls ≤ level cols) :
    ∃ s' ts', ReflTransGen Moves
        (within ⟨sp.behindColon value ++ '\n' :: sp.lines ls ending, m⟩ ts cols none false) s' ∧
      said ts' = said ts ++ (value.map Atom.lexemes).getD [] ∧ Stands sp ending s' ts' cols ls := by
  match value with
  | none =>
    exact ⟨_, ts, .refl, by simp, stands_of_newline sp ending ls (by simp)⟩
  | some (.number n) =>
    obtain ⟨s', t, hmoves, hlexeme, hstands⟩ := number_scans sp ending ts n ls hlevel (hls n rfl)
    exact ⟨s', t :: ts, .single hmoves, by simp [hlexeme, Atom.lexemes], hstands⟩
  | some (.text s) =>
    obtain ⟨s', t, hmoves, hlexeme, hstands⟩ := text_scans sp ending ts false s ls hlevel
    exact ⟨s', t :: ts, .single hmoves, by simp [hlexeme, Atom.lexemes], hstands⟩
  | some .emptyList => exact emptyList_scans sp ending ts ls hlevel

end

variable {ts : List Token} {cols : List Nat} {m : Mark} {r : List Char}

/-- The word in front of a colon may turn out to be a key. -/
theorem name_moves {s : Scanner} (name : Name) (hr : atGap r)
    (h : Meets s (within ⟨name.val.toList ++ ':' :: r, m⟩ ts cols none true)) :
    ∃ t key ts', Moves s (within ⟨':' :: r, m.right name.val.toList.length⟩ (t :: ts')
        (kept m.column cols) (some key) false) ∧
      t.lexeme = .scalar name.val .plain ∧
      said ts' = said ts ++ List.replicate (ended m.column cols) .blockEnd ∧
      key.position = ts'.length ∧ key.mark = m ∧
      isStale (m.right name.val.toList.length) key = false := by
  have hne := name.toList_ne_nil
  have hinner := PlainScalar.isInner_of_isName name
  have hlength := name.length_le
  have hgap : Gap.read (level (kept m.column cols) + 1).toNat .plainScalar m
      ⟨':' :: r, m.right name.val.toList.length⟩ {} =
        .ok ({}, ⟨':' :: r, m.right name.val.toList.length⟩) :=
    Gap.read_stop (by simp [isBlank, isBreak])
  obtain ⟨t, hlexeme, hread⟩ : ∃ t : Token, t.lexeme = .scalar name.val .plain ∧
      PlainScalar.read false (level (kept m.column cols) + 1).toNat
        ⟨name.val.toList ++ ':' :: r, m⟩ =
        .ok (t, ⟨':' :: r, m.right name.val.toList.length⟩, false) :=
    ⟨⟨_, _, _⟩, by simp, PlainScalar.read_word hne hinner (by simp [PlainScalar.ends, hr]) hgap
      (.inr (.inr (Nat.lt_irrefl _)))⟩
  have hstep := step_word h.settles hne hinner rfl
  rw [closeBlocks_within, readPlainScalar_noting hread] at hstep
  have hfresh (position : Nat) (required : Bool) :
      isStale (m.right name.val.toList.length) ⟨position, m, required⟩ = false := by
    simp [isStale, hlength]
  have hshorter : (':' :: r).length < (name.val.toList ++ ':' :: r).length := by
    rw [List.length_append]
    exact Nat.lt_add_of_pos_left (List.length_pos_iff.2 hne)
  refine ⟨t, _, _, h.moves hstep (dropStaleKeys_within ?_) hshorter, hlexeme, by simp, rfl, rfl,
    hfresh _ _⟩
  intro k hk
  obtain rfl := Option.some.inj hk
  exact hfresh _ _

theorem colon_moves {t : Token} {key : PossibleKey} (hr : atGap r)
    (hposition : key.position = ts.length) (hfresh : isStale m key = false)
    (hlevel : level cols ≤ m.column) :
    ∃ ts', Moves (within ⟨':' :: r, m⟩ (t :: ts) cols (some key) false)
        (within ⟨r, m.right 1⟩ ts' (opened key.mark.column cols) none false) ∧
      said ts' = said ts ++
        ((if level cols < key.mark.column then [.blockMappingStart] else []) ++
          [.key, t.lexeme, .value]) := by
  have hmeets : Meets (within ⟨':' :: r, m⟩ (t :: ts) cols (some key) false) _ :=
    meets_self rfl (by simpa using hfresh)
  have hstep := step_colon hmeets.settles rfl hr
  rw [closeBlocks_of_le hlevel, readValue_within key hposition] at hstep
  exact ⟨_, hmeets.moves hstep dropStaleKeys_none (Nat.lt_succ_self _), by simp⟩

theorem dash_moves {s : Scanner}
    (h : Meets s (within ⟨'-' :: ' ' :: r, m⟩ ts cols none true)) :
    ∃ ts', Moves s (within ⟨' ' :: r, m.right 1⟩ ts' (opened m.column (kept m.column cols)) none
        true) ∧
      said ts' = said ts ++ (List.replicate (ended m.column cols) .blockEnd ++
        ((if level (kept m.column cols) < m.column then [.blockSequenceStart] else []) ++
          [.blockEntry])) := by
  have hstep := step_dash h.settles rfl
  rw [closeBlocks_within, readBlockEntry_within] at hstep
  exact ⟨_, h.moves hstep dropStaleKeys_none (Nat.lt_succ_self _), by simp⟩

/-- Some lines in which no number is continued by the next line. -/
def Orderly : List Line → Prop
  | [] => True
  | l :: ls =>
    (∀ name n, l.content = .member name (some (.number n)) → firstColumn ls ≤ l.column) ∧ Orderly ls

theorem line_scans {s : Scanner} (l : Line) (ls : List Line) (hl : Orderly (l :: ls))
    (h : Stands sp ending s ts cols (l :: ls)) :
    ∃ s' ts', ReflTransGen Moves s s' ∧
      said ts' ++ lexemesOf (opened l.column (kept l.column cols)) ls =
        said ts ++ lexemesOf cols (l :: ls) ∧
      Stands sp ending s' ts' (opened l.column (kept l.column cols)) ls := by
  obtain ⟨m, hm, hmeets⟩ := h
  obtain hm : m.column = l.column := hm
  have hkept : level (kept m.column cols) ≤ m.column := level_kept_le _ _
  have hlevel : level (opened m.column (kept m.column cols)) = m.column := level_opened hkept
  simp only [firstText] at hmeets
  rw [lexemesOf, ← hm]
  cases hcontent : l.content with
  | member name value =>
    have hgap : atGap (sp.behindColon value ++ '\n' :: sp.lines ls ending) := by
      cases value <;> rfl
    have hls : ∀ n, value = some (.number n) →
        firstColumn ls ≤ level (opened m.column (kept m.column cols)) := by
      rintro n rfl
      rw [hlevel, hm]
      exact Int.ofNat_le.2 (hl.1 name n hcontent)
    simp only [hcontent, Spelling.content, List.append_assoc, List.cons_append] at hmeets
    obtain ⟨t, key, ts₁, hname, hlexeme, hsaid₁, hposition, hmark, hfresh⟩ :=
      name_moves name hgap hmeets
    obtain ⟨ts₂, hcolon, hsaid₂⟩ := colon_moves hgap hposition hfresh
      (Int.le_trans hkept (Mark.column_le_right _ _))
    rw [hmark] at hcolon hsaid₂
    obtain ⟨s', ts', hvalue, hsaid', hstands⟩ := value_scans sp ending ts₂ value ls
      (m := (m.right name.val.toList.length).right 1)
      (by rw [hlevel, Mark.right_right]; exact Mark.column_le_right _ _) hls
    refine ⟨s', ts', .trans (.tail (.single hname) hcolon) hvalue, ?_, hstands⟩
    simp [hsaid', hsaid₂, hsaid₁, hlexeme, Content.opener, Content.lexemes]
  | item text =>
    simp only [hcontent, Spelling.content, List.cons_append] at hmeets
    obtain ⟨ts₁, hdash, hsaid₁⟩ := dash_moves hmeets
    have hdeep : level (opened m.column (kept m.column cols)) ≤ (m.right 1).column := by
      rw [hlevel]
      exact Mark.column_le_right _ _
    obtain ⟨s', t, htext, hlexeme, hstands⟩ := text_scans sp ending ts₁ true text ls hdeep
    refine ⟨s', t :: ts₁, .tail (.single hdash) htext, ?_, hstands⟩
    simp [hsaid₁, hlexeme, Content.opener, Content.lexemes]

theorem lines_scan {s : Scanner} (ls : List Line) (hls : Orderly ls)
    (h : Stands sp ending s ts cols ls) :
    ∃ s' ts' cols', ReflTransGen Moves s s' ∧
      said ts' ++ lexemesOf cols' [] = said ts ++ lexemesOf cols ls ∧
      Stands sp ending s' ts' cols' [] := by
  induction ls generalizing s ts cols with
  | nil => exact ⟨s, ts, cols, .refl, rfl, h⟩
  | cons l ls ih =>
    obtain ⟨s₁, ts₁, hfirst, hsaid₁, hstands₁⟩ := line_scans sp ending l ls hls h
    obtain ⟨s', ts', cols', hrest, hsaid', hstands'⟩ := ih hls.2 hstands₁
    exact ⟨s', ts', cols', hfirst.trans hrest, hsaid'.trans hsaid₁, hstands'⟩

end

theorem ofScanner_of_moves {s s' : Scanner} (h : ReflTransGen Moves s s') {fuel : Nat}
    (hfuel : s.cursor.rest.length + 2 ≤ fuel) :
    ∃ fuel', TokenStream.ofScanner fuel s = TokenStream.ofScanner (fuel' + 2) s' := by
  induction h using ReflTransGen.head_induction_on generalizing fuel with
  | refl =>
    obtain ⟨fuel', rfl⟩ := Nat.exists_eq_add_of_le' (Nat.le_of_add_left_le hfuel)
    exact ⟨fuel', rfl⟩
  | @head s₁ s₂ hmove _ ih =>
    obtain ⟨fuel, rfl⟩ := Nat.exists_eq_add_of_le' (show 1 ≤ fuel by omega)
    have hshorter := hmove.shorter
    obtain ⟨fuel', hrest⟩ := ih (show s₂.cursor.rest.length + 2 ≤ fuel by omega)
    refine ⟨fuel', ?_⟩
    rw [TokenStream.ofScanner, hmove.going]
    simp only [hmove.step, hrest]

theorem ofScanner_of_ending {s e : Scanner} {t : Token} (hs : s.ending = none)
    (hstep : s.step = .ok e) (hkeys : e.dropStaleKeys = .ok e) (he : e.ending = some t)
    (fuel : Nat) : TokenStream.ofScanner (fuel + 2) s = ⟨e.tokens.reverse, .ok t⟩ := by
  have hnext : (s.step >>= dropStaleKeys) = .ok e := by rw [hstep]; exact hkeys
  rw [TokenStream.ofScanner, hs]
  simp only [hnext]
  rw [TokenStream.ofScanner, he]

theorem ofScanner_of_stands {sp : Spelling} {ending : List Remark} {s : Scanner} {ts : List Token}
    {cols : List Nat} (h : Stands sp ending s ts cols []) (fuel : Nat) :
    ∃ ts' t, TokenStream.ofScanner (fuel + 2) s = ⟨ts', .ok t⟩ ∧ t.lexeme = .streamEnd ∧
      ts'.map Token.lexeme = said ts ++ lexemesOf cols [] := by
  obtain ⟨m, hm, hmeets⟩ : ∃ m : Mark, m.column = 0 ∧
      Meets s (within ⟨[], m⟩ ts cols none true) := h
  have hstep := step_end hmeets.settles rfl
  rw [closeBlocks_within, endStream_within hm] at hstep
  have hcount : ended m.column cols + (kept m.column cols).length = cols.length := by
    rw [ended, kept, ← List.length_append, List.takeWhile_append_dropWhile]
  refine ⟨_, _, ofScanner_of_ending hmeets.going hstep rfl rfl fuel, rfl, ?_⟩
  simp [lexemesOf, said, ← hcount, within, Nat.add_comm]

/-- Lines are read as what they say, one after the other. -/
theorem ofChars_lines (sp : Spelling) (ls : List Line) (ending : List Remark) (h : Orderly ls) :
    ∃ ts t, TokenStream.ofChars (sp.lines ls ending) = ⟨ts, .ok t⟩ ∧ t.lexeme = .streamEnd ∧
      ts.map Token.lexeme = .streamStart :: lexemesOf [] ls := by
  let start : Scanner :=
    within ⟨sp.lines ls ending, .start⟩ [⟨.streamStart, .start, .start⟩] [] none true
  obtain ⟨m, hcolumn, -, hskip⟩ := skipToToken_margin (s := start) (firstRemarks ending ls)
    (atToken_firstText sp ending ls) (by rw [← lines_eq]; rfl) rfl rfl
  have hstands : Stands sp ending start [⟨.streamStart, .start, .start⟩] [] ls := by
    have hshort := length_skipToToken_le start
    rw [hskip] at hshort
    refine ⟨m, hcolumn, rfl, ?_, hshort⟩
    rw [hskip, moved_within, dropStaleKeys_none]
  obtain ⟨s', ts', cols', hmoves, hsaid, hend⟩ := lines_scan sp ending ls h hstands
  obtain ⟨fuel, hfuel⟩ := ofScanner_of_moves hmoves (Nat.le_refl _)
  obtain ⟨ts, t, hresult, hlexeme, hlexemes⟩ := ofScanner_of_stands hend fuel
  exact ⟨ts, t, hfuel.trans hresult, hlexeme, hlexemes.trans hsaid⟩

end SearchRelay.Yaml

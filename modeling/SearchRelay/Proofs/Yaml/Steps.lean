import SearchRelay.Proofs.Yaml.Scalars

namespace SearchRelay.Yaml

namespace Scanner

def level : List Nat → Int
  | [] => -1
  | c :: _ => c

def outerLevels : List Nat → List Int
  | [] => []
  | _ :: r => level r :: outerLevels r

/-- A scanner in no flow collection; the open block collections are at some columns. -/
def within (c : Cursor) (ts : List Token) (cols : List Nat) (key : Option PossibleKey)
    (keyAllowed : Bool) : Scanner where
  cursor := c
  tokens := ts
  count := ts.length
  indent := level cols
  outer := outerLevels cols
  keys := [key]
  keyAllowed := keyAllowed

variable {s : Scanner} {c : Cursor} {ts : List Token} {cols : List Nat} {key : Option PossibleKey}
  {allowed : Bool}

@[simp] theorem within_cursor : (within c ts cols key allowed).cursor = c := rfl
@[simp] theorem within_mark : (within c ts cols key allowed).mark = c.mark := rfl
@[simp] theorem within_keyAllowed : (within c ts cols key allowed).keyAllowed = allowed := rfl
@[simp] theorem within_keys : (within c ts cols key allowed).keys = [key] := rfl
@[simp] theorem within_indent : (within c ts cols key allowed).indent = level cols := rfl
@[simp] theorem within_count : (within c ts cols key allowed).count = ts.length := rfl
@[simp] theorem within_inFlow : (within c ts cols key allowed).inFlow = false := rfl
@[simp] theorem moved_within (d : Cursor) :
    (within c ts cols key allowed).moved d = within d ts cols key allowed := rfl

/-- The collections that stay open where a line starts at a column. -/
def kept (column : Int) (cols : List Nat) : List Nat := cols.dropWhile fun k : Nat => column < k

/-- How many collections end there. -/
def ended (column : Int) (cols : List Nat) : Nat :=
  (cols.takeWhile fun k : Nat => column < k).length

theorem closeBlocks_within (column : Int) :
    (within c ts cols key allowed).closeBlocks column =
      within c (List.replicate (ended column cols) ⟨.blockEnd, c.mark, c.mark⟩ ++ ts)
        (kept column cols) key allowed := by
  have hloop : closeBlocksLoop column (outerLevels cols) (within c ts cols key allowed) =
      within c (List.replicate (ended column cols) ⟨.blockEnd, c.mark, c.mark⟩ ++ ts)
        (kept column cols) key allowed := by
    induction cols generalizing ts with
    | nil => rfl
    | cons k cols ih =>
      rw [outerLevels, closeBlocksLoop]
      by_cases hk : column < (k : Int)
      · have hended : ended column (k :: cols) = ended column cols + 1 := by simp [ended, hk]
        have hkept : kept column (k :: cols) = kept column cols := by simp [kept, hk]
        rw [within_indent, level, if_pos hk, hended, hkept, List.replicate_succ',
          List.append_assoc, List.singleton_append]
        exact ih
      · have hended : ended column (k :: cols) = 0 := by simp [ended, hk]
        have hkept : kept column (k :: cols) = k :: cols := by simp [kept, hk]
        rw [within_indent, level, if_neg hk, hended, hkept]
        rfl
  exact hloop

theorem level_kept_le (column : Nat) (cols : List Nat) : level (kept column cols) ≤ column := by
  induction cols with
  | nil => exact Int.le_trans (show (-1 : Int) ≤ 0 by decide) (Int.natCast_nonneg column)
  | cons k cols ih =>
    by_cases hk : column < k
    · simpa [kept, hk] using ih
    · have hle : k ≤ column := Nat.le_of_not_lt hk
      simpa [kept, hk, level] using hle

theorem closeBlocks_of_le {column : Int} (h : level cols ≤ column) :
    (within c ts cols key allowed).closeBlocks column = within c ts cols key allowed := by
  rw [closeBlocks_within]
  cases cols with
  | nil => rfl
  | cons k cols => simp [ended, kept, show ¬ column < (k : Int) from Int.not_lt.2 h]

def opened (column : Nat) (cols : List Nat) : List Nat :=
  if level cols < column then column :: cols else cols

theorem level_opened {column : Nat} (h : level cols ≤ column) :
    level (opened column cols) = column := by
  unfold opened
  split
  · rfl
  · omega

def opening (column : Nat) (cols : List Nat) (t : Token) : List Token :=
  if level cols < column then [t] else []

theorem insert_within (front : List Token) (t : Token) :
    (within c (front ++ ts) cols key allowed).insert ts.length t =
      within c (front ++ t :: ts) cols key allowed := by
  simp [insert, within, Nat.add_assoc]

theorem openBlock_within (column : Nat) (lexeme : Lexeme) (m : Mark) (front : List Token) :
    (within c (front ++ ts) cols key allowed).openBlock column ts.length lexeme m =
      within c (front ++ (opening column cols ⟨lexeme, m, m⟩ ++ ts)) (opened column cols) key
        allowed := by
  unfold openBlock opening opened
  by_cases hlevel : level cols < column
  · simp only [within_inFlow, within_indent, Int.not_le.2 hlevel, Bool.false_or, decide_false,
      Bool.false_eq_true, if_false, insert_within, if_pos hlevel]
    rfl
  · simp [hlevel, Int.not_lt.1 hlevel]

theorem dropStaleKeys_within (h : ∀ k ∈ key, isStale c.mark k = false) :
    (within c ts cols key allowed).dropStaleKeys = .ok (within c ts cols key allowed) := by
  cases key with
  | none => rfl
  | some k => simp [dropStaleKeys, within, h k rfl, mark, Option.filter]

theorem dropStaleKeys_none :
    (within c ts cols none allowed).dropStaleKeys = .ok (within c ts cols none allowed) :=
  dropStaleKeys_within (by simp)

variable (c ts cols allowed) in
theorem dropStaleKeys_loose (h : ∀ k ∈ key, k.required = false) :
    ∃ key', (∀ k ∈ key', k ∈ key) ∧
      (within c ts cols key allowed).dropStaleKeys = .ok (within c ts cols key' allowed) := by
  refine ⟨key.filter fun k => !isStale c.mark k, fun k hk => (Option.mem_filter_iff.1 hk).1, ?_⟩
  cases key with
  | none => rfl
  | some k => simp [dropStaleKeys, within, mark, h k rfl]

theorem dropStaleKeys_stale (h : ∀ k ∈ key, k.required = false ∧ k.mark.line < c.mark.line) :
    (within c ts cols key allowed).dropStaleKeys = .ok (within c ts cols none allowed) := by
  cases key with
  | none => rfl
  | some k =>
    obtain ⟨hrequired, hline⟩ := h k rfl
    simp [dropStaleKeys, within, isStale, mark, hrequired, hline]

section

variable (h : s.skipToToken.dropStaleKeys = .ok (within c ts cols key allowed))
  {r : List Char}

include h

theorem step_word {word : List Char} (hne : word ≠ []) (hinner : ∀ c ∈ word, PlainScalar.isInner c)
    (hrest : c.rest = word ++ r) :
    s.step = ((within c ts cols key allowed).closeBlocks c.mark.column).readPlainScalar := by
  obtain ⟨rest, m⟩ := c
  obtain rfl : rest = word ++ r := hrest
  have hmark : Cursor.atDocumentMark ⟨word ++ r, m⟩ = false :=
    PlainScalar.atDocumentMark_word hne hinner
  obtain ⟨x, more, rfl⟩ := List.exists_cons_of_ne_nil hne
  have hx := hinner x (List.mem_cons_self ..)
  simp [PlainScalar.isInner] at hx
  rw [List.cons_append] at h hmark
  simp [step, h, closeBlocks_within, hmark, hx, bind, Except.bind, startsPlain]

theorem step_colon (hrest : c.rest = ':' :: r) (hr : atGap r) :
    s.step = ((within c ts cols key allowed).closeBlocks c.mark.column).readValue := by
  simp [step, h, closeBlocks_within, hrest, hr, bind, Except.bind, Cursor.atDocumentMark]

theorem step_dash (hrest : c.rest = '-' :: ' ' :: r) :
    s.step = ((within c ts cols key allowed).closeBlocks c.mark.column).readBlockEntry := by
  simp [step, h, closeBlocks_within, hrest, bind, Except.bind, Cursor.atDocumentMark, atGap,
    isBlank]

theorem step_quote (hrest : c.rest = '"' :: r) :
    s.step = ((within c ts cols key allowed).closeBlocks c.mark.column).readQuotedScalar false := by
  simp [step, h, closeBlocks_within, hrest, bind, Except.bind, Cursor.atDocumentMark]

theorem step_bracket (hrest : c.rest = '[' :: r) :
    s.step = ((within c ts cols key allowed).closeBlocks c.mark.column).openFlow
      .flowSequenceStart := by
  simp [step, h, closeBlocks_within, hrest, bind, Except.bind, Cursor.atDocumentMark]

theorem step_end (hrest : c.rest = []) :
    s.step = ((within c ts cols key allowed).closeBlocks c.mark.column).endStream := by
  simp [step, h, closeBlocks_within, hrest, bind, Except.bind]

end

section

variable {m : Mark} {r : List Char} {t : Token} {d : Cursor} {broken : Bool}

theorem readPlainScalar_noting
    (h : PlainScalar.read false (level cols + 1).toNat c = .ok (t, d, broken)) :
    (within c ts cols none true).readPlainScalar =
      .ok (within d (t :: ts) cols (some ⟨ts.length, c.mark, level cols == c.mark.column⟩)
        broken) := by
  simp [readPlainScalar, noteKey, dropKey, within, mark, inFlow, push, bind, Except.bind, pure,
    Except.pure, h]

theorem readPlainScalar_behind
    (h : PlainScalar.read false (level cols + 1).toNat c = .ok (t, d, broken)) :
    (within c ts cols none false).readPlainScalar = .ok (within d (t :: ts) cols none broken) := by
  simp [readPlainScalar, noteKey, within, inFlow, push, bind, Except.bind, pure, Except.pure, h]

theorem readValue_within (key : PossibleKey) (hkey : key.position = ts.length) :
    (within ⟨':' :: r, m⟩ (t :: ts) cols (some key) false).readValue =
      .ok (within ⟨r, m.right 1⟩
        (⟨.value, m, m.right 1⟩ :: t :: ⟨.key, key.mark, key.mark⟩ ::
          (opening key.mark.column cols ⟨.blockMappingStart, key.mark, key.mark⟩ ++ ts))
        (opened key.mark.column cols) none false) := by
  have hopen : ((within ⟨':' :: r, m⟩ (t :: ts) cols (some key) false).insert key.position
      ⟨.key, key.mark, key.mark⟩).openBlock key.mark.column key.position .blockMappingStart
        key.mark =
      within ⟨':' :: r, m⟩ ([t, ⟨.key, key.mark, key.mark⟩] ++
        (opening key.mark.column cols ⟨.blockMappingStart, key.mark, key.mark⟩ ++ ts))
        (opened key.mark.column cols) (some key) false := by
    rw [hkey, ← openBlock_within]
    exact congrArg (openBlock · _ _ _ _) (insert_within [t] _)
  simp only [readValue, within_keys, hopen]
  rfl

theorem readBlockEntry_within :
    (within ⟨'-' :: r, m⟩ ts cols none true).readBlockEntry =
      .ok (within ⟨r, m.right 1⟩
        (⟨.blockEntry, m, m.right 1⟩ :: (opening m.column cols ⟨.blockSequenceStart, m, m⟩ ++ ts))
        (opened m.column cols) none true) := by
  have hopen : (within ⟨'-' :: r, m⟩ ts cols none true).openBlock m.column ts.length
      .blockSequenceStart m =
      within ⟨'-' :: r, m⟩ (opening m.column cols ⟨.blockSequenceStart, m, m⟩ ++ ts)
        (opened m.column cols) none true := openBlock_within m.column .blockSequenceStart m []
  simp only [readBlockEntry, within_inFlow, within_keyAllowed, within_mark, within_count, hopen]
  rfl

theorem readQuotedScalar_within (sp : Spelling) (text : String) (r : List Char) (ts : List Token)
    (allowed : Bool) (hlevel : level cols ≠ m.column) :
    ∃ t key, t.lexeme = .scalar text .doubleQuoted ∧
      (∀ k ∈ key, k.required = false ∧ k.mark.line = m.line) ∧
      (within ⟨sp.quoted text ++ r, m⟩ ts cols none allowed).readQuotedScalar false =
        .ok (within ⟨r, m.right (sp.quoted text).length⟩ (t :: ts) cols key false) := by
  obtain ⟨t, hlexeme, hread⟩ : ∃ t : Token, t.lexeme = .scalar text .doubleQuoted ∧
      QuotedScalar.read false ⟨sp.quoted text ++ r, m⟩ =
        .ok (t, ⟨r, m.right (sp.quoted text).length⟩) :=
    ⟨⟨_, _, _⟩, rfl, QuotedScalar.read_quoted sp text⟩
  cases allowed with
  | false =>
    refine ⟨t, none, hlexeme, by simp, ?_⟩
    simp [readQuotedScalar, noteKey, within, bind, Except.bind, pure, Except.pure, hread, push]
  | true =>
    refine ⟨t, some ⟨ts.length, m, false⟩, hlexeme, by simp, ?_⟩
    simp [readQuotedScalar, noteKey, dropKey, within, inFlow, mark, bind, Except.bind, pure,
      Except.pure, hread, push, hlevel]

def bracketed (c : Cursor) (ts : List Token) (cols : List Nat) : Scanner :=
  { within c ts cols none true with keys := [none, none] }

theorem dropStaleKeys_bracketed :
    (bracketed c ts cols).dropStaleKeys = .ok (bracketed c ts cols) := rfl

theorem openFlow_within :
    (within ⟨'[' :: r, m⟩ ts cols none false).openFlow .flowSequenceStart =
      .ok (bracketed ⟨r, m.right 1⟩ (⟨.flowSequenceStart, m, m.right 1⟩ :: ts) cols) := rfl

theorem step_bracketed :
    (bracketed ⟨']' :: r, m⟩ ts cols).step =
      .ok (within ⟨r, m.right 1⟩ (⟨.flowSequenceEnd, m, m.right 1⟩ :: ts) cols none false) := by
  have hskip : (bracketed ⟨']' :: r, m⟩ ts cols).skipToToken = bracketed ⟨']' :: r, m⟩ ts cols :=
    skipToToken_of_atToken rfl
  rw [step, hskip, dropStaleKeys_bracketed]
  simp [bracketed, within, closeBlocks, inFlow, mark, Cursor.atDocumentMark, closeFlow, dropKey,
    pushIndicator, push, bind, Except.bind, pure, Except.pure, Cursor.advance, Mark.right]

theorem endStream_within (hm : m.column = 0) :
    (within ⟨[], m⟩ ts cols none allowed).endStream =
      .ok { within ⟨[], m⟩ (List.replicate cols.length ⟨.blockEnd, m, m⟩ ++ ts) [] none false with
        ending := some ⟨.streamEnd, m, m⟩ } := by
  have hall (cols : List Nat) : ended (-1) cols = cols.length ∧ kept (-1) cols = [] := by
    induction cols with
    | nil => exact ⟨rfl, rfl⟩
    | cons k cols ih =>
      have hk : (-1 : Int) < k := by omega
      simpa [ended, kept, hk] using ih
  have hclose : (within ⟨[], m⟩ ts cols none allowed).closeBlocks (-1) =
      within ⟨[], m⟩ (List.replicate cols.length ⟨.blockEnd, m, m⟩ ++ ts) [] none allowed := by
    rw [closeBlocks_within, (hall cols).1, (hall cols).2]
  unfold endStream
  simp only [within_mark, hm, if_true]
  change ((within ⟨[], m⟩ ts cols none allowed).closeBlocks (-1)).dropKey >>= _ = _
  rw [hclose]
  rfl

end

end Scanner

end SearchRelay.Yaml

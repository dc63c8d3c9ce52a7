import SearchRelay.Proofs.Yaml.Documents

namespace SearchRelay.Yaml

def IsRemark (cs : List Char) : Prop :=
  (∀ c ∈ cs.head?, c = '#') ∧ ∀ c ∈ cs, isBreak c = false

/-- Lines of which each is blank or a comment, behind blanks of some kind. -/
inductive CommentLines (blank : Char → Prop) : List Char → Prop
  | last {indent remark : List Char} (blanks : ∀ c ∈ indent, blank c) (only : IsRemark remark) :
      CommentLines blank (indent ++ remark)
  | line {indent remark rest : List Char} {b : Char} (blanks : ∀ c ∈ indent, blank c)
      (only : IsRemark remark) (ends : isBreak b) (more : CommentLines blank rest) :
      CommentLines blank (indent ++ (remark ++ b :: rest))

theorem crossBreak?_of_isBreak {b : Char} (h : isBreak b) (r : List Char) (m : Mark) :
    (∃ r', b = '\r' ∧ r = '\n' :: r' ∧
      ∃ x, Cursor.crossBreak? ⟨b :: r, m⟩ = some (x, ⟨r', ⟨m.index + 2, m.line + 1, 0⟩⟩)) ∨
    ∃ x, Cursor.crossBreak? ⟨b :: r, m⟩ = some (x, ⟨r, m.below⟩) := by
  unfold Cursor.crossBreak?
  split
  · rename_i r' heq
    obtain ⟨rfl, rfl⟩ := List.cons.inj heq
    exact .inl ⟨r', rfl, rfl, _, rfl⟩
  · rename_i heq
    obtain ⟨rfl, rfl⟩ := List.cons.inj heq
    rw [if_pos h]
    exact .inr ⟨_, rfl⟩
  · rename_i heq
    cases heq

namespace Scanner

variable {s : Scanner} {r : List Char} {m : Mark}

theorem skipToToken_blankLine {indent remark : List Char} (blanks : ∀ c ∈ indent, c = ' ')
    (only : IsRemark remark) (hr : atLineEnd r) (h : s.cursor = ⟨indent ++ (remark ++ r), m⟩) :
    ∃ m', s.skipToToken = (s.moved ⟨r, m'⟩).skipToToken := by
  obtain ⟨n, rfl⟩ : ∃ n, indent = List.replicate n ' ' := ⟨_, List.eq_replicate_of_mem blanks⟩
  rw [skipToToken_spaces h]
  cases remark with
  | nil => exact ⟨_, rfl⟩
  | cons c text =>
    obtain rfl : c = '#' := only.1 c rfl
    have noBreak : ∀ x ∈ text, isBreak x = false := fun x hx => only.2 x (.tail _ hx)
    rw [List.cons_append, skipToToken_comment rfl noBreak hr, moved_moved]
    exact ⟨_, rfl⟩

theorem skipToToken_break {d : Cursor} {x : Char} (ends : atLineEnd s.cursor.rest)
    (hcross : s.cursor.crossBreak? = some (x, d)) (hallowed : s.keyAllowed = true) :
    s.skipToToken = (s.moved d).skipToToken := by
  have hmoved : { s with cursor := d, keyAllowed := s.keyAllowed || !s.inFlow } = s.moved d := by
    simp [moved, hallowed]
  rw [skipToToken_lineEnd ends, hcross]
  exact congrArg skipToToken hmoved

theorem skipToToken_comments (h : CommentLines (· = ' ') r) (hs : s.cursor = ⟨r, m⟩)
    (hallowed : s.keyAllowed = true) : ∃ m', s.skipToToken = s.moved ⟨[], m'⟩ := by
  induction h generalizing s m with
  | @last indent remark blanks only =>
    rw [← List.append_nil remark] at hs
    obtain ⟨m', hskip⟩ := skipToToken_blankLine blanks only rfl hs
    exact ⟨m', hskip.trans (skipToToken_of_atToken rfl)⟩
  | @line indent remark rest b blanks only ends _ ih =>
    obtain ⟨m', hskip⟩ := skipToToken_blankLine (r := b :: rest) blanks only ends hs
    obtain ⟨r, rfl, rfl, x, hcross⟩ | ⟨x, hcross⟩ := crossBreak?_of_isBreak ends rest m'
    · -- Both characters are one break, and the second alone is one too.
      let second : Cursor := ⟨'\n' :: r, ⟨m'.index + 1, m'.line, 0⟩⟩
      obtain ⟨m'', hrest⟩ := ih (s := s.moved second) rfl hallowed
      rw [skipToToken_break (s := s.moved second) (d := ⟨r, second.mark.below⟩) rfl rfl hallowed,
        moved_moved] at hrest
      refine ⟨m'', hskip.trans ?_⟩
      rw [skipToToken_break (s := s.moved ⟨'\r' :: '\n' :: r, m'⟩) rfl hcross hallowed, moved_moved]
      exact hrest
    · obtain ⟨m'', hrest⟩ := ih (s := s.moved ⟨rest, m'.below⟩) rfl hallowed
      refine ⟨m'', hskip.trans ?_⟩
      rw [skipToToken_break (s := s.moved ⟨b :: rest, m'⟩) ends hcross hallowed, moved_moved]
      exact hrest

theorem skipToToken_orderMark (h : s.cursor = ⟨'\ufeff' :: r, m⟩) (hm : m.index = 0) :
    s.skipToToken = (s.moved ⟨r, m.right 1⟩).skipToToken := by
  have horder : (s.cursor.mark.index == 0 && s.cursor.rest.head? == some '\ufeff') = true := by
    simp [h, hm]
  have hpast : s.cursor.advance 1 = ⟨r, m.right 1⟩ := by rw [h]; rfl
  rw [skipToToken_eq (s := s.moved ⟨r, m.right 1⟩) (.inr (Nat.succ_ne_zero _)), skipToToken]
  have hseparator : (s.moved ⟨r, m.right 1⟩).isSeparator = s.isSeparator := rfl
  simp only [horder, if_true, hpast, moved_cursor, hseparator]
  cases hcross : ((⟨r, m.right 1⟩ : Cursor).skipWhile s.isSeparator).skipComment.crossBreak? with
  | none => rfl
  | some crossed =>
    have hshorter : crossed.2.rest.length < s.cursor.rest.length := by
      have hlt := Nat.lt_of_lt_of_le (Cursor.length_crossBreak?_lt hcross)
        (Nat.le_trans (length_skipComment_le _) (Cursor.length_advance_le _ _))
      rw [h]
      exact Nat.lt_succ_of_lt hlt
    exact if_pos hshorter

/-- Outside all collections, nothing but the end of the stream is left. -/
theorem endStream_outside (m : Mark) (ts : List Token) :
    ∃ m', (within ⟨[], m⟩ ts [] none true).endStream =
      .ok { within ⟨[], m'⟩ ts [] none false with ending := some ⟨.streamEnd, m', m'⟩ } :=
  ⟨if m.column = 0 then m else ⟨m.index, m.line + 1, 0⟩, rfl⟩

theorem ofChars_of_skipped {cs : List Char} {m : Mark}
    (hskip : (within ⟨cs, .start⟩ [⟨.streamStart, .start, .start⟩] [] none true).skipToToken =
      within ⟨[], m⟩ [⟨.streamStart, .start, .start⟩] [] none true) :
    ∃ ts t, TokenStream.ofChars cs = ⟨ts, .ok t⟩ ∧ t.lexeme = .streamEnd ∧
      ts.map Token.lexeme = [.streamStart] := by
  have hsettles := (congrArg dropStaleKeys hskip).trans dropStaleKeys_none
  have hstep := step_end hsettles rfl
  obtain ⟨m', hend⟩ := endStream_outside m [⟨.streamStart, .start, .start⟩]
  have hclose : (within ⟨[], m⟩ [⟨.streamStart, .start, .start⟩] [] none true).closeBlocks
      m.column = within ⟨[], m⟩ [⟨.streamStart, .start, .start⟩] [] none true :=
    closeBlocks_within _
  rw [hclose, hend] at hstep
  exact ⟨_, _, ofScanner_of_ending rfl hstep rfl rfl cs.length, rfl, rfl⟩

end Scanner

/-- A text of comments and blank lines, which a byte order mark may precede. -/
def CommentOnly (blank : Char → Prop) (text : String) : Prop :=
  ∃ cs, CommentLines blank cs ∧ (text.toList = cs ∨ text.toList = '\ufeff' :: cs)

/-- Where blanks are spaces, comments make no document. -/
theorem ofString_comments {text : String} (h : CommentOnly (· = ' ') text)
    (allowed : ∀ c ∈ text.toList, Document.isAllowed c) :
    Document.ofString text = ⟨.absent, none, [], {}, false⟩ := by
  obtain ⟨cs, lines, hcs⟩ := h
  obtain ⟨m, hskip⟩ : ∃ m, (Scanner.within ⟨text.toList, .start⟩
      [⟨.streamStart, .start, .start⟩] [] none true).skipToToken =
        Scanner.within ⟨[], m⟩ [⟨.streamStart, .start, .start⟩] [] none true := by
    rcases hcs with hcs | hcs
    · rw [hcs]
      exact Scanner.skipToToken_comments lines rfl rfl
    · rw [hcs, Scanner.skipToToken_orderMark rfl rfl]
      exact Scanner.skipToToken_comments lines rfl rfl
  obtain ⟨ts, t, htokens, ht, hts⟩ := Scanner.ofChars_of_skipped hskip
  obtain ⟨es, hevents, hbuild⟩ := EventReader.ofTokens_nothing hts ht
  simp only [Document.ofString, forbidden?_eq_none allowed 0, htokens, hevents, hbuild]

end SearchRelay.Yaml

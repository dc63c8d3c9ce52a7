import SearchRelay.Proofs.Yaml.Sheet
import SearchRelay.Yaml.Token.Scanner

namespace SearchRelay.Yaml

namespace Mark

def right (m : Mark) (n : Nat) : Mark := ⟨m.index + n, m.line, m.column + n⟩

def below (m : Mark) : Mark := ⟨m.index + 1, m.line + 1, 0⟩

@[simp] theorem right_index (m : Mark) (n : Nat) : (m.right n).index = m.index + n := rfl
@[simp] theorem right_line (m : Mark) (n : Nat) : (m.right n).line = m.line := rfl
@[simp] theorem right_column (m : Mark) (n : Nat) : (m.right n).column = m.column + n := rfl
@[simp] theorem below_column (m : Mark) : m.below.column = 0 := rfl

theorem column_le_right (m : Mark) (n : Nat) : (m.column : Int) ≤ (m.right n).column :=
  Int.ofNat_le.2 (Nat.le_add_right _ _)

@[simp] theorem right_zero (m : Mark) : m.right 0 = m := rfl

@[simp] theorem right_right (m : Mark) (a b : Nat) : (m.right a).right b = m.right (a + b) := by
  simp [right, Nat.add_assoc]

end Mark

def atToken : List Char → Bool
  | [] => true
  | c :: _ => !isBlank c && !isBreak c && c != '#' && c != '\ufeff'

namespace Cursor

@[simp] theorem advance_zero (c : Cursor) : c.advance 0 = c := rfl

theorem advance_append (text rest : List Char) (m : Mark) :
    advance ⟨text ++ rest, m⟩ text.length = ⟨rest, m.right text.length⟩ := by
  simp [advance, Mark.right]

theorem skipWhile_of_head {p : Char → Bool} {x : Char} (h : p x = false) (r : List Char)
    (m : Mark) : skipWhile ⟨x :: r, m⟩ p = ⟨x :: r, m⟩ := by
  simp [skipWhile, h]

theorem crossBreak?_newline (r : List Char) (m : Mark) :
    crossBreak? ⟨'\n' :: r, m⟩ = some ('\n', ⟨r, m.below⟩) := rfl

theorem crossBreak?_eq_none {c : Cursor} (h : ∀ x ∈ c.rest.head?, isBreak x = false) :
    c.crossBreak? = none := by
  obtain ⟨rest, m⟩ := c
  cases rest with
  | nil => rfl
  | cons x r =>
    have hx : isBreak x = false := h x rfl
    have hreturn : x ≠ '\r' := by
      rintro rfl
      exact absurd hx (by decide)
    unfold crossBreak?
    split
    · rename_i heq
      exact absurd (List.cons.inj heq).1 hreturn
    · rename_i heq
      obtain ⟨rfl, rfl⟩ := List.cons.inj heq
      simp [hx]
    · rfl

theorem atDocumentMark_of_column {c : Cursor} (h : 0 < c.mark.column) :
    c.atDocumentMark = false := by
  simp [atDocumentMark, Nat.ne_of_gt h]

end Cursor

namespace Scanner

variable {s : Scanner} {r : List Char} {m : Mark}

theorem length_skipComment_le (c : Cursor) : c.skipComment.rest.length ≤ c.rest.length := by
  unfold Cursor.skipComment
  split
  · exact Cursor.length_advance_le c _
  · exact Nat.le_refl _

/-- Where no byte order mark stands, one line is skipped, and then the next. -/
theorem skipToToken_eq (h : s.cursor.rest.head? ≠ some '\ufeff' ∨ s.cursor.mark.index ≠ 0) :
    s.skipToToken =
      match (s.cursor.skipWhile s.isSeparator).skipComment.crossBreak? with
      | none => { s with cursor := (s.cursor.skipWhile s.isSeparator).skipComment }
      | some (_, d) =>
        { s with cursor := d, keyAllowed := s.keyAllowed || !s.inFlow }.skipToToken := by
  have horder : (s.cursor.mark.index == 0 && s.cursor.rest.head? == some '\ufeff') = false := by
    rcases h with h | h <;> simp [h]
  rw [skipToToken, horder]
  simp only [Bool.false_eq_true, if_false]
  cases hcross : (s.cursor.skipWhile s.isSeparator).skipComment.crossBreak? with
  | none => rfl
  | some crossed =>
    have hshorter : crossed.2.rest.length < s.cursor.rest.length :=
      Nat.lt_of_lt_of_le (Cursor.length_crossBreak?_lt hcross)
        (Nat.le_trans (length_skipComment_le _) (Cursor.length_advance_le _ _))
    exact if_pos hshorter

theorem skipToToken_of_atToken (h : atToken s.cursor.rest) : s.skipToToken = s := by
  obtain ⟨⟨rest, mark⟩, _⟩ := s
  cases rest with
  | nil =>
    rw [skipToToken_eq (.inl (by simp))]
    simp [Cursor.skipWhile, Cursor.skipComment, Cursor.crossBreak?]
  | cons c r =>
    simp only [atToken, isBlank, Bool.and_eq_true, Bool.not_eq_true', Bool.or_eq_false_iff,
      bne_iff_ne] at h
    obtain ⟨⟨⟨⟨hspace, htab⟩, hbreak⟩, hremark⟩, horder⟩ := h
    have hcross : (⟨c :: r, mark⟩ : Cursor).crossBreak? = none :=
      Cursor.crossBreak?_eq_none (by simpa using hbreak)
    rw [skipToToken_eq (.inl (by simpa using horder)),
      Cursor.skipWhile_of_head (by simp [isSeparator, hspace, htab])]
    simp [Cursor.skipComment, hremark, hcross]

theorem length_skipToToken_le (s : Scanner) :
    s.skipToToken.cursor.rest.length ≤ s.cursor.rest.length := by
  have hline (s : Scanner) (c : Cursor) (hc : c.rest.length ≤ s.cursor.rest.length) :
      (c.skipWhile s.isSeparator).skipComment.rest.length ≤ s.cursor.rest.length :=
    Nat.le_trans (length_skipComment_le _) (Nat.le_trans (Cursor.length_advance_le _ _) hc)
  have horder (b : Bool) (c : Cursor) :
      (if b then c.advance 1 else c).rest.length ≤ c.rest.length := by
    cases b with
    | false => exact Nat.le_refl _
    | true => exact Cursor.length_advance_le _ _
  fun_induction skipToToken s with
  | case1 s => exact hline s _ (horder _ _)
  | case2 s _ _ _ _ _ _ hshorter ih => exact Nat.le_trans ih (Nat.le_of_lt hshorter)
  | case3 s _ _ _ _ _ hcross =>
    exact Nat.le_trans (Nat.le_of_lt (Cursor.length_crossBreak?_lt hcross)) (hline s _ (horder _ _))

def moved (s : Scanner) (c : Cursor) : Scanner := { s with cursor := c }

@[simp] theorem moved_cursor (s : Scanner) (c : Cursor) : (s.moved c).cursor = c := rfl
@[simp] theorem moved_keyAllowed (s : Scanner) (c : Cursor) :
    (s.moved c).keyAllowed = s.keyAllowed := rfl
@[simp] theorem moved_moved (s : Scanner) (c d : Cursor) : (s.moved c).moved d = s.moved d := rfl
@[simp] theorem moved_self (s : Scanner) : s.moved s.cursor = s := rfl

theorem skipToToken_space (h : s.cursor = ⟨' ' :: r, m⟩) :
    s.skipToToken = (s.moved ⟨r, m.right 1⟩).skipToToken := by
  obtain ⟨_, tokens, count, indent, outer, keys, keyAllowed, ending⟩ := s
  obtain rfl : _ = _ := h
  have hspace (p : Char → Bool) (hp : p ' ') :
      (⟨' ' :: r, m⟩ : Cursor).skipWhile p = (⟨r, m.right 1⟩ : Cursor).skipWhile p := by
    simp only [Cursor.skipWhile, Cursor.advance, hp, Mark.right, List.takeWhile_cons_of_pos,
      List.length_cons, List.drop_succ_cons, Nat.add_right_comm _ 1, ← Nat.add_assoc]
  rw [skipToToken_eq (.inl (by simp)), skipToToken_eq (.inr (Nat.succ_ne_zero _)), hspace]
  · rfl
  · simp [isSeparator]

theorem skipToToken_spaces {n : Nat} (h : s.cursor = ⟨List.replicate n ' ' ++ r, m⟩) :
    s.skipToToken = (s.moved ⟨r, m.right n⟩).skipToToken := by
  induction n generalizing s m with
  | zero =>
    have hsame : s.moved ⟨r, m.right 0⟩ = s := by
      rw [Mark.right_zero, ← List.nil_append r, ← List.replicate_zero, ← h, moved_self]
    rw [hsame]
  | succ n ih =>
    rw [List.replicate_succ, List.cons_append] at h
    rw [skipToToken_space h, ih rfl, moved_moved, Mark.right_right, Nat.add_comm 1 n]

theorem skipToToken_lineEnd (h : atLineEnd s.cursor.rest) :
    s.skipToToken =
      match s.cursor.crossBreak? with
      | none => s
      | some (_, d) =>
        { s with cursor := d, keyAllowed := s.keyAllowed || !s.inFlow }.skipToToken := by
  obtain ⟨⟨rest, mark⟩, _⟩ := s
  cases rest with
  | nil =>
    rw [skipToToken_eq (.inl (by simp))]
    rfl
  | cons x r =>
    have hother {y : Char} (hy : isBreak y = false) : x ≠ y := by
      rintro rfl
      exact Bool.false_ne_true (hy.symm.trans h)
    rw [skipToToken_eq (.inl (by simpa using hother rfl)), Cursor.skipWhile_of_head]
    · simp [Cursor.skipComment, hother (y := '#') rfl]
    · simp [isSeparator, hother (y := ' ') rfl, hother (y := '\t') rfl]

theorem skipToToken_newline (h : s.cursor = ⟨'\n' :: r, m⟩) :
    s.skipToToken =
      { s with cursor := ⟨r, m.below⟩, keyAllowed := s.keyAllowed || !s.inFlow }.skipToToken := by
  rw [skipToToken_lineEnd (h ▸ rfl), h, Cursor.crossBreak?_newline]

theorem skipToToken_comment {text : List Char} (h : s.cursor = ⟨'#' :: (text ++ r), m⟩)
    (htext : ∀ c ∈ text, isBreak c = false) (hr : atLineEnd r) :
    s.skipToToken = (s.moved ⟨r, m.right (text.length + 1)⟩).skipToToken := by
  have hline : (⟨'#' :: (text ++ r), m⟩ : Cursor).skipComment = ⟨r, m.right (text.length + 1)⟩ := by
    have hrest : r.takeWhile (fun x => !isBreak x) = [] := by
      cases r with
      | nil => rfl
      | cons x r =>
        have hx : isBreak x := hr
        exact List.takeWhile_cons_of_neg (by simp [hx])
    have htake : ('#' :: (text ++ r)).takeWhile (fun x => !isBreak x) = '#' :: text := by
      rw [← List.cons_append, List.takeWhile_append_of_pos, hrest, List.append_nil]
      simpa [show isBreak '#' = false from rfl] using htext
    have hpast := Cursor.advance_append ('#' :: text) r m
    simpa only [Cursor.skipComment, Cursor.skipLine, Cursor.skipWhile, htake, List.cons_append,
      List.length_cons] using hpast
  rw [skipToToken_eq (.inl (by simp [h])), h, Cursor.skipWhile_of_head (by simp [isSeparator]),
    hline, skipToToken_lineEnd (s := s.moved ⟨r, m.right (text.length + 1)⟩) hr]
  rfl

theorem skipToToken_remark (remark : Remark) (h : s.cursor = ⟨remark.chars ++ r, m⟩)
    (hallowed : s.keyAllowed = true) :
    ∃ n, s.skipToToken = (s.moved ⟨r, (m.right n).below⟩).skipToToken := by
  have hnewline (n : Nat) : (s.moved ⟨'\n' :: r, m.right n⟩).skipToToken =
      (s.moved ⟨r, (m.right n).below⟩).skipToToken := by
    rw [skipToToken_newline rfl, moved_keyAllowed, hallowed, Bool.true_or, ← hallowed]
    rfl
  rw [Remark.chars, List.append_assoc] at h
  rw [skipToToken_spaces h]
  unfold Remark.body
  split
  case h_1 => exact ⟨_, hnewline _⟩
  case h_2 text htext =>
    have hinline : ∀ c ∈ text.toList, isBreak c = false := fun c hc =>
      (remark.onLine text htext c hc).2
    simp only [List.cons_append, List.append_assoc, List.nil_append]
    rw [skipToToken_comment rfl hinline rfl, moved_moved, Mark.right_right]
    exact ⟨_, hnewline _⟩

/-- The scanner skips remarks and spaces up to the next token. -/
theorem skipToToken_margin (rs : List Remark) {n : Nat} (hr : atToken r)
    (h : s.cursor = ⟨rs.flatMap Remark.chars ++ (List.replicate n ' ' ++ r), m⟩)
    (hm : m.column = 0) (hallowed : s.keyAllowed = true) :
    ∃ m', m'.column = n ∧ m.line ≤ m'.line ∧ s.skipToToken = s.moved ⟨r, m'⟩ := by
  induction rs generalizing s m with
  | nil =>
    refine ⟨m.right n, ?_, Nat.le_refl _, ?_⟩
    · rw [Mark.right_column, hm, Nat.zero_add]
    · rw [skipToToken_spaces h, skipToToken_of_atToken hr]
  | cons remark rs ih =>
    rw [List.flatMap_cons, List.append_assoc] at h
    obtain ⟨k, hskip⟩ := skipToToken_remark remark h hallowed
    obtain ⟨m', hcolumn, hline, hrest⟩ := ih (s := s.moved _) rfl (Mark.below_column _) hallowed
    rw [hskip, hrest, moved_moved]
    exact ⟨m', hcolumn, Nat.le_trans (Nat.le_succ _) hline, rfl⟩

end Scanner

namespace Gap

variable {indent : Nat} {context : Context} {start : Mark} {r : List Char} {m : Mark} {g : Gap}

theorem read_blank (h : g.broken = false) :
    read indent context start ⟨' ' :: r, m⟩ g =
      read indent context start ⟨r, m.right 1⟩ { g with blanks := ' ' :: g.blanks } := by
  rw [read]
  simp [isBlank, h]
  rfl

theorem read_blanks (n : Nat) (h : g.broken = false) :
    read indent context start ⟨List.replicate n ' ' ++ r, m⟩ g =
      read indent context start ⟨r, m.right n⟩
        { g with blanks := List.replicate n ' ' ++ g.blanks } := by
  induction n generalizing m g with
  | zero => rfl
  | succ n ih =>
    have hgrow : List.replicate n ' ' ++ ' ' :: g.blanks =
        List.replicate (n + 1) ' ' ++ g.blanks := by
      rw [List.replicate_succ', List.append_assoc, List.singleton_append]
    have hrest := ih (m := m.right 1) (g := { g with blanks := ' ' :: g.blanks }) h
    rw [Mark.right_right, Nat.add_comm 1 n, hgrow] at hrest
    exact (read_blank h).trans hrest

theorem read_indentation (h : g.broken = true) :
    read indent context start ⟨' ' :: r, m⟩ g = read indent context start ⟨r, m.right 1⟩ g := by
  rw [read]
  simp [isBlank, h]
  rfl

theorem read_newline :
    read indent context start ⟨'\n' :: r, m⟩ g =
      read indent context start ⟨r, m.below⟩ (g.addBreak '\n') := by
  rw [read]
  simp [isBlank]
  rfl

theorem read_stop (h : ∀ x ∈ r.head?, isBlank x = false ∧ isBreak x = false) :
    read indent context start ⟨r, m⟩ g = .ok (g, ⟨r, m⟩) := by
  have hcross : Cursor.crossBreak? ⟨r, m⟩ = none :=
    Cursor.crossBreak?_eq_none fun x hx => (h x hx).2
  rw [read]
  cases r with
  | nil => rfl
  | cons x r =>
    have hblank : isBlank x = false := (h x rfl).1
    simp only [hblank, Bool.false_eq_true, if_false]
    split
    · rfl
    · rename_i hsome
      rw [hcross] at hsome
      exact absurd hsome (by simp)

theorem read_indentations (n : Nat) (h : g.broken = true) :
    read indent context start ⟨List.replicate n ' ' ++ r, m⟩ g =
      read indent context start ⟨r, m.right n⟩ g := by
  induction n generalizing m with
  | zero => rfl
  | succ n ih =>
    rw [List.replicate_succ, List.cons_append, read_indentation h, ih, Mark.right_right,
      Nat.add_comm 1 n]

theorem broken_addBreak (g : Gap) (b : Char) : (g.addBreak b).broken = true := by
  unfold addBreak
  split
  · assumption
  · rfl

variable (indent context start) in
/-- A gap ends at the first comment or at the next token, and the scanner can go on from there. -/
theorem read_margin (rs : List Remark) (n : Nat) (hr : atToken r) (hm : m.column = 0)
    (hg : g.broken = true) :
    ∃ g' e, read indent context start
        ⟨rs.flatMap Remark.chars ++ (List.replicate n ' ' ++ r), m⟩ g = .ok (g', e) ∧
      g'.broken = true ∧ (e.rest.head? = some '#' ∨ e.mark.column = n) ∧
      ∀ s : Scanner, s.keyAllowed = true → ∃ m', m'.column = n ∧ m.line ≤ m'.line ∧
        (s.moved e).skipToToken = s.moved ⟨r, m'⟩ := by
  -- The gap ends at the first comment, but the scanner goes on to the token behind all of them.
  induction rs generalizing g m with
  | nil =>
    have hstop : ∀ x ∈ r.head?, isBlank x = false ∧ isBreak x = false := by
      rintro x hx
      obtain ⟨r', rfl⟩ := List.head?_eq_some_iff.1 hx
      simp only [atToken, Bool.and_eq_true, Bool.not_eq_true'] at hr
      exact hr.1.1
    have hcolumn : (m.right n).column = n := by rw [Mark.right_column, hm, Nat.zero_add]
    refine ⟨g, ⟨r, m.right n⟩, ?_, hg, .inr hcolumn, ?_⟩
    · rw [List.flatMap_nil, List.nil_append, read_indentations n hg, read_stop hstop]
    · intro s _
      exact ⟨m.right n, hcolumn, Nat.le_refl _, Scanner.skipToToken_of_atToken hr⟩
  | cons remark rs ih =>
    cases hcomment : remark.comment with
    | none =>
      obtain ⟨g', e, hread, hbroken, hend, hskip⟩ :=
        ih (Mark.below_column (m.right remark.column)) (broken_addBreak g '\n')
      refine ⟨g', e, ?_, hbroken, hend, ?_⟩
      · simp only [List.flatMap_cons, Remark.chars, Remark.body, hcomment, List.append_assoc,
          List.nil_append, List.cons_append]
        rw [read_indentations _ hg, read_newline, hread]
      · intro s hs
        obtain ⟨m', hcolumn, hline, hrest⟩ := hskip s hs
        exact ⟨m', hcolumn, Nat.le_trans (Nat.le_succ _) hline, hrest⟩
    | some text =>
      obtain ⟨behind, htext⟩ : ∃ behind,
          (remark :: rs).flatMap Remark.chars ++ (List.replicate n ' ' ++ r) =
            List.replicate remark.column ' ' ++ '#' :: behind :=
        ⟨_, by simp [Remark.chars, Remark.body, hcomment]; rfl⟩
      refine ⟨g, ⟨'#' :: behind, m.right remark.column⟩, ?_, hg, .inl rfl, ?_⟩
      · rw [htext, read_indentations _ hg, read_stop]
        simp [isBlank, isBreak]
      · intro s hs
        obtain ⟨m', hcolumn, hline, hrest⟩ :=
          Scanner.skipToToken_margin (s := s.moved ⟨_, m⟩) (remark :: rs) hr rfl hm hs
        rw [htext, Scanner.skipToToken_spaces rfl] at hrest
        exact ⟨m', hcolumn, hline, hrest⟩

theorem length_read_le {c d : Cursor} {g' : Gap}
    (h : read indent context start c g = .ok (g', d)) : d.rest.length ≤ c.rest.length := by
  fun_induction read indent context start c g with
  | case1 c g | case5 c g =>
    obtain ⟨-, rfl⟩ := Prod.mk.inj (Except.ok.inj h)
    exact Nat.le_refl _
  | case2 => simp [Cursor.fail] at h
  | case3 c g _ _ _ _ _ _ ih | case4 c g _ _ _ _ _ ih =>
    exact Nat.le_trans (ih h) (Cursor.length_advance_le _ _)
  | case6 c g _ _ _ _ _ _ hcross ih =>
    exact Nat.le_trans (ih h) (Nat.le_of_lt (Cursor.length_crossBreak?_lt hcross))

end Gap

end SearchRelay.Yaml

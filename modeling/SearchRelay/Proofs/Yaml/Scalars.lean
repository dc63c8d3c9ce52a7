import SearchRelay.Proofs.Yaml.Margin

namespace SearchRelay.Yaml

namespace PlainScalar

def isInner (c : Char) : Bool :=
  !isBlank c && !isBreak c && !",[]\x7b\x7d#&*!|>'\"%@`-?:.\ufeff".toList.contains c

theorem isInner_of_toNat (low high : Nat) (h : ∀ n < high + 1, low ≤ n → isInner (Char.ofNat n))
    {c : Char} (hc : low ≤ c.toNat ∧ c.toNat ≤ high) : isInner c := by
  have hinner := h c.toNat (Nat.lt_succ_of_le hc.2) hc.1
  rwa [Char.ofNat_toNat] at hinner

theorem isInner_of_isName (name : Name) : ∀ c ∈ name.val.toList, isInner c := by
  intro c hc
  rcases name.eq_or_toNat c hc with rfl | hlower
  · decide
  · exact isInner_of_toNat 97 122 (by decide) hlower

theorem isInner_of_isDigit {c : Char} (h : Text.isDigit c) : isInner c :=
  isInner_of_toNat 48 57 (by decide) (toNat_of_isDigit h)

theorem run_append {word rest : List Char} {x : Char} (h : ∀ c ∈ word, isInner c)
    (hx : ends false x rest = true) : run false (word ++ x :: rest) = word := by
  induction word with
  | nil => simp [run, hx]
  | cons c word ih =>
    obtain ⟨hc, hword⟩ := List.forall_mem_cons.1 h
    have hgoes : ends false c (word ++ x :: rest) = false := by
      simp only [isInner, Bool.and_eq_true, Bool.not_eq_true'] at hc
      have hcolon : c ≠ ':' := by
        rintro rfl
        exact absurd hc.2 (by decide)
      simp [ends, hc.1, hcolon]
    rw [List.cons_append, run, hgoes, ih hword]
    rfl

theorem head_word {word : List Char} (hne : word ≠ []) (h : ∀ c ∈ word, isInner c) :
    ∃ c more, word = c :: more ∧ c ≠ '-' ∧ c ≠ '.' ∧ c ≠ '#' := by
  obtain ⟨c, more, rfl⟩ := List.exists_cons_of_ne_nil hne
  have hc : isInner c := h c (List.mem_cons_self ..)
  refine ⟨c, more, rfl, ?_, ?_, ?_⟩ <;> rintro rfl <;> exact absurd hc (by decide)

theorem head?_word {word rest : List Char} (hne : word ≠ []) (h : ∀ c ∈ word, isInner c) :
    ((word ++ rest).head? == some '#') = false := by
  obtain ⟨c, more, rfl, -, -, hremark⟩ := head_word hne h
  simp [hremark]

theorem atDocumentMark_word {word rest : List Char} {m : Mark} (hne : word ≠ [])
    (h : ∀ c ∈ word, isInner c) : Cursor.atDocumentMark ⟨word ++ rest, m⟩ = false := by
  obtain ⟨c, more, rfl, hdash, hdot, -⟩ := head_word hne h
  simp only [Cursor.atDocumentMark, List.cons_append, Bool.and_eq_false_iff]
  right
  split
  · rename_i heq
    exact absurd (List.cons.inj heq).1 hdash
  · rename_i heq
    exact absurd (List.cons.inj heq).1 hdot
  · rfl

/-- A word is read up to the gap behind it. -/
theorem read_word {word rest : List Char} {x : Char} {indent : Nat} {m : Mark} {g : Gap}
    {e : Cursor} (hne : word ≠ []) (h : ∀ c ∈ word, isInner c) (hx : ends false x rest = true)
    (hgap : Gap.read indent .plainScalar m ⟨x :: rest, m.right word.length⟩ {} = .ok (g, e))
    (hend : e.mark.column < indent ∨ e.rest.head? = some '#' ∨
      ¬ e.rest.length < (x :: rest).length) :
    read false indent ⟨word ++ x :: rest, m⟩ =
      .ok (⟨.scalar (String.ofList word) .plain, m, m.right word.length⟩, e, g.broken) := by
  have hlast (p : Piece) : (if !false && e.mark.column < indent then
      (.ok (p, e) : Except Fault (Piece × Cursor))
      else if e.rest.length < (x :: rest).length ∧ e.rest.length < (word ++ x :: rest).length then
        loop false indent m e g p
      else .ok (p, e)) = .ok (p, e) := by
    rcases hend with hcolumn | hremark | hshort
    · simp [hcolumn]
    · have hloop : loop false indent m e g p = .ok (p, e) := by
        rw [loop]
        simp [hremark]
      rw [hloop]
      simp
    · simp only [hshort, false_and, if_false, ite_self]
  have hmark : Cursor.atDocumentMark ⟨word ++ x :: rest, m⟩ = false :=
    atDocumentMark_word hne h
  have hremark : ((word ++ x :: rest).head? == some '#') = false := head?_word hne h
  have hempty : word.isEmpty = false := by simpa using hne
  have hpast := Cursor.advance_append word (x :: rest) m
  have hloop : loop false indent m ⟨word ++ x :: rest, m⟩ {} ⟨[], m, false⟩ =
      .ok (⟨word.reverse, m.right word.length, g.broken⟩, e) := by
    rw [loop]
    simp only [hmark, hremark, run_append h hx, hpast, hempty, hgap, hlast, Bool.false_and,
      Bool.or_self, Bool.false_eq_true, if_false]
    simp [Gap.folded]
  rw [read, hloop]
  simp

/-- A word at the end of a line is read with the gap up to the next line further to the left. -/
theorem read_line {word r : List Char} {indent n : Nat} (hne : word ≠ [])
    (h : ∀ c ∈ word, isInner c) (rs : List Remark) (hr : atToken r) (hn : n < indent) (m : Mark) :
    ∃ t e, t.lexeme = .scalar (String.ofList word) .plain ∧
      read false indent
        ⟨word ++ '\n' :: (rs.flatMap Remark.chars ++ (List.replicate n ' ' ++ r)), m⟩ =
          .ok (t, e, true) ∧
      e.rest.length ≤ (rs.flatMap Remark.chars ++ (List.replicate n ' ' ++ r)).length ∧
      ∀ s : Scanner, s.keyAllowed = true → ∃ m', m'.column = n ∧
        (s.moved e).skipToToken = s.moved ⟨r, m'⟩ := by
  obtain ⟨g, e, hread, hbroken, hend, hskip⟩ := Gap.read_margin indent .plainScalar m rs n hr
    (Mark.below_column (m.right word.length)) (Gap.broken_addBreak {} '\n')
  have hgap := Gap.read_newline.trans hread
  have hend' : e.mark.column < indent ∨ e.rest.head? = some '#' := by
    rcases hend with hremark | hcolumn
    · exact .inr hremark
    · exact .inl (hcolumn ▸ hn)
  refine ⟨⟨.scalar (String.ofList word) .plain, m, m.right word.length⟩, e, rfl, ?_,
    Gap.length_read_le hread, ?_⟩
  · rw [read_word hne h rfl hgap (hend'.imp_right .inl), hbroken]
  · intro s hs
    obtain ⟨m', hcolumn, -, hrest⟩ := hskip s hs
    exact ⟨m', hcolumn, hrest⟩

end PlainScalar

namespace QuotedScalar

variable {start m : Mark} {r acc : List Char}

theorem simple?_of_mem {x c : Char} (h : (x, c) ∈ letters) :
    simple? x = some c ∧ isBreak x = false := by
  have hall : ∀ p ∈ letters, simple? p.1 = some p.2 ∧ isBreak p.1 = false := by decide
  exact hall _ h

theorem hexLength?_of_mem {x : Char} {n : Nat} (h : (x, n) ∈ widths) :
    hexLength? x = some n ∧ simple? x = none ∧ isBreak x = false := by
  have hall : ∀ p ∈ widths,
      hexLength? p.1 = some p.2 ∧ simple? p.1 = none ∧ isBreak p.1 = false := by decide
  exact hall _ h

theorem hexEscape_append {c : Char} {ds : List Char}
    (value : Text.natOfDigits? 16 ds 0 = some c.toNat) :
    hexEscape start ds.length ⟨ds ++ r, m⟩ = .ok c := by
  have hvalid : c.toNat.isValidChar := c.valid
  simp [hexEscape, value, hvalid, Char.ofNat_toNat]

theorem doubleRun_escape {c : Char} {es : List Char} (h : Escape c es) :
    doubleRun start ⟨es ++ r, m⟩ acc =
      doubleRun start ⟨r, m.right es.length⟩ (c :: acc) := by
  cases h with
  | @letter x h =>
    obtain ⟨hsimple, hbreak⟩ := simple?_of_mem h
    rw [doubleRun]
    simp [hsimple, hbreak]
    rfl
  | @digits x ds h value =>
    obtain ⟨hlength, hsimple, hbreak⟩ := hexLength?_of_mem h
    have hvalue : hexEscape start ds.length ⟨ds ++ r, m.right 2⟩ = .ok c := hexEscape_append value
    have hbehind : Cursor.advance ⟨'\\' :: x :: (ds ++ r), m⟩ 2 = ⟨ds ++ r, m.right 2⟩ := rfl
    have hpast : Cursor.advance ⟨'\\' :: x :: (ds ++ r), m⟩ (ds.length + 2) =
        ⟨r, m.right (ds.length + 2)⟩ := Cursor.advance_append ('\\' :: x :: ds) r m
    rw [doubleRun]
    simp [hlength, hsimple, hbreak, hbehind, hvalue, hpast]

theorem gap_of_isBare {c : Char} (h : isBare c) : isBreak c = false ∧ (isBlank c → c = ' ') := by
  simp only [isBare, Bool.and_eq_true, decide_eq_true_eq] at h
  refine ⟨?_, ?_⟩
  · rw [Bool.eq_false_iff]
    intro hbreak
    simp only [isBreak, Bool.or_eq_true, beq_iff_eq] at hbreak
    rcases hbreak with (((rfl | rfl) | rfl) | rfl) | rfl <;> exact absurd h (by decide)
  · intro hblank
    simp only [isBlank, Bool.or_eq_true, beq_iff_eq] at hblank
    rcases hblank with rfl | rfl
    · rfl
    · exact absurd h (by decide)

theorem doubleRun_bare {c : Char} (h : isBare c) (hspace : c ≠ ' ') :
    doubleRun start ⟨c :: r, m⟩ acc = doubleRun start ⟨r, m.right 1⟩ (c :: acc) := by
  obtain ⟨hbreak, hblank⟩ := gap_of_isBare h
  have hends : (isBlank c || isBreak c || c == '"') = false := by
    have hquote : c ≠ '"' := by rintro rfl; exact absurd h (by decide)
    have hnotBlank : isBlank c = false := by simpa using mt hblank hspace
    simp [hnotBlank, hbreak, hquote]
  have hslash : c ≠ '\\' := by rintro rfl; exact absurd h (by decide)
  rw [doubleRun]
  split
  case h_1 heq => exact absurd (List.cons.inj heq).1 hslash
  case h_2 heq => exact absurd (List.cons.inj heq).1 hslash
  case h_3 heq =>
    obtain ⟨rfl, rfl⟩ := List.cons.inj heq
    rw [if_neg (by simp [hends])]
    rfl
  case h_4 heq => exact absurd heq (by simp)

theorem doubleRun_stop {x : Char} (h : x = ' ' ∨ x = '"') :
    doubleRun start ⟨x :: r, m⟩ acc = .ok ⟨acc, ⟨x :: r, m⟩, false⟩ := by
  rw [doubleRun]
  rcases h with rfl | rfl <;> simp [isBlank]

theorem doubleRun_text (sp : Spelling) {cs : List Char} (h : ∀ c ∈ cs, c ≠ ' ') :
    doubleRun start ⟨sp.text cs ++ r, m⟩ acc =
      doubleRun start ⟨r, m.right (sp.text cs).length⟩ (cs.reverse ++ acc) := by
  induction cs generalizing m acc with
  | nil => rfl
  | cons c cs ih =>
    obtain ⟨hc, hcs⟩ := List.forall_mem_cons.1 h
    have hchar : doubleRun start ⟨sp.char c ++ (sp.text cs ++ r), m⟩ acc =
        doubleRun start ⟨sp.text cs ++ r, m.right (sp.char c).length⟩ (c :: acc) := by
      unfold Spelling.char
      by_cases hbare : isBare c
      · rw [if_pos hbare]
        exact doubleRun_bare hbare hc
      · rw [if_neg hbare]
        exact doubleRun_escape (sp.escapes c (by simpa using hbare))
    have htext : sp.text (c :: cs) = sp.char c ++ sp.text cs := List.flatMap_cons
    rw [htext, List.append_assoc, hchar, ih hcs, Mark.right_right, List.length_append,
      List.reverse_cons, List.append_assoc]
    rfl

theorem exists_spaces (cs : List Char) :
    ∃ n tail, cs = List.replicate n ' ' ++ tail ∧ tail.head? ≠ some ' ' := by
  induction cs with
  | nil => exact ⟨0, [], rfl, by simp⟩
  | cons c cs ih =>
    by_cases hc : c = ' '
    · obtain ⟨n, tail, rfl, htail⟩ := ih
      exact ⟨n + 1, tail, by rw [hc]; rfl, htail⟩
    · exact ⟨0, c :: cs, rfl, by simpa using hc⟩

theorem exists_word (cs : List Char) :
    ∃ word after, cs = word ++ after ∧ (∀ c ∈ word, c ≠ ' ') ∧
      (after = [] ∨
        ∃ n tail, after = List.replicate (n + 1) ' ' ++ tail ∧ tail.head? ≠ some ' ') := by
  induction cs with
  | nil => exact ⟨[], [], rfl, by simp, .inl rfl⟩
  | cons c cs ih =>
    by_cases hc : c = ' '
    · obtain ⟨n, tail, rfl, htail⟩ := exists_spaces cs
      exact ⟨[], _, rfl, by simp, .inr ⟨n, tail, by rw [hc]; rfl, htail⟩⟩
    · obtain ⟨word, after, rfl, hword, hafter⟩ := ih
      exact ⟨c :: word, after, rfl, List.forall_mem_cons.2 ⟨hc, hword⟩, hafter⟩

theorem text_append (sp : Spelling) (cs ds : List Char) :
    sp.text (cs ++ ds) = sp.text cs ++ sp.text ds := List.flatMap_append

theorem text_spaces (sp : Spelling) (n : Nat) :
    sp.text (List.replicate n ' ') = List.replicate n ' ' := by
  induction n with
  | zero => rfl
  | succ n ih =>
    rw [List.replicate_succ, Spelling.text, List.flatMap_cons, ← Spelling.text, ih]
    rfl

theorem exists_of_escape {c : Char} {es : List Char} (h : Escape c es) :
    ∃ more, es = '\\' :: more := by
  cases h <;> exact ⟨_, rfl⟩

theorem head?_text (sp : Spelling) {cs : List Char} (h : cs.head? ≠ some ' ') :
    ∀ x ∈ (sp.text cs ++ '"' :: r).head?, isBlank x = false ∧ isBreak x = false := by
  cases cs with
  | nil => simp [Spelling.text, isBlank, isBreak]
  | cons c cs =>
    have htext : sp.text (c :: cs) = sp.char c ++ sp.text cs := List.flatMap_cons
    rw [htext, Spelling.char]
    by_cases hbare : isBare c
    · obtain ⟨hbreak, hblank⟩ := gap_of_isBare hbare
      have hnotBlank : isBlank c = false := by
        simpa using mt hblank (by simpa using h)
      simp [hbare, hbreak, hnotBlank]
    · rw [if_neg hbare]
      obtain ⟨es, hes⟩ := exists_of_escape (sp.escapes c (by simpa using hbare))
      simp [hes, isBlank, isBreak]

theorem loop_last {c : Cursor} {text : List Char} (hc : c.atDocumentMark = false)
    (hrun : doubleRun start c acc = .ok ⟨text, ⟨'"' :: r, m⟩, false⟩) :
    loop false start c acc = .ok (text, ⟨r, m.right 1⟩) := by
  rw [loop, hc, if_neg Bool.false_ne_true, if_neg Bool.false_ne_true, hrun]
  rfl

theorem loop_gap {c : Cursor} {text : List Char} {n : Nat} (hc : c.atDocumentMark = false)
    (hrun : doubleRun start c acc = .ok ⟨text, ⟨List.replicate (n + 1) ' ' ++ r, m⟩, false⟩)
    (hr : ∀ x ∈ r.head?, isBlank x = false ∧ isBreak x = false)
    (hlength : r.length < c.rest.length) :
    loop false start c acc =
      loop false start ⟨r, m.right (n + 1)⟩ (List.replicate (n + 1) ' ' ++ text) := by
  have hgap : Gap.read 0 .quotedScalar start ⟨List.replicate (n + 1) ' ' ++ r, m⟩ {} = _ :=
    Gap.read_blanks (n + 1) rfl
  rw [Gap.read_stop hr, List.append_nil] at hgap
  rw [loop, hc, if_neg Bool.false_ne_true, if_neg Bool.false_ne_true, hrun]
  simp only [hgap, hlength, if_true]
  rw [if_neg (by simp [List.replicate_succ])]
  simp [Gap.folded]

theorem loop_text (sp : Spelling) (cs : List Char) (hm : 0 < m.column) :
    loop false start ⟨sp.text cs ++ '"' :: r, m⟩ acc =
      .ok (cs.reverse ++ acc, ⟨r, m.right ((sp.text cs).length + 1)⟩) := by
  -- The recursion of the loop is from one gap to the next, not from character to character.
  induction hn : cs.length using Nat.strongRecOn generalizing cs m acc with
  | ind n ih =>
    obtain ⟨word, after, rfl, hword, hafter⟩ := exists_word cs
    have hmark := Cursor.atDocumentMark_of_column
      (c := ⟨sp.text (word ++ after) ++ '"' :: r, m⟩) hm
    have hrun : doubleRun start ⟨sp.text word ++ (sp.text after ++ '"' :: r), m⟩ acc = _ :=
      doubleRun_text sp hword
    rw [← List.append_assoc, ← text_append] at hrun
    rcases hafter with rfl | ⟨k, tail, rfl, htail⟩
    · have hstop : doubleRun start ⟨sp.text [] ++ '"' :: r, m.right (sp.text word).length⟩
          (word.reverse ++ acc) = .ok ⟨word.reverse ++ acc, ⟨'"' :: r, _⟩, false⟩ :=
        doubleRun_stop (.inr rfl)
      rw [loop_last hmark (hrun.trans hstop), List.append_nil, Mark.right_right]
    · have hspaces : sp.text (List.replicate (k + 1) ' ' ++ tail) ++ '"' :: r =
          List.replicate (k + 1) ' ' ++ (sp.text tail ++ '"' :: r) := by
        rw [text_append, text_spaces, List.append_assoc]
      have hstop : doubleRun start ⟨List.replicate (k + 1) ' ' ++ (sp.text tail ++ '"' :: r),
          m.right (sp.text word).length⟩ (word.reverse ++ acc) =
          .ok ⟨word.reverse ++ acc, ⟨_, _⟩, false⟩ := doubleRun_stop (.inl rfl)
      rw [hspaces] at hrun
      have hshorter : (sp.text tail ++ '"' :: r).length <
          (sp.text (word ++ (List.replicate (k + 1) ' ' ++ tail)) ++ '"' :: r).length := by
        simp only [text_append, text_spaces, List.length_append, List.length_replicate]
        omega
      have hless : tail.length < n := by
        simp only [List.length_append, List.length_replicate] at hn
        omega
      rw [loop_gap hmark (hrun.trans hstop) (head?_text sp htail) hshorter,
        ih tail.length hless tail (Nat.lt_of_lt_of_le hm (by simp)) rfl]
      simp only [text_append, text_spaces, List.reverse_append, List.reverse_replicate,
        List.append_assoc, List.length_append, List.length_replicate, Mark.right_right,
        Nat.add_assoc]

/-- A quoted text is read as the text that it was written for. -/
theorem read_quoted (sp : Spelling) (s : String) :
    read false ⟨sp.quoted s ++ r, m⟩ =
      .ok (⟨.scalar s .doubleQuoted, m, m.right (sp.quoted s).length⟩,
        ⟨r, m.right (sp.quoted s).length⟩) := by
  have hbehind : Cursor.advance ⟨sp.quoted s ++ r, m⟩ 1 =
      ⟨sp.text s.toList ++ '"' :: r, m.right 1⟩ := by
    simp [Spelling.quoted, Cursor.advance, Mark.right]
  have hloop : loop false m ⟨sp.text s.toList ++ '"' :: r, m.right 1⟩ [] = _ :=
    loop_text sp s.toList (Nat.succ_pos _)
  rw [read, hbehind, hloop]
  simp [Spelling.quoted, Nat.add_comm]

end QuotedScalar

end SearchRelay.Yaml

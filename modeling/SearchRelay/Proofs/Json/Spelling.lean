import Mathlib.Data.String.Basic
import SearchRelay.Proofs.Json.Grammar

namespace SearchRelay.Json

namespace Cursor

variable {α β : Type}

/-- What comes of a reader: a value, with the text behind it left, or an error. -/
def Comes (outcome : Except Error (α × Cursor)) (rest : List Char) : Option α → Prop
  | some a => ∃ q, outcome = .ok (a, ⟨rest, q⟩)
  | none => ∃ e, outcome = .error e

theorem Comes.map {outcome : Except Error (α × Cursor)} {rest : List Char} {r : Option α}
    (h : Comes outcome rest r) (f : α → β) :
    Comes (outcome.map fun x => (f x.1, x.2)) rest (r.map f) := by
  cases r with
  | none =>
    obtain ⟨e, rfl⟩ := h
    exact ⟨e, rfl⟩
  | some a =>
    obtain ⟨q, rfl⟩ := h
    exact ⟨q, rfl⟩

theorem Comes.bind {outcome : Except Error (α × Cursor)} {rest rest' : List Char} {r : Option α}
    {next : α × Cursor → Except Error (β × Cursor)} {more : α → Option β} (h : Comes outcome rest r)
    (hnext : ∀ a q, Comes (next (a, ⟨rest, q⟩)) rest' (more a)) :
    Comes (outcome.bind next) rest' (r.bind more) := by
  cases r with
  | none =>
    obtain ⟨e, rfl⟩ := h
    exact ⟨e, rfl⟩
  | some a =>
    obtain ⟨q, rfl⟩ := h
    exact hnext a q

theorem endsNumber_blanks (b : Blanks) {rest : List Char} (h : EndsNumber rest) :
    EndsNumber (b.chars ++ rest) := by
  cases hb : b.chars with
  | nil => exact h
  | cons x r =>
    rintro y ⟨⟩
    have hx := b.blank x (by simp [hb])
    simp only [isSpace, Bool.or_eq_true, beq_iff_eq] at hx
    rcases hx with ((rfl | rfl) | rfl) | rfl <;> decide

theorem skipBlanks_blanks (b : Blanks) (rest : List Char) (p : Place) :
    skipBlanks ⟨b.chars ++ rest, p⟩ = skipBlanks ⟨rest, p.past b.chars⟩ := by
  obtain ⟨chars, blank⟩ := b
  induction chars generalizing p with
  | nil => rfl
  | cons x r ih =>
    have hstep : skipBlanks ⟨x :: (r ++ rest), p⟩ = skipBlanks ⟨r ++ rest, p.after x⟩ := by
      rw [skipBlanks, skipSpace, if_pos (blank x (by simp))]
      rfl
    exact hstep.trans (ih (p.after x) fun c hc => blank c (by simp [hc]))

variable {rest : List Char} {fuel : Nat}

theorem length_le_utf8Len (cs : List Char) : cs.length ≤ String.utf8Len cs := by
  induction cs with
  | nil => exact Nat.zero_le _
  | cons c cs ih =>
    have hc := c.utf8Size_pos
    rw [List.length_cons, String.utf8Len_cons]
    omega

theorem hexUnit_unit {digits : List Char} {code : Nat} (four : digits.length = 4)
    (spells : Text.natOfDigits? 16 digits 0 = some code) (rest : List Char) (p : Place) :
    hexUnit ⟨digits ++ rest, p⟩ = .ok (code, ⟨rest, p.past digits⟩) := by
  have htake : (digits ++ rest).take 4 = digits := by
    rw [← four, List.take_left]
  have hsize : ¬ (String.ofList digits).utf8ByteSize < 4 := by
    have hlength := length_le_utf8Len digits
    rw [String.utf8ByteSize_ofList]
    omega
  have hadvance := advanceBy_append digits rest p
  rw [four] at hadvance
  simp only [hexUnit, htake, if_neg hsize, spells, hadvance]

theorem stringLoop_plain {c : Char} (allowed : c ≠ '"' ∧ c ≠ '\\' ∧ 0x20 ≤ c.toNat)
    (r acc : List Char) (p : Place) : stringLoop (fuel + 1) ⟨c :: r, p⟩ acc =
      stringLoop fuel ⟨r, p.after c⟩ (c :: acc) := by
  obtain ⟨hquote, hslash, hcontrol⟩ := allowed
  rw [stringLoop]
  split
  · contradiction
  · rename_i heq
    exact absurd (List.cons.inj heq).1 hquote
  · rename_i heq
    exact absurd (List.cons.inj heq).1 hslash
  · rename_i heq
    obtain ⟨rfl, rfl⟩ := List.cons.inj heq
    rw [if_neg (Nat.not_lt.2 hcontrol)]
    rfl

theorem stringLoop_named {letter c : Char} (known : simpleEscape? letter = some c)
    (r acc : List Char) (p : Place) : stringLoop (fuel + 1) ⟨'\\' :: letter :: r, p⟩ acc =
      stringLoop fuel ⟨r, (p.after '\\').after letter⟩ (c :: acc) := by
  have hunit : letter ≠ 'u' := by
    rintro rfl
    cases known
  simp only [stringLoop, advance_cons, known]

theorem stringLoop_unit (r acc : List Char) (p : Place) :
    stringLoop (fuel + 1) ⟨'\\' :: 'u' :: r, p⟩ acc =
      match unicodeEscape ⟨r, (p.after '\\').after 'u'⟩ with
      | .error e => .error e
      | .ok (x, c) => stringLoop fuel c (x :: acc) := rfl

section

variable {digits : List Char} {n : Nat} (four : digits.length = 4)
  (spells : Text.natOfDigits? 16 digits 0 = some n)

include four spells

theorem unicodeEscape_single (htrailing : ¬ isTrailing n) (hleading : ¬ isLeading n)
    (r : List Char) (p : Place) :
    unicodeEscape ⟨digits ++ r, p⟩ = .ok (Char.ofNat n, ⟨r, p.past digits⟩) := by
  rw [Bool.not_eq_true] at htrailing hleading
  simp only [unicodeEscape, hexUnit_unit four spells, bind, Except.bind, htrailing, hleading]
  rfl

theorem unicodeEscape_trailing (htrailing : isTrailing n) (r : List Char) (p : Place) :
    ∃ e, unicodeEscape ⟨digits ++ r, p⟩ = .error e := by
  simp only [unicodeEscape, hexUnit_unit four spells, bind, Except.bind, htrailing]
  exact ⟨_, rfl⟩

omit four spells in
theorem surrogateMark_same (x : Char) (r : List Char) (p : Place) :
    surrogateMark x ⟨x :: r, p⟩ = .ok ⟨r, p.after x⟩ := by
  simp [surrogateMark]

omit four spells in
theorem surrogateMark_other {x y : Char} (h : x ≠ y) (r : List Char) (p : Place) :
    ∃ e, surrogateMark x ⟨y :: r, p⟩ = .error e := by
  simp only [surrogateMark, if_neg h]
  exact ⟨_, rfl⟩

theorem unicodeEscape_leading (htrailing : ¬ isTrailing n) (hleading : isLeading n)
    (r : List Char) (p : Place) : unicodeEscape ⟨digits ++ r, p⟩ =
      (do
        let c ← surrogateMark '\\' ⟨r, p.past digits⟩
        let c ← surrogateMark 'u' c
        let (m, c) ← hexUnit c
        if isTrailing m then
          pure (Char.ofNat ((n - 0xd800) * 0x400 + (m - 0xdc00) + 0x10000), c)
        else c.fail .loneSurrogate) := by
  rw [Bool.not_eq_true] at htrailing
  simp only [unicodeEscape, hexUnit_unit four spells, bind, Except.bind, htrailing, hleading]
  rfl

theorem unicodeEscape_pair (htrailing : ¬ isTrailing n) (hleading : isLeading n)
    {second : List Char} {m : Nat} (hsecond : second.length = 4)
    (hm : Text.natOfDigits? 16 second 0 = some m) (r : List Char) (p : Place) :
    unicodeEscape ⟨digits ++ '\\' :: 'u' :: (second ++ r), p⟩ =
      let c : Cursor := ⟨r, (((p.past digits).after '\\').after 'u').past second⟩
      if isTrailing m then
        .ok (Char.ofNat ((n - 0xd800) * 0x400 + (m - 0xdc00) + 0x10000), c)
      else c.fail .loneSurrogate := by
  simp only [unicodeEscape_leading four spells htrailing hleading, surrogateMark_same,
    hexUnit_unit hsecond hm, bind, Except.bind]
  rfl

/-- Behind the first half of a pair there is no other glyph than the second. -/
theorem unicodeEscape_lone (htrailing : ¬ isTrailing n) (hleading : isLeading n) {r : List Glyph}
    (lone : ∀ ds m hds hm r', r = Glyph.unit ds m hds hm :: r' → False) (more : List Char)
    (p : Place) :
    ∃ e, unicodeEscape ⟨digits ++ (r.flatMap Glyph.chars ++ '"' :: more), p⟩ = .error e := by
  have unmarked {x : Char} (hx : '\\' ≠ x) (t : List Char) :
      ∃ e, unicodeEscape ⟨digits ++ x :: t, p⟩ = .error e := by
    obtain ⟨e, he⟩ := surrogateMark_other hx t (p.past digits)
    exact ⟨e, by rw [unicodeEscape_leading four spells htrailing hleading, he]; rfl⟩
  cases r with
  | nil => exact unmarked (by decide) more
  | cons g r =>
    cases g with
    | plain c allowed => exact unmarked (Ne.symm allowed.2.1) _
    | named letter c known =>
      have hunit : 'u' ≠ letter := by
        rintro rfl
        cases known
      obtain ⟨e, he⟩ := surrogateMark_other hunit (r.flatMap Glyph.chars ++ '"' :: more)
        ((p.past digits).after '\\')
      refine ⟨e, ?_⟩
      simp only [List.flatMap_cons, Glyph.chars, List.cons_append, List.nil_append]
      rw [unicodeEscape_leading four spells htrailing hleading, surrogateMark_same]
      simp only [bind, Except.bind, he]
    | unit ds m hds hm => exact (lone ds m hds hm r rfl).elim

end

/-- A string is read to its end where its glyphs spell one, and otherwise it is refused. -/
theorem stringLoop_glyphs (gs : List Glyph) (rest : List Char) {fuel : Nat}
    (hfuel : gs.length < fuel) (acc : List Char) (p : Place) :
    Comes (stringLoop fuel ⟨gs.flatMap Glyph.chars ++ '"' :: rest, p⟩ acc) rest
      ((Glyph.spell? gs).map fun cs => String.ofList (acc.reverse ++ cs)) := by
  have go_on {c : Char} {acc : List Char} {outcome : Except Error (String × Cursor)}
      {r : Option (List Char)}
      (h : Comes outcome rest (r.map fun cs => String.ofList ((c :: acc).reverse ++ cs))) :
      Comes outcome rest ((r.map (c :: ·)).map fun cs => String.ofList (acc.reverse ++ cs)) := by
    cases r <;> simpa using h
  have refuse {t : List Char} {p : Place} {fuel : Nat} {acc : List Char}
      (h : ∃ e, unicodeEscape ⟨t, (p.after '\\').after 'u'⟩ = .error e) :
      ∃ e, stringLoop (fuel + 1) ⟨'\\' :: 'u' :: t, p⟩ acc = .error e := by
    obtain ⟨e, he⟩ := h
    exact ⟨e, by rw [stringLoop_unit, he]⟩
  -- A pair takes two glyphs at once, so the induction is on the fuel.
  induction fuel generalizing gs acc p with
  | zero => exact absurd hfuel (Nat.not_lt_zero _)
  | succ fuel ih =>
  fun_cases Glyph.spell? gs with
  | case1 => exact ⟨p.after '"', by simp [stringLoop]⟩
  | case2 c allowed r =>
    rw [List.flatMap_cons, Glyph.chars, List.append_assoc, List.singleton_append,
      stringLoop_plain allowed]
    exact go_on (ih r (Nat.lt_of_succ_lt_succ hfuel) (c :: acc) (p.after c))
  | case3 letter c known r =>
    simp only [List.flatMap_cons, Glyph.chars, List.cons_append, List.nil_append,
      stringLoop_named known]
    exact go_on (ih r (Nat.lt_of_succ_lt_succ hfuel) (c :: acc) _)
  | case4 digits n four spells r trailing =>
    simp only [List.flatMap_cons, Glyph.chars, List.cons_append, List.append_assoc]
    exact refuse (unicodeEscape_trailing four spells trailing _ _)
  | case5 digits n four spells trailing leading second m hsecond hm r paired =>
    simp only [List.flatMap_cons, Glyph.chars, List.cons_append, List.append_assoc,
      stringLoop_unit, unicodeEscape_pair four spells trailing leading hsecond hm, if_pos paired]
    exact go_on (ih r (by simp only [List.length_cons] at hfuel; omega) _ _)
  | case6 digits n four spells trailing leading second m hsecond hm r paired =>
    simp only [List.flatMap_cons, Glyph.chars, List.cons_append, List.append_assoc]
    have hpair := unicodeEscape_pair four spells trailing leading hsecond hm
      (r.flatMap Glyph.chars ++ '"' :: rest) ((p.after '\\').after 'u')
    exact refuse ⟨_, hpair.trans (if_neg paired)⟩
  | case7 digits n four spells r trailing leading lone =>
    simp only [List.flatMap_cons, Glyph.chars, List.cons_append, List.append_assoc]
    exact refuse (unicodeEscape_lone four spells trailing leading lone _ _)
  | case8 digits n four spells r trailing leading =>
    simp only [List.flatMap_cons, Glyph.chars, List.cons_append, List.append_assoc,
      stringLoop_unit, unicodeEscape_single four spells trailing leading]
    exact go_on (ih r (Nat.lt_of_succ_lt_succ hfuel) _ _)

theorem length_le_flatMap (gs : List Glyph) : gs.length ≤ (gs.flatMap Glyph.chars).length := by
  induction gs with
  | nil => exact Nat.zero_le _
  | cons g gs ih =>
    have hg : 1 ≤ g.chars.length := by cases g <;> simp [Glyph.chars]
    simp only [List.flatMap_cons, List.length_append, List.length_cons]
    omega

theorem string_glyphs (gs : List Glyph) (rest : List Char) (p : Place) :
    Comes (string ⟨gs.flatMap Glyph.chars ++ '"' :: rest, p⟩) rest
      ((Glyph.spell? gs).map String.ofList) := by
  have hlength := length_le_flatMap gs
  have hfuel : gs.length < (gs.flatMap Glyph.chars ++ '"' :: rest).length + 1 := by
    simp only [List.length_append]
    omega
  exact stringLoop_glyphs gs rest hfuel [] p

/-- A glyph of which nothing is kept is passed over, whatever it spells. -/
theorem skipStringLoop_glyph (fuel : Nat) (g : Glyph) (r : List Char) (p : Place) :
    ∃ q, skipStringLoop (fuel + 1) ⟨g.chars ++ r, p⟩ = skipStringLoop fuel ⟨r, q⟩ := by
  cases g with
  | plain c allowed =>
    obtain ⟨hquote, hslash, hcontrol⟩ := allowed
    refine ⟨p.after c, ?_⟩
    simp only [Glyph.chars, List.cons_append, List.nil_append]
    rw [skipStringLoop]
    split
    · contradiction
    · rename_i heq
      exact absurd (List.cons.inj heq).1 hquote
    · rename_i heq
      exact absurd (List.cons.inj heq).1 hslash
    · rename_i heq
      obtain ⟨rfl, rfl⟩ := List.cons.inj heq
      rw [if_neg (Nat.not_lt.2 hcontrol)]
      rfl
  | named letter c known =>
    have hunit : letter ≠ 'u' := by
      rintro rfl
      cases known
    refine ⟨(p.after '\\').after letter, ?_⟩
    simp [Glyph.chars, skipStringLoop, known]
  | unit digits n four spells =>
    refine ⟨((p.after '\\').after 'u').past digits, ?_⟩
    simp [Glyph.chars, skipStringLoop, hexUnit_unit four spells]

theorem skipString_glyphs (gs : List Glyph) (rest : List Char) (p : Place) :
    ∃ q, skipString ⟨gs.flatMap Glyph.chars ++ '"' :: rest, p⟩ = .ok ⟨rest, q⟩ := by
  have loop (fuel : Nat) (hfuel : gs.length < fuel) (p : Place) :
      ∃ q, skipStringLoop fuel ⟨gs.flatMap Glyph.chars ++ '"' :: rest, p⟩ = .ok ⟨rest, q⟩ := by
    induction gs generalizing fuel p with
    | nil =>
      obtain ⟨fuel, rfl⟩ := Nat.exists_eq_succ_of_ne_zero (Nat.ne_zero_of_lt hfuel)
      exact ⟨p.after '"', by simp [skipStringLoop]⟩
    | cons g gs ih =>
      obtain ⟨fuel, rfl⟩ := Nat.exists_eq_succ_of_ne_zero (Nat.ne_zero_of_lt hfuel)
      obtain ⟨q, hq⟩ := skipStringLoop_glyph fuel g (gs.flatMap Glyph.chars ++ '"' :: rest) p
      rw [List.flatMap_cons, List.append_assoc, Nat.succ_eq_add_one, hq]
      exact ih fuel (Nat.lt_of_succ_lt_succ hfuel) q
  have hlength := length_le_flatMap gs
  refine loop _ ?_ p
  simp only [List.length_append]
  omega

end Cursor

end SearchRelay.Json

import SearchRelay.Proofs.Json.Magnitude

namespace SearchRelay.Json

namespace Cursor

def goOn (fuel : Nat) (frames : List Char) (afterPart : Bool) (c : Cursor) : Except Error Cursor :=
  match skipEnds (c.rest.length + 1) frames afterPart c with
  | .error e => .error e
  | .ok ([], c) => .ok c
  | .ok (frames, c) => skipLoop fuel frames c

def enter (frame : Char) (c : Cursor) : Except Error Cursor :=
  if frame == '[' then .ok c else c.skipKey

def closing (frame : Char) : Char := if frame == '[' then ']' else '\x7d'

variable {rest : List Char}

theorem length_skipBlanks_le (c : Cursor) : c.skipBlanks.rest.length ≤ c.rest.length := by
  obtain ⟨r, p⟩ := c
  induction r generalizing p with
  | nil => exact Nat.le_refl _
  | cons x r ih =>
    rw [skipBlanks, skipSpace]
    split
    · exact Nat.le_succ_of_le (ih (p.after x))
    · exact Nat.le_refl _

/-- What ends are passed does not depend on the fuel, where there is enough of it. -/
theorem skipEnds_fuel {fuel more : Nat} {frames : List Char} {afterPart : Bool} {c : Cursor}
    (hfuel : c.rest.length < fuel) (hmore : c.rest.length < more) :
    skipEnds fuel frames afterPart c = skipEnds more frames afterPart c := by
  induction fuel generalizing more frames afterPart c with
  | zero => exact absurd hfuel (Nat.not_lt_zero _)
  | succ fuel ih =>
    obtain ⟨more, rfl⟩ := Nat.exists_eq_succ_of_ne_zero (Nat.ne_zero_of_lt hmore)
    cases frames with
    | nil => rfl
    | cons frame outer =>
      have hlength := length_skipBlanks_le c
      generalize hc : c.skipBlanks = d at hlength
      obtain ⟨r, p⟩ := d
      cases r with
      | nil => simp only [skipEnds, hc]
      | cons x r =>
        have hrest := @ih more outer true ⟨r, p.after x⟩
          (by simp only [List.length_cons] at hlength ⊢; omega)
          (by simp only [List.length_cons] at hlength ⊢; omega)
        simp only [skipEnds, hc, advance_cons, hrest]

theorem goOn_blanks (b : Blanks) (fuel : Nat) (frame : Char) (outer : List Char) (afterPart : Bool)
    (r : List Char) (p : Place) : goOn fuel (frame :: outer) afterPart ⟨b.chars ++ r, p⟩ =
      goOn fuel (frame :: outer) afterPart ⟨r, p.past b.chars⟩ := by
  have hfuel := @skipEnds_fuel ((b.chars ++ r).length + 1) (r.length + 1) (frame :: outer) afterPart
    ⟨r, p.past b.chars⟩ (by simp only [List.length_append]; omega) (Nat.lt_succ_self _)
  have hblanks : skipEnds ((b.chars ++ r).length + 1) (frame :: outer) afterPart
      ⟨b.chars ++ r, p⟩ = skipEnds ((b.chars ++ r).length + 1) (frame :: outer) afterPart
        ⟨r, p.past b.chars⟩ := by
    simp only [skipEnds, skipBlanks_blanks]
  rw [goOn, goOn, hblanks, hfuel]

theorem goOn_closing (fuel : Nat) (frame : Char) (outer : List Char) (afterPart : Bool)
    (r : List Char) (p : Place) : goOn fuel (frame :: outer) afterPart ⟨closing frame :: r, p⟩ =
      goOn fuel outer true ⟨r, p.after (closing frame)⟩ := by
  have hspace : isSpace (closing frame) = false := by
    rw [closing]
    split <;> rfl
  have hcomma : closing frame ≠ ',' := by
    rw [closing]
    split <;> decide
  have hends : skipEnds ((closing frame :: r).length + 1) (frame :: outer) afterPart
      ⟨closing frame :: r, p⟩ = skipEnds (r.length + 1) outer true
        ⟨r, p.after (closing frame)⟩ := by
    simp only [skipEnds, skipBlanks_cons hspace, hcomma, false_and, if_false, advance_cons,
      List.length_cons]
    exact if_pos rfl
  rw [goOn, goOn, hends]

theorem goOn_comma (fuel : Nat) (frame : Char) (outer : List Char) (r : List Char) (p : Place) :
    goOn fuel (frame :: outer) true ⟨',' :: r, p⟩ =
      (enter frame ⟨r, p.after ','⟩).bind (skipLoop fuel (frame :: outer)) := by
  have hcomma : isSpace ',' = false := rfl
  have hends : skipEnds ((',' :: r).length + 1) (frame :: outer) true ⟨',' :: r, p⟩ =
      (enter frame ⟨r, p.after ','⟩).map fun c => (frame :: outer, c) := by
    simp only [skipEnds, skipBlanks_cons hcomma, and_self, if_true, advance_cons, enter]
    split <;> rfl
  rw [goOn, hends]
  cases enter frame ⟨r, p.after ','⟩ <;> rfl

theorem goOn_first (fuel : Nat) {frame x : Char} (hspace : isSpace x = false)
    (hclosing : x ≠ closing frame) (outer r : List Char) (p : Place) :
    goOn fuel (frame :: outer) false ⟨x :: r, p⟩ =
      (enter frame ⟨x :: r, p⟩).bind (skipLoop fuel (frame :: outer)) := by
  have hends : skipEnds ((x :: r).length + 1) (frame :: outer) false ⟨x :: r, p⟩ =
      (enter frame ⟨x :: r, p⟩).map fun c => (frame :: outer, c) := by
    rw [closing] at hclosing
    simp only [skipEnds, skipBlanks_cons hspace, Bool.false_eq_true, and_false, if_false,
      if_neg hclosing, enter]
    split <;> rfl
  rw [goOn, hends]
  cases enter frame ⟨x :: r, p⟩ <;> rfl

/-- A value is passed over, whatever collections it stands in. -/
def Passed (text : List Char) : Prop :=
  ∀ rest, EndsNumber rest → ∀ fuel frames p, (text ++ rest).length < fuel →
    ∃ more q, rest.length < more ∧
      skipLoop fuel frames ⟨text ++ rest, p⟩ = goOn more frames true ⟨rest, q⟩

def PartPassed (frame : Char) (text : List Char) : Prop :=
  ∀ rest, EndsNumber rest → ∀ fuel outer p, (text ++ rest).length < fuel →
    ∃ more q, rest.length < more ∧
      (enter frame ⟨text ++ rest, p⟩).bind (skipLoop fuel (frame :: outer)) =
        goOn more (frame :: outer) true ⟨rest, q⟩

theorem skipLoop_blanks (b : Blanks) {fuel : Nat} (hfuel : 0 < fuel) (frames r : List Char)
    (p : Place) :
    skipLoop fuel frames ⟨b.chars ++ r, p⟩ = skipLoop fuel frames ⟨r, p.past b.chars⟩ := by
  obtain ⟨fuel, rfl⟩ := Nat.exists_eq_succ_of_ne_zero (Nat.ne_of_gt hfuel)
  simp only [skipLoop, skipBlanks_blanks]

theorem ItemText.passed {frame : Char} {i : ItemText} (h : Passed i.value) (rest : List Char)
    (hrest : EndsNumber rest) (fuel : Nat) (outer : List Char) (p : Place)
    (hfuel : (i.chars ++ rest).length < fuel) : ∃ more q, rest.length < more ∧
      skipLoop fuel (frame :: outer) ⟨i.chars ++ rest, p⟩ =
        goOn more (frame :: outer) true ⟨rest, q⟩ := by
  simp only [ItemText.chars, List.length_append, List.append_assoc] at hfuel ⊢
  obtain ⟨more, q, hmore, hpassed⟩ := h (i.behind.chars ++ rest) (endsNumber_blanks i.behind hrest)
    fuel (frame :: outer) (p.past i.before.chars) (by simp only [List.length_append]; omega)
  rw [List.length_append] at hmore
  refine ⟨more, q.past i.behind.chars, by omega, ?_⟩
  rw [skipLoop_blanks i.before (by omega), hpassed, goOn_blanks]

theorem PartPassed.item {i : ItemText} (h : Passed i.value) : PartPassed '[' i.chars :=
  fun rest hrest fuel outer p hfuel => ItemText.passed h rest hrest fuel outer p hfuel

theorem colon_blanks (b : Blanks) (r : List Char) (p : Place) :
    colon ⟨b.chars ++ ':' :: r, p⟩ = .ok ⟨r, (p.past b.chars).after ':'⟩ := by
  have hcolon : isSpace ':' = false := rfl
  simp only [colon, skipBlanks_blanks, skipBlanks_cons hcolon]
  rfl

theorem skipKey_label (m : MemberText) (r : List Char) (p : Place) :
    ∃ q, skipKey ⟨m.label ++ r, p⟩ = .ok ⟨r, q⟩ := by
  have hquote : isSpace '"' = false := rfl
  obtain ⟨q, hq⟩ := skipString_glyphs m.key (m.behindKey.chars ++ ':' :: r)
    ((p.past m.before.chars).after '"')
  refine ⟨(q.past m.behindKey.chars).after ':', ?_⟩
  simp only [MemberText.label, Glyph.quoted, List.append_assoc, List.cons_append, List.nil_append,
    skipKey, skipBlanks_blanks, skipBlanks_cons hquote, advance_cons, hq]
  exact colon_blanks m.behindKey r q

theorem PartPassed.member {m : MemberText} (h : Passed m.value) : PartPassed '\x7b' m.chars := by
  intro rest hrest fuel outer p hfuel
  obtain ⟨q, hq⟩ := skipKey_label m (m.item.chars ++ rest) p
  have henter : enter '\x7b' ⟨m.chars ++ rest, p⟩ = .ok ⟨m.item.chars ++ rest, q⟩ := by
    rw [MemberText.chars, List.append_assoc]
    exact hq
  rw [henter]
  refine ItemText.passed h rest hrest fuel outer q ?_
  simp only [MemberText.chars, List.length_append] at hfuel ⊢
  omega

/-- Behind its first part, a collection is passed over up to its closing bracket. -/
theorem goOn_parts {frame : Char} {parts : List (List Char)}
    (passed : ∀ t ∈ parts, PartPassed frame t) (rest : List Char) (fuel : Nat)
    (hfuel : (joined false parts ++ closing frame :: rest).length < fuel) (outer : List Char)
    (p : Place) : ∃ more q, rest.length < more ∧
      goOn fuel (frame :: outer) true ⟨joined false parts ++ closing frame :: rest, p⟩ =
        goOn more outer true ⟨rest, q⟩ := by
  induction parts generalizing fuel p with
  | nil =>
    refine ⟨fuel, p.after (closing frame), ?_, goOn_closing fuel frame outer true rest p⟩
    simp only [joined, List.nil_append, List.length_cons] at hfuel
    omega
  | cons t parts ih =>
    have hends : EndsNumber (joined false parts ++ closing frame :: rest) := by
      refine endsNumber_joined _ rest ?_
      rintro y ⟨⟩
      rw [closing]
      split <;> decide
    simp only [joined, Bool.false_eq_true, if_false, List.cons_append, List.append_assoc,
      List.length_cons, List.length_append] at hfuel
    obtain ⟨more, q, hmore, hpart⟩ := passed t (by simp) _ hends fuel outer (p.after ',')
      (by simp only [List.length_append, List.length_cons]; omega)
    obtain ⟨last, q', hlast, hparts⟩ := ih (fun u hu => passed u (by simp [hu])) more hmore q
    refine ⟨last, q', hlast, ?_⟩
    rw [← hparts, ← hpart]
    simp only [joined, List.append_assoc]
    exact goOn_comma ..

def Opens (frame : Char) (text : List Char) : Prop :=
  ∃ (b : Blanks) (x : Char) (r : List Char),
    text = b.chars ++ x :: r ∧ isSpace x = false ∧ x ≠ closing frame

theorem enter_skipBlanks (frame : Char) {fuel : Nat} (hfuel : 0 < fuel) (frames : List Char)
    (b : Blanks) (r : List Char) (p : Place) :
    (enter frame ⟨b.chars ++ r, p⟩).bind (skipLoop fuel frames) =
      (enter frame ⟨r, p.past b.chars⟩).bind (skipLoop fuel frames) := by
  rw [enter, enter]
  split
  · exact skipLoop_blanks b hfuel frames r p
  · simp only [skipKey, skipBlanks_blanks]

theorem Passed.of_parts {frame : Char} (hframe : frame = '[' ∨ frame = '\x7b') (gap : Blanks)
    {parts : List (List Char)} (passed : ∀ t ∈ parts, PartPassed frame t)
    (opens : ∀ t ∈ parts, Opens frame t) :
    Passed (frame :: (gap.chars ++ (joined true parts ++ [closing frame]))) := by
  intro rest hrest fuel frames p hfuel
  obtain ⟨fuel, rfl⟩ := Nat.exists_eq_succ_of_ne_zero (Nat.ne_zero_of_lt hfuel)
  simp only [List.cons_append, List.append_assoc, List.nil_append, List.length_cons,
    List.length_append] at hfuel ⊢
  have hstart : skipLoop (fuel + 1) frames
      ⟨frame :: (gap.chars ++ (joined true parts ++ closing frame :: rest)), p⟩ =
        goOn fuel (frame :: frames) false
          ⟨joined true parts ++ closing frame :: rest, (p.after frame).past gap.chars⟩ := by
    rw [← goOn_blanks]
    rcases hframe with rfl | rfl <;> rfl
  rw [hstart]
  cases parts with
  | nil => exact ⟨fuel, _, by omega, goOn_closing fuel frame frames false rest _⟩
  | cons t parts =>
    obtain ⟨b, x, r, rfl, hspace, hx⟩ := opens t (by simp)
    have hends : EndsNumber (joined false parts ++ closing frame :: rest) := by
      refine endsNumber_joined _ rest ?_
      rintro y ⟨⟩
      rcases hframe with rfl | rfl <;> decide
    simp only [joined, if_true, List.length_append, List.length_cons] at hfuel
    obtain ⟨more, q, hmore, hpart⟩ := passed (b.chars ++ x :: r) (by simp) _ hends fuel frames
      ((p.after frame).past gap.chars)
      (by simp only [List.length_append, List.length_cons]; omega)
    obtain ⟨last, q', hlast, hparts⟩ := goOn_parts (fun u hu => passed u (by simp [hu])) rest more
      hmore frames q
    refine ⟨last, q', hlast, ?_⟩
    rw [← hparts, ← hpart]
    simp only [joined, if_true, List.append_assoc, List.cons_append]
    rw [goOn_blanks, goOn_first fuel hspace hx, enter_skipBlanks frame (by omega)]

end Cursor

theorem IsText.opens {depth : Nat} {text : List Char} (h : IsText depth text) :
    ∃ x r, text = x :: r ∧ isSpace x = false ∧ x ≠ ']' := by
  cases h with
  | null => exact ⟨'n', _, rfl, rfl, by decide⟩
  | bool b =>
    cases b with
    | false => exact ⟨'f', _, rfl, rfl, by decide⟩
    | true => exact ⟨'t', _, rfl, rfl, by decide⟩
  | number n =>
    by_cases hn : n.negative
    · exact ⟨'-', n.magnitude, if_pos hn, rfl, by decide⟩
    · obtain ⟨d, r, hd, hdigit, -⟩ := Cursor.digits_open n.whole
      refine ⟨d, r ++ NumberText.tail n.fraction n.exponent, ?_, Value.isSpace_of_digit hdigit, ?_⟩
      · rw [NumberText.chars, if_neg hn, NumberText.magnitude, hd]
        rfl
      · rintro rfl
        cases hdigit
  | string gs => exact ⟨'"', _, rfl, rfl, by decide⟩
  | array => exact ⟨'[', _, rfl, rfl, by decide⟩
  | object => exact ⟨'\x7b', _, rfl, rfl, by decide⟩

namespace Cursor

theorem skipScalar_minus (r : List Char) (p : Place) : skipScalar ⟨'-' :: r, p⟩ =
    (skipNumber ⟨r, p.after '-'⟩).map fun c => (none, c) := rfl

theorem skipScalar_digit {x : Char} (h : Text.isDigit x) (r : List Char) (p : Place) :
    skipScalar ⟨x :: r, p⟩ = (skipNumber ⟨x :: r, p⟩).map fun c => (none, c) := by
  have hne {y : Char} (hy : Text.isDigit y = false) : x ≠ y := by
    rintro rfl
    simp [hy] at h
  have hn : x ≠ 'n' := hne rfl
  have ht : x ≠ 't' := hne rfl
  have hf : x ≠ 'f' := hne rfl
  have hminus : x ≠ '-' := hne rfl
  simp only [skipScalar, hn, ht, hf, hminus, h, if_true, if_false]

theorem skipScalar_number (n : NumberText) {rest : List Char} (h : EndsNumber rest) (p : Place) :
    ∃ q, skipScalar ⟨n.chars ++ rest, p⟩ = .ok (none, ⟨rest, q⟩) := by
  by_cases hn : n.negative
  · obtain ⟨q, hq⟩ := skipNumber_magnitude n h (p.after '-')
    exact ⟨q, by rw [NumberText.chars, if_pos hn, List.cons_append, skipScalar_minus, hq]; rfl⟩
  · obtain ⟨d, r, hd, hdigit, -⟩ := digits_open n.whole
    obtain ⟨q, hq⟩ := skipNumber_magnitude n h p
    have hchars : n.magnitude ++ rest =
        d :: (r ++ (NumberText.tail n.fraction n.exponent ++ rest)) := by
      rw [NumberText.magnitude, hd, List.append_assoc]
      rfl
    refine ⟨q, ?_⟩
    rw [NumberText.chars, if_neg hn, hchars, skipScalar_digit hdigit, ← hchars, hq]
    rfl

theorem skipScalar_string (gs : List Glyph) (rest : List Char) (p : Place) :
    ∃ q, skipScalar ⟨Glyph.quoted gs ++ rest, p⟩ = .ok (none, ⟨rest, q⟩) := by
  obtain ⟨q, hq⟩ := skipString_glyphs gs rest (p.after '"')
  have hskip (r : List Char) : skipScalar ⟨'"' :: r, p⟩ =
      (skipString ⟨r, p.after '"'⟩).map fun c => (none, c) := rfl
  exact ⟨q, by simp [Glyph.quoted, hskip, hq, Except.map]⟩

end Cursor

open Cursor in
/-- The text of a value is passed over, to its end and no further. -/
theorem IsText.passed {depth : Nat} {text : List Char} (h : IsText depth text) : Passed text := by
  -- A scalar is passed over in one step, in whatever collections it stands.
  have scalar {text : List Char} (htext : IsText 0 text)
      (hscalar : ∀ rest, EndsNumber rest → ∀ p, ∃ q,
        skipScalar ⟨text ++ rest, p⟩ = .ok (none, ⟨rest, q⟩)) : Passed text := by
    intro rest hrest fuel frames p hfuel
    obtain ⟨fuel, rfl⟩ := Nat.exists_eq_succ_of_ne_zero (Nat.ne_zero_of_lt hfuel)
    obtain ⟨q, hq⟩ := hscalar rest hrest p
    obtain ⟨x, r, rfl, hspace, -⟩ := htext.opens
    have hblanks : skipBlanks ⟨x :: r ++ rest, p⟩ = ⟨x :: r ++ rest, p⟩ :=
      skipBlanks_cons hspace (r ++ rest) p
    simp only [List.length_append, List.length_cons] at hfuel
    refine ⟨fuel, q, by omega, ?_⟩
    rw [Nat.succ_eq_add_one, skipLoop, hblanks, hq]
    rfl
  induction h with
  | null => exact scalar .null fun rest _ p => ⟨_, rfl⟩
  | bool b => exact scalar (.bool b) fun rest _ p => by cases b <;> exact ⟨_, rfl⟩
  | number n => exact scalar (.number n) fun rest => skipScalar_number n
  | string gs => exact scalar (.string gs) fun rest _ => skipScalar_string gs rest
  | @array depth gap items each ih =>
    refine Passed.of_parts (.inl rfl) gap (List.forall_mem_map.2 fun i hi => .item (ih i hi))
      (List.forall_mem_map.2 fun i hi => ?_)
    obtain ⟨x, r, hx, hspace, hend⟩ := (each i hi).opens
    exact ⟨i.before, x, r ++ i.behind.chars, by simp [ItemText.chars, hx], hspace, hend⟩
  | @object depth gap members each ih =>
    refine Passed.of_parts (.inr rfl) gap (List.forall_mem_map.2 fun m hm => .member (ih m hm))
      (List.forall_mem_map.2 fun m hm => ?_)
    refine ⟨m.before, '"', m.key.flatMap Glyph.chars ++ '"' :: (m.behindKey.chars ++
      ':' :: m.item.chars), ?_, rfl, by decide⟩
    simp [MemberText.chars, MemberText.label, Glyph.quoted]

open Cursor in
theorem IsText.skipValue {depth : Nat} {text rest : List Char} (h : IsText depth text)
    (hrest : EndsNumber rest) (b : Blanks) (p : Place) :
    ∃ q, Cursor.skipValue ⟨b.chars ++ (text ++ rest), p⟩ = .ok ⟨rest, q⟩ := by
  obtain ⟨more, q, -, hq⟩ := h.passed rest hrest ((b.chars ++ (text ++ rest)).length + 1) []
    (p.past b.chars) (by simp only [List.length_append]; omega)
  exact ⟨q, by rw [Cursor.skipValue, skipLoop_blanks b (Nat.succ_pos _), hq]; rfl⟩

end SearchRelay.Json

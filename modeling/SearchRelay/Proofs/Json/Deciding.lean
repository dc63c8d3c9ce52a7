import SearchRelay.Proofs.Json.Record
import SearchRelay.Proofs.Json.Settling

/-!
Decoders that look at a value alone: what one makes of its text, or that it refuses it, does not
depend on what stands around it.
-/

namespace SearchRelay.Json

namespace Decoder

open Cursor

variable {α β σ : Type} {depth : Nat}

def made (decoder : Decoder α) (depth : Nat) (text : List Char) : Option α :=
  (decoder depth ⟨text, .start⟩).toOption.map Prod.fst

/-- A decoder that makes the same of a value wherever it stands, and whatever blanks stand before
it. -/
def Steady (depth : Nat) (decoder : Decoder α) : Prop :=
  ∀ text, IsText depth text → ∀ b : Blanks, ∀ rest, EndsNumber rest → ∀ p,
    Comes (decoder depth ⟨b.chars ++ (text ++ rest), p⟩) rest (made decoder depth text)

theorem made_of_settles {decoder : Decoder α} {text : List Char} {r : Option α}
    (h : Settles (decoder depth) text r) : made decoder depth text = r := by
  have hread := h [] nofun .start
  rw [List.append_nil] at hread
  cases r with
  | none =>
    obtain ⟨e, he⟩ := hread
    simp [made, he, Except.toOption]
  | some a =>
    obtain ⟨q, hq⟩ := hread
    simp [made, hq, Except.toOption]

namespace Steady

theorem of_settles {decoder : Decoder α}
    (blanks : ∀ (b : Blanks) r p,
      decoder depth ⟨b.chars ++ r, p⟩ = decoder depth ⟨r, p.past b.chars⟩)
    (settles : ∀ text, IsText depth text → ∃ r, Settles (decoder depth) text r) :
    Steady depth decoder := by
  intro text h b rest hrest p
  obtain ⟨r, hr⟩ := settles text h
  rw [made_of_settles hr, blanks]
  exact hr rest hrest _

theorem item {decoder : Decoder α} (h : Steady depth decoder) {i : ItemText}
    (htext : IsText depth i.value) {rest : List Char} (hrest : EndsNumber rest) (p : Place) :
    Comes (decoder depth ⟨i.chars ++ rest, p⟩) (i.behind.chars ++ rest)
      (made decoder depth i.value) := by
  rw [ItemText.chars, List.append_assoc, List.append_assoc]
  exact h _ htext i.before _ (endsNumber_blanks i.behind hrest) p

end Steady

theorem starting_blanks (b : Blanks) (r : List Char) (p : Place) :
    starting ⟨b.chars ++ r, p⟩ = starting ⟨r, p.past b.chars⟩ := by
  simp only [starting, skipBlanks_blanks]

theorem starting_cons {x : Char} (h : isSpace x = false) (r : List Char) (p : Place) :
    starting ⟨x :: r, p⟩ = .ok (x, ⟨x :: r, p⟩) := by
  simp only [starting, skipBlanks_cons h]

theorem unexpected_fails (expected : String) (c : Cursor) :
    ∃ e, (unexpected expected c : Except Error α) = .error e := by
  unfold unexpected
  split
  · exact ⟨_, rfl⟩
  · exact ⟨_, rfl⟩
  · split <;> exact ⟨_, rfl⟩

end Decoder

theorem NumberText.opens (n : NumberText) :
    ∃ x r, n.chars = x :: r ∧ isSpace x = false ∧ (x = '-' ∨ Text.isDigit x) := by
  by_cases hn : n.negative
  · exact ⟨'-', n.magnitude, if_pos hn, rfl, .inl rfl⟩
  · obtain ⟨d, r, hd, hdigit, -⟩ := Cursor.digits_open n.whole
    refine ⟨d, r ++ NumberText.tail n.fraction n.exponent, ?_, Value.isSpace_of_digit hdigit,
      .inr hdigit⟩
    rw [NumberText.chars, if_neg hn, NumberText.magnitude, hd]
    rfl

/-- Which scalar a value is shows in its first character. -/
structure Opening (text : List Char) (x : Char) : Prop where
  space : isSpace x = false
  quote : x = '"' → ∃ gs, text = Glyph.quoted gs
  number : x = '-' ∨ Text.isDigit x → ∃ n : NumberText, text = n.chars
  bool : x = 't' ∨ x = 'f' → ∃ b, text = Value.chars (.bool b)
  null : x = 'n' → text = Value.chars .null

theorem IsText.opening {depth : Nat} {text : List Char} (h : IsText depth text) :
    ∃ x r, text = x :: r ∧ Opening text x := by
  cases h with
  | null =>
    exact ⟨'n', _, rfl, rfl, Not.elim (by decide), Not.elim (by decide), Not.elim (by decide),
      fun _ => rfl⟩
  | bool b =>
    cases b
    · exact ⟨'f', _, rfl, rfl, Not.elim (by decide), Not.elim (by decide), fun _ => ⟨false, rfl⟩,
        Not.elim (by decide)⟩
    · exact ⟨'t', _, rfl, rfl, Not.elim (by decide), Not.elim (by decide), fun _ => ⟨true, rfl⟩,
        Not.elim (by decide)⟩
  | number n =>
    obtain ⟨x, r, hchars, hspace, hx⟩ := n.opens
    have hne {y : Char} (hy : ¬ (y = '-' ∨ Text.isDigit y)) : x ≠ y := by
      rintro rfl
      exact hy hx
    exact ⟨x, r, hchars, hspace, Not.elim (hne (by decide)), fun _ => ⟨n, rfl⟩,
      Not.elim (not_or.2 ⟨hne (by decide), hne (by decide)⟩), Not.elim (hne (by decide))⟩
  | string gs =>
    exact ⟨'"', _, rfl, rfl, fun _ => ⟨gs, rfl⟩, Not.elim (by decide), Not.elim (by decide),
      Not.elim (by decide)⟩
  | array =>
    exact ⟨'[', _, rfl, rfl, Not.elim (by decide), Not.elim (by decide), Not.elim (by decide),
      Not.elim (by decide)⟩
  | object =>
    exact ⟨'\x7b', _, rfl, rfl, Not.elim (by decide), Not.elim (by decide), Not.elim (by decide),
      Not.elim (by decide)⟩

namespace Decoder

open Cursor

variable {α β σ : Type} {depth : Nat}

theorem text_quoted (expected : String) (gs : List Glyph) :
    Settles (text expected depth) (Glyph.quoted gs) ((Glyph.spell? gs).map String.ofList) := by
  intro rest _ p
  have hquote : isSpace '"' = false := rfl
  have hstring := string_glyphs gs rest (p.after '"')
  simp only [Glyph.quoted, List.cons_append, List.append_assoc, List.nil_append, text,
    starting_cons hquote, bind, Except.bind, if_true, advance_cons]
  exact hstring

theorem text_refuses (depth : Nat) (expected : String) {x : Char} (hspace : isSpace x = false)
    (hx : x ≠ '"') (r : List Char) (p : Place) :
    ∃ e, text expected depth ⟨x :: r, p⟩ = .error e := by
  simp only [text, starting_cons hspace, bind, Except.bind, if_neg hx]
  exact unexpected_fails expected _

theorem Steady.text (expected : String) : Steady depth (Decoder.text expected) := by
  refine .of_settles (fun b r p => by simp only [Decoder.text, starting_blanks]) fun t h => ?_
  obtain ⟨x, r, rfl, opening⟩ := h.opening
  by_cases hx : x = '"'
  · obtain ⟨gs, hgs⟩ := opening.quote hx
    rw [hgs]
    exact ⟨_, text_quoted expected gs⟩
  · exact ⟨none, fun rest _ p => text_refuses depth expected opening.space hx (r ++ rest) p⟩

theorem parsed_blanks (expected : String) (parse : String → Except Mismatch α) (b : Blanks)
    (r : List Char) (p : Place) : parsed expected parse depth ⟨b.chars ++ r, p⟩ =
      parsed expected parse depth ⟨r, p.past b.chars⟩ := by
  simp only [parsed, text, starting_blanks]

theorem Steady.parsed (expected : String) (parse : String → Except Mismatch α) :
    Steady depth (Decoder.parsed expected parse) := by
  refine .of_settles (parsed_blanks expected parse) fun t h =>
    ⟨(made (Decoder.text expected) depth t).bind fun s => (parse s).toOption,
      fun rest hrest p => ?_⟩
  refine (Steady.text expected t h {} rest hrest p).bind fun s q => ?_
  dsimp only
  cases parse s with
  | error m => exact ⟨_, rfl⟩
  | ok a => exact ⟨q, rfl⟩

theorem free_settles {text : List Char} (h : IsText depth text) : ∃ r, ∀ limit, depth ≤ limit →
    ∀ b : Blanks, ∀ rest, EndsNumber rest → ∀ p,
      Comes (free limit ⟨b.chars ++ (text ++ rest), p⟩) rest r := by
  obtain ⟨r, hr⟩ := Value.read_settles h
  refine ⟨r, fun limit hlimit b rest hrest p => ?_⟩
  simp only [free, Cursor.value, enough]
  rw [Value.read_blanks (Nat.succ_pos _)]
  exact hr limit hlimit _ (by simp only [List.length_append]; omega) rest hrest _

theorem Steady.free : Steady depth Decoder.free := by
  intro text h
  obtain ⟨r, hr⟩ := free_settles h
  have hmade : made Decoder.free depth text = r :=
    made_of_settles fun rest hrest p => hr depth (Nat.le_refl _) {} rest hrest p
  rw [hmade]
  exact hr depth (Nat.le_refl _)

/-- How deep a reader may go does not matter where it goes deep enough. -/
theorem made_free {text : List Char} (h : IsText depth text) {limit : Nat}
    (hlimit : depth ≤ limit) : made Decoder.free limit text = made Decoder.free depth text := by
  obtain ⟨r, hr⟩ := free_settles h
  have hmade (limit : Nat) (hlimit : depth ≤ limit) : made Decoder.free limit text = r :=
    made_of_settles fun rest hrest p => hr limit hlimit {} rest hrest p
  rw [hmade limit hlimit, hmade depth (Nat.le_refl _)]

theorem Steady.bool : Steady depth Decoder.bool := by
  refine .of_settles (fun b r p => by simp only [Decoder.bool, starting_blanks]) fun t h => ?_
  obtain ⟨x, r, rfl, opening⟩ := h.opening
  by_cases hx : x = 't' ∨ x = 'f'
  · obtain ⟨b, hb⟩ := opening.bool hx
    rw [hb]
    exact ⟨some b, fun rest _ p => by cases b <;> exact ⟨_, rfl⟩⟩
  · obtain ⟨ht, hf⟩ := not_or.1 hx
    refine ⟨none, fun rest _ p => ?_⟩
    simp only [Decoder.bool, List.cons_append, starting_cons opening.space, bind, Except.bind,
      if_neg ht, if_neg hf]
    exact unexpected_fails _ _

theorem Steady.unit : Steady depth Decoder.unit := by
  refine .of_settles (fun b r p => by simp only [Decoder.unit, starting_blanks]) fun t h => ?_
  obtain ⟨x, r, rfl, opening⟩ := h.opening
  by_cases hx : x = 'n'
  · rw [opening.null hx]
    exact ⟨some (), fun rest _ p => ⟨_, rfl⟩⟩
  · refine ⟨none, fun rest _ p => ?_⟩
    simp only [Decoder.unit, List.cons_append, starting_cons opening.space, bind, Except.bind,
      if_neg hx]
    exact unexpected_fails _ _

theorem made_field {β : Type} {decoder : Decoder β} (name : String) (set : β → σ → σ)
    (text : List Char) : made (Decoder.field name decoder set).read depth text =
      (made decoder depth text).map set := by
  simp only [made, Decoder.field]
  cases decoder depth ⟨text, .start⟩ <;> rfl

theorem Steady.field {β : Type} {decoder : Decoder β} (h : Steady depth decoder) (name : String)
    (set : β → σ → σ) : Steady depth (Decoder.field name decoder set).read := by
  intro text htext b rest hrest p
  rw [made_field]
  exact (h text htext b rest hrest p).map set

section

variable {names : List (String × α)} {rest : List Char}

def variantName (names : List (String × α)) : Decoder α :=
  parsed "variant identifier" fun s =>
    match names.lookup s with
    | some a => .ok a
    | none => .error (.unknownVariant s (names.map Prod.fst))

theorem Steady.variantName (depth : Nat) (names : List (String × α)) :
    Steady depth (variantName names) := Steady.parsed _ _

def variantEnd (a : α) (c : Cursor) : Except Error (α × Cursor) :=
  match c.skipBlanks.rest with
  | [] => c.skipBlanks.fail .endInObject
  | '\x7d' :: _ => .ok (a, c.skipBlanks.advance)
  | _ => c.skipBlanks.fail .missingValue

theorem variant_brace (r : List Char) (p : Place) :
    variant names (depth + 1) ⟨'\x7b' :: r, p⟩ =
      (variantName names (depth + 1) ⟨r, p.after '\x7b'⟩).bind fun x =>
        x.2.colon.bind fun c => (unit (depth + 1) c).bind fun y => variantEnd x.1 y.2 := rfl

theorem variant_refuses {x : Char} (hspace : isSpace x = false) (hquote : x ≠ '"')
    (hbrace : x ≠ '\x7b') (r : List Char) (p : Place) :
    ∃ e, variant names depth ⟨x :: r, p⟩ = .error e := by
  simp only [variant, skipBlanks_cons hspace]
  split
  · contradiction
  · rename_i heq
    exact absurd (List.cons.inj heq).1 hquote
  · rename_i heq
    exact absurd (List.cons.inj heq).1 hbrace
  · exact ⟨_, rfl⟩

theorem variantEnd_comes (a : α) (b : Blanks) (texts : List (List Char)) (rest : List Char)
    (p : Place) : Comes (variantEnd a ⟨b.chars ++ (joined false texts ++ '\x7d' :: rest), p⟩) rest
      (if texts.isEmpty then some a else none) := by
  have hclosing : isSpace '\x7d' = false := rfl
  have hcomma : isSpace ',' = false := rfl
  cases texts with
  | nil =>
    simp only [variantEnd, joined, List.nil_append, skipBlanks_blanks, skipBlanks_cons hclosing]
    exact ⟨_, rfl⟩
  | cons t texts =>
    simp only [variantEnd, joined, Bool.false_eq_true, if_false, List.cons_append,
      skipBlanks_blanks, skipBlanks_cons hcomma]
    exact ⟨_, rfl⟩

theorem variant_object (gap : Blanks) {members : List MemberText}
    (each : ∀ m ∈ members, IsText depth m.value) :
    ∃ r, Settles (variant names (depth + 1))
      ('\x7b' :: (gap.chars ++ (joined true (members.map MemberText.chars) ++ ['\x7d']))) r := by
  cases members with
  | nil =>
    refine ⟨none, fun rest _ p => ?_⟩
    obtain ⟨e, he⟩ := text_refuses (depth + 1) "variant identifier" (rfl : isSpace '\x7d' = false)
      (by decide) rest ((p.after '\x7b').past gap.chars)
    refine ⟨e, ?_⟩
    simp only [List.map_nil, joined, List.nil_append, List.cons_append, List.append_assoc,
      variant_brace, variantName, parsed_blanks]
    rw [parsed, he]
    rfl
  | cons m members =>
    refine ⟨(made (variantName names) (depth + 1) (Glyph.quoted m.key)).bind fun a =>
      (made unit depth m.value).bind fun _ =>
        if (members.map MemberText.chars).isEmpty then some a else none, fun rest _ p => ?_⟩
    generalize hmore : members.map MemberText.chars = more
    have hends : EndsNumber (joined false more ++ '\x7d' :: rest) :=
      endsNumber_joined _ rest (by rintro y ⟨⟩; decide)
    have hcolon : EndsNumber (behind m more ('\x7d' :: rest)) :=
      endsNumber_blanks m.behindKey (by rintro y ⟨⟩; decide)
    have hkey := Steady.variantName (depth + 1) names _ (.string m.key)
      (gap.append m.before) _ hcolon (p.after '\x7b')
    simp only [List.map_cons, hmore, joined, if_true, List.cons_append, List.append_assoc,
      List.nil_append, MemberText.chars, MemberText.label, variant_brace]
    simp only [Blanks.append, behind, List.append_assoc] at hkey
    refine hkey.bind fun a q => ?_
    obtain ⟨q', hq'⟩ := colon_behind m more ('\x7d' :: rest) q
    rw [behind] at hq'
    dsimp only
    rw [hq']
    exact (Steady.unit.item (each m (by simp)) hends q').bind fun _ q =>
      variantEnd_comes a m.item.behind more rest q

theorem Steady.variant (names : List (String × α)) : Steady depth (Decoder.variant names) := by
  refine .of_settles (fun b r p => by simp only [Decoder.variant, skipBlanks_blanks]) fun t h => ?_
  have refused {x : Char} {r : List Char} (hspace : isSpace x = false) (hquote : x ≠ '"')
      (hbrace : x ≠ '\x7b') : ∃ r', Settles (Decoder.variant names depth) (x :: r) r' :=
    ⟨none, fun rest _ p => variant_refuses hspace hquote hbrace (r ++ rest) p⟩
  cases h with
  | null => exact refused rfl (by decide) (by decide)
  | bool b => cases b <;> exact refused rfl (by decide) (by decide)
  | number n =>
    obtain ⟨x, r, hchars, hspace, hx⟩ := n.opens
    rw [hchars]
    refine refused hspace ?_ ?_ <;>
      · rintro rfl
        simp [Text.isDigit] at hx
  | string gs =>
    have hname := Steady.variantName depth names _ (.string gs) {}
    exact ⟨_, hname⟩
  | array => exact refused rfl (by decide) (by decide)
  | object gap each => exact variant_object gap each

end

def counted : Number → Option Nat
  | .integer n => if 0 ≤ n then some n.toNat else none
  | .float _ => none

def asCount : Except Error (Number × Cursor) → Except Error (Nat × Cursor)
  | .error e => .error e
  | .ok (.integer n, c) =>
    if 0 ≤ n then .ok (n.toNat, c) else c.reject (.invalidValue (.integer n) "u64")
  | .ok (.float x, c) => c.reject (.invalidType (.float x) "u64")

theorem asCount_comes {outcome : Except Error (Number × Cursor)} {rest : List Char}
    {r : Option Number} (h : Comes outcome rest r) :
    Comes (asCount outcome) rest (r.bind counted) := by
  cases r with
  | none =>
    obtain ⟨e, rfl⟩ := h
    exact ⟨e, rfl⟩
  | some x =>
    obtain ⟨q, rfl⟩ := h
    cases x with
    | float x => exact ⟨_, rfl⟩
    | integer n =>
      simp only [asCount, Option.bind_some, counted]
      split
      · exact ⟨q, rfl⟩
      · exact ⟨_, rfl⟩

theorem word_number (depth : Nat) (n : NumberText) (rest : List Char) (p : Place) : ∃ q,
    word depth ⟨n.chars ++ rest, p⟩ = asCount (number n.negative ⟨n.magnitude ++ rest, q⟩) := by
  have hbind (outcome : Except Error (Number × Cursor)) : (outcome.bind fun x =>
      match x.1 with
      | .integer n =>
        if 0 ≤ n then .ok (n.toNat, x.2) else x.2.reject (.invalidValue (.integer n) "u64")
      | .float y => x.2.reject (.invalidType (.float y) "u64")) = asCount outcome := by
    rcases outcome with e | ⟨x | x, c⟩ <;> rfl
  by_cases hn : n.negative
  · refine ⟨p.after '-', ?_⟩
    rw [NumberText.chars, if_pos hn, hn, ← hbind]
    rfl
  · obtain ⟨d, r, hd, hdigit, hminus, -⟩ := digits_open n.whole
    have hchars : n.magnitude ++ rest =
        d :: (r ++ (NumberText.tail n.fraction n.exponent ++ rest)) := by
      rw [NumberText.magnitude, hd, List.append_assoc]
      rfl
    refine ⟨p, ?_⟩
    rw [NumberText.chars, if_neg hn, Bool.not_eq_true] at *
    rw [hn, hchars, ← hbind]
    simp only [word, starting_cons (Value.isSpace_of_digit hdigit), bind, Except.bind, hdigit,
      hminus]
    rfl

theorem settles_word {n : NumberText} {r : Option Number}
    (h : Settles (number n.negative) n.magnitude r) :
    Settles (word depth) n.chars (r.bind counted) := by
  intro rest hrest p
  obtain ⟨q, hq⟩ := word_number depth n rest p
  rw [hq]
  exact asCount_comes (h rest hrest q)

theorem word_negative {n : NumberText} (hsign : n.negative) :
    Settles (word depth) n.chars none := by
  have hnone {r : Option Number} (hr : r.bind counted = none)
      (hsettles : Settles (number true) n.magnitude r) : Settles (word depth) n.chars none :=
    hr ▸ settles_word (hsign ▸ hsettles)
  rcases number_cases n with ⟨v, hv, hchars⟩ | hfloat
  · by_cases hlarge : v = 0 ∨ Nat.pow 2 63 < v
    · refine hnone (r := some (.float (Binary64.ofDecimal false v 0).neg)) rfl
        fun rest hrest p => ⟨p.past n.magnitude, ?_⟩
      rw [hchars, number_digits true hv hrest]
      simp [hlarge]
    · refine hnone (r := some (.integer (-(v : Int)))) (if_neg (by omega))
        fun rest hrest p => ⟨p.past n.magnitude, ?_⟩
      rw [hchars, number_digits true hv hrest]
      simp [hlarge]
  · obtain ⟨r, hr⟩ := hfloat true
    exact hnone (by cases r <;> rfl) hr

/-- An unsigned integer is read from the numeral of one that 64 bits hold, and from no other
value. -/
theorem word_settles {text : List Char} (h : IsText depth text) :
    (∃ v < Nat.pow 2 64, text = Nat.toDigits 10 v ∧ Settles (word depth) text (some v)) ∨
      ((∀ v < Nat.pow 2 64, text ≠ Nat.toDigits 10 v) ∧ Settles (word depth) text none) := by
  obtain ⟨x, t, rfl, opening⟩ := h.opening
  have hdigits {v : Nat} (hv : x :: t = Nat.toDigits 10 v) : Text.isDigit x :=
    Numeral.isDigit_toDigits v x (hv ▸ List.mem_cons_self)
  by_cases hx : x = '-' ∨ Text.isDigit x
  case neg =>
    refine .inr ⟨fun v _ hv => hx (.inr (hdigits hv)), fun rest _ p => ?_⟩
    simp only [word, List.cons_append, starting_cons opening.space, bind, Except.bind, if_neg hx]
    exact unexpected_fails _ _
  obtain ⟨n, hn⟩ := opening.number hx
  by_cases hsign : n.negative
  · have hminus : x = '-' := by
      rw [NumberText.chars, if_pos hsign] at hn
      exact (List.cons.inj hn).1
    refine .inr ⟨fun v _ hv => ?_, hn ▸ word_negative hsign⟩
    have hdigit := hdigits hv
    rw [hminus] at hdigit
    cases hdigit
  · have hchars : n.chars = n.magnitude := if_neg hsign
    rw [Bool.not_eq_true] at hsign
    by_cases hint : ∃ v < Nat.pow 2 64, n.magnitude = Nat.toDigits 10 v
    · obtain ⟨v, hv, hmagnitude⟩ := hint
      refine .inl ⟨v, hv, hn.trans (hchars.trans hmagnitude), hn ▸
        settles_word (r := some (.integer v)) fun rest hrest p => ⟨p.past n.magnitude, ?_⟩⟩
      rw [hmagnitude, hsign, number_digits false hv hrest]
      rfl
    · obtain ⟨r, hr⟩ := (number_cases n).resolve_left hint n.negative
      refine .inr ⟨fun v hv h => hint ⟨v, hv, hchars.symm.trans (hn.symm.trans h)⟩, hn ▸ ?_⟩
      have hnone : (r.map Number.float).bind counted = none := by cases r <;> rfl
      exact hnone ▸ settles_word hr

theorem Steady.word : Steady depth Decoder.word :=
  .of_settles (fun b r p => by simp only [Decoder.word, starting_blanks]) fun _ h =>
    (word_settles h).elim (fun ⟨_, _, _, h⟩ => ⟨_, h⟩) fun ⟨_, h⟩ => ⟨_, h⟩

theorem made_word {text : List Char} (h : IsText depth text) {v : Nat} :
    made Decoder.word depth text = some v ↔ v < Nat.pow 2 64 ∧ text = Nat.toDigits 10 v := by
  rcases word_settles h with ⟨n, hn, htext, hsettles⟩ | ⟨hother, hsettles⟩
  · rw [made_of_settles hsettles]
    constructor
    · rintro ⟨⟩
      exact ⟨hn, htext⟩
    · rintro ⟨-, hv⟩
      have hvalue := congrArg (Nat.ofDigitChars 10 · 0) (htext.symm.trans hv)
      simp only [Nat.ofDigitChars_ten_toDigits] at hvalue
      rw [hvalue]
  · rw [made_of_settles hsettles]
    exact ⟨nofun, fun ⟨hv, htext⟩ => (hother v hv htext).elim⟩

end Decoder

end SearchRelay.Json

import SearchRelay.Proofs.Json.Passing

/-!
Values that are read: what is made of the text of a value, or that nothing is, does not depend on
what stands behind it.
-/

namespace SearchRelay.Json

namespace Cursor

variable {rest : List Char}

theorem nextItem_item (first : Bool) (gap : Blanks) {i : ItemText} {depth : Nat}
    (h : IsText depth i.value) (more : List (List Char)) (rest : List Char) (p : Place) :
    ∃ q, nextItem first ⟨gap.chars ++ (joined first (i.chars :: more) ++ rest), p⟩ =
      .ok (true, ⟨i.value ++ (i.behind.chars ++ (joined false more ++ rest)), q⟩) := by
  obtain ⟨x, r, hx, hspace, hend⟩ := h.opens
  have hcomma : isSpace ',' = false := rfl
  cases first <;>
    simp [joined, ItemText.chars, nextItem, skipBlanks_blanks, hx, skipBlanks_cons hspace,
      skipBlanks_cons hcomma, hend]

theorem nextItem_closing (first : Bool) (gap : Blanks) (rest : List Char) (p : Place) :
    nextItem first ⟨gap.chars ++ ']' :: rest, p⟩ =
      .ok (false, ⟨']' :: rest, p.past gap.chars⟩) := by
  have hclosing : isSpace ']' = false := rfl
  simp only [nextItem, skipBlanks_blanks, skipBlanks_cons hclosing]

def behind (m : MemberText) (more : List (List Char)) (rest : List Char) : List Char :=
  m.behindKey.chars ++ ':' :: (m.item.chars ++ (joined false more ++ rest))

theorem nextKey_member (first : Bool) (gap : Blanks) (m : MemberText) (more : List (List Char))
    (rest : List Char) (p : Place) :
    ∃ q, nextKey first ⟨gap.chars ++ (joined first (m.chars :: more) ++ rest), p⟩ =
      .ok (true, ⟨Glyph.quoted m.key ++ behind m more rest, q⟩) := by
  have hcomma : isSpace ',' = false := rfl
  have hquote : isSpace '"' = false := rfl
  cases first <;>
    simp [joined, MemberText.chars, MemberText.label, Glyph.quoted, behind, nextKey,
      skipBlanks_blanks, skipBlanks_cons hquote, skipBlanks_cons hcomma]

theorem nextKey_closing (first : Bool) (gap : Blanks) (rest : List Char) (p : Place) :
    nextKey first ⟨gap.chars ++ '\x7d' :: rest, p⟩ =
      .ok (false, ⟨'\x7d' :: rest, p.past gap.chars⟩) := by
  have hclosing : isSpace '\x7d' = false := rfl
  simp only [nextKey, skipBlanks_blanks, skipBlanks_cons hclosing]

theorem string_key (m : MemberText) (r : List Char) (p : Place) :
    Comes (string (advance ⟨Glyph.quoted m.key ++ r, p⟩)) r m.name? := by
  simp only [Glyph.quoted, List.cons_append, List.append_assoc, List.nil_append, advance_cons]
  exact string_glyphs m.key r (p.after '"')

theorem colon_behind (m : MemberText) (more : List (List Char)) (rest : List Char) (p : Place) :
    ∃ q, colon ⟨behind m more rest, p⟩ = .ok ⟨m.item.chars ++ (joined false more ++ rest), q⟩ :=
  ⟨_, colon_blanks m.behindKey _ p⟩

end Cursor

namespace Value

open Cursor

variable {depth : Nat}

theorem read_blanks {fuel : Nat} (hfuel : 0 < fuel) (b : Blanks) (r : List Char) (p : Place) :
    read depth fuel ⟨b.chars ++ r, p⟩ = read depth fuel ⟨r, p.past b.chars⟩ := by
  obtain ⟨fuel, rfl⟩ := Nat.exists_eq_succ_of_ne_zero (Nat.ne_of_gt hfuel)
  cases depth <;> simp only [read, skipBlanks_blanks]

/-- What a reader of values makes of a text, when it goes deep enough and has fuel enough. -/
def ReadAs (depth : Nat) (text : List Char) (r : Option Value) : Prop :=
  ∀ limit, depth ≤ limit → ∀ fuel, 2 * text.length ≤ fuel → Settles (read limit fuel) text r

theorem ReadAs.item {i : ItemText} {r : Option Value} (h : ReadAs depth i.value r) {limit : Nat}
    (hlimit : depth ≤ limit) {rest : List Char} (hrest : EndsNumber rest) {fuel : Nat}
    (hfuel : 2 * i.chars.length < fuel) (p : Place) :
    Comes (read limit fuel ⟨i.chars ++ rest, p⟩) (i.behind.chars ++ rest) r := by
  simp only [ItemText.chars, List.length_append, List.append_assoc] at hfuel ⊢
  rw [read_blanks (by omega)]
  exact h limit hlimit fuel (by omega) _ (endsNumber_blanks i.behind hrest) _

theorem readItems_settles {items : List ItemText} (texts : ∀ i ∈ items, IsText depth i.value)
    (reads : ∀ i ∈ items, ∃ r, ReadAs depth i.value r) : ∃ r : Option (List Value),
      ∀ limit, depth ≤ limit → ∀ first (gap : Blanks) fuel rest p,
        2 * (joined first (items.map ItemText.chars)).length < fuel →
          Comes (readItems limit fuel first
            ⟨gap.chars ++ (joined first (items.map ItemText.chars) ++ ']' :: rest), p⟩)
              (']' :: rest) r := by
  induction items with
  | nil =>
    refine ⟨some [], fun _ _ first gap fuel rest p hfuel => ⟨p.past gap.chars, ?_⟩⟩
    obtain ⟨fuel, rfl⟩ := Nat.exists_eq_succ_of_ne_zero (Nat.ne_zero_of_lt hfuel)
    simp only [List.map_nil, joined, List.nil_append, readItems, nextItem_closing]
  | cons i items ih =>
    obtain ⟨r, hr⟩ := reads i (by simp)
    obtain ⟨s, hs⟩ := ih (fun j hj => texts j (by simp [hj])) (fun j hj => reads j (by simp [hj]))
    refine ⟨r.bind fun v => s.map (v :: ·), fun limit hlimit first gap fuel rest p hfuel => ?_⟩
    obtain ⟨fuel, rfl⟩ := Nat.exists_eq_succ_of_ne_zero (Nat.ne_zero_of_lt hfuel)
    have hlength := length_joined first i.chars (items.map ItemText.chars)
    have hchars : i.chars.length =
        i.before.chars.length + (i.value.length + i.behind.chars.length) := by
      simp only [ItemText.chars, List.length_append]
    obtain ⟨x, t, hx, -⟩ := (texts i (by simp)).opens
    have hpos : 0 < i.value.length := by simp [hx]
    have hends : EndsNumber (joined false (items.map ItemText.chars) ++ ']' :: rest) :=
      endsNumber_joined _ rest (by rintro y ⟨⟩; decide)
    obtain ⟨q, hq⟩ := nextItem_item first gap (texts i (by simp)) (items.map ItemText.chars)
      (']' :: rest) p
    have hread := hr limit hlimit fuel (by simp only [List.map_cons] at hfuel; omega) _
      (endsNumber_blanks i.behind hends) q
    rw [List.map_cons, Nat.succ_eq_add_one, readItems, hq]
    dsimp only
    cases r with
    | none =>
      obtain ⟨e, he⟩ := hread
      exact ⟨e, by rw [he]⟩
    | some v =>
      obtain ⟨q', hq'⟩ := hread
      rw [hq']
      have hmore := hs limit hlimit false i.behind fuel rest q'
        (by simp only [List.map_cons] at hfuel; omega)
      exact hmore.map (v :: ·)

theorem readMembers_settles {members : List MemberText}
    (texts : ∀ m ∈ members, IsText depth m.value)
    (reads : ∀ m ∈ members, ∃ r, ReadAs depth m.value r) (acc : Members) : ∃ r : Option Members,
      ∀ limit, depth ≤ limit → ∀ first (gap : Blanks) fuel rest p,
        2 * (joined first (members.map MemberText.chars)).length < fuel →
          Comes (readMembers limit fuel first
            ⟨gap.chars ++ (joined first (members.map MemberText.chars) ++ '\x7d' :: rest), p⟩ acc)
              ('\x7d' :: rest) r := by
  induction members generalizing acc with
  | nil =>
    refine ⟨some acc, fun _ _ first gap fuel rest p hfuel => ⟨p.past gap.chars, ?_⟩⟩
    obtain ⟨fuel, rfl⟩ := Nat.exists_eq_succ_of_ne_zero (Nat.ne_zero_of_lt hfuel)
    simp only [List.map_nil, joined, List.nil_append, readMembers, nextKey_closing]
  | cons m members ih =>
    obtain ⟨r, hr⟩ := reads m (by simp)
    -- What becomes of the later members is found for any value of this one.
    have more (key : String) (v : Value) := ih (fun n hn => texts n (by simp [hn]))
      (fun n hn => reads n (by simp [hn])) (acc.set key v)
    choose s hs using more
    refine ⟨m.name?.bind fun key => r.bind (s key), ?_⟩
    intro limit hlimit first gap fuel rest p hfuel
    obtain ⟨fuel, rfl⟩ := Nat.exists_eq_succ_of_ne_zero (Nat.ne_zero_of_lt hfuel)
    have hlength := length_joined first m.chars (members.map MemberText.chars)
    have hitem : m.item.chars.length < m.chars.length := by
      simp [MemberText.chars, MemberText.label, Glyph.quoted]
      omega
    have hends : EndsNumber (joined false (members.map MemberText.chars) ++ '\x7d' :: rest) :=
      endsNumber_joined _ rest (by rintro y ⟨⟩; decide)
    obtain ⟨q, hq⟩ := nextKey_member first gap m (members.map MemberText.chars) ('\x7d' :: rest) p
    have hkey := string_key m (behind m (members.map MemberText.chars) ('\x7d' :: rest)) q
    rw [List.map_cons, Nat.succ_eq_add_one, readMembers, hq]
    dsimp only
    cases hname : m.name? with
    | none =>
      obtain ⟨e, he⟩ := hname ▸ hkey
      exact ⟨e, by rw [he]⟩
    | some key =>
      obtain ⟨q₁, hq₁⟩ := hname ▸ hkey
      obtain ⟨q₂, hq₂⟩ := colon_behind m (members.map MemberText.chars) ('\x7d' :: rest) q₁
      have hlonger : 2 * m.item.chars.length < fuel := by
        simp only [List.map_cons] at hfuel
        omega
      have hread := ReadAs.item hr hlimit hends hlonger q₂
      rw [hq₁]
      dsimp only
      rw [hq₂]
      dsimp only
      cases r with
      | none =>
        obtain ⟨e, he⟩ := hread
        exact ⟨e, by rw [he]⟩
      | some v =>
        obtain ⟨q₃, hq₃⟩ := hread
        rw [hq₃]
        exact hs key v limit hlimit false m.item.behind fuel rest q₃
          (by simp only [List.map_cons] at hfuel; omega)

theorem readAs_of_scalar {text : List Char} {r : Option Value} (hne : text ≠ [])
    (h : ∀ limit fuel, Settles (read limit (fuel + 1)) text r) : ReadAs depth text r := by
  intro limit _ fuel hfuel
  have hpos := List.length_pos_iff.2 hne
  obtain ⟨fuel, rfl⟩ := Nat.exists_eq_succ_of_ne_zero (by omega : fuel ≠ 0)
  exact h limit fuel

theorem read_number (n : NumberText) : ∃ r, ReadAs depth n.chars r := by
  have hne : n.chars ≠ [] := by
    obtain ⟨x, r, hx, -⟩ := (IsText.number n : IsText 0 n.chars).opens
    simp [hx]
  by_cases hn : n.negative
  · obtain ⟨r, hr⟩ := number_settles true n
    refine ⟨r.map Value.number, readAs_of_scalar hne fun _ fuel rest hrest p => ?_⟩
    rw [NumberText.chars, if_pos hn, List.cons_append, read_minus]
    exact (hr rest hrest _).map Value.number
  · obtain ⟨r, hr⟩ := number_settles false n
    refine ⟨r.map Value.number, readAs_of_scalar hne fun _ fuel rest hrest p => ?_⟩
    have hnumber := (hr rest hrest p).map Value.number
    obtain ⟨d, t, hd, hdigit, -⟩ := digits_open n.whole
    rw [NumberText.chars, if_neg hn]
    rw [NumberText.magnitude, hd, List.cons_append, List.cons_append] at hnumber ⊢
    rw [read_digit hdigit]
    exact hnumber

/-- What the text of a value is read as does not depend on what stands behind it. -/
theorem read_settles {text : List Char} (h : IsText depth text) : ∃ r, ReadAs depth text r := by
  induction h with
  | @null depth =>
    exact ⟨some .null, readAs_of_scalar (by simp) fun _ fuel rest _ p => ⟨_, read_null p⟩⟩
  | @bool depth b =>
    refine ⟨some (.bool b), ?_⟩
    cases b
    · exact readAs_of_scalar (by decide) fun _ fuel rest _ p => ⟨_, read_bool false p⟩
    · exact readAs_of_scalar (by decide) fun _ fuel rest _ p => ⟨_, read_bool true p⟩
  | number n => exact read_number n
  | @string depth gs =>
    refine ⟨(Glyph.spell? gs).map fun cs => .string (String.ofList cs),
      readAs_of_scalar (by simp [Glyph.quoted]) fun _ fuel rest _ p => ?_⟩
    have hstring := (string_glyphs gs rest (p.after '"')).map Value.string
    rw [Option.map_map] at hstring
    simp only [Glyph.quoted, List.cons_append, List.append_assoc, List.nil_append, read_quote]
    exact hstring
  | @array depth gap items each ih =>
    obtain ⟨r, hr⟩ := readItems_settles each ih
    refine ⟨r.map Value.array, fun limit hlimit fuel hfuel rest _ p => ?_⟩
    obtain ⟨limit, rfl⟩ := Nat.exists_eq_add_of_lt hlimit
    simp only [List.length_cons, List.length_append] at hfuel
    obtain ⟨fuel, rfl⟩ := Nat.exists_eq_succ_of_ne_zero (by omega : fuel ≠ 0)
    have hitems := hr (depth + limit) (by omega) true gap fuel rest (p.after '[') (by omega)
    simp only [List.cons_append, List.append_assoc, List.nil_append, Nat.succ_eq_add_one,
      read_bracket]
    cases r with
    | none =>
      obtain ⟨e, he⟩ := hitems
      exact ⟨e, by rw [he]; rfl⟩
    | some vs =>
      obtain ⟨q, hq⟩ := hitems
      exact ⟨q.after ']', by rw [hq]; rfl⟩
  | @object depth gap members each ih =>
    obtain ⟨r, hr⟩ := readMembers_settles each ih []
    refine ⟨r.map Value.object, fun limit hlimit fuel hfuel rest _ p => ?_⟩
    obtain ⟨limit, rfl⟩ := Nat.exists_eq_add_of_lt hlimit
    simp only [List.length_cons, List.length_append] at hfuel
    obtain ⟨fuel, rfl⟩ := Nat.exists_eq_succ_of_ne_zero (by omega : fuel ≠ 0)
    have hmembers := hr (depth + limit) (by omega) true gap fuel rest (p.after '\x7b') (by omega)
    simp only [List.cons_append, List.append_assoc, List.nil_append, Nat.succ_eq_add_one,
      read_brace]
    cases r with
    | none =>
      obtain ⟨e, he⟩ := hmembers
      exact ⟨e, by rw [he]; rfl⟩
    | some ms =>
      obtain ⟨q, hq⟩ := hmembers
      exact ⟨q.after '\x7d', by rw [hq]; rfl⟩

end Value

end SearchRelay.Json

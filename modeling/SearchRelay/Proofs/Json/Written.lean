import SearchRelay.Proofs.Json.Grammar

namespace SearchRelay.Json

theorem exists_unit {c : Char} {digits : List Char} (four : digits.length = 4)
    (spells : Text.natOfDigits? 16 digits 0 = some c.toNat) (whole : c.toNat < 0xd800) :
    ∃ g : Glyph, g.chars = '\\' :: 'u' :: digits ∧
      ∀ r, Glyph.spell? (g :: r) = (Glyph.spell? r).map (c :: ·) := by
  have hleading : Cursor.isLeading c.toNat = false := by
    simp [Cursor.isLeading]
    omega
  have htrailing : Cursor.isTrailing c.toNat = false := by
    simp [Cursor.isTrailing]
    omega
  refine ⟨.unit digits c.toNat four spells, rfl, fun r => ?_⟩
  rw [Glyph.spell?.eq_def]
  simp [hleading, htrailing]

theorem exists_glyph (c : Char) : ∃ g : Glyph, g.chars = escape c ∧
    ∀ r, Glyph.spell? (g :: r) = (Glyph.spell? r).map (c :: ·) := by
  unfold escape
  split
  · exact ⟨.named '"' '"' rfl, rfl, fun _ => rfl⟩
  · exact ⟨.named '\\' '\\' rfl, rfl, fun _ => rfl⟩
  · exact ⟨.named 'b' '\x08' rfl, rfl, fun _ => rfl⟩
  · exact ⟨.named 'f' '\x0c' rfl, rfl, fun _ => rfl⟩
  · exact ⟨.named 'n' '\n' rfl, rfl, fun _ => rfl⟩
  · exact ⟨.named 'r' '\r' rfl, rfl, fun _ => rfl⟩
  · exact ⟨.named 't' '\t' rfl, rfl, fun _ => rfl⟩
  · rename_i hquote hslash _ _ _ _ _
    by_cases hc : c.toNat < 0x20
    · have hdigits : ∀ n : Fin 32, Text.natOfDigits? 16 ['0', '0', Nat.digitChar (n / 16),
          Nat.digitChar (n % 16)] 0 = some n.val := by decide
      rw [if_pos hc]
      exact exists_unit rfl (hdigits ⟨c.toNat, hc⟩) (by omega)
    · rw [if_neg hc]
      exact ⟨.plain c ⟨hquote, hslash, Nat.le_of_not_lt hc⟩, rfl, fun _ => rfl⟩

theorem exists_glyphs (s : String) :
    ∃ gs, Glyph.quoted gs = Cursor.quoted s ∧ Glyph.spell? gs = some s.toList := by
  have h (cs : List Char) :
      ∃ gs, gs.flatMap Glyph.chars = cs.flatMap escape ∧ Glyph.spell? gs = some cs := by
    induction cs with
    | nil => exact ⟨[], rfl, rfl⟩
    | cons c cs ih =>
      obtain ⟨gs, hchars, hspell⟩ := ih
      obtain ⟨g, hg, hcons⟩ := exists_glyph c
      exact ⟨g :: gs, by rw [List.flatMap_cons, List.flatMap_cons, hg, hchars],
        by rw [hcons, hspell]; rfl⟩
  obtain ⟨gs, hchars, hspell⟩ := h s.toList
  exact ⟨gs, by rw [Glyph.quoted, Cursor.quoted, hchars], hspell⟩

theorem exists_members (members : List (String × Value)) : ∃ ms : List MemberText,
    ms.map MemberText.chars = members.map Value.memberChars ∧
      ms.map MemberText.content = members.map fun m => (some m.1, m.2.chars) := by
  induction members with
  | nil => exact ⟨[], rfl, rfl⟩
  | cons m members ih =>
    obtain ⟨ms, hchars, hcontent⟩ := ih
    obtain ⟨gs, hgs, hspell⟩ := exists_glyphs m.1
    refine ⟨{ key := gs, item := { value := m.2.chars } } :: ms, ?_, ?_⟩
    · rw [List.map_cons, List.map_cons, hchars]
      simp [MemberText.chars, MemberText.label, ItemText.chars, hgs, Value.memberChars]
    · rw [List.map_cons, List.map_cons, hcontent]
      simp [MemberText.content, MemberText.name?, MemberText.value, hspell]

def NumberText.integer (negative : Bool) (n : Nat) : NumberText where
  negative := negative
  whole := ⟨Nat.toDigits 10 n, Nat.toDigits_ne_nil, Numeral.isDigit_toDigits n⟩
  fraction := none
  exponent := none
  unpadded h := by
    obtain ⟨x, r, hdigits, -⟩ := Numeral.toDigits_eq_cons n
    change (Nat.toDigits 10 n).head? = some '0' at h
    change Nat.toDigits 10 n = ['0']
    rw [hdigits] at h ⊢
    obtain rfl : x = '0' := Option.some.inj h
    rw [Numeral.toDigits_zero hdigits]

theorem NumberText.magnitude_integer (negative : Bool) (n : Nat) :
    (integer negative n).magnitude = Nat.toDigits 10 n := List.append_nil _

namespace Value

theorem nestingOfItems_le_iff {vs : List Value} {depth : Nat} :
    nestingOfItems vs ≤ depth ↔ ∀ v ∈ vs, v.nesting ≤ depth := by
  induction vs with
  | nil => simp [nestingOfItems]
  | cons v vs ih => rw [nestingOfItems_cons_le, ih, List.forall_mem_cons]

/-- Every value without floats is written as a text of a value. -/
theorem Proper.isText {v : Value} (h : Proper v) {depth : Nat} (hdepth : v.nesting ≤ depth) :
    IsText depth v.chars := by
  induction h generalizing depth with
  | null => exact .null
  | bool b =>
    cases b with
    | false => exact .bool false
    | true => exact .bool true
  | @integer n _ _ =>
    cases n with
    | ofNat n =>
      have hchars : (nat n).chars = (NumberText.integer false n).chars := by
        rw [chars_nat, NumberText.chars, NumberText.magnitude_integer]
        rfl
      exact hchars ▸ .number _
    | negSucc n =>
      have hchars : (number (.integer (Int.negSucc n))).chars =
          (NumberText.integer true (n + 1)).chars := by
        rw [chars_negative, NumberText.chars, NumberText.magnitude_integer]
        rfl
      exact hchars ▸ .number _
  | string s =>
    obtain ⟨gs, hgs, -⟩ := exists_glyphs s
    rw [chars_string, ← hgs]
    exact .string gs
  | @array items each ih =>
    obtain ⟨depth, rfl⟩ := Nat.exists_eq_succ_of_ne_zero (Nat.ne_zero_of_lt hdepth)
    have hshallow := nestingOfItems_le_iff.1 (Nat.le_of_succ_le_succ hdepth)
    have hitems : (items.map fun v => ({ value := v.chars } : ItemText)).map ItemText.chars =
        items.map chars := by
      simp [ItemText.chars]
    have hdeep : ∀ i ∈ items.map fun v => ({ value := v.chars } : ItemText),
        IsText depth i.value := by
      rw [List.forall_mem_map]
      exact fun v hv => ih v hv (hshallow v hv)
    have htext := IsText.array {} hdeep
    rw [hitems] at htext
    rw [chars_array]
    exact htext
  | @object members sorted each ih =>
    obtain ⟨depth, rfl⟩ := Nat.exists_eq_succ_of_ne_zero (Nat.ne_zero_of_lt hdepth)
    have hshallow := nestingOfMembers_le_iff.1 (Nat.le_of_succ_le_succ hdepth)
    obtain ⟨ms, hchars, hcontent⟩ := exists_members members
    have hvalues : ms.map MemberText.value = members.map fun m => m.2.chars := by
      have hsnd := congrArg (List.map Prod.snd) hcontent
      rw [List.map_map, List.map_map] at hsnd
      exact hsnd
    have hdeep : ∀ m ∈ ms, IsText depth m.value := by
      intro m hm
      have hmem : m.value ∈ members.map fun m => m.2.chars := hvalues ▸ List.mem_map_of_mem hm
      obtain ⟨m', hm', hvalue⟩ := List.mem_map.1 hmem
      exact hvalue ▸ ih m' hm' (hshallow m' hm')
    have htext := IsText.object {} hdeep
    rw [hchars] at htext
    rw [chars_object]
    exact htext

end Value

end SearchRelay.Json

import Mathlib.Data.List.Basic
import SearchRelay.Page
import SearchRelay.Proofs.Json.Deciding
import SearchRelay.Proofs.Json.Written

/-!
How texts stand in a page. A text that is shown has none of the characters of markup, and whoever
resolves character references gets the text back. A text of the script is a string of JSON without
them, and whoever reads JSON gets the text back.
-/

namespace SearchRelay.Page

def escapes : List (List Char) :=
  ["&lt;".toList, "&gt;".toList, "&amp;".toList, "&quot;".toList, "&#x27;".toList, "&#x2f;".toList]

def isMarkup (c : Char) : Bool := c == '<' || c == '>' || c == '&' || c == '"' || c == '\''

theorem escapeMarkup_cases (c : Char) :
    escapeMarkup c ∈ escapes ∨ escapeMarkup c = [c] ∧ isMarkup c = false := by
  unfold escapeMarkup
  split
  all_goals try exact .inl (by decide)
  exact .inr ⟨rfl, by simp_all [isMarkup]⟩

theorem toList_markup (s : String) : (markup s).toList = s.toList.flatMap escapeMarkup := by
  simp [markup]

/-- What is shown opens and closes nothing. -/
theorem markup_safe {s : String} {c : Char} (h : c ∈ (markup s).toList) :
    c ≠ '<' ∧ c ≠ '>' ∧ c ≠ '"' ∧ c ≠ '\'' := by
  rw [toList_markup] at h
  obtain ⟨x, -, hx⟩ := List.mem_flatMap.1 h
  rcases escapeMarkup_cases x with hescape | ⟨hsingle, hmarkup⟩
  · have hescapes : escapes.all fun e =>
        e.all fun c => c != '<' && c != '>' && c != '"' && c != '\'' := by decide
    simp only [List.all_eq_true, Bool.and_eq_true, bne_iff_ne, and_assoc] at hescapes
    exact hescapes _ hescape c hx
  · rw [hsingle, List.mem_singleton] at hx
    subst hx
    simp_all [isMarkup]

theorem escapeMarkup_reference {c : Char} {before behind : List Char}
    (h : escapeMarkup c = before ++ '&' :: behind) : before = [] ∧ escapeMarkup c ∈ escapes := by
  rcases escapeMarkup_cases c with hescape | ⟨hsingle, hmarkup⟩
  · have htail : ∀ e ∈ escapes, '&' ∉ e.tail := by decide
    refine ⟨?_, hescape⟩
    cases before with
    | nil => rfl
    | cons x before => exact absurd (by simp [h]) (htail _ hescape)
  · rw [hsingle] at h
    have hamp : '&' ∈ [c] := by simp [h]
    rw [← List.mem_singleton.1 hamp] at hmarkup
    cases hmarkup

theorem markup_references {s : String} {before behind : List Char}
    (h : (markup s).toList = before ++ '&' :: behind) : ∃ e ∈ escapes, e <+: '&' :: behind := by
  rw [toList_markup] at h
  generalize s.toList = cs at h
  induction cs generalizing before with
  | nil => simp at h
  | cons c cs ih =>
    rw [List.flatMap_cons] at h
    rcases List.append_eq_append_iff.1 h with ⟨more, -, hmore⟩ | ⟨more, hescape, hmore⟩
    · exact ih hmore
    · cases more with
      | nil =>
        have hfirst : cs.flatMap escapeMarkup = [] ++ '&' :: behind := hmore.symm
        exact ih hfirst
      | cons x more =>
        obtain ⟨rfl, hbehind⟩ := List.cons.inj hmore
        obtain ⟨rfl, hmem⟩ := escapeMarkup_reference hescape
        refine ⟨_, hmem, cs.flatMap escapeMarkup, ?_⟩
        rw [hescape, hbehind]
        rfl

/-- What readers of HTML know of character references: the texts that stand for others between `&`
and `;`. All of them know those that are needed here. -/
structure References where
  text? : List Char → Option (List Char)
  lt : text? "lt".toList = some ['<']
  gt : text? "gt".toList = some ['>']
  amp : text? "amp".toList = some ['&']
  quot : text? "quot".toList = some ['"']
  apostrophe : text? "#x27".toList = some ['\'']
  slash : text? "#x2f".toList = some ['/']

namespace References

/-- The text with its references resolved, given the part of a reference that was read. What is no
reference that is known stays as it is. -/
def resolve (known : References) : Option (List Char) → List Char → List Char
  | none, [] => []
  | none, c :: r => if c = '&' then known.resolve (some []) r else c :: known.resolve none r
  | some name, [] => '&' :: name
  | some name, c :: r =>
    if c = ';' then ((known.text? name).getD ('&' :: name ++ [';'])) ++ known.resolve none r
    else if c = '&' then '&' :: name ++ known.resolve (some []) r
    else known.resolve (some (name ++ [c])) r

def common : References where
  text? name :=
    match name with
    | ['l', 't'] => some ['<']
    | ['g', 't'] => some ['>']
    | ['a', 'm', 'p'] => some ['&']
    | ['q', 'u', 'o', 't'] => some ['"']
    | ['a', 'p', 'o', 's'] => some ['\'']
    | '#' :: 'x' :: digits => (Text.natOfDigits? 16 digits 0).map fun n => [Char.ofNat n]
    | '#' :: digits => (Text.natOfDigits? 10 digits 0).map fun n => [Char.ofNat n]
    | _ => none
  lt := rfl
  gt := rfl
  amp := rfl
  quot := rfl
  apostrophe := by decide
  slash := by decide

variable (known : References)

theorem resolve_reference {name text : List Char} (h : known.text? name = some text)
    (plain : ';' ∉ name ∧ '&' ∉ name) (r : List Char) :
    known.resolve none ('&' :: (name ++ ';' :: r)) = text ++ known.resolve none r := by
  -- Characters are gathered up to the semicolon, so the induction is for any front of them.
  have hname (front rest : List Char) (hrest : ';' ∉ rest ∧ '&' ∉ rest) :
      known.resolve (some front) (rest ++ ';' :: r) =
        known.resolve (some (front ++ rest)) (';' :: r) := by
    induction rest generalizing front with
    | nil => simp
    | cons c rest ih =>
      simp only [List.mem_cons, not_or] at hrest
      obtain ⟨⟨hsemicolon, hnone⟩, hamp, hnone'⟩ := hrest
      rw [List.cons_append, resolve, if_neg (Ne.symm hsemicolon), if_neg (Ne.symm hamp),
        ih _ ⟨hnone, hnone'⟩]
      simp
  rw [resolve, if_pos rfl, hname [] name plain, List.nil_append, resolve, if_pos rfl, h,
    Option.getD_some]

theorem resolve_escapeMarkup (c : Char) (r : List Char) :
    known.resolve none (escapeMarkup c ++ r) = c :: known.resolve none r := by
  unfold escapeMarkup
  split
  · exact known.resolve_reference known.lt (by decide) r
  · exact known.resolve_reference known.gt (by decide) r
  · exact known.resolve_reference known.amp (by decide) r
  · exact known.resolve_reference known.quot (by decide) r
  · exact known.resolve_reference known.apostrophe (by decide) r
  · exact known.resolve_reference known.slash (by decide) r
  · rename_i hamp _ _ _
    rw [List.singleton_append, resolve, if_neg hamp]

/-- Whoever resolves the references of what is shown gets the text. -/
theorem resolve_markup (s : String) : known.resolve none (markup s).toList = s.toList := by
  rw [toList_markup]
  induction s.toList with
  | nil => rfl
  | cons c cs ih => rw [List.flatMap_cons, resolve_escapeMarkup, ih]

end References

theorem markup_injective {s t : String} (h : markup s = markup t) : s = t := by
  have hs := References.common.resolve_markup s
  rw [h, References.common.resolve_markup] at hs
  exact (String.toList_inj.1 hs).symm

open Json (Glyph Place Cursor Decoder)

def isScriptMarkup (c : Char) : Bool := c == '<' || c == '>' || c == '&' || c == '\''

theorem escapeScript_plain {c : Char} (h : isScriptMarkup c = false) : escapeScript c = [c] := by
  unfold escapeScript
  split <;> first | rfl | cases h

theorem escape_mem {c x : Char} (hx : x ∈ Json.escape c) :
    (x = c ∨ isScriptMarkup x = false) ∧ 0x20 ≤ x.toNat := by
  have hunit : ∀ n : Fin 32, ['\\', 'u', '0', '0', Nat.digitChar (n / 16),
      Nat.digitChar (n % 16)].all fun x => !isScriptMarkup x && 0x20 ≤ x.toNat := by decide +kernel
  simp only [List.all_eq_true, Bool.and_eq_true, Bool.not_eq_true', decide_eq_true_eq] at hunit
  suffices x = c ∧ 0x20 ≤ x.toNat ∨ isScriptMarkup x = false ∧ 0x20 ≤ x.toNat from
    this.elim (fun h => ⟨.inl h.1, h.2⟩) fun h => ⟨.inr h.1, h.2⟩
  unfold Json.escape at hx
  split at hx
  -- Those with a letter of their own come to two characters that are known.
  all_goals try
    right
    rcases List.mem_pair.1 hx with rfl | rfl <;> decide
  split at hx
  · rename_i hcontrol
    exact .inr (hunit ⟨c.toNat, hcontrol⟩ x hx)
  · rename_i hcontrol
    rw [List.mem_singleton.1 hx]
    exact .inl ⟨rfl, Nat.le_of_not_lt hcontrol⟩

theorem exists_scriptGlyph (c : Char) :
    ∃ g : Glyph, g.chars = (Json.escape c).flatMap escapeScript ∧
      ∀ r, Glyph.spell? (g :: r) = (Glyph.spell? r).map (c :: ·) := by
  cases h : isScriptMarkup c with
  | true =>
    simp only [isScriptMarkup, Bool.or_eq_true, beq_iff_eq] at h
    rcases h with ((rfl | rfl) | rfl) | rfl <;> exact Json.exists_unit rfl (by decide) (by decide)
  | false =>
    obtain ⟨g, hg, hspell⟩ := Json.exists_glyph c
    have hplain : ∀ x ∈ Json.escape c, escapeScript x = [x] := fun x hx =>
      escapeScript_plain ((escape_mem hx).1.elim (fun hxc => hxc ▸ h) id)
    refine ⟨g, ?_, hspell⟩
    rw [hg, List.flatMap_congr hplain]
    exact (List.flatMap_singleton' _).symm

theorem toList_scriptString (s : String) : (scriptString s).toList =
    '"' :: (s.toList.flatMap (fun c => (Json.escape c).flatMap escapeScript) ++ ['"']) := by
  have hquote : escapeScript '"' = ['"'] := rfl
  simp [scriptString, Json.quote, hquote, List.flatMap_assoc]

theorem scriptString_spells (s : String) : ∃ gs : List Glyph,
    (scriptString s).toList = Glyph.quoted gs ∧ Glyph.spell? gs = some s.toList := by
  have h (cs : List Char) : ∃ gs : List Glyph,
      gs.flatMap Glyph.chars = cs.flatMap (fun c => (Json.escape c).flatMap escapeScript) ∧
        Glyph.spell? gs = some cs := by
    induction cs with
    | nil => exact ⟨[], rfl, rfl⟩
    | cons c cs ih =>
      obtain ⟨gs, hchars, hspell⟩ := ih
      obtain ⟨g, hg, hcons⟩ := exists_scriptGlyph c
      refine ⟨g :: gs, ?_, ?_⟩
      · rw [List.flatMap_cons, List.flatMap_cons, hg, hchars]
      · rw [hcons, hspell]
        rfl
  obtain ⟨gs, hchars, hspell⟩ := h s.toList
  exact ⟨gs, by rw [toList_scriptString, Glyph.quoted, hchars], hspell⟩

/-- Whoever reads a string where it stands reads the text, and stops at the end of the string. -/
theorem text_scriptString (s expected : String) (depth : Nat) (rest : List Char) (p : Place) :
    ∃ q, Decoder.text expected depth ⟨(scriptString s).toList ++ rest, p⟩ = .ok (s, ⟨rest, q⟩) := by
  obtain ⟨gs, hgs, hspell⟩ := scriptString_spells s
  have hquote : Json.isSpace '"' = false := rfl
  have hstring := Cursor.string_glyphs gs rest (p.after '"')
  rw [hspell, Option.map_some, String.ofList_toList] at hstring
  obtain ⟨q, hq⟩ := hstring
  refine ⟨q, ?_⟩
  simp only [hgs, Glyph.quoted, List.cons_append, List.append_assoc, List.nil_append,
    Decoder.text, Decoder.starting_cons hquote, bind, Except.bind, if_true, Cursor.advance_cons, hq]

theorem run_scriptString (s expected : String) :
    (Decoder.text expected).run (scriptString s) = .ok s := by
  obtain ⟨q, hq⟩ := text_scriptString s expected Json.maxDepth [] .start
  rw [List.append_nil] at hq
  simp [Decoder.run, hq, bind, Except.bind, Cursor.skipBlanks, Cursor.skipSpace, pure, Except.pure]

theorem scriptString_injective {s t : String} (h : scriptString s = scriptString t) : s = t := by
  have hs := run_scriptString s ""
  rw [h, run_scriptString] at hs
  exact (Except.ok.inj hs).symm

theorem escapeScript_safe {c x : Char} (hc : 0x20 ≤ c.toNat) (hx : x ∈ escapeScript c) :
    isScriptMarkup x = false ∧ 0x20 ≤ x.toNat := by
  cases h : isScriptMarkup c with
  | true =>
    have hunits : ['<', '>', '&', '\''].all fun c =>
        (escapeScript c).all fun x => !isScriptMarkup x && 0x20 ≤ x.toNat := by decide
    simp only [List.all_eq_true, Bool.and_eq_true, Bool.not_eq_true', decide_eq_true_eq] at hunits
    simp only [isScriptMarkup, Bool.or_eq_true, beq_iff_eq] at h
    exact hunits c (by simpa [or_assoc] using h) x hx
  | false =>
    rw [escapeScript_plain h, List.mem_singleton] at hx
    exact hx ▸ ⟨h, hc⟩

/-- No string ends the script or opens markup in it, and none holds a control character. -/
theorem scriptString_safe {s : String} {c : Char} (h : c ∈ (scriptString s).toList) :
    isScriptMarkup c = false ∧ 0x20 ≤ c.toNat := by
  rw [toList_scriptString, List.mem_cons, List.mem_append, List.mem_singleton] at h
  have hquote : isScriptMarkup '"' = false ∧ 0x20 ≤ '"'.toNat := by decide
  rcases h with rfl | h | rfl
  · exact hquote
  · obtain ⟨x, -, hx⟩ := List.mem_flatMap.1 h
    obtain ⟨y, hy, hc⟩ := List.mem_flatMap.1 hx
    exact escapeScript_safe (escape_mem hy).2 hc
  · exact hquote

end SearchRelay.Page

import SearchRelay.Proofs.Yaml.Trees

namespace SearchRelay.Yaml

open Document (isAllowed forbidden?)

theorem isAllowed_of_printable {c : Char} (h : 0x20 ≤ c.toNat ∧ c.toNat ≤ 0x7e) : isAllowed c := by
  simp [isAllowed, h]

theorem forbidden?_eq_none {cs : List Char} (h : ∀ c ∈ cs, isAllowed c) (n : Nat) :
    forbidden? cs n = none := by
  induction cs generalizing n with
  | nil => rfl
  | cons c cs ih =>
    obtain ⟨hc, hcs⟩ := List.forall_mem_cons.1 h
    rw [forbidden?, if_pos hc, ih hcs]

theorem isAllowed_of_digitValue {c : Char} {d : Nat} (h : Text.digitValue? 16 c = some d) :
    isAllowed c := by
  have hdigit : ('0' ≤ c ∧ c ≤ '9') ∨ ('a' ≤ c ∧ c ≤ 'f') ∨ ('A' ≤ c ∧ c ≤ 'F') := by
    by_contra hnone
    simp only [not_or] at hnone
    simp [Text.digitValue?, hnone] at h
  apply isAllowed_of_printable
  simp only [Char.le_def, UInt32.le_iff_toNat_le] at hdigit
  rcases hdigit with ⟨hlow, hhigh⟩ | ⟨hlow, hhigh⟩ | ⟨hlow, hhigh⟩ <;>
    exact ⟨Nat.le_trans (by decide) hlow, Nat.le_trans hhigh (by decide)⟩

theorem isAllowed_of_digits {ds : List Char} {acc n : Nat}
    (h : Text.natOfDigits? 16 ds acc = some n) : ∀ c ∈ ds, isAllowed c := by
  induction ds generalizing acc with
  | nil => simp
  | cons c ds ih =>
    rw [Text.natOfDigits?] at h
    split at h
    · rename_i d hd
      exact List.forall_mem_cons.2 ⟨isAllowed_of_digitValue hd, ih h⟩
    · simp at h

theorem isAllowed_of_escape {c : Char} {es : List Char} (h : Escape c es) :
    ∀ x ∈ es, isAllowed x := by
  have hslash : isAllowed '\\' := by decide
  cases h with
  | @letter x hx =>
    have hall : ∀ p ∈ letters, isAllowed p.1 := by decide
    have hletter : isAllowed x := hall (x, c) hx
    simp [hslash, hletter]
  | @digits x ds hx value =>
    have hall : ∀ p ∈ widths, isAllowed p.1 := by decide
    have hletter : isAllowed x := hall (x, ds.length) hx
    have hdigits := isAllowed_of_digits value
    simpa [hslash, hletter] using hdigits

theorem isAllowed_quoted (sp : Spelling) (s : String) : ∀ x ∈ sp.quoted s, isAllowed x := by
  have hchar (c : Char) : ∀ x ∈ sp.char c, isAllowed x := by
    unfold Spelling.char
    split
    · rename_i hbare
      simp only [isBare, Bool.and_eq_true, decide_eq_true_eq] at hbare
      exact List.forall_mem_singleton.2 (isAllowed_of_printable hbare.1.1)
    · rename_i hbare
      exact isAllowed_of_escape (sp.escapes c (by simpa using hbare))
  intro x hx
  simp only [Spelling.quoted, Spelling.text, List.mem_cons, List.mem_append, List.mem_flatMap,
    List.not_mem_nil, or_false] at hx
  rcases hx with rfl | ⟨c, -, hx⟩ | rfl
  · decide
  · exact hchar c x hx
  · decide

theorem isAllowed_atom (sp : Spelling) (a : Atom) : ∀ x ∈ sp.atom a, isAllowed x := by
  cases a with
  | number n =>
    intro x hx
    have hdigit := toNat_of_isDigit (Numeral.isDigit_toDigits n x hx)
    exact isAllowed_of_printable (by omega)
  | text s => exact isAllowed_quoted sp s
  | emptyList =>
    have hmarks : isAllowed '[' ∧ isAllowed ']' := by decide
    exact List.forall_mem_cons.2 ⟨hmarks.1, List.forall_mem_singleton.2 hmarks.2⟩

theorem isAllowed_content (sp : Spelling) (content : Content) :
    ∀ x ∈ sp.content content, isAllowed x := by
  have hmarks : isAllowed ':' ∧ isAllowed ' ' ∧ isAllowed '-' := by decide
  cases content with
  | member name value =>
    have hname : ∀ x ∈ name.val.toList, isAllowed x := by
      intro x hx
      rcases name.eq_or_toNat x hx with rfl | hlower
      · decide
      · exact isAllowed_of_printable (by omega)
    have hvalue : ∀ x ∈ sp.behindColon value, isAllowed x := by
      cases value with
      | none => simp [Spelling.behindColon]
      | some a => exact List.forall_mem_cons.2 ⟨hmarks.2.1, isAllowed_atom sp a⟩
    exact List.forall_mem_append.2 ⟨hname, List.forall_mem_cons.2 ⟨hmarks.1, hvalue⟩⟩
  | item text =>
    exact List.forall_mem_cons.2 ⟨hmarks.2.2,
      List.forall_mem_cons.2 ⟨hmarks.2.1, isAllowed_quoted sp text⟩⟩

theorem isAllowed_indented {cs : List Char} (n : Nat) (h : ∀ x ∈ cs, isAllowed x) :
    ∀ x ∈ List.replicate n ' ' ++ (cs ++ ['\n']), isAllowed x := by
  have hends : isAllowed ' ' ∧ isAllowed '\n' := by decide
  refine List.forall_mem_append.2 ⟨?_, List.forall_mem_append.2 ⟨h, by simpa using hends.2⟩⟩
  intro x hx
  rw [List.eq_of_mem_replicate hx]
  exact hends.1

theorem isAllowed_remarks (rs : List Remark) : ∀ x ∈ rs.flatMap Remark.chars, isAllowed x := by
  have hbody (r : Remark) : ∀ x ∈ r.body, isAllowed x := by
    unfold Remark.body
    split
    · simp
    · rename_i text htext
      have hmark : isAllowed '#' := by decide
      exact List.forall_mem_cons.2 ⟨hmark, fun x hx => (r.onLine text htext x hx).1⟩
  intro x hx
  obtain ⟨r, -, hx⟩ := List.mem_flatMap.1 hx
  exact isAllowed_indented r.column (hbody r) x hx

theorem isAllowed_lines (sp : Spelling) (ls : List Line) (ending : List Remark) :
    ∀ x ∈ sp.lines ls ending, isAllowed x := by
  refine List.forall_mem_append.2 ⟨?_, isAllowed_remarks ending⟩
  intro x hx
  obtain ⟨l, -, hx⟩ := List.mem_flatMap.1 hx
  exact List.forall_mem_append.2
    ⟨isAllowed_remarks l.remarks, isAllowed_indented l.column (isAllowed_content sp l.content)⟩ x hx

/-- The root of a sheet; without sections it has none. -/
def Node.IsSheet : List Part → Node → Prop
  | [], n => n = .absent
  | part :: parts, n => Node.IsMapping (Node.IsMapping Node.IsCell) (part :: parts) n

/-- A sheet is read as what it was written for. -/
theorem ofString_sheet (sp : Spelling) (parts : List Part) (ending : List Remark) :
    ∃ n, Node.IsSheet parts n ∧
      Document.ofString (sp.sheet parts ending) = ⟨n, none, [], {}, false⟩ := by
  obtain ⟨ts, t, htokens, ht, hts⟩ := ofChars_lines sp _ ending (orderly_parts parts)
  rw [lexemesOf_parts] at hts
  have hallowed := forbidden?_eq_none
    (isAllowed_lines sp (parts.flatMap Row.partLines) ending) 0
  have hvalues : ∀ part ∈ parts, EventReader.ReadsValue (Row.mapping Cell.lexemes part.value)
      (Node.IsMapping Node.IsCell part.value) := fun part _ =>
    EventReader.readsValue_mapping fun row _ => EventReader.readsValue_cell row.value
  obtain ⟨n, es, hn, hevents, hbuild⟩ : ∃ n es, Node.IsSheet parts n ∧
      EventStream.ofTokens ⟨ts, .ok t⟩ = ⟨es, none⟩ ∧
      Document.build none es {} = ⟨n, none, [], {}, false⟩ := by
    cases parts with
    | nil =>
      obtain ⟨es, hevents, hbuild⟩ := EventReader.ofTokens_nothing hts ht
      exact ⟨.absent, es, rfl, hevents, hbuild⟩
    | cons part parts =>
      exact EventReader.ofTokens_node (EventReader.readsNode_mapping hvalues) hts ht
  refine ⟨n, hn, ?_⟩
  simp only [Document.ofString, Spelling.sheet, String.toList_ofList, hallowed, htokens, hevents,
    hbuild]

end SearchRelay.Yaml

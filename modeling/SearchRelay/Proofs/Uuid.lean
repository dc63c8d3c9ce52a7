import SearchRelay.Proofs.Numeral
import SearchRelay.Uuid

namespace SearchRelay.Uuid

open Numeral

theorem digits_eq (u : Uuid) : u.digits = padded 16 32 u.bits.toNat := toList_padZero 16 32 _

theorem length_digits (u : Uuid) : u.digits.length = 32 := by
  rw [digits_eq]
  exact length_padded (by decide) (by decide) u.bits.isLt

def lowerHex : List Char := "0123456789abcdef".toList

theorem mem_digits {u : Uuid} {c : Char} (h : c ∈ u.digits) : c ∈ lowerHex := by
  rw [digits_eq] at h
  obtain ⟨d, hd, rfl⟩ := mem_padded (by decide) h
  have hall : ∀ d : Fin 16, Nat.digitChar d ∈ lowerHex := by decide
  exact hall ⟨d, hd⟩

theorem natOfDigits?_digits (u : Uuid) : Text.natOfDigits? 16 u.digits 0 = some u.bits.toNat := by
  rw [digits_eq]
  exact natOfDigits?_padded (by decide) (by decide) 32 _

theorem ofDigits?_digits (u : Uuid) : ofDigits? u.digits = some u := by
  have hread : Text.readNat? 16 u.digits = some u.bits.toNat := by
    rw [digits_eq]
    exact readNat?_padded (by decide) (by decide) 32 _
  simp [ofDigits?, length_digits, hread]

/-- Digits in groups of 8, 4, 4, 4 and 12, with hyphens between them. -/
def hyphenate (ds : List Char) : List Char :=
  ds.take 8 ++ '-' :: ((ds.drop 8).take 4 ++ '-' :: ((ds.drop 12).take 4 ++ '-' ::
    ((ds.drop 16).take 4 ++ '-' :: ds.drop 20)))

theorem toList_toText (u : Uuid) : u.toText.toList = hyphenate u.digits := by
  have hlength := length_digits u
  have hlast : ((u.digits.drop 20).take 12) = u.digits.drop 20 :=
    List.take_of_length_le (by simp [hlength])
  simp [toText, splitGroups, groups, hyphenate, hlast]

theorem mem_hyphenate {ds : List Char} {c : Char} (h : c ∈ hyphenate ds) : c = '-' ∨ c ∈ ds := by
  have hdrop {k : Nat} (h : c ∈ ds.drop k) : c ∈ ds := List.mem_of_mem_drop h
  have htake {k m : Nat} (h : c ∈ (ds.drop k).take m) : c ∈ ds := hdrop (List.mem_of_mem_take h)
  simp only [hyphenate, List.mem_append, List.mem_cons] at h
  rcases h with h | rfl | h | rfl | h | rfl | h | rfl | h
  · exact .inr (List.mem_of_mem_take h)
  · exact .inl rfl
  · exact .inr (htake h)
  · exact .inl rfl
  · exact .inr (htake h)
  · exact .inl rfl
  · exact .inr (htake h)
  · exact .inl rfl
  · exact .inr (hdrop h)

theorem length_hyphenate {ds : List Char} (h : ds.length = 32) : (hyphenate ds).length = 36 := by
  simp [hyphenate, h]

theorem splitGroups_hyphenate {ds : List Char} (h : ds.length = 32) :
    splitGroups [8, 1, 4, 1, 4, 1, 4, 1, 12] (hyphenate ds) =
      [ds.take 8, ['-'], (ds.drop 8).take 4, ['-'], (ds.drop 12).take 4, ['-'], (ds.drop 16).take 4,
        ['-'], ds.drop 20] := by
  have hlast : (ds.drop 20).take 12 = ds.drop 20 := List.take_of_length_le (by simp [h])
  simp [splitGroups, hyphenate, h, hlast]

theorem ofHyphenated?_hyphenate {ds : List Char} (h : ds.length = 32) :
    ofHyphenated? (hyphenate ds) = ofDigits? ds := by
  have hjoin : ds.take 8 ++ (ds.drop 8).take 4 ++ (ds.drop 12).take 4 ++ (ds.drop 16).take 4 ++
      ds.drop 20 = ds := by
    have hstep (k m : Nat) : (ds.drop k).take m ++ ds.drop (k + m) = ds.drop k := by
      rw [← List.drop_drop, List.take_append_drop]
    rw [List.append_assoc, hstep 16 4, List.append_assoc, hstep 12 4, List.append_assoc, hstep 8 4,
      List.take_append_drop]
  simp only [ofHyphenated?, splitGroups_hyphenate h, length_hyphenate h, if_true, hjoin]

theorem octets_of_ascii (cs : List Char) (h : ∀ c ∈ cs, c.utf8Size = 1) :
    octets cs = cs.length := by
  induction cs with
  | nil => rfl
  | cons c cs ih =>
    have hrest := ih fun d hd => h d (by simp [hd])
    rw [octets] at hrest ⊢
    rw [String.ofList_cons, String.utf8ByteSize_append, String.utf8ByteSize_singleton,
      h c (by simp), hrest, List.length_cons, Nat.add_comm]

/-- An identifier is read back from its canonical form. -/
theorem parse_toText (u : Uuid) : parse u.toText = .ok u := by
  have hlength := length_hyphenate (length_digits u)
  -- The length of a text is counted in octets.
  have hascii : ∀ c ∈ hyphenate u.digits, c.utf8Size = 1 := by
    have hall : ('-' :: lowerHex).all fun c => c.utf8Size == 1 := by decide
    intro c hc
    rcases mem_hyphenate hc with rfl | hc
    · rfl
    · simpa using List.all_eq_true.1 hall c (by simp [mem_digits hc])
  have hoctets := octets_of_ascii _ hascii
  rw [hlength] at hoctets
  have hread := ofHyphenated?_hyphenate (length_digits u)
  rw [ofDigits?_digits] at hread
  simp [parse, toList_toText, hoctets, hread]

end SearchRelay.Uuid

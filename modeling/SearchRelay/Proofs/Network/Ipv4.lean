import SearchRelay.Network.Ipv4
import SearchRelay.Proofs.Yaml.Integers

namespace SearchRelay

open Yaml (IsDigit readNat?_iff)

namespace Text

def Spells (base : Nat) (ds : List Char) (n : Nat) : Prop :=
  ds ≠ [] ∧ ∃ values, List.Forall₂ (IsDigit base) ds values ∧
    n = values.foldl (fun n d => n * base + d) 0

/-- Digits that may be read as a number: of so many at most, with or without zeros in front, and
not past a bound. -/
structure NumberText (base : Nat) (width : Option Nat) (leadingZeros : Bool) (max : Nat)
    (ds : List Char) (n : Nat) : Prop where
  spells : Spells base ds n
  bound : n ≤ max
  fits : ∀ w ∈ width, ds.length ≤ w
  unpadded : leadingZeros = false → ds.length ≤ 1 ∨ ds.head? ≠ some '0'

def EndsDigits (base : Nat) (r : List Char) : Prop := ∀ c ∈ r.head?, digitValue? base c = none

variable {base n max : Nat} {width : Option Nat} {leadingZeros : Bool} {ds cs r : List Char}

theorem numberText_iff :
    NumberText base none true max ds n ↔ Spells base ds n ∧ n ≤ max :=
  ⟨fun number => ⟨number.spells, number.bound⟩,
    fun ⟨spells, bound⟩ => ⟨spells, bound, nofun, nofun⟩⟩

theorem Spells.unique {m : Nat} (hbase : base ≤ 16) (hn : Spells base ds n)
    (hm : Spells base ds m) : n = m :=
  Option.some.inj (((readNat?_iff hbase).2 hn).symm.trans ((readNat?_iff hbase).2 hm))

theorem spells_toDigits {b : Nat} (hb : 1 < b) (hmax : b ≤ 16) (n : Nat) :
    Spells b (Nat.toDigits b n) n := by
  have hread := Numeral.readNat?_padded hb hmax 0 n
  rw [Numeral.padded, Nat.zero_sub, List.replicate_zero, List.nil_append] at hread
  exact (readNat?_iff hmax).1 hread

theorem isDigit_of_spells (h : Spells 10 ds n) : ∀ c ∈ ds, isDigit c :=
  (Yaml.ofDigitChars_of_readNat? ((readNat?_iff (by decide)).2 h)).2.1

theorem isHex_of_isDigit {c : Char} (h : isDigit c) : isHex c := by
  obtain ⟨hlt, hchar⟩ := Numeral.digitChar_toNat h
  rw [isHex, ← hchar, Numeral.digitValue?_digitChar (by decide) (by omega)]
  rfl

theorem digitValue?_of_spells (hbase : base ≤ 16) (h : Spells base ds n) :
    ∀ c ∈ ds, (digitValue? base c).isSome := by
  obtain ⟨-, values, hvalues, -⟩ := h
  induction hvalues with
  | nil => nofun
  | cons hc _ ih =>
    refine List.forall_mem_cons.2 ⟨?_, ih⟩
    rw [(Yaml.digitValue?_iff hbase).2 hc]
    rfl

theorem takeWhile_digits (digits : ∀ c ∈ ds, (digitValue? base c).isSome)
    (ends : EndsDigits base r) :
    ((ds ++ r).takeWhile fun c => (digitValue? base c).isSome) = ds := by
  rw [List.takeWhile_append_of_pos digits]
  cases r with
  | nil => simp
  | cons c r => simp [ends c rfl]

theorem fits_iff : ((width.all fun w => ds.length ≤ w) &&
    (leadingZeros || ds.length ≤ 1 || ds.head? != some '0')) = true ↔
      (∀ w ∈ width, ds.length ≤ w) ∧
        (leadingZeros = false → ds.length ≤ 1 ∨ ds.head? ≠ some '0') := by
  cases width <;> cases leadingZeros <;> simp

theorem endsDigits_cons {c : Char} (h : digitValue? base c = none) (r : List Char) :
    EndsDigits base (c :: r) := by
  rintro x ⟨⟩
  exact h

theorem endsDigits_dropWhile (base : Nat) (cs : List Char) :
    EndsDigits base (cs.dropWhile fun c => (digitValue? base c).isSome) := by
  intro c hc
  have hnot := List.head?_dropWhile_not (fun c => (digitValue? base c).isSome) cs
  rw [Option.mem_def.1 hc] at hnot
  simpa using hnot

/-- A reader takes all digits there are, or nothing. -/
theorem readNumber?_iff (hbase : base ≤ 16) :
    readNumber? base width leadingZeros max cs = some (n, r) ↔
      ∃ ds, cs = ds ++ r ∧ NumberText base width leadingZeros max ds n ∧ EndsDigits base r := by
  constructor
  · intro h
    have hsplit := List.takeWhile_append_dropWhile (p := fun c => (digitValue? base c).isSome)
      (l := cs)
    have ends := endsDigits_dropWhile base cs
    simp only [readNumber?] at h
    generalize (cs.takeWhile fun c => (digitValue? base c).isSome) = ds at h hsplit
    generalize (cs.dropWhile fun c => (digitValue? base c).isSome) = rest at hsplit ends
    subst hsplit
    rw [List.drop_left] at h
    split at h
    · rename_i hfits
      obtain ⟨fits, unpadded⟩ := fits_iff.1 hfits
      split at h
      · rename_i m hread
        obtain ⟨bound, hpair⟩ := Option.ite_none_right_eq_some.1 h
        obtain ⟨rfl, rfl⟩ := Prod.mk.inj (Option.some.inj hpair)
        exact ⟨ds, rfl, ⟨(readNat?_iff hbase).1 hread, bound, fits, unpadded⟩, ends⟩
      · cases h
    · cases h
  · rintro ⟨ds, rfl, ⟨spells, bound, fits, unpadded⟩, ends⟩
    have htake := takeWhile_digits (digitValue?_of_spells hbase spells) ends
    have hread : readNat? base ds = some n := (readNat?_iff hbase).2 spells
    simp only [readNumber?, htake, hread, fits_iff.2 ⟨fits, unpadded⟩, if_pos bound, if_true,
      List.drop_left]

theorem after?_iff {c : Char} : after? c cs = some r ↔ cs = c :: r := by
  cases cs with
  | nil => simp [after?]
  | cons x cs => simp [after?, eq_comm]

end Text

namespace Ipv4Address

open Text

def dotted (i : Ipv4Address) : List Char :=
  Nat.toDigits 10 i.a.toNat ++ '.' :: (Nat.toDigits 10 i.b.toNat ++ '.' ::
    (Nat.toDigits 10 i.c.toNat ++ '.' :: Nat.toDigits 10 i.d.toNat))

variable {i : Ipv4Address} {o : UInt8} {ds cs r : List Char} {n : Nat}

/-- Up to three digits without a zero in front are the numeral of what they spell. -/
theorem numberText_octet_iff : NumberText 10 (some 3) false 255 ds n ↔
    ds = Nat.toDigits 10 n ∧ n ≤ 255 := by
  constructor
  · rintro ⟨spells, bound, -, unpadded⟩
    obtain ⟨ne_nil, digits, rfl⟩ :=
      Yaml.ofDigitChars_of_readNat? ((readNat?_iff (by decide)).2 spells)
    refine ⟨(Numeral.toDigits_ofDigitChars ne_nil digits fun hhead => ?_).symm, bound⟩
    obtain ⟨r, rfl⟩ := List.head?_eq_some_iff.1 hhead
    have hshort : r.length = 0 := by simpa using unpadded rfl
    rw [List.length_eq_zero_iff.1 hshort]
  · rintro ⟨rfl, bound⟩
    refine ⟨spells_toDigits (by decide) (by decide) n, bound, ?_, fun _ => ?_⟩
    · rintro w ⟨⟩
      exact (Nat.length_toDigits_le_iff (by decide) (by decide)).2 (by omega)
    · refine or_iff_not_imp_right.2 fun hhead => ?_
      obtain ⟨r, hr⟩ := List.head?_eq_some_iff.1 (not_not.1 hhead)
      rw [hr, Numeral.toDigits_zero hr]
      exact Nat.le_refl 1

theorem readOctet?_iff : readOctet? cs = some (o, r) ↔
    cs = Nat.toDigits 10 o.toNat ++ r ∧ EndsDigits 10 r := by
  simp only [readOctet?, Option.map_eq_some_iff, Prod.exists, Prod.mk.injEq]
  constructor
  · rintro ⟨n, r, hread, rfl, rfl⟩
    obtain ⟨ds, rfl, number, ends⟩ := (readNumber?_iff (by decide)).1 hread
    obtain ⟨rfl, bound⟩ := numberText_octet_iff.1 number
    have hn : n.toUInt8.toNat = n := Nat.mod_eq_of_lt (by omega)
    rw [hn]
    exact ⟨rfl, ends⟩
  · rintro ⟨rfl, ends⟩
    have hbound : o.toNat ≤ 255 := Nat.le_of_lt_succ o.toNat_lt
    exact ⟨o.toNat, r, (readNumber?_iff (by decide)).2
      ⟨_, rfl, numberText_octet_iff.2 ⟨rfl, hbound⟩, ends⟩, by simp, rfl⟩

theorem toList_toText (i : Ipv4Address) : i.toText.toList = i.dotted := by
  simp [toText, octets, dotted]

theorem digit_of_mem_dotted {c : Char} (hc : c ∈ i.dotted) : isDigit c ∨ c = '.' := by
  have hdigit := Numeral.isDigit_toDigits
  simp only [dotted, List.mem_append, List.mem_cons] at hc
  rcases hc with hc | rfl | hc | rfl | hc | rfl | hc
  all_goals first | exact .inr rfl | exact .inl (hdigit _ _ hc)

/-- An address is read where its text stands, if no further digit follows. -/
theorem read?_iff : read? cs = some (i, r) ↔ cs = i.dotted ++ r ∧ EndsDigits 10 r := by
  simp only [read?, Option.bind_eq_bind, Option.bind_eq_some_iff, Prod.exists, Option.pure_def,
    readOctet?_iff, after?_iff, dotted, Option.some.injEq, Prod.mk.injEq]
  constructor
  · rintro ⟨a, _, ⟨rfl, -⟩, b, _, ⟨_, rfl, rfl, -⟩, c, _, ⟨_, rfl, rfl, -⟩, d, _,
      ⟨_, rfl, rfl, ends⟩, rfl, rfl⟩
    exact ⟨by simp, ends⟩
  · rintro ⟨rfl, ends⟩
    simp only [List.append_assoc, List.cons_append]
    exact ⟨i.a, _, ⟨rfl, endsDigits_cons (by decide) _⟩, i.b, _, ⟨_, rfl, rfl, endsDigits_cons (by decide) _⟩, i.c, _,
      ⟨_, rfl, rfl, endsDigits_cons (by decide) _⟩, i.d, r, ⟨_, rfl, rfl, ends⟩, rfl, rfl⟩

end Ipv4Address

end SearchRelay

import SearchRelay.Proofs.Network.Ipv6

namespace SearchRelay.Ipv6Address

open Text

def Run (gs : List UInt16) (start k : Nat) : Prop := ∀ j < k, gs[start + j]? = some 0

/-- A run of zeros with no longer one anywhere, and none as long in front of it. -/
structure Longest (gs : List UInt16) (start k : Nat) : Prop where
  run : Run gs start k
  longest : ∀ s m, Run gs s m → m ≤ k
  first : ∀ s, Run gs s k → start ≤ s

def colons (gs : List UInt16) : List Char :=
  [':'].intercalate (gs.map fun g => Nat.toDigits 16 g.toNat)

/-- The text of an address that is mapped from IPv4 ends in that one's. Any other leaves out its
longest run of zeros, unless that is a single one. -/
inductive Standard (i : Ipv6Address) : List Char → Prop
  | mapped {v4 : Ipv4Address} (address : i = ofIpv4 v4) :
      Standard i ("::ffff:".toList ++ v4.dotted)
  | whole (address : ∀ v4, i ≠ ofIpv4 v4) (single : ∀ start k, Run i.toList start k → k ≤ 1) :
      Standard i (colons i.toList)
  | short {start k : Nat} (address : ∀ v4, i ≠ ofIpv4 v4) (longest : Longest i.toList start k)
      (several : 1 < k) :
      Standard i (colons (i.toList.take start) ++ ':' :: ':' :: colons (i.toList.drop (start + k)))

variable {i : Ipv6Address} {gs : List UInt16} {g h : UInt16} {t : List Char} {start k : Nat}

theorem run_cons : Run (g :: gs) (start + 1) k ↔ Run gs start k := by
  simp only [Run, Nat.add_right_comm start 1, List.getElem?_cons_succ]

theorem zeros_cons (g : UInt16) (gs : List UInt16) :
    zeros (g :: gs) = if g = 0 then zeros gs + 1 else 0 := by
  by_cases hg : g = 0 <;> simp [zeros, hg]

theorem run_zero_cons : Run (g :: gs) 0 (k + 1) ↔ g = 0 ∧ Run gs 0 k := by
  constructor
  · intro run
    refine ⟨by simpa using run 0 (Nat.succ_pos k), fun j hj => ?_⟩
    simpa using run (j + 1) (by omega)
  · rintro ⟨rfl, run⟩ (_ | j) hj
    · simp
    · simpa using run j (by omega)

theorem run_zero (gs : List UInt16) (k : Nat) : Run gs 0 k ↔ k ≤ zeros gs := by
  induction gs generalizing k with
  | nil =>
    refine ⟨fun run => Nat.le_of_not_lt fun hk => ?_, fun hk j hj => ?_⟩
    · simpa using run 0 (Nat.zero_lt_of_lt hk)
    · exact absurd (Nat.lt_of_lt_of_le hj hk) (Nat.not_lt_zero j)
  | cons g gs ih =>
    cases k with
    | zero => simp [Run]
    | succ k =>
      rw [run_zero_cons, ih, zeros_cons]
      split <;> simp [*]

theorem longestRun_cons (g : UInt16) (gs : List UInt16) : longestRun (g :: gs) =
    if (longestRun gs).2 ≤ zeros (g :: gs) then (0, zeros (g :: gs))
    else ((longestRun gs).1 + 1, (longestRun gs).2) := rfl

theorem longestRun_longest (gs : List UInt16) : Longest gs (longestRun gs).1 (longestRun gs).2 := by
  induction gs with
  | nil =>
    refine ⟨nofun, fun s m run => Nat.le_of_not_lt fun hm => ?_, fun _ _ => Nat.zero_le _⟩
    simpa using run 0 (Nat.zero_lt_of_lt hm)
  | cons g gs ih =>
    rw [longestRun_cons]
    -- a run of all groups starts in front or is one of those behind
    split
    · rename_i hle
      refine ⟨(run_zero _ _).2 (Nat.le_refl _), fun s m run => ?_, fun _ _ => Nat.zero_le _⟩
      cases s with
      | zero => exact (run_zero _ _).1 run
      | succ s => exact Nat.le_trans (ih.longest s m (run_cons.1 run)) hle
    · rename_i hlt
      refine ⟨run_cons.2 ih.run, fun s m run => ?_, fun s run => ?_⟩
      · cases s with
        | zero => exact Nat.le_trans ((run_zero _ _).1 run) (Nat.le_of_not_le hlt)
        | succ s => exact ih.longest s m (run_cons.1 run)
      · cases s with
        | zero => exact absurd ((run_zero _ _).1 run) hlt
        | succ s => exact Nat.succ_le_succ (ih.first s (run_cons.1 run))

theorem Longest.unique {s m : Nat} (a : Longest gs start k) (b : Longest gs s m) :
    start = s ∧ k = m := by
  obtain rfl : k = m := Nat.le_antisymm (b.longest _ _ a.run) (a.longest _ _ b.run)
  exact ⟨Nat.le_antisymm (a.first _ b.run) (b.first _ a.run), rfl⟩

theorem Run.split (run : Run gs start k) :
    gs = gs.take start ++ (List.replicate k 0 ++ gs.drop (start + k)) := by
  have hmiddle : (gs.drop start).take k = List.replicate k 0 := by
    refine List.ext_getElem? fun j => ?_
    rw [List.getElem?_take, List.getElem?_replicate, List.getElem?_drop]
    split
    · exact run j ‹_›
    · rfl
  rw [← hmiddle, ← List.drop_drop, List.take_append_drop, List.take_append_drop]

theorem toNat_pair (a b : UInt8) :
    (a.toUInt16 * 256 + b.toUInt16).toNat = a.toNat * 256 + b.toNat := by
  have ha := a.toNat_lt
  have hb := b.toNat_lt
  simp only [UInt16.toNat_add, UInt16.toNat_mul, UInt8.toNat_toUInt16, UInt16.reduceToNat]
  omega

theorem pair_halves (g : UInt16) :
    (g / 256).toUInt8.toUInt16 * 256 + (g % 256).toUInt8.toUInt16 = g := by
  refine UInt16.toNat.inj ?_
  have hg := g.toNat_lt
  rw [toNat_pair]
  simp only [UInt16.toNat_toUInt8, UInt16.toNat_div, UInt16.toNat_mod, UInt16.reduceToNat]
  omega

theorem pair_injective {a b c d : UInt8}
    (h : a.toUInt16 * 256 + b.toUInt16 = c.toUInt16 * 256 + d.toUInt16) : a = c ∧ b = d := by
  have hnat := congrArg UInt16.toNat h
  rw [toNat_pair, toNat_pair] at hnat
  have hb := b.toNat_lt
  have hd := d.toNat_lt
  exact ⟨UInt8.toNat.inj (by omega), UInt8.toNat.inj (by omega)⟩

theorem groupsOf_injective {v4 w4 : Ipv4Address} (h : groupsOf v4 = groupsOf w4) : v4 = w4 := by
  obtain ⟨a, b, c, d⟩ := v4
  obtain ⟨a', b', c', d'⟩ := w4
  obtain ⟨hfirst, hlast, -⟩ : _ ∧ _ ∧ _ := by simpa only [groupsOf, List.cons.injEq] using h
  obtain ⟨rfl, rfl⟩ := pair_injective hfirst
  obtain ⟨rfl, rfl⟩ := pair_injective hlast
  rfl

theorem groupsOf_halves (g h : UInt16) :
    groupsOf ⟨(g / 256).toUInt8, (g % 256).toUInt8, (h / 256).toUInt8, (h % 256).toUInt8⟩ =
      [g, h] := by
  simp only [groupsOf, pair_halves]

theorem toList_ofIpv4 (v4 : Ipv4Address) :
    (ofIpv4 v4).toList = [0, 0, 0, 0, 0] ++ 0xffff :: groupsOf v4 :=
  toList_ofParts (k := 5) rfl

theorem ipv4?_iff {v4 : Ipv4Address} : i.ipv4? = some v4 ↔ i = ofIpv4 v4 := by
  constructor
  · intro hmapped
    simp only [ipv4?] at hmapped
    split at hmapped
    · rename_i g h hi
      cases hmapped
      exact toList_injective (by rw [hi, toList_ofIpv4, groupsOf_halves]; rfl)
    · cases hmapped
  · rintro rfl
    simp only [ipv4?, toList_ofIpv4]
    exact congrArg some (groupsOf_injective (groupsOf_halves _ _))

theorem ipv4?_eq_none_iff : i.ipv4? = none ↔ ∀ v4, i ≠ ofIpv4 v4 := by
  rw [Option.eq_none_iff_forall_not_mem]
  exact forall_congr' fun v4 => not_congr ipv4?_iff

theorem toList_groupTexts (gs : List UInt16) : (groupTexts gs).toList = colons gs := by
  simp [groupTexts, colons, hex, Function.comp_def]

/-- What is written of an address is its standard text, and it has no other. -/
theorem standard_iff : Standard i t ↔ t = i.toText.toList := by
  have hlongest := longestRun_longest i.toList
  constructor
  · intro standard
    cases standard with
    | mapped address =>
      simp [toText, ipv4?_iff.2 address, Ipv4Address.toList_toText]
    | whole address single =>
      have hshort := single _ _ hlongest.run
      simp [toText, ipv4?_eq_none_iff.2 address, Nat.not_lt.2 hshort, toList_groupTexts]
    | short address longest several =>
      obtain ⟨rfl, rfl⟩ := longest.unique hlongest
      simp [toText, ipv4?_eq_none_iff.2 address, several, toList_groupTexts]
  · rintro rfl
    simp only [toText]
    split
    · rename_i v4 hmapped
      rw [String.toList_append, Ipv4Address.toList_toText]
      exact .mapped (ipv4?_iff.1 hmapped)
    · rename_i hmapped
      have address := ipv4?_eq_none_iff.1 hmapped
      split
      · rename_i several
        simpa [toList_groupTexts] using Standard.short address hlongest several
      · rename_i hshort
        rw [toList_groupTexts]
        exact .whole address fun s m run =>
          Nat.le_trans (hlongest.longest s m run) (Nat.le_of_not_lt hshort)

example : (ofGroups [0x2001, 0xdb8, 0, 0, 1, 0, 0, 1]).toText = "2001:db8::1:0:0:1" := by decide

theorem groupText_toDigits (g : UInt16) : GroupText g (Nat.toDigits 16 g.toNat) where
  spells := spells_toDigits (by decide) (by decide) _
  short := (Nat.length_toDigits_le_iff (by decide) (by decide)).2 g.toNat_lt

theorem colons_singleton (g : UInt16) : colons [g] = Nat.toDigits 16 g.toNat := by
  simp [colons]

theorem colons_cons (g h : UInt16) (gs : List UInt16) :
    colons (g :: h :: gs) = Nat.toDigits 16 g.toNat ++ ':' :: colons (h :: gs) := by
  simp [colons, List.intercalate]

theorem chain_colons (g : UInt16) (gs : List UInt16) :
    ChainText false (g :: gs) (colons (g :: gs)) := by
  induction gs generalizing g with
  | nil => exact .last (colons_singleton g ▸ groupText_toDigits g)
  | cons h gs ih => exact colons_cons g h gs ▸ .more (groupText_toDigits g) (ih h)

theorem side_colons (gs : List UInt16) : SideText false gs (colons gs) := by
  cases gs with
  | nil => exact .nothing
  | cons g gs => exact .chain (chain_colons g gs)

theorem groupText_ffff : GroupText 0xffff "ffff".toList :=
  groupText_toDigits 0xffff

theorem isText_of_standard (standard : Standard i t) : IsText i t := by
  cases standard with
  | @mapped v4 address =>
    have hgroups : i.toList = [] ++ (List.replicate (4 + 1) 0 ++ 0xffff :: groupsOf v4) := by
      rw [address, toList_ofIpv4]
      rfl
    have htext : "::ffff:".toList = [] ++ ':' :: ':' :: ("ffff".toList ++ [':']) := by decide
    have tail := ChainText.more groupText_ffff (.embedded v4)
    rw [htext]
    simpa using IsText.short hgroups .nothing (.chain tail)
  | whole =>
    have hi : i.toList ≠ [] := List.ne_nil_of_length_pos (by simp)
    obtain ⟨g, gs, hgs⟩ := List.exists_cons_of_ne_nil hi
    have chain : ChainText false i.toList (colons i.toList) := hgs ▸ chain_colons g gs
    exact .whole chain
  | @short start k address longest several =>
    obtain ⟨k, rfl⟩ := Nat.exists_eq_add_of_le' (Nat.le_of_lt several)
    exact .short longest.run.split (side_colons _) (side_colons _)

end SearchRelay.Ipv6Address

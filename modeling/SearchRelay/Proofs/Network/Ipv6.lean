import SearchRelay.Network.Ipv6
import SearchRelay.Proofs.Network.Ipv4

namespace SearchRelay.Ipv6Address

open Text

/-- One to four hexadecimal digits, of either case. -/
structure GroupText (g : UInt16) (cs : List Char) : Prop where
  spells : Spells 16 cs g.toNat
  short : cs.length ≤ 4

/-- Groups with colons between them. An IPv4 address may stand for the last two. -/
inductive ChainText : Bool → List UInt16 → List Char → Prop
  | last {g : UInt16} {cs : List Char} (group : GroupText g cs) : ChainText false [g] cs
  | embedded (i : Ipv4Address) : ChainText true (groupsOf i) i.dotted
  | more {mixed : Bool} {g : UInt16} {gs : List UInt16} {cs r : List Char} (group : GroupText g cs)
      (rest : ChainText mixed gs r) : ChainText mixed (g :: gs) (cs ++ ':' :: r)

inductive SideText : Bool → List UInt16 → List Char → Prop
  | nothing : SideText false [] []
  | chain {mixed : Bool} {gs : List UInt16} {cs : List Char} (chain : ChainText mixed gs cs) :
      SideText mixed gs cs

/-- The texts of an address: all of its groups, or those around a double colon that stands for some
groups of zeros. -/
inductive IsText (i : Ipv6Address) : List Char → Prop
  | whole {mixed : Bool} {cs : List Char} (chain : ChainText mixed i.toList cs) : IsText i cs
  | short {mixed : Bool} {front back : List UInt16} {k : Nat} {cs ds : List Char}
      (groups : i.toList = front ++ (List.replicate (k + 1) 0 ++ back))
      (head : SideText false front cs) (tail : SideText mixed back ds) :
      IsText i (cs ++ ':' :: ':' :: ds)

variable {i : Ipv6Address} {g : UInt16} {gs front back : List UInt16} {mixed : Bool}
  {cs ds r t body : List Char} {limit n : Nat}

@[simp] theorem length_toList (i : Ipv6Address) : i.toList.length = 8 := by
  simp [toList]

theorem toList_injective {i j : Ipv6Address} (h : i.toList = j.toList) : i = j := by
  obtain ⟨v⟩ := i
  obtain ⟨w⟩ := j
  exact congrArg _ (Vector.toList_inj.1 h)

theorem toList_ofParts {k : Nat} (h : front.length + (k + back.length) = 8) :
    (ofParts front back).toList = front ++ (List.replicate k 0 ++ back) := by
  refine List.ext_getElem (by simp; omega) fun j hj _ => ?_
  have hj : j < 8 := by simpa using hj
  simp only [ofParts, toList, Vector.getElem_toList, Vector.getElem_ofFn]
  by_cases hfront : j < front.length
  · simp [hfront]
  by_cases hback : 8 - back.length ≤ j
  · simp only [if_neg hfront, if_pos hback]
    rw [List.getElem_append_right (by omega), List.getElem_append_right (by simp; omega),
      List.getD_eq_getElem?_getD, List.getElem?_eq_getElem (by omega), Option.getD_some]
    congr 1
    simp only [List.length_replicate]
    omega
  · simp only [if_neg hfront, if_neg hback]
    rw [List.getElem_append_right (by omega), List.getElem_append_left (by simp; omega),
      List.getElem_replicate]

theorem toList_ofGroups (h : gs.length = 8) : (ofGroups gs).toList = gs := by
  rw [ofGroups, toList_ofParts (k := 0) (by simpa using h)]
  simp

theorem ofGroups_toList (i : Ipv6Address) : ofGroups i.toList = i :=
  toList_injective (toList_ofGroups (length_toList i))

theorem group_of_readNumber? (h : readNumber? 16 (some 4) true 0xffff cs = some (n, r)) :
    ∃ ds, cs = ds ++ r ∧ GroupText n.toUInt16 ds ∧ EndsDigits 16 r := by
  obtain ⟨ds, rfl, ⟨spells, bound, fits, -⟩, ends⟩ := (readNumber?_iff (by decide)).1 h
  have hn : n.toUInt16.toNat = n := Nat.mod_eq_of_lt (by omega)
  exact ⟨ds, rfl, ⟨by rwa [hn], fits 4 rfl⟩, ends⟩

theorem readNumber?_group (group : GroupText g ds) (ends : EndsDigits 16 r) :
    readNumber? 16 (some 4) true 0xffff (ds ++ r) = some (g.toNat, r) := by
  refine (readNumber?_iff (by decide)).2 ⟨ds, rfl, ⟨group.spells, ?_, ?_, nofun⟩, ends⟩
  · exact Nat.le_of_lt_succ g.toNat_lt
  · rintro w ⟨⟩
    exact group.short

theorem endsDigits_ten (ends : EndsDigits 16 r) : EndsDigits 10 r := fun c hc =>
  Option.eq_none_iff_forall_not_mem.2 fun d hd =>
    Option.eq_none_iff_forall_not_mem.1 (ends c hc) d
      ((Yaml.digitValue?_iff_of_le (by decide)).1 hd).1

theorem readNumber?_ends {base max : Nat} {width : Option Nat} {leadingZeros : Bool}
    (hbase : base ≤ 16) (ends : EndsDigits base r) :
    readNumber? base width leadingZeros max r = none := by
  refine Option.eq_none_iff_forall_not_mem.2 fun ⟨n, s⟩ h => ?_
  obtain ⟨ds, rfl, number, -⟩ := (readNumber?_iff hbase).1 h
  obtain ⟨c, ds, rfl⟩ := List.exists_cons_of_ne_nil number.spells.1
  have hc := digitValue?_of_spells hbase number.spells c (by simp)
  rw [ends c rfl] at hc
  cases hc

theorem readV4_digits (digits : ∀ c ∈ ds, (digitValue? 16 c).isSome) (ends : EndsDigits 16 r)
    (dot : r.head? ≠ some '.') : Ipv4Address.read? (ds ++ r) = none := by
  refine Option.eq_none_iff_forall_not_mem.2 fun ⟨i, s⟩ h => ?_
  have htext := (Ipv4Address.read?_iff.1 h).1
  rw [Ipv4Address.dotted, List.append_assoc, List.cons_append] at htext
  have hdigits : ∀ c ∈ Nat.toDigits 10 i.a.toNat, (digitValue? 16 c).isSome := fun c hc =>
    isHex_of_isDigit (Numeral.isDigit_toDigits _ c hc)
  have hds := takeWhile_digits digits ends
  rw [htext, takeWhile_digits hdigits (endsDigits_cons (by decide) _)] at hds
  rw [hds, List.append_cancel_left_eq] at htext
  rw [htext] at dot
  exact dot rfl

theorem readV4_ends (ends : EndsDigits 16 r) (dot : r.head? ≠ some '.') :
    Ipv4Address.read? r = none := by
  have none_read : ∀ c ∈ ([] : List Char), (digitValue? 16 c).isSome := nofun
  exact readV4_digits none_read ends dot

def lead (first : Bool) : List Char := if first then [] else [':']

theorem separated?_iff {first : Bool} :
    separated? first cs = some body ↔ cs = lead first ++ body := by
  cases first
  · simp [separated?, lead, after?_iff]
  · simp [separated?, lead]

/-- What carries no group on: no digit, no dot, and a colon only where another one follows. -/
structure Stops (r : List Char) : Prop where
  digit : EndsDigits 16 r
  dot : r.head? ≠ some '.'
  colon : ∀ s, r = ':' :: s → EndsDigits 16 s ∧ s.head? ≠ some '.'

theorem stops_cons {c : Char} (hex : digitValue? 16 c = none) (dot : c ≠ '.') (colon : c ≠ ':')
    (r : List Char) : Stops (c :: r) where
  digit := endsDigits_cons hex r
  dot := by simpa using dot
  colon := by rintro s ⟨⟩; exact absurd rfl colon

theorem stops_colons (r : List Char) : Stops (':' :: ':' :: r) where
  digit := endsDigits_cons (by decide) _
  dot := by simp
  colon := by
    rintro s ⟨⟩
    exact ⟨endsDigits_cons (by decide) _, by simp⟩

theorem readGroups_stops (stops : Stops r) (limit : Nat) (first : Bool) :
    readGroups limit first r = ([], false, r) := by
  cases limit with
  | zero => rfl
  | succ limit =>
    cases hbody : separated? first r with
    | none => simp only [readGroups, hbody]
    | some body =>
      obtain ⟨ends, dot⟩ : EndsDigits 16 body ∧ body.head? ≠ some '.' := by
        have hr := separated?_iff.1 hbody
        cases first
        · exact stops.colon body hr
        · rw [lead, if_pos rfl, List.nil_append] at hr
          exact hr ▸ ⟨stops.digit, stops.dot⟩
      simp only [readGroups, hbody, readV4_ends ends dot, ite_self, readNumber?_ends (by decide) ends]

theorem readGroups_group {s : List Char} (group : GroupText g ds) (ends : EndsDigits 16 r)
    (dot : r.head? ≠ some '.') (rest : readGroups limit false r = (gs, mixed, s)) (first : Bool) :
    readGroups (limit + 1) first (lead first ++ (ds ++ r)) = (g :: gs, mixed, s) := by
  have hv4 := readV4_digits (digitValue?_of_spells (by decide) group.spells) ends dot
  simp only [readGroups, separated?_iff.2 rfl, hv4, ite_self, readNumber?_group group ends, rest,
    UInt16.ofNat_toNat, Nat.toUInt16_eq]

/-- Groups are read where their text stands, if nothing carries them on. -/
theorem readGroups_chain (chain : ChainText mixed gs t) (fits : gs.length ≤ limit)
    (stops : Stops r) (first : Bool) :
    readGroups limit first (lead first ++ (t ++ r)) = (gs, mixed, r) := by
  induction chain generalizing limit first with
  | last group =>
    obtain ⟨limit, rfl⟩ := Nat.exists_eq_add_of_le' fits
    exact readGroups_group group stops.digit stops.dot (readGroups_stops stops limit false) first
  | embedded i =>
    obtain ⟨limit, rfl⟩ := Nat.exists_eq_add_of_le' fits
    have hv4 : Ipv4Address.read? (i.dotted ++ r) = some (i, r) :=
      Ipv4Address.read?_iff.2 ⟨rfl, endsDigits_ten stops.digit⟩
    simp [readGroups, separated?_iff.2 rfl, hv4, groupsOf]
  | @more mixed g gs cs s group rest ih =>
    obtain ⟨limit, rfl⟩ := Nat.exists_eq_add_of_le' (Nat.one_le_of_lt fits)
    rw [List.append_assoc]
    -- the colon behind the group keeps it from being the start of an IPv4 address
    refine readGroups_group group (endsDigits_cons (by decide) _) (by simp) ?_ first
    exact ih (by simpa using fits) false

theorem readGroups_sound {first : Bool} (h : readGroups limit first cs = (gs, mixed, r)) :
    gs.length ≤ limit ∧ ((gs = [] ∧ mixed = false ∧ r = cs) ∨
      ∃ t, cs = lead first ++ (t ++ r) ∧ ChainText mixed gs t) := by
  induction limit generalizing first cs gs mixed r with
  | zero =>
    cases h
    exact ⟨Nat.le_refl 0, .inl ⟨rfl, rfl, rfl⟩⟩
  | succ limit ih =>
    simp only [readGroups] at h
    split at h
    -- no colon leads to a group
    · cases h
      exact ⟨Nat.zero_le _, .inl ⟨rfl, rfl, rfl⟩⟩
    rename_i body hbody
    obtain rfl := separated?_iff.1 hbody
    split at h
    -- an IPv4 address ends the groups
    · rename_i i s hv4
      obtain ⟨hlimit, hv4⟩ := Option.ite_none_left_eq_some.1 hv4
      obtain ⟨rfl, -⟩ := Ipv4Address.read?_iff.1 hv4
      cases h
      refine ⟨?_, .inr ⟨_, rfl, .embedded i⟩⟩
      simp only [groupsOf, List.length_cons, List.length_nil]
      omega
    · split at h
      · cases h
        exact ⟨Nat.zero_le _, .inl ⟨rfl, rfl, rfl⟩⟩
      · rename_i n s hread
        obtain ⟨ds, rfl, group, -⟩ := group_of_readNumber? hread
        cases h
        -- the group is the last one if nothing more was read behind it
        obtain ⟨hlength, ⟨hgs, hmixed, hr⟩ | ⟨t, ht, chain⟩⟩ := ih rfl
        · refine ⟨by simpa using hlength, .inr ⟨ds, ?_, ?_⟩⟩
          · rw [hr]
          · rw [hgs, hmixed]
            exact .last group
        · refine ⟨by simpa using hlength, .inr ⟨ds ++ ':' :: t, ?_, .more group chain⟩⟩
          conv_lhs => rw [ht]
          simp [lead]

theorem readGroups_side (side : SideText mixed gs t) (fits : gs.length ≤ limit) (stops : Stops r) :
    readGroups limit true (t ++ r) = (gs, mixed, r) := by
  cases side with
  | nothing => exact readGroups_stops stops limit true
  | chain chain => exact readGroups_chain chain fits stops true

theorem side_of_readGroups (h : readGroups limit true cs = (gs, mixed, r)) :
    gs.length ≤ limit ∧ ∃ t, cs = t ++ r ∧ SideText mixed gs t := by
  obtain ⟨fits, ⟨rfl, rfl, rfl⟩ | ⟨t, rfl, chain⟩⟩ := readGroups_sound h
  · exact ⟨fits, [], rfl, .nothing⟩
  · exact ⟨fits, t, rfl, .chain chain⟩

theorem chain_of_side (side : SideText mixed (g :: gs) t) : ChainText mixed (g :: gs) t := by
  cases side
  assumption

theorem read?_of_text (text : IsText i t) (stops : Stops r) : read? (t ++ r) = some (i, r) := by
  cases text with
  | whole chain =>
    have hread := readGroups_side (.chain chain) (Nat.le_of_eq (length_toList i)) stops
    simp only [read?, hread, length_toList, if_true, ofGroups_toList]
  | @short mixed front back k cs ds groups head tail =>
    have hlength : front.length + (k + 1 + back.length) = 8 := by
      simpa using (congrArg List.length groups).symm
    have hfront : readGroups 8 true (cs ++ ':' :: ':' :: (ds ++ r)) =
        (front, false, ':' :: ':' :: (ds ++ r)) :=
      readGroups_side head (by omega) (stops_colons _)
    have hback : readGroups (7 - front.length) true (ds ++ r) = (back, mixed, r) :=
      readGroups_side tail (by omega) stops
    have hi : ofParts front back = i :=
      toList_injective ((toList_ofParts hlength).trans groups.symm)
    have hne : front.length ≠ 8 := by omega
    simp only [read?, List.append_assoc, List.cons_append, hfront, if_neg hne, Bool.false_eq_true,
      if_false, after?, if_true, Option.bind_some, hback, hi]

theorem text_of_read? (h : read? cs = some (i, r)) : ∃ t, cs = t ++ r ∧ IsText i t := by
  obtain ⟨front, mixed, s, hfront⟩ :
      ∃ front mixed s, readGroups 8 true cs = (front, mixed, s) := ⟨_, _, _, rfl⟩
  simp only [read?, hfront] at h
  obtain ⟨hle, t, rfl, head⟩ := side_of_readGroups hfront
  split at h
  · rename_i hlength
    cases h
    obtain ⟨g, gs, rfl⟩ := List.exists_cons_of_length_pos (l := front) (by omega)
    exact ⟨t, rfl, .whole ((toList_ofGroups hlength).symm ▸ chain_of_side head)⟩
  · rename_i hne
    split at h
    · cases h
    rename_i hmixed
    obtain rfl := eq_false_of_ne_true hmixed
    split at h
    · cases h
    rename_i body hbody
    simp only [Option.bind_eq_some_iff, after?_iff] at hbody
    obtain ⟨_, rfl, rfl⟩ := hbody
    obtain ⟨back, mixed, s, hback⟩ :
        ∃ back mixed s, readGroups (7 - front.length) true body = (back, mixed, s) := ⟨_, _, _, rfl⟩
    obtain ⟨hle', u, rfl, tail⟩ := side_of_readGroups hback
    simp only [hback] at h
    cases h
    have hlength : front.length + (7 - (front.length + back.length) + 1 + back.length) = 8 := by
      omega
    exact ⟨t ++ ':' :: ':' :: u, by simp, .short (toList_ofParts hlength) head tail⟩

/-- No text tells two addresses. -/
theorem IsText.unique {j : Ipv6Address} (hi : IsText i t) (hj : IsText j t) : i = j := by
  have stops : Stops [] := ⟨nofun, nofun, nofun⟩
  have h := (read?_of_text hi stops).symm.trans (read?_of_text hj stops)
  exact congrArg Prod.fst (Option.some.inj h)

theorem GroupText.hex (group : GroupText g cs) : ∀ c ∈ cs, isHex c :=
  digitValue?_of_spells (by decide) group.spells

theorem ChainText.characters (chain : ChainText mixed gs t) :
    ∀ c ∈ t, isHex c ∨ c = ':' ∨ c = '.' := by
  induction chain with
  | last group => exact fun c hc => .inl (group.hex c hc)
  | embedded i =>
    refine fun c hc => (Ipv4Address.digit_of_mem_dotted hc).elim (fun hdigit => .inl ?_)
      fun hdot => .inr (.inr hdot)
    exact isHex_of_isDigit hdigit
  | more group _ ih =>
    refine List.forall_mem_append.2 ⟨fun c hc => .inl (group.hex c hc), ?_⟩
    exact List.forall_mem_cons.2 ⟨.inr (.inl rfl), ih⟩

theorem SideText.characters (side : SideText mixed gs t) :
    ∀ c ∈ t, isHex c ∨ c = ':' ∨ c = '.' := by
  cases side with
  | nothing => nofun
  | chain chain => exact chain.characters

theorem IsText.characters (text : IsText i t) : ∀ c ∈ t, isHex c ∨ c = ':' ∨ c = '.' := by
  cases text with
  | whole chain => exact chain.characters
  | short _ head tail =>
    simp only [List.forall_mem_append, List.forall_mem_cons, true_or, or_true, true_and]
    exact ⟨head.characters, tail.characters⟩

theorem ChainText.colon (chain : ChainText mixed gs t) (several : 2 < gs.length) : ':' ∈ t := by
  cases chain with
  | last => exact absurd several (by simp)
  | embedded => exact absurd several (by simp [groupsOf])
  | more => simp

theorem IsText.colon (text : IsText i t) : ':' ∈ t := by
  cases text with
  | whole chain => exact chain.colon (by simp)
  | short => simp

end SearchRelay.Ipv6Address

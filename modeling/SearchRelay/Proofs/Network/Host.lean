import SearchRelay.Network.SocketAddress
import SearchRelay.Proofs.Network.Ipv6

namespace SearchRelay

open Text

/-- The interface that an IPv6 address is meant on may be named by its number. -/
inductive ScopeText : List Char → UInt32 → Prop
  | none : ScopeText [] 0
  | number {ds : List Char} {scope : UInt32} (spells : Spells 10 ds scope.toNat) :
      ScopeText ('%' :: ds) scope

/-- An IPv4 address stands as it is, an IPv6 address in brackets. -/
inductive HostText : List Char → IpAddress → UInt32 → Prop
  | v4 (i : Ipv4Address) : HostText i.dotted (.v4 i) 0
  | v6 {i : Ipv6Address} {t s : List Char} {scope : UInt32} (text : i.IsText t)
      (number : ScopeText s scope) : HostText ('[' :: (t ++ (s ++ [']']))) (.v6 i) scope

theorem ScopeText.stops {s : List Char} {scope : UInt32} (number : ScopeText s scope)
    (r : List Char) : Ipv6Address.Stops (s ++ ']' :: r) := by
  cases number <;> exact Ipv6Address.stops_cons (by decide) (by decide) (by decide) _

namespace SocketAddress

inductive Stands (cs : List Char) (a : SocketAddress) (r : List Char) : Prop
  | intro {h ds : List Char} (text : cs = h ++ ':' :: (ds ++ r)) (host : HostText h a.ip a.scope)
      (port : Spells 10 ds a.port.toNat) (ends : EndsDigits 10 r)

variable {cs ds h r s t : List Char} {a : SocketAddress} {port : UInt16} {scope : UInt32}

theorem readPort?_iff : readPort? cs = some (port, r) ↔
    ∃ ds, cs = ':' :: (ds ++ r) ∧ Spells 10 ds port.toNat ∧ EndsDigits 10 r := by
  simp only [readPort?, Option.map_eq_some_iff, Option.bind_eq_some_iff, Prod.exists, Prod.mk.injEq,
    after?_iff, readNumber?_iff (show 10 ≤ 16 by decide), numberText_iff]
  constructor
  · rintro ⟨n, r, ⟨_, rfl, ds, rfl, ⟨spells, bound⟩, ends⟩, rfl, rfl⟩
    have hn : n.toUInt16.toNat = n := Nat.mod_eq_of_lt (by omega)
    exact ⟨ds, rfl, hn.symm ▸ spells, ends⟩
  · rintro ⟨ds, rfl, spells, ends⟩
    exact ⟨port.toNat, r, ⟨_, rfl, ds, rfl, ⟨spells, Nat.le_of_lt_succ port.toNat_lt⟩, ends⟩,
      by simp, rfl⟩

theorem readScope_iff : readScope cs = (scope, ']' :: r) ↔
    ∃ s, cs = s ++ ']' :: r ∧ ScopeText s scope := by
  constructor
  · intro hread
    simp only [readScope] at hread
    split at hread
    · rename_i n t hnumber
      cases hread
      simp only [Option.bind_eq_some_iff, after?_iff,
        readNumber?_iff (show 10 ≤ 16 by decide), numberText_iff] at hnumber
      obtain ⟨_, rfl, ds, rfl, ⟨spells, bound⟩, -⟩ := hnumber
      have hn : n.toUInt32.toNat = n := Nat.mod_eq_of_lt (by omega)
      exact ⟨'%' :: ds, rfl, .number (hn.symm ▸ spells)⟩
    · cases hread
      exact ⟨[], rfl, .none⟩
  · rintro ⟨s, rfl, _ | @⟨ds, scope, spells⟩⟩
    · rfl
    · have hnumber : readNumber? 10 none true 0xffffffff (ds ++ ']' :: r) =
          some (scope.toNat, ']' :: r) :=
        (readNumber?_iff (by decide)).2 ⟨ds, rfl,
          numberText_iff.2 ⟨spells, Nat.le_of_lt_succ scope.toNat_lt⟩, endsDigits_cons (by decide) _⟩
      simp [readScope, after?, hnumber]

theorem readV4?_iff : readV4? cs = some (a, r) ↔
    ∃ i ds, cs = i.dotted ++ ':' :: (ds ++ r) ∧ a.ip = .v4 i ∧ a.scope = 0 ∧
      Spells 10 ds a.port.toNat ∧ EndsDigits 10 r := by
  simp only [readV4?, Option.bind_eq_bind, Option.bind_eq_some_iff, Prod.exists, Option.pure_def,
    Option.some.injEq, Prod.mk.injEq, Ipv4Address.read?_iff, readPort?_iff]
  constructor
  · rintro ⟨i, _, ⟨rfl, -⟩, port, r, ⟨ds, rfl, spells, ends⟩, rfl, rfl⟩
    exact ⟨i, ds, rfl, rfl, rfl, spells, ends⟩
  · obtain ⟨ip, port, scope⟩ := a
    rintro ⟨i, ds, rfl, rfl, rfl, spells, ends⟩
    exact ⟨i, _, ⟨rfl, endsDigits_cons (by decide) _⟩, port, r, ⟨ds, rfl, spells, ends⟩, rfl, rfl⟩

theorem readV6?_iff : readV6? cs = some (a, r) ↔
    ∃ i t s ds, cs = '[' :: (t ++ (s ++ ']' :: ':' :: (ds ++ r))) ∧ a.ip = .v6 i ∧
      i.IsText t ∧ ScopeText s a.scope ∧ Spells 10 ds a.port.toNat ∧ EndsDigits 10 r := by
  simp only [readV6?, Option.bind_eq_bind, Option.bind_eq_some_iff, Prod.exists, Option.pure_def,
    Option.some.injEq, Prod.mk.injEq, after?_iff, readPort?_iff]
  constructor
  · rintro ⟨i, u, ⟨_, rfl, hread⟩, _, hclosing, port, r, ⟨ds, rfl, spells, ends⟩, rfl, rfl⟩
    obtain ⟨t, rfl, text⟩ := Ipv6Address.text_of_read? hread
    obtain ⟨s, rfl, number⟩ := readScope_iff.1 (Prod.ext rfl hclosing)
    exact ⟨i, t, s, ds, rfl, rfl, text, number, spells, ends⟩
  · obtain ⟨ip, port, scope⟩ := a
    rintro ⟨i, t, s, ds, rfl, rfl, text, number, spells, ends⟩
    have hscope := (readScope_iff (r := ':' :: (ds ++ r))).2 ⟨s, rfl, number⟩
    refine ⟨i, _, ⟨_, rfl, Ipv6Address.read?_of_text text (number.stops _)⟩, _, ?_, port, r,
      ⟨ds, rfl, spells, ends⟩, ?_, rfl⟩
    · rw [hscope]
    · rw [hscope]

theorem readV4?_bracket (r : List Char) : readV4? ('[' :: r) = none := by
  have hread : Ipv4Address.read? ('[' :: r) = none :=
    Ipv6Address.readV4_ends (endsDigits_cons (by decide) _) (by simp)
  simp [readV4?, hread]

theorem read_iff : (readV4? cs).or (readV6? cs) = some (a, r) ↔ Stands cs a r := by
  rw [Option.or_eq_some_iff, readV4?_iff, readV6?_iff]
  constructor
  · rintro (⟨i, ds, rfl, hip, hscope, spells, ends⟩ |
      ⟨-, i, t, s, ds, rfl, hip, text, number, spells, ends⟩)
    · exact .intro rfl (hip ▸ hscope ▸ .v4 i) spells ends
    · have host := HostText.v6 text number
      exact .intro (by simp) (hip ▸ host) spells ends
  · obtain ⟨ip, port, scope⟩ := a
    rintro ⟨rfl, host, spells, ends⟩
    cases host with
    | v4 i => exact .inl ⟨i, _, rfl, rfl, rfl, spells, ends⟩
    | v6 text number =>
      exact .inr ⟨readV4?_bracket _, _, _, _, _, by simp, rfl, text, number, spells, ends⟩

/-- An address is read from a text that is a host, a colon and a port, and from no other. -/
theorem parse?_iff {text : String} : parse? text = some a ↔ Stands text.toList a [] := by
  rw [← read_iff, parse?]
  split
  · simp [*]
  · rename_i hne
    refine ⟨nofun, fun h => (hne a h).elim⟩

end SocketAddress

end SearchRelay

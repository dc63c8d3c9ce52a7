import SearchRelay.Lifetime
import SearchRelay.Proofs.Network.Compression
import SearchRelay.Proofs.Network.Host

namespace SearchRelay

open Text

variable {cs ds h t : List Char} {ip : IpAddress} {scope : UInt32} {a b : SocketAddress} {c : Char}

theorem HostText.bare (host : HostText cs ip scope) (head : cs.head? ≠ some '[') :
    ∀ c ∈ cs, isDigit c ∨ c = '.' := by
  cases host with
  | v4 i => exact fun c hc => Ipv4Address.digit_of_mem_dotted hc
  | v6 => exact absurd rfl head

theorem ScopeText.characters {s : List Char} (number : ScopeText s scope) :
    ∀ c ∈ s, isHex c ∨ c = '%' := by
  cases number with
  | none => nofun
  | number spells =>
    refine List.forall_mem_cons.2 ⟨.inr rfl, fun c hc => .inl ?_⟩
    exact isHex_of_isDigit (isDigit_of_spells spells c hc)

theorem HostText.inner_characters {i : Ipv6Address} {s : List Char} (text : i.IsText t)
    (number : ScopeText s scope) : ∀ c ∈ t ++ s, isHex c ∨ c ∈ [':', '.', '%'] := by
  refine List.forall_mem_append.2 ⟨fun c hc => ?_, fun c hc => ?_⟩
  · exact (text.characters c hc).imp_right (by rintro (rfl | rfl) <;> decide)
  · exact (number.characters c hc).imp_right (by rintro rfl; decide)

theorem HostText.characters (host : HostText cs ip scope) :
    ∀ c ∈ cs, isHex c ∨ c ∈ [':', '.', '%', '[', ']'] := by
  cases host with
  | v4 i =>
    exact fun c hc => (Ipv4Address.digit_of_mem_dotted hc).imp isHex_of_isDigit
      (by rintro rfl; decide)
  | v6 text number =>
    rw [← List.append_assoc]
    have inner := inner_characters text number
    refine List.forall_mem_cons.2 ⟨.inr (by decide), List.forall_mem_append.2 ⟨fun c hc => ?_, ?_⟩⟩
    · exact (inner c hc).imp_right fun hmark => List.mem_append_left ['[', ']'] hmark
    · simp

theorem Text.isBlank_of_isHex (h : isHex c) : isBlank c = false := by
  have hall : ∀ n < 103, isHex (Char.ofNat n) → isBlank (Char.ofNat n) = false := by decide
  obtain ⟨d, hd⟩ := Option.isSome_iff_exists.1 h
  have hc := hall c.toNat (Yaml.toNat_lt_of_digitValue? hd)
  rw [Char.ofNat_toNat] at hc
  exact hc h

/-- Texts that are easily taken for hosts. -/
inductive Mistaken : List Char → Prop
  | empty : Mistaken []
  | name {cs : List Char} {c : Char} (mem : c ∈ cs) (digit : isDigit c = false) (dot : c ≠ '.')
      (head : cs.head? ≠ some '[') : Mistaken cs
  | bare {i : Ipv6Address} {cs : List Char} (text : i.IsText cs) : Mistaken cs
  | padded {cs : List Char} {c : Char} (mem : c ∈ cs) (blank : isBlank c) : Mistaken cs
  | ported {h : List Char} {ip : IpAddress} {scope : UInt32} (host : HostText h ip scope)
      (port : List Char) : Mistaken (h ++ ':' :: port)

theorem HostText.ne_nil (host : HostText cs ip scope) : cs ≠ [] := by
  cases host with
  | v4 i => simp [Ipv4Address.dotted]
  | v6 => simp

theorem HostText.not_bare {i : Ipv6Address} (host : HostText cs ip scope) : ¬ i.IsText cs := by
  intro text
  cases host with
  | v4 i =>
    obtain hdigit | hdot := Ipv4Address.digit_of_mem_dotted text.colon
    · exact absurd hdigit (by decide)
    · exact absurd hdot (by decide)
  | v6 => exact absurd (text.characters '[' (by simp)) (by decide)

theorem HostText.closed {r : List Char} (host : HostText ('[' :: r) ip scope) :
    ∃ u, r = u ++ [']'] ∧ ']' ∉ u := by
  generalize hcs : '[' :: r = cs at host
  cases host with
  | v4 i =>
    have mem : '[' ∈ i.dotted := hcs ▸ List.mem_cons_self
    exact absurd (Ipv4Address.digit_of_mem_dotted mem) (by decide)
  | @v6 i t s scope text number =>
    refine ⟨t ++ s, by simpa using hcs, fun mem => ?_⟩
    exact absurd (inner_characters text number _ mem) (by decide)

theorem HostText.not_ported {other : IpAddress} {number : UInt32} {port : List Char}
    (host : HostText h other number) : ¬ HostText (h ++ ':' :: port) ip scope := by
  intro ported
  by_cases head : (h ++ ':' :: port).head? = some '['
  -- the bracket that closes the host would have to come last
  · obtain ⟨x, r, rfl⟩ := List.exists_cons_of_ne_nil host.ne_nil
    obtain rfl : x = '[' := by simpa using head
    obtain ⟨u, rfl, -⟩ := host.closed
    obtain ⟨w, hw, hclosing⟩ := ported.closed
    have htext : w ++ ']' :: [] = u ++ ']' :: ':' :: port := by simpa [eq_comm] using hw
    obtain ⟨-, -, hport⟩ := (List.append_cons_inj_of_notMem hclosing List.not_mem_nil).1 htext
    cases hport
  · exact absurd (ported.bare head ':' (by simp)) (by decide)

theorem Mistaken.not_host (mistaken : Mistaken cs) : ¬ HostText cs ip scope := by
  intro host
  cases mistaken with
  | empty => exact host.ne_nil rfl
  | name mem digit dot head =>
    obtain hdigit | hdot := host.bare head _ mem
    · simp [digit] at hdigit
    · exact dot hdot
  | bare text => exact host.not_bare text
  | padded mem blank =>
    obtain hhex | hmark := host.characters _ mem
    · simp [isBlank_of_isHex hhex] at blank
    · simp only [List.mem_cons, List.not_mem_nil, or_false] at hmark
      rcases hmark with rfl | rfl | rfl | rfl | rfl <;> exact absurd blank (by decide)
  | ported inner port => exact inner.not_ported host

namespace Network

theorem split_last {h' ds' : List Char} (hds : ':' ∉ ds) (hds' : ':' ∉ ds')
    (heq : h ++ ':' :: ds = h' ++ ':' :: ds') : h = h' ∧ ds = ds' := by
  -- if one of both were longer, a colon would stand in what follows the other
  obtain ⟨m, rfl, hm⟩ | ⟨m, rfl, hm⟩ := List.append_eq_append_iff.1 heq
  · cases m with
    | nil => simpa using hm
    | cons c m => exact absurd ((List.cons.inj hm).2 ▸ by simp) hds
  · cases m with
    | nil => simpa [eq_comm] using hm
    | cons c m => exact absurd ((List.cons.inj hm).2 ▸ by simp) hds'

theorem toList_joined (host : String) (port : Nat) :
    (s!"{host}:{port}").toList = host.toList ++ ':' :: Nat.toDigits 10 port := by
  have hcolon : (toString ":").toList = [':'] := by decide
  have hhost : toString host = host := rfl
  simp [hcolon, hhost]

/-- A host has an address on every port, and nothing else has one. -/
theorem resolve?_iff (host : String) (port : Nat) : resolve? host port = some a ↔
    a.port.toNat = port ∧ HostText host.toList a.ip a.scope := by
  rw [resolve?, SocketAddress.parse?_iff, toList_joined]
  have hcolon : ∀ {ds : List Char}, (∀ c ∈ ds, isDigit c) → ':' ∉ ds :=
    fun digits mem => absurd (digits _ mem) (by decide)
  constructor
  · rintro ⟨heq, text, spells, -⟩
    rw [List.append_nil] at heq
    obtain ⟨rfl, rfl⟩ := split_last (hcolon (Numeral.isDigit_toDigits port))
      (hcolon (isDigit_of_spells spells)) heq
    refine ⟨spells.unique (by decide) ?_, text⟩
    exact spells_toDigits (by decide) (by decide) port
  · rintro ⟨rfl, text⟩
    exact .intro (by simp) text (spells_toDigits (by decide) (by decide) _) nofun

example : resolve? "[fe80::1%2]" 80 =
    some ⟨.v6 (.ofGroups [0xfe80, 0, 0, 0, 0, 0, 0, 1]), 80, 2⟩ := by decide

variable {n n' : Network} {host : String} {port : UInt16}

theorem resolve?_port : resolve? host port.toNat = some a ↔
    a.port = port ∧ HostText host.toList a.ip a.scope := by
  rw [resolve?_iff, UInt16.toNat_inj]

theorem resolve?_eq_none_iff : resolve? host port.toNat = none ↔
    ¬ ∃ ip scope, HostText host.toList ip scope := by
  constructor
  · rintro hnone ⟨ip, scope, text⟩
    rw [(resolve?_port (a := ⟨ip, port, scope⟩)).2 ⟨rfl, text⟩] at hnone
    cases hnone
  · refine fun hno => Option.eq_none_iff_forall_not_mem.2 fun a ha => hno ?_
    exact ⟨a.ip, a.scope, (resolve?_port.1 ha).2⟩

theorem listen_ok (h : n.listen a = .ok (b, n')) :
    b = { a with port := if a.port = 0 then n.freePort else a.port } ∧
      n'.listening = n.listening ++ [b] := by
  simp only [listen] at h
  split at h
  · cases h
  split at h
  · cases h
  · cases h
    split <;> exact ⟨rfl, rfl⟩

theorem listen_error {f : BindFault} (h : n.listen a = .error f) : ∃ e, f = .refused a e := by
  simp only [listen] at h
  split at h
  · cases h
    exact ⟨_, rfl⟩
  split at h
  · cases h
    exact ⟨_, rfl⟩
  · cases h

theorem bind_of_resolve? (h : resolve? host port.toNat = some a) :
    n.bind host port.toNat = n.listen a := by
  delta bind
  simp only [h]

theorem bind_of_no_host (h : ¬ ∃ ip scope, HostText host.toList ip scope) :
    n.bind host port.toNat = .error .invalidAddress := by
  delta bind
  simp only [resolve?_eq_none_iff.2 h]

theorem bind_cases (n : Network) (host : String) (port : UInt16) :
    n.bind host port.toNat = .error .invalidAddress ∧
        (¬ ∃ ip scope, HostText host.toList ip scope) ∨
      ∃ a : SocketAddress, n.bind host port.toNat = n.listen a ∧ a.port = port ∧
        HostText host.toList a.ip a.scope := by
  by_cases h : ∃ ip scope, HostText host.toList ip scope
  · obtain ⟨ip, scope, text⟩ := h
    have hresolved := (resolve?_port (a := ⟨ip, port, scope⟩)).2 ⟨rfl, text⟩
    exact .inr ⟨_, bind_of_resolve? hresolved, rfl, text⟩
  · exact .inl ⟨bind_of_no_host h, h⟩

/-- A host and a port are bound exactly: what is listened on or asked for is what both tell. -/
structure Exact (n : Network) (host : String) (port : UInt16) : Prop where
  resolved : ∀ a, resolve? host port.toNat = some a ↔
    a.port = port ∧ HostText host.toList a.ip a.scope
  /-- The whole text tells one address. -/
  told : ∀ ip ip' scope scope', HostText host.toList ip scope → HostText host.toList ip' scope' →
    ip = ip' ∧ scope = scope'
  ipv4 : ∀ i : Ipv4Address, host = i.toText → resolve? host port.toNat = some ⟨.v4 i, port, 0⟩
  ipv6 : ∀ i : Ipv6Address, i.Standard i.toText.toList ∧
    (host = "[" ++ i.toText ++ "]" → resolve? host port.toNat = some ⟨.v6 i, port, 0⟩)
  /-- Port zero leaves the choice to the system. -/
  listening : ∀ a n', n.bind host port.toNat = .ok (a, n') →
    HostText host.toList a.ip a.scope ∧ a.port = (if port = 0 then n.freePort else port) ∧
      n'.listening = n.listening ++ [a]
  refused : ∀ a e, n.bind host port.toNat = .error (.refused a e) →
    HostText host.toList a.ip a.scope ∧ a.port = port
  invalid : n.bind host port.toNat = .error .invalidAddress ↔
    ¬ ∃ ip scope, HostText host.toList ip scope
  mistaken : Mistaken host.toList → ¬ ∃ ip scope, HostText host.toList ip scope
  /-- Without a host nothing is opened, and everything stays as it was. -/
  unopened : (¬ ∃ ip scope, HostText host.toList ip scope) → ∀ l : Lifetime,
    l.bootstrap.config.server.host = host → l.bootstrap.config.server.port = port.toNat →
      l.bind = (.error (.server (.bind "invalid address: invalid socket address syntax")), l)

theorem bind_exact (n : Network) (host : String) (port : UInt16) : n.Exact host port where
  resolved _ := resolve?_port
  told ip ip' scope scope' h h' := by
    have hfirst := (resolve?_port (a := ⟨ip, port, scope⟩)).2 ⟨rfl, h⟩
    have hsecond := (resolve?_port (a := ⟨ip', port, scope'⟩)).2 ⟨rfl, h'⟩
    obtain ⟨rfl, -, rfl⟩ := SocketAddress.mk.inj (Option.some.inj (hfirst.symm.trans hsecond))
    exact ⟨rfl, rfl⟩
  ipv4 := by
    rintro i rfl
    exact resolve?_port.2 ⟨rfl, i.toList_toText ▸ .v4 i⟩
  ipv6 i := by
    have standard := Ipv6Address.standard_iff.2 (rfl : i.toText.toList = _)
    refine ⟨standard, ?_⟩
    rintro rfl
    have host := HostText.v6 (Ipv6Address.isText_of_standard standard) .none
    exact resolve?_port.2 ⟨rfl, by simpa using host⟩
  listening a n' h := by
    obtain ⟨hno, -⟩ | ⟨asked, hasked, rfl, text⟩ := bind_cases n host port
    · cases hno.symm.trans h
    · obtain ⟨rfl, hlistening⟩ := listen_ok (hasked.symm.trans h)
      exact ⟨text, rfl, hlistening⟩
  refused a e h := by
    obtain ⟨hno, -⟩ | ⟨asked, hasked, hport, text⟩ := bind_cases n host port
    · cases hno.symm.trans h
    · obtain ⟨_, hfault⟩ := listen_error (hasked.symm.trans h)
      cases hfault
      exact ⟨text, hport⟩
  invalid := by
    refine ⟨fun h => ?_, bind_of_no_host⟩
    obtain ⟨-, hno⟩ | ⟨asked, hasked, -, -⟩ := bind_cases n host port
    · exact hno
    · obtain ⟨_, hfault⟩ := listen_error (hasked.symm.trans h)
      cases hfault
  mistaken := fun mistaken ⟨_, _, host⟩ => mistaken.not_host host
  unopened := by
    rintro hno l rfl hport
    delta Lifetime.bind Bootstrap.bind
    simp only [hport, bind_of_no_host hno]
    rfl

end Network

end SearchRelay

import SearchRelay.Config.Overrides
import SearchRelay.Proofs.Numeral

namespace SearchRelay.Text

/-- A decimal number of at most `max`, with any zeros in front and at most a plus sign. -/
def BoundedNumeral (max : Nat) (cs : List Char) (n : Nat) : Prop :=
  ∃ ds, (cs = ds ∨ cs = '+' :: ds) ∧ ds ≠ [] ∧ (∀ d ∈ ds, isDigit d) ∧
    Nat.ofDigitChars 10 ds 0 = n ∧ n ≤ max

/-- A plus sign does not count, unless it stands alone. -/
def withoutSign : List Char → List Char
  | '+' :: c :: r => c :: r
  | cs => cs

/-- The first character, from the left, that is no digit or takes the value past `max`. -/
def Offends (max acc : Nat) (cs : List Char) (why : NumeralError) : Prop :=
  ∃ before c after, cs = before ++ c :: after ∧ (∀ d ∈ before, isDigit d) ∧
    Nat.ofDigitChars 10 before acc ≤ max ∧
      (isDigit c = false ∧ why = .invalidDigit ∨
        isDigit c ∧ max < Nat.ofDigitChars 10 (before ++ [c]) acc ∧ why = .tooLarge)

def Refused (max : Nat) (cs : List Char) (why : NumeralError) : Prop :=
  cs = [] ∧ why = .empty ∨ Offends max 0 (withoutSign cs) why

variable {max acc n : Nat} {c : Char} {cs : List Char} {why : NumeralError}

theorem digitValue?_of_isDigit (h : isDigit c) : digitValue? 10 c = some (c.toNat - 48) := by
  obtain ⟨hlt, hchar⟩ := Numeral.digitChar_toNat h
  have hvalue := Numeral.digitValue?_digitChar (b := 10) (by decide) hlt
  rwa [hchar] at hvalue

theorem digitValue?_of_not_isDigit (h : isDigit c = false) : digitValue? 10 c = none := by
  have hletter {x : Char} {k : Nat} (hx : x ≤ c) (hk : k + 10 ≤ x.toNat) : ¬ c.toNat - k < 10 := by
    have hle : x.toNat ≤ c.toNat := UInt32.le_iff_toNat_le.1 hx
    omega
  have hno : ('0' ≤ c && c ≤ '9') = false := h
  unfold digitValue?
  rw [hno, if_neg Bool.false_ne_true]
  refine if_neg ?_
  split
  · rename_i hc
    exact hletter (of_decide_eq_true (Bool.and_eq_true_iff.1 hc).1) (by decide)
  split
  · rename_i hc
    exact hletter (of_decide_eq_true (Bool.and_eq_true_iff.1 hc).1) (by decide)
  · decide

section

theorem not_offends_nil : ¬ Offends max acc [] why := by
  rintro ⟨_ | _, c, after, hcs, -⟩ <;> cases hcs

theorem offends_of_not_isDigit (hacc : acc ≤ max) (hc : isDigit c = false) :
    Offends max acc (c :: cs) why ↔ why = .invalidDigit := by
  constructor
  · rintro ⟨_ | ⟨b, before⟩, d, after, hcs, hdigits, -, hwhy⟩
    · obtain ⟨rfl, rfl⟩ := List.cons.inj hcs
      simp only [hc, true_and, Bool.false_eq_true, false_and, or_false] at hwhy
      exact hwhy
    · obtain ⟨rfl, rfl⟩ := List.cons.inj hcs
      rw [hdigits c (by simp)] at hc
      cases hc
  · rintro rfl
    exact ⟨[], c, cs, rfl, nofun, hacc, .inl ⟨hc, rfl⟩⟩

theorem offends_of_large (hacc : acc ≤ max) (hc : isDigit c)
    (hlarge : max < acc * 10 + (c.toNat - 48)) :
    Offends max acc (c :: cs) why ↔ why = .tooLarge := by
  constructor
  · rintro ⟨_ | ⟨b, before⟩, d, after, hcs, hdigits, hbefore, hwhy⟩
    · obtain ⟨rfl, rfl⟩ := List.cons.inj hcs
      simp only [hc, Bool.true_eq_false, false_and, true_and, false_or] at hwhy
      exact hwhy.2
    · obtain ⟨rfl, rfl⟩ := List.cons.inj hcs
      rw [Numeral.ofDigitChars_cons] at hbefore
      have hle := Numeral.le_ofDigitChars before (acc * 10 + (c.toNat - 48))
      omega
  · rintro rfl
    exact ⟨[], c, cs, rfl, nofun, hacc, .inr ⟨hc, by rwa [List.nil_append,
      Numeral.ofDigitChars_cons], rfl⟩⟩

theorem offends_of_small (hc : isDigit c) (hsmall : acc * 10 + (c.toNat - 48) ≤ max) :
    Offends max acc (c :: cs) why ↔ Offends max (acc * 10 + (c.toNat - 48)) cs why := by
  constructor
  · rintro ⟨_ | ⟨b, before⟩, d, after, hcs, hdigits, hbefore, hwhy⟩
    · obtain ⟨rfl, rfl⟩ := List.cons.inj hcs
      rw [List.nil_append, Numeral.ofDigitChars_cons] at hwhy
      simp only [hc, Bool.true_eq_false, false_and, true_and, false_or] at hwhy
      exact absurd hwhy.1 (Nat.not_lt.2 hsmall)
    · obtain ⟨rfl, rfl⟩ := List.cons.inj hcs
      rw [List.cons_append, Numeral.ofDigitChars_cons] at hwhy
      rw [Numeral.ofDigitChars_cons] at hbefore
      exact ⟨before, d, after, rfl, fun x hx => hdigits x (.tail _ hx), hbefore, hwhy⟩
  · rintro ⟨before, d, after, rfl, hdigits, hbefore, hwhy⟩
    refine ⟨c :: before, d, after, rfl, List.forall_mem_cons.2 ⟨hc, hdigits⟩, ?_, ?_⟩
    · rwa [Numeral.ofDigitChars_cons]
    · rwa [List.cons_append, Numeral.ofDigitChars_cons]

end

theorem boundedDigits_error_iff (hacc : acc ≤ max) :
    boundedDigits max cs acc = .error why ↔ Offends max acc cs why := by
  induction cs generalizing acc with
  | nil => exact ⟨nofun, fun h => absurd h not_offends_nil⟩
  | cons c cs ih =>
    cases hc : isDigit c with
    | false =>
      rw [boundedDigits, digitValue?_of_not_isDigit hc, offends_of_not_isDigit hacc hc, eq_comm]
      simp
    | true =>
      rw [boundedDigits, digitValue?_of_isDigit hc]
      dsimp only
      split
      · rename_i hlarge
        rw [offends_of_large hacc hc hlarge, eq_comm]
        simp
      · rename_i hsmall
        have hsmall := Nat.le_of_not_lt hsmall
        rw [ih hsmall, offends_of_small hc hsmall]

theorem boundedDigits_ok_iff (hacc : acc ≤ max) : boundedDigits max cs acc = .ok n ↔
    (∀ d ∈ cs, isDigit d) ∧ Nat.ofDigitChars 10 cs acc = n ∧ n ≤ max := by
  induction cs generalizing acc with
  | nil =>
    have hnil : Nat.ofDigitChars 10 [] acc = acc := rfl
    simp only [boundedDigits, hnil, Except.ok.injEq, List.not_mem_nil, false_imp_iff,
      implies_true, true_and]
    exact ⟨fun h => ⟨h, h ▸ hacc⟩, And.left⟩
  | cons c cs ih =>
    rw [List.forall_mem_cons]
    cases hc : isDigit c with
    | false =>
      rw [boundedDigits, digitValue?_of_not_isDigit hc]
      exact ⟨nofun, fun ⟨⟨hfirst, _⟩, _⟩ => nomatch hfirst⟩
    | true =>
      rw [boundedDigits, digitValue?_of_isDigit hc, Numeral.ofDigitChars_cons]
      dsimp only
      split
      · rename_i hlarge
        refine ⟨nofun, fun ⟨_, hvalue, hbound⟩ => ?_⟩
        have hle := Numeral.le_ofDigitChars cs (acc * 10 + (c.toNat - 48))
        omega
      · rename_i hsmall
        rw [ih (Nat.le_of_not_lt hsmall)]
        simp

theorem readBounded_of_ne_nil {s : String} (h : s.toList ≠ []) :
    readBounded max s = boundedDigits max (withoutSign s.toList) 0 := by
  unfold readBounded
  split
  · contradiction
  · rename_i hs
    rw [hs]
    rfl
  · rename_i r hr hs
    rw [hs]
    cases r with
    | nil => exact absurd rfl hr
    | cons c r => rfl
  · rename_i h₁ h₂ h₃
    rw [withoutSign]
    exact fun c r => h₃ (c :: r)

theorem withoutSign_ne_nil (h : cs ≠ []) : withoutSign cs ≠ [] := by
  unfold withoutSign
  split
  · nofun
  · exact h

theorem withoutSign_of_digits (h : ∀ d ∈ cs, isDigit d) : withoutSign cs = cs := by
  unfold withoutSign
  split
  · cases h '+' (by simp)
  · rfl

theorem readBounded_ok_iff (max : Nat) {s : String} :
    readBounded max s = .ok n ↔ BoundedNumeral max s.toList n := by
  by_cases hs : s.toList = []
  · have hempty : readBounded max s = .error .empty := by
      rw [readBounded, hs]
    rw [hempty, hs]
    refine ⟨nofun, ?_⟩
    rintro ⟨ds, rfl | hds, ne_nil, -⟩
    · exact absurd rfl ne_nil
    · cases hds
  · rw [readBounded_of_ne_nil hs, boundedDigits_ok_iff (Nat.zero_le _)]
    constructor
    · rintro ⟨digits, hvalue, hbound⟩
      refine ⟨withoutSign s.toList, ?_, withoutSign_ne_nil hs, digits, hvalue, hbound⟩
      unfold withoutSign
      split
      · rename_i hs
        exact .inr hs
      · exact .inl rfl
    · rintro ⟨ds, hds | hds, ne_nil, digits, hvalue, hbound⟩
      · rw [hds, withoutSign_of_digits digits]
        exact ⟨digits, hvalue, hbound⟩
      · obtain ⟨d, r, rfl⟩ := List.exists_cons_of_ne_nil ne_nil
        rw [hds, withoutSign]
        exact ⟨digits, hvalue, hbound⟩

theorem readBounded_error_iff (max : Nat) {s : String} :
    readBounded max s = .error why ↔ Refused max s.toList why := by
  by_cases hs : s.toList = []
  · have hempty : readBounded max s = .error .empty := by
      rw [readBounded, hs]
    rw [hempty, hs, Refused, withoutSign, or_iff_left not_offends_nil]
    simp [eq_comm]
    nofun
  · rw [readBounded_of_ne_nil hs, boundedDigits_error_iff (Nat.zero_le _), Refused,
      or_iff_right fun h => hs h.1]

example : readBounded 65535 "+0065536x" = .error .tooLarge := by cbv

end SearchRelay.Text

namespace SearchRelay.Config

open Text (BoundedNumeral Refused)

/-- How the environment decides a configuration. -/
structure Overridden (c : Config) (lookup : String → Option String) : Prop where
  rest : (c.override lookup).1 = { c with
    search := { c.search with root := (lookup "CEDAR_SEARCH_ROOT").getD c.search.root }
    server := { c.server with port := (c.override lookup).1.server.port } }
  unset : lookup "CEDAR_PORT" = none →
    (c.override lookup).1.server.port = c.server.port ∧ (c.override lookup).2 = []
  port {text : String} : lookup "CEDAR_PORT" = some text → ∀ n,
    (c.override lookup).1.server.port = n ∧ (c.override lookup).2 = [] ↔
      BoundedNumeral 65535 text.toList n
  ignored {text : String} : lookup "CEDAR_PORT" = some text →
    (∀ n, ¬ BoundedNumeral 65535 text.toList n) →
      (c.override lookup).1.server.port = c.server.port ∧
        ∃ why, Refused 65535 text.toList why ∧ (c.override lookup).2 = [.invalidPort text why]
  reason {text : String} : lookup "CEDAR_PORT" = some text → ∀ why,
    (c.override lookup).2 = [.invalidPort text why] ↔ Refused 65535 text.toList why
  twice : (c.override lookup).1.override lookup = c.override lookup

variable {c : Config} {lookup : String → Option String} {text : String}

def withRoot (c : Config) (lookup : String → Option String) : Config :=
  { c with search := { c.search with root := (lookup "CEDAR_SEARCH_ROOT").getD c.search.root } }

theorem override_unset (h : lookup "CEDAR_PORT" = none) :
    c.override lookup = (c.withRoot lookup, []) := by
  simp only [override, h, withRoot]
  cases lookup "CEDAR_SEARCH_ROOT" <;> rfl

theorem override_ok {n : Nat} (h : lookup "CEDAR_PORT" = some text)
    (hport : Text.readBounded maxPort text = .ok n) : c.override lookup =
      ({ c.withRoot lookup with server := { c.server with port := n } }, []) := by
  simp only [override, h, hport, withRoot]
  cases lookup "CEDAR_SEARCH_ROOT" <;> rfl

theorem override_error {why : Text.NumeralError} (h : lookup "CEDAR_PORT" = some text)
    (hport : Text.readBounded maxPort text = .error why) :
    c.override lookup = (c.withRoot lookup, [.invalidPort text why]) := by
  simp only [override, h, hport, withRoot]
  cases lookup "CEDAR_SEARCH_ROOT" <;> rfl

theorem withRoot_withRoot : (c.withRoot lookup).withRoot lookup = c.withRoot lookup := by
  unfold withRoot
  cases lookup "CEDAR_SEARCH_ROOT" <;> rfl

theorem override_rest (c : Config) (lookup : String → Option String) :
    (c.override lookup).1 = { c with
      search := { c.search with root := (lookup "CEDAR_SEARCH_ROOT").getD c.search.root }
      server := { c.server with port := (c.override lookup).1.server.port } } := by
  cases hlookup : lookup "CEDAR_PORT" with
  | none =>
    rw [override_unset hlookup]
    rfl
  | some text =>
    cases hport : Text.readBounded maxPort text with
    | ok n =>
      rw [override_ok hlookup hport]
      rfl
    | error why =>
      rw [override_error hlookup hport]
      rfl

theorem override_twice (c : Config) (lookup : String → Option String) :
    (c.override lookup).1.override lookup = c.override lookup := by
  cases hlookup : lookup "CEDAR_PORT" with
  | none => rw [override_unset hlookup, override_unset hlookup, withRoot_withRoot]
  | some text =>
    cases hport : Text.readBounded maxPort text with
    | ok n =>
      rw [override_ok hlookup hport, override_ok hlookup hport]
      simp only [withRoot]
      cases lookup "CEDAR_SEARCH_ROOT" <;> rfl
    | error why =>
      rw [override_error hlookup hport, override_error hlookup hport, withRoot_withRoot]

/-- The root follows the environment, and the port if its text is one. -/
theorem override_overridden (c : Config) (lookup : String → Option String) :
    Overridden c lookup where
  rest := override_rest c lookup
  unset h := by
    rw [override_unset h]
    exact ⟨rfl, rfl⟩
  port h n := by
    refine Iff.trans ?_ (Text.readBounded_ok_iff maxPort)
    cases hport : Text.readBounded maxPort _ with
    | ok m => simp [override_ok h hport]
    | error why => simp [override_error h hport]
  ignored h hno := by
    cases hport : Text.readBounded maxPort _ with
    | ok n => exact absurd ((Text.readBounded_ok_iff maxPort).1 hport) (hno n)
    | error why =>
      rw [override_error h hport]
      exact ⟨rfl, why, (Text.readBounded_error_iff maxPort).1 hport, rfl⟩
  reason h why := by
    refine Iff.trans ?_ (Text.readBounded_error_iff maxPort)
    cases hport : Text.readBounded maxPort _ with
    | ok n => simp [override_ok h hport]
    | error why' => simp [override_error h hport]
  twice := override_twice c lookup

end SearchRelay.Config

import SearchRelay.Proofs.Yaml.Documents
import SearchRelay.Yaml.Decoder

namespace SearchRelay.Yaml.Decoder

variable {α σ V : Type}

/-- Of every node with a property, a decoder makes a value. -/
def Takes (decoder : Decoder α) (P : Node → Prop) (a : α) : Prop :=
  ∀ d path n, P n → decoder d path n = .ok a

theorem takes_scalar (expected s : String) (style : Style) :
    Takes (text expected) (Node.IsScalar s style) s := by
  rintro d path n ⟨m, rfl⟩
  rfl

theorem toDigits_ne_cons (n : Nat) {x : Char} (h : Text.isDigit x = false) (r : List Char) :
    Nat.toDigits 10 n ≠ x :: r := by
  intro heq
  have hdigit := Numeral.isDigit_toDigits n x (by simp [heq])
  rw [h] at hdigit
  exact Bool.false_ne_true hdigit

theorem hasLeadingZero_toDigits (n : Nat) : Resolve.hasLeadingZero (Nat.toDigits 10 n) = false := by
  unfold Resolve.hasLeadingZero
  split
  · rename_i heq
    exact absurd heq (toDigits_ne_cons n (by decide) _)
  · rename_i heq
    exact absurd heq (toDigits_ne_cons n (by decide) _)
  · dsimp only
    split
    · rename_i r heq
      rw [Numeral.toDigits_zero heq]
      rfl
    · rfl

theorem magnitude?_toDigits (n : Nat) : Resolve.magnitude? (Nat.toDigits 10 n) = some n := by
  have hmark {x : Char} {r : List Char} : Nat.toDigits 10 n ≠ '0' :: x :: r := fun heq =>
    absurd (Numeral.toDigits_zero heq) (by simp)
  have hvalue : Text.readNat? 10 (Nat.toDigits 10 n) = some n := by
    obtain ⟨x, r, hdigits, -⟩ := Numeral.toDigits_eq_cons n
    have hspells := Numeral.natOfDigits?_toDigits (b := 10) (by decide) (by decide) n
    rwa [hdigits] at hspells ⊢
  unfold Resolve.magnitude?
  split
  case h_1 heq => exact absurd heq hmark
  case h_2 heq => exact absurd heq hmark
  case h_3 heq => exact absurd heq hmark
  case h_4 => rw [hasLeadingZero_toDigits, hvalue]; rfl

theorem integer?_toDigits (n : Nat) : Resolve.integer? (Nat.toDigits 10 n) = some (n : Int) := by
  unfold Resolve.integer?
  split
  case h_1 heq => exact absurd heq (toDigits_ne_cons n (by decide) _)
  case h_2 heq => exact absurd heq (toDigits_ne_cons n (by decide) _)
  case h_3 => rw [magnitude?_toDigits]; rfl

theorem unsigned?_toDigits {n : Nat} (h : n < Nat.pow 2 64) :
    Resolve.unsigned? (Nat.toDigits 10 n) = some n := by
  unfold Resolve.unsigned?
  split
  case h_1 heq => exact absurd heq (toDigits_ne_cons n (by decide) _)
  case h_2 =>
    have hbound : (n : Int) < Nat.pow 2 64 := Int.ofNat_lt.2 h
    rw [integer?_toDigits]
    simp only [if_pos hbound, Int.toNat_natCast]

theorem takes_number {n max : Nat} (expected : String) (h : n ≤ max) (hmax : max < Nat.pow 2 64) :
    Takes (unsigned max expected) (Node.IsCell (.number n)) n := by
  rintro d path n' ⟨m, rfl⟩
  have hnumber := unsigned?_toDigits (Nat.lt_of_le_of_lt h hmax)
  simp [unsigned, Document.resolve, Scalar.canBeInteger, hnumber, h]

theorem items_of_takes {item : Decoder String}
    (h : ∀ s, Takes item (Node.IsScalar s .doubleQuoted) s) (d : Document) (path : Path)
    {texts : List String} {ns : List Node}
    (hns : List.Forall₂ (fun text n => Node.IsScalar text .doubleQuoted n) texts ns) (i : Nat) :
    items item d path i ns = .ok texts := by
  induction hns generalizing i with
  | nil => rfl
  | cons hn _ ih =>
    rw [items, h _ d _ _ hn]
    simp [ih, bind, Except.bind, pure, Except.pure]

theorem takes_list {item : Decoder String} (h : ∀ s, Takes item (Node.IsScalar s .doubleQuoted) s)
    (indent : Nat) (items : List Item) :
    Takes (list item) (Node.IsCell (.list indent items)) (items.map Item.text) := by
  rintro d path n ⟨m, ns, rfl, hns⟩
  exact items_of_takes h d path hns 0

/-- Rows of which each sets a field of its own turn one value into another. -/
inductive Fills (fields : List (Field σ)) (P : V → Node → Prop) : List (Row V) → σ → σ → Prop
  | nil (s : σ) : Fills fields P [] s s
  | cons {row : Row V} {rows : List (Row V)} {f : Field σ} {set : σ → σ} {s s' : σ}
      (found : (fields.find? fun f => f.name == row.name.val) = some f)
      (takes : Takes f.read (P row.value) set)
      (single : ∀ row' ∈ rows, row'.name ≠ row.name) (rest : Fills fields P rows (set s) s') :
      Fills fields P (row :: rows) s s'

variable {fields : List (Field σ)} {P : V → Node → Prop} {rows : List (Row V)} {s s' : σ}

theorem members_of_fills (h : Fills fields P rows s s') {ms : List (Node × Node)}
    (hms : Node.AreMembers P rows ms) (d : Document) (path : Path) (m : Mark) {seen : List String}
    (hseen : ∀ row ∈ rows, row.name.val ∉ seen) :
    members fields d path m ms seen s = .ok s' := by
  induction h generalizing ms seen with
  | nil =>
    cases hms
    rfl
  | @cons row rows f set s s' found takes single _ ih =>
    obtain _ | ⟨⟨⟨mark, hname⟩, hvalue⟩, hrows⟩ := hms
    rename_i kv ms
    obtain ⟨k, v⟩ := kv
    obtain rfl : k = _ := hname
    obtain ⟨hfirst, hothers⟩ := List.forall_mem_cons.1 hseen
    have hkey : key d path (.scalar mark ⟨none, row.name.val, .plain⟩) =
        .ok (row.name.val, .key row.name.val) := rfl
    have hnew : seen.contains row.name.val = false := by simpa using hfirst
    have hunseen : ∀ row' ∈ rows, row'.name.val ∉ row.name.val :: seen := by
      intro row' hrow'
      rw [List.mem_cons, not_or]
      exact ⟨fun hsame => single row' hrow' (Subtype.ext hsame), hothers row' hrow'⟩
    rw [members, hkey]
    simp only [bind, Except.bind, found, hnew, Bool.false_eq_true, if_false, takes d _ v hvalue,
      ih hrows hunseen]

theorem takes_record (expected : String) (h : Fills fields P rows s s') :
    Takes (record expected fields s) (Node.IsMapping P rows) s' := by
  intro d path n hn
  cases rows with
  | nil =>
    cases h
    obtain ⟨m, rfl⟩ := hn
    rfl
  | cons row rows =>
    obtain ⟨m, ms, rfl, hms⟩ := hn
    exact members_of_fills h hms d path m (by simp)

end SearchRelay.Yaml.Decoder

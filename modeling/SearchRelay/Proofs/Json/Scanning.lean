import SearchRelay.Json.Printer
import SearchRelay.Json.Reader

namespace SearchRelay.Json

namespace Place

def past (p : Place) (text : List Char) : Place := text.foldl after p

@[simp] theorem past_nil (p : Place) : p.past [] = p := rfl

@[simp] theorem past_cons (p : Place) (x : Char) (text : List Char) :
    p.past (x :: text) = (p.after x).past text := rfl

@[simp] theorem past_append (p : Place) (text more : List Char) :
    p.past (text ++ more) = (p.past text).past more := List.foldl_append

end Place

namespace Cursor

variable {α β : Type}

/-- In front of some rest, a reader takes a text and makes a value of it. -/
def Takes (read : Cursor → Except Error (α × Cursor)) (text : List Char) (a : α)
    (rest : List Char) : Prop :=
  ∀ p, read ⟨text ++ rest, p⟩ = .ok (a, ⟨rest, p.past text⟩)

@[simp] theorem advance_cons (x : Char) (r : List Char) (p : Place) :
    advance ⟨x :: r, p⟩ = ⟨r, p.after x⟩ := rfl

theorem advanceBy_append (text rest : List Char) (p : Place) :
    advanceBy text.length ⟨text ++ rest, p⟩ = ⟨rest, p.past text⟩ := by
  induction text generalizing p with
  | nil => rfl
  | cons x text ih => exact ih (p.after x)

theorem skipBlanks_cons {x : Char} (h : isSpace x = false) (r : List Char) (p : Place) :
    skipBlanks ⟨x :: r, p⟩ = ⟨x :: r, p⟩ := by
  simp [skipBlanks, skipSpace, h]

theorem hexUnit_low (n : Fin 32) (rest : List Char) (p : Place) :
    hexUnit ⟨'0' :: '0' :: Nat.digitChar (n / 16) :: Nat.digitChar (n % 16) :: rest, p⟩ =
      .ok (n, ⟨rest, p.past ['0', '0', Nat.digitChar (n / 16), Nat.digitChar (n % 16)]⟩) := by
  have hsize : ∀ n : Fin 32, ¬ (String.ofList ['0', '0', Nat.digitChar (n / 16),
      Nat.digitChar (n % 16)]).utf8ByteSize < 4 := by decide
  have hdigits : ∀ n : Fin 32, Text.natOfDigits? 16 ['0', '0', Nat.digitChar (n / 16),
      Nat.digitChar (n % 16)] 0 = some n.val := by decide
  have htake :
      List.take 4 ('0' :: '0' :: Nat.digitChar (n / 16) :: Nat.digitChar (n % 16) :: rest) =
        ['0', '0', Nat.digitChar (n / 16), Nat.digitChar (n % 16)] := rfl
  simp only [hexUnit, htake, if_neg (hsize n), hdigits n]
  rfl

theorem stringLoop_escape (fuel : Nat) (c : Char) (rest acc : List Char) (p : Place) :
    stringLoop (fuel + 1) ⟨escape c ++ rest, p⟩ acc =
      stringLoop fuel ⟨rest, p.past (escape c)⟩ (c :: acc) := by
  unfold escape
  split
  -- Those with a letter of their own are read by computation.
  all_goals try rfl
  rename_i hquote hslash _ _ _ _ _
  by_cases hc : c.toNat < 0x20
  · rw [if_pos hc]
    have hunit := hexUnit_low ⟨c.toNat, hc⟩ rest ((p.after '\\').after 'u')
    have hescape : unicodeEscape ⟨'0' :: '0' :: Nat.digitChar (c.toNat / 16) ::
        Nat.digitChar (c.toNat % 16) :: rest, (p.after '\\').after 'u'⟩ =
        .ok (c, ⟨rest, ((p.after '\\').after 'u').past
          ['0', '0', Nat.digitChar (c.toNat / 16), Nat.digitChar (c.toNat % 16)]⟩) := by
      have hleading : isLeading c.toNat = false := by
        simp [isLeading]
        omega
      have htrailing : isTrailing c.toNat = false := by
        simp [isTrailing]
        omega
      simp only [unicodeEscape, hunit, bind, Except.bind, hleading, htrailing, pure, Except.pure]
      simp
    simp only [List.cons_append, List.nil_append, stringLoop, advance_cons, hescape]
    rfl
  · rw [if_neg hc]
    simp only [List.cons_append, List.nil_append]
    rw [stringLoop]
    split
    · contradiction
    · rename_i heq
      exact absurd (List.cons.inj heq).1 hquote
    · rename_i heq
      exact absurd (List.cons.inj heq).1 hslash
    · rename_i heq
      obtain ⟨rfl, rfl⟩ := List.cons.inj heq
      rw [if_neg hc]
      rfl

/-- The characters of a string, behind its opening quote. -/
theorem stringLoop_quoted (s rest : List Char) {fuel : Nat} (h : s.length < fuel) (acc : List Char)
    (p : Place) : stringLoop fuel ⟨s.flatMap escape ++ '"' :: rest, p⟩ acc =
      .ok (String.ofList (acc.reverse ++ s), ⟨rest, p.past (s.flatMap escape ++ ['"'])⟩) := by
  induction s generalizing fuel acc p with
  | nil =>
    obtain ⟨fuel, rfl⟩ := Nat.exists_eq_succ_of_ne_zero (Nat.ne_of_gt h)
    simp [stringLoop]
  | cons c s ih =>
    obtain ⟨fuel, rfl⟩ := Nat.exists_eq_succ_of_ne_zero (Nat.ne_zero_of_lt h)
    have hrest := ih (Nat.lt_of_succ_lt_succ h) (c :: acc) (p.past (escape c))
    rw [List.flatMap_cons, List.append_assoc, Nat.succ_eq_add_one, stringLoop_escape, hrest]
    simp

theorem length_flatMap_escape (s : List Char) : s.length ≤ (s.flatMap escape).length := by
  induction s with
  | nil => exact Nat.zero_le _
  | cons c s ih =>
    have hc : 1 ≤ (escape c).length := by
      unfold escape
      split
      all_goals try decide
      split <;> simp
    simp only [List.flatMap_cons, List.length_append, List.length_cons]
    omega

def quoted (s : String) : List Char := '"' :: (s.toList.flatMap escape ++ ['"'])

@[simp] theorem toList_quote (s : String) : (quote s).toList = quoted s := by
  simp [quote, quoted]

theorem string_quoted (s : String) (rest : List Char) (p : Place) :
    (advance ⟨quoted s ++ rest, p⟩).string = .ok (s, ⟨rest, p.past (quoted s)⟩) := by
  have hlength := length_flatMap_escape s.toList
  have hfuel : s.toList.length < (s.toList.flatMap escape ++ '"' :: rest).length + 1 := by
    simp only [List.length_append]
    omega
  have hloop := stringLoop_quoted s.toList rest hfuel [] (p.after '"')
  simpa [quoted, string] using hloop

end Cursor

end SearchRelay.Json

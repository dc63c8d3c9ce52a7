import SearchRelay.Proofs.Json.Integer

namespace SearchRelay.Json

def joined (first : Bool) : List (List Char) → List Char
  | [] => []
  | t :: r => (if first then t else ',' :: t) ++ joined false r

theorem intercalate_eq_joined (texts : List (List Char)) :
    [','].intercalate texts = joined true texts := by
  induction texts with
  | nil => rfl
  | cons t r ih =>
    cases r with
    | nil => simp [joined]
    | cons u r =>
      rw [List.intercalate_cons_cons, ih]
      simp [joined]

theorem toList_arrayText (items : List String) :
    (arrayText items).toList = '[' :: (joined true (items.map String.toList) ++ [']']) := by
  simp [arrayText, intercalate_eq_joined]

theorem toList_objectText (members : List String) : (objectText members).toList =
    '\x7b' :: (joined true (members.map String.toList) ++ ['\x7d']) := by
  simp [objectText, intercalate_eq_joined]

namespace Value

/-- Values without floats, with integers that 64 bits hold, and with keys in order. -/
inductive Proper : Value → Prop
  | null : Proper .null
  | bool (b : Bool) : Proper (.bool b)
  | integer {n : Int} (low : -(Nat.pow 2 63 : Int) ≤ n) (high : n < Nat.pow 2 64) :
      Proper (.number (.integer n))
  | string (s : String) : Proper (.string s)
  | array {items : List Value} (each : ∀ v ∈ items, Proper v) : Proper (.array items)
  | object {members : List (String × Value)} (sorted : (members.map Prod.fst).Pairwise (· < ·))
      (each : ∀ m ∈ members, Proper m.2) : Proper (.object members)

protected theorem Proper.nat {n : Nat} (h : n < Nat.pow 2 64) : Proper (.nat n) :=
  .integer (by omega) (Int.ofNat_lt.2 h)

mutual

def nesting : Value → Nat
  | .array items => nestingOfItems items + 1
  | .object members => nestingOfMembers members + 1
  | _ => 0

def nestingOfItems : List Value → Nat
  | [] => 0
  | v :: r => max v.nesting (nestingOfItems r)

def nestingOfMembers : List (String × Value) → Nat
  | [] => 0
  | (_, v) :: r => max v.nesting (nestingOfMembers r)

end

inductive Scalar : Value → Prop
  | bool (b : Bool) : Scalar (.bool b)
  | nat {n : Nat} (h : n < Nat.pow 2 64) : Scalar (.nat n)
  | string (s : String) : Scalar (.string s)

theorem Scalar.proper {v : Value} (h : v.Scalar) : v.Proper := by
  cases h with
  | bool b => exact .bool b
  | nat h => exact .nat h
  | string s => exact .string s

theorem Scalar.nesting {v : Value} (h : v.Scalar) : v.nesting = 0 := by
  cases h <;> rfl

theorem nestingOfItems_cons_le {v : Value} {r : List Value} {depth : Nat} :
    nestingOfItems (v :: r) ≤ depth ↔ v.nesting ≤ depth ∧ nestingOfItems r ≤ depth := Nat.max_le

theorem nestingOfMembers_cons_le {m : String × Value} {r : List (String × Value)} {depth : Nat} :
    nestingOfMembers (m :: r) ≤ depth ↔ m.2.nesting ≤ depth ∧ nestingOfMembers r ≤ depth :=
  Nat.max_le

theorem nestingOfMembers_le_iff {ms : List (String × Value)} {depth : Nat} :
    nestingOfMembers ms ≤ depth ↔ ∀ m ∈ ms, m.2.nesting ≤ depth := by
  induction ms with
  | nil => simp [nestingOfMembers]
  | cons m ms ih => rw [nestingOfMembers_cons_le, ih, List.forall_mem_cons]

def chars (v : Value) : List Char := v.toText.toList

theorem itemTexts_eq (items : List Value) : itemTexts items = items.map toText := by
  induction items with
  | nil => rfl
  | cons v r ih => rw [itemTexts, ih, List.map_cons]

theorem memberTexts_eq (members : List (String × Value)) :
    memberTexts members = members.map fun (k, v) => memberText k v.toText := by
  induction members with
  | nil => rfl
  | cons m r ih => rw [memberTexts, ih, List.map_cons]

def memberChars (m : String × Value) : List Char := Cursor.quoted m.1 ++ ':' :: m.2.chars

theorem chars_array (items : List Value) :
    (array items).chars = '[' :: (joined true (items.map chars) ++ [']']) := by
  rw [chars, toText, toList_arrayText, itemTexts_eq, List.map_map]
  rfl

theorem chars_object (members : List (String × Value)) :
    (object members).chars = '\x7b' :: (joined true (members.map memberChars) ++ ['\x7d']) := by
  have hmember : (String.toList ∘ fun (k, v) => memberText k (toText v)) = memberChars := by
    funext m
    simp [memberText, memberChars, chars]
  rw [chars, toText, toList_objectText, memberTexts_eq, List.map_map, hmember]

theorem chars_string (s : String) : (string s).chars = Cursor.quoted s := Cursor.toList_quote s

theorem chars_nat (n : Nat) : (nat n).chars = Nat.toDigits 10 n := by
  have htext : (nat n).toText = toString n := rfl
  rw [chars, htext, Nat.toString_eq_ofList_toDigits, String.toList_ofList]

theorem chars_negative (n : Nat) :
    (number (.integer (Int.negSucc n))).chars = '-' :: Nat.toDigits 10 (n + 1) := by
  have htext : (number (.integer (Int.negSucc n))).toText = "-" ++ toString (n + 1) := rfl
  simp [chars, htext]

theorem isSpace_of_digit {x : Char} (h : Text.isDigit x) : isSpace x = false := by
  rw [Bool.eq_false_iff, isSpace]
  intro hspace
  simp only [Bool.or_eq_true, beq_iff_eq] at hspace
  rcases hspace with ((rfl | rfl) | rfl) | rfl <;> cases h

theorem chars_opens {v : Value} (h : Proper v) :
    ∃ x r, v.chars = x :: r ∧ isSpace x = false ∧ x ≠ ']' := by
  cases h with
  | null => exact ⟨'n', _, rfl, rfl, by decide⟩
  | bool b =>
    cases b with
    | false => exact ⟨'f', _, rfl, rfl, by decide⟩
    | true => exact ⟨'t', _, rfl, rfl, by decide⟩
  | @integer n =>
    cases n with
    | ofNat n =>
      obtain ⟨x, r, hx, hdigit⟩ := Numeral.toDigits_eq_cons n
      refine ⟨x, r, (chars_nat n).trans hx, isSpace_of_digit hdigit, ?_⟩
      rintro rfl
      cases hdigit
    | negSucc n => exact ⟨'-', _, chars_negative n, rfl, by decide⟩
  | string s => exact ⟨'"', _, chars_string s, rfl, by decide⟩
  | array => exact ⟨'[', _, chars_array _, rfl, by decide⟩
  | object => exact ⟨'\x7b', _, chars_object _, rfl, by decide⟩

variable {depth fuel : Nat} {rest : List Char} {p : Place}

theorem read_null : Cursor.Takes (read depth (fuel + 1)) null.chars null rest := by
  intro p
  cases depth <;> rfl

theorem read_bool (b : Bool) :
    Cursor.Takes (read depth (fuel + 1)) (bool b).chars (bool b) rest := by
  intro p
  cases depth <;> cases b <;> rfl

theorem read_quote (r : List Char) (p : Place) : read depth (fuel + 1) ⟨'"' :: r, p⟩ =
    (Cursor.string ⟨r, p.after '"'⟩).map fun (s, c) => (.string s, c) := by
  cases depth <;> rfl

theorem read_minus (r : List Char) (p : Place) : read depth (fuel + 1) ⟨'-' :: r, p⟩ =
    (Cursor.number true ⟨r, p.after '-'⟩).map fun (n, c) => (.number n, c) := by
  cases depth <;> rfl

theorem read_bracket (r : List Char) (p : Place) : read (depth + 1) (fuel + 1) ⟨'[' :: r, p⟩ =
    (readItems depth fuel true ⟨r, p.after '['⟩).map fun (vs, c) => (.array vs, c.advance) := rfl

theorem read_brace (r : List Char) (p : Place) : read (depth + 1) (fuel + 1) ⟨'\x7b' :: r, p⟩ =
    (readMembers depth fuel true ⟨r, p.after '\x7b'⟩ []).map
      fun (ms, c) => (.object ms, c.advance) := rfl

/-- Where no level is left, an opening bracket is refused. -/
theorem read_deep {x : Char} (h : x = '[' ∨ x = '\x7b') (r : List Char) (p : Place) :
    ∃ q, read 0 (fuel + 1) ⟨x :: r, p⟩ = .error ⟨.fault .tooDeep, some q⟩ := by
  rcases h with rfl | rfl <;> exact ⟨_, rfl⟩

theorem read_digit {x : Char} (h : Text.isDigit x) (r : List Char) (p : Place) :
    read depth (fuel + 1) ⟨x :: r, p⟩ =
      (Cursor.number false ⟨x :: r, p⟩).map fun (n, c) => (.number n, c) := by
  have hne {y : Char} (hy : Text.isDigit y = false) : x ≠ y := by
    rintro rfl
    simp [hy] at h
  have hn : x ≠ 'n' := hne rfl
  have ht : x ≠ 't' := hne rfl
  have hf : x ≠ 'f' := hne rfl
  have hminus : x ≠ '-' := hne rfl
  cases depth <;> simp only [read, Cursor.skipBlanks_cons (isSpace_of_digit h), hn, ht, hf, hminus,
    h, if_true, if_false]

theorem read_string (s : String) :
    Cursor.Takes (read depth (fuel + 1)) (string s).chars (string s) rest := by
  intro p
  have hstring := Cursor.string_quoted s rest p
  rw [chars_string]
  rw [Cursor.quoted, List.cons_append] at hstring ⊢
  rw [Cursor.advance_cons] at hstring
  rw [read_quote, hstring]
  rfl

theorem read_nat {n : Nat} (hn : n < Nat.pow 2 64) (hrest : EndsNumber rest) :
    Cursor.Takes (read depth (fuel + 1)) (nat n).chars (nat n) rest := by
  intro p
  obtain ⟨x, r, hx, hdigit⟩ := Numeral.toDigits_eq_cons n
  have hnumber := Cursor.number_digits false hn hrest p
  rw [chars_nat]
  rw [hx, List.cons_append] at hnumber ⊢
  rw [read_digit hdigit, hnumber]
  rfl

theorem read_negative {n : Nat} (hn : n < Nat.pow 2 63) (hrest : EndsNumber rest) :
    Cursor.Takes (read depth (fuel + 1)) (number (.integer (Int.negSucc n))).chars
      (number (.integer (Int.negSucc n))) rest := by
  intro p
  have hlarge : ¬ (n + 1 = 0 ∨ Nat.pow 2 63 < n + 1) := by omega
  have hle : Nat.pow 2 63 < Nat.pow 2 64 := by decide
  have hnumber := Cursor.number_digits true (n := n + 1) (by omega) hrest (p.after '-')
  rw [chars_negative, List.cons_append, read_minus, hnumber]
  simp only [hlarge]
  rfl

end Value

theorem endsNumber_joined (r : List (List Char)) {x : Char} (rest : List Char)
    (h : EndsNumber (x :: rest)) : EndsNumber (joined false r ++ x :: rest) := by
  cases r with
  | nil => exact h
  | cons t r =>
    rintro y ⟨⟩
    decide

theorem past_joined (first : Bool) (t : List Char) (more : List (List Char)) (p : Place) :
    p.past (joined first (t :: more)) =
      ((if first then p else p.after ',').past t).past (joined false more) := by
  cases first <;> simp [joined]

theorem length_joined (first : Bool) (t : List Char) (more : List (List Char)) :
    t.length + (joined false more).length ≤ (joined first (t :: more)).length := by
  cases first <;> simp only [joined, if_true, List.length_append] <;> simp

namespace Cursor

variable {x : Char} (first : Bool) (r rest : List Char) (p : Place)

theorem nextItem_joined (hspace : isSpace x = false) (hend : x ≠ ']') (t : List Char)
    (more : List (List Char)) : nextItem first ⟨joined first ((x :: t) :: more) ++ rest, p⟩ =
      .ok (true, ⟨x :: t ++ (joined false more ++ rest), if first then p else p.after ','⟩) := by
  have hcomma : isSpace ',' = false := rfl
  cases first <;>
    simp [joined, nextItem, skipBlanks_cons hspace, skipBlanks_cons hcomma, hend]

theorem nextItem_end : nextItem first ⟨']' :: rest, p⟩ = .ok (false, ⟨']' :: rest, p⟩) := rfl

theorem nextKey_joined (key : String) (t : List Char) (more : List (List Char)) :
    nextKey first ⟨joined first ((quoted key ++ t) :: more) ++ rest, p⟩ =
      .ok (true, ⟨quoted key ++ (t ++ (joined false more ++ rest)),
        if first then p else p.after ','⟩) := by
  have hcomma : isSpace ',' = false := rfl
  have hquote : isSpace '"' = false := rfl
  cases first <;>
    simp [quoted, joined, nextKey, skipBlanks_cons hquote, skipBlanks_cons hcomma]

theorem nextKey_end : nextKey first ⟨'\x7d' :: rest, p⟩ = .ok (false, ⟨'\x7d' :: rest, p⟩) := rfl

theorem colon_cons : colon ⟨':' :: rest, p⟩ = .ok ⟨rest, p.after ':'⟩ := rfl

end Cursor

theorem Members.set_append {key : String} (v : Value) {acc : Members}
    (h : ∀ m ∈ acc, m.1 < key) : acc.set key v = acc ++ [(key, v)] := by
  induction acc with
  | nil => rfl
  | cons m acc ih =>
    have hm := h m (by simp)
    rw [Members.set, if_neg (String.lt_asymm hm), if_pos hm,
      ih fun m' hm' => h m' (by simp [hm'])]
    rfl

namespace Value

variable {depth : Nat}

/-- How a value is read in front of anything that does not go on with a number: to its end, unless
it is nested too deep. -/
structure Reads (v : Value) : Prop where
  shallow (depth fuel : Nat) (rest : List Char) : 2 * v.chars.length ≤ fuel → EndsNumber rest →
    v.nesting ≤ depth → Cursor.Takes (read depth fuel) v.chars v rest
  deep (depth fuel : Nat) (rest : List Char) (p : Place) : 2 * v.chars.length ≤ fuel →
    EndsNumber rest → depth < v.nesting →
      ∃ q, read depth fuel ⟨v.chars ++ rest, p⟩ = .error ⟨.fault .tooDeep, some q⟩

theorem Reads.of_flat {v : Value} (flat : v.nesting = 0) (hne : v.chars ≠ [])
    (h : ∀ depth fuel rest, EndsNumber rest → Cursor.Takes (read depth (fuel + 1)) v.chars v rest) :
    Reads v := by
  refine ⟨fun depth fuel rest hfuel hrest _ => ?_, fun depth _ _ _ _ _ hdeep => ?_⟩
  · have hlength := List.length_pos_iff.2 hne
    obtain ⟨fuel, rfl⟩ := Nat.exists_eq_succ_of_ne_zero (by omega : fuel ≠ 0)
    exact h depth fuel rest hrest
  · rw [flat] at hdeep
    exact absurd hdeep (Nat.not_lt_zero depth)

theorem readItems_cons {v : Value} (proper : Proper v) (vs : List Value) (first : Bool) (fuel : Nat)
    (rest : List Char) (p : Place) :
    readItems depth (fuel + 1) first ⟨joined first ((v :: vs).map chars) ++ rest, p⟩ =
      (read depth fuel ⟨v.chars ++ (joined false (vs.map chars) ++ rest),
        if first then p else p.after ','⟩).bind
          fun (v, c) => (readItems depth fuel false c).map fun (vs, c) => (v :: vs, c) := by
  obtain ⟨x, r, hx, hspace, hend⟩ := chars_opens proper
  rw [List.map_cons, hx, readItems, Cursor.nextItem_joined first rest p hspace hend]
  dsimp only
  generalize read depth fuel _ = outcome
  cases outcome <;> rfl

/-- Items are read up to the bracket behind them, unless one of them is nested too deep. -/
theorem readItems_joined (rest : List Char) (vs : List Value) (proper : ∀ v ∈ vs, Proper v)
    (reads : ∀ v ∈ vs, Reads v) (first : Bool) (fuel : Nat)
    (hfuel : 2 * (joined first (vs.map chars)).length < fuel) (p : Place) :
    if nestingOfItems vs ≤ depth then
      readItems depth fuel first ⟨joined first (vs.map chars) ++ ']' :: rest, p⟩ =
        .ok (vs, ⟨']' :: rest, p.past (joined first (vs.map chars))⟩)
    else ∃ q, readItems depth fuel first ⟨joined first (vs.map chars) ++ ']' :: rest, p⟩ =
      .error ⟨.fault .tooDeep, some q⟩ := by
  induction vs generalizing first fuel p with
  | nil =>
    obtain ⟨fuel, rfl⟩ := Nat.exists_eq_succ_of_ne_zero (Nat.ne_zero_of_lt hfuel)
    simp [nestingOfItems, readItems, joined, Cursor.nextItem_end]
  | cons v vs ih =>
    obtain ⟨fuel, rfl⟩ := Nat.exists_eq_succ_of_ne_zero (Nat.ne_zero_of_lt hfuel)
    have hlength := length_joined first v.chars (vs.map chars)
    have hends : EndsNumber (joined false (vs.map chars) ++ ']' :: rest) :=
      endsNumber_joined _ rest (by rintro y ⟨⟩; decide)
    have hv := reads v (by simp)
    rw [List.map_cons] at hfuel
    rw [Nat.succ_eq_add_one, readItems_cons (proper v (by simp))]
    have hpos : 0 < v.chars.length := by
      obtain ⟨x, r, hx, -⟩ := chars_opens (proper v (by simp))
      simp [hx]
    generalize hstart : (if first then p else p.after ',') = start
    by_cases hshallow : v.nesting ≤ depth
    · have hread := hv.shallow depth fuel _ (by omega) hends hshallow start
      have hmore := ih (fun u hu => proper u (by simp [hu])) (fun u hu => reads u (by simp [hu]))
        false fuel (by omega) (start.past v.chars)
      rw [hread]
      by_cases hrest : nestingOfItems vs ≤ depth
      · rw [if_pos hrest] at hmore
        rw [if_pos (nestingOfItems_cons_le.2 ⟨hshallow, hrest⟩)]
        simp [hmore, Except.bind, Except.map, past_joined, hstart]
      · rw [if_neg hrest] at hmore
        obtain ⟨q, hq⟩ := hmore
        rw [if_neg fun h => hrest (nestingOfItems_cons_le.1 h).2]
        exact ⟨q, by simp [hq, Except.bind, Except.map]⟩
    · obtain ⟨q, hq⟩ := hv.deep depth fuel _ start (by omega) hends (Nat.lt_of_not_le hshallow)
      rw [hq, if_neg fun h => hshallow (nestingOfItems_cons_le.1 h).1]
      exact ⟨q, rfl⟩

theorem readMembers_cons (m : String × Value) (ms : List (String × Value)) (first : Bool)
    (fuel : Nat) (rest : List Char) (p : Place) (acc : Members) :
    readMembers depth (fuel + 1) first ⟨joined first ((m :: ms).map memberChars) ++ rest, p⟩ acc =
      (read depth fuel ⟨m.2.chars ++ (joined false (ms.map memberChars) ++ rest),
        ((if first then p else p.after ',').past (Cursor.quoted m.1)).after ':'⟩).bind
          fun (v, c) => readMembers depth fuel false c (acc.set m.1 v) := by
  rw [List.map_cons, memberChars, readMembers, Cursor.nextKey_joined]
  simp only [Cursor.string_quoted, List.cons_append, Cursor.colon_cons]
  generalize read depth fuel _ = outcome
  cases outcome <;> rfl

theorem length_memberChars (m : String × Value) : m.2.chars.length < (memberChars m).length := by
  simp only [memberChars, List.length_append, List.length_cons]
  omega

theorem readMembers_joined (rest : List Char) (ms : List (String × Value))
    (reads : ∀ m ∈ ms, Reads m.2) (first : Bool) (fuel : Nat)
    (hfuel : 2 * (joined first (ms.map memberChars)).length < fuel) (p : Place) (acc : Members)
    (sorted : ((acc ++ ms).map Prod.fst).Pairwise (· < ·)) :
    if nestingOfMembers ms ≤ depth then
      readMembers depth fuel first ⟨joined first (ms.map memberChars) ++ '\x7d' :: rest, p⟩ acc =
        .ok (acc ++ ms, ⟨'\x7d' :: rest, p.past (joined first (ms.map memberChars))⟩)
    else ∃ q, readMembers depth fuel first
      ⟨joined first (ms.map memberChars) ++ '\x7d' :: rest, p⟩ acc =
        .error ⟨.fault .tooDeep, some q⟩ := by
  induction ms generalizing first fuel p acc with
  | nil =>
    obtain ⟨fuel, rfl⟩ := Nat.exists_eq_succ_of_ne_zero (Nat.ne_zero_of_lt hfuel)
    simp [nestingOfMembers, readMembers, joined, Cursor.nextKey_end]
  | cons m ms ih =>
    obtain ⟨fuel, rfl⟩ := Nat.exists_eq_succ_of_ne_zero (Nat.ne_zero_of_lt hfuel)
    have hlength := length_joined first (memberChars m) (ms.map memberChars)
    have hmember := length_memberChars m
    have hends : EndsNumber (joined false (ms.map memberChars) ++ '\x7d' :: rest) :=
      endsNumber_joined _ rest (by rintro y ⟨⟩; decide)
    have hm := reads m (by simp)
    -- The keys come in order, so a member is put behind those that were read.
    have hset : acc.set m.1 m.2 = acc ++ [m] := by
      refine Members.set_append m.2 fun a ha => ?_
      rw [List.map_append, List.pairwise_append] at sorted
      exact sorted.2.2 _ (List.mem_map_of_mem ha) _ (by simp)
    rw [List.map_cons] at hfuel
    rw [Nat.succ_eq_add_one, readMembers_cons]
    generalize hstart : (if first then p else p.after ',') = start
    by_cases hshallow : m.2.nesting ≤ depth
    · have hread := hm.shallow depth fuel _ (by omega) hends hshallow
        ((start.past (Cursor.quoted m.1)).after ':')
      have hmore := ih (fun u hu => reads u (by simp [hu])) false fuel (by omega)
        (((start.past (Cursor.quoted m.1)).after ':').past m.2.chars) (acc ++ [m])
        (by simpa using sorted)
      rw [hread]
      by_cases hrest : nestingOfMembers ms ≤ depth
      · rw [if_pos hrest] at hmore
        rw [if_pos (nestingOfMembers_cons_le.2 ⟨hshallow, hrest⟩)]
        simp [hset, hmore, Except.bind, past_joined, hstart, memberChars]
      · rw [if_neg hrest] at hmore
        obtain ⟨q, hq⟩ := hmore
        rw [if_neg fun h => hrest (nestingOfMembers_cons_le.1 h).2]
        exact ⟨q, by simp [hset, hq, Except.bind]⟩
    · obtain ⟨q, hq⟩ := hm.deep depth fuel _ ((start.past (Cursor.quoted m.1)).after ':') (by omega)
        hends (Nat.lt_of_not_le hshallow)
      rw [hq, if_neg fun h => hshallow (nestingOfMembers_cons_le.1 h).1]
      exact ⟨q, rfl⟩

/-- A collection is read as what is between its brackets is, one level deeper. -/
theorem Reads.of_brackets {v : Value} {opening closing : Char} {body : List Char} {n : Nat}
    (bracket : opening = '[' ∨ opening = '\x7b')
    (chars : v.chars = opening :: (body ++ [closing])) (nesting : v.nesting = n + 1)
    (inside : ∀ depth fuel rest p, 2 * body.length < fuel →
      if n ≤ depth then read (depth + 1) (fuel + 1) ⟨opening :: (body ++ closing :: rest), p⟩ =
        .ok (v, ⟨rest, ((p.after opening).past body).after closing⟩)
      else ∃ q, read (depth + 1) (fuel + 1) ⟨opening :: (body ++ closing :: rest), p⟩ =
        .error ⟨.fault .tooDeep, some q⟩) : Reads v := by
  have hfuel {fuel : Nat} (h : 2 * v.chars.length ≤ fuel) :
      ∃ f, fuel = f + 1 ∧ 2 * body.length < f := by
    simp only [chars, List.length_cons, List.length_append] at h
    exact ⟨fuel - 1, by omega, by omega⟩
  constructor
  case shallow =>
    intro depth fuel rest henough _ hshallow p
    obtain ⟨fuel, rfl, hbody⟩ := hfuel henough
    rw [nesting] at hshallow
    obtain ⟨depth, rfl⟩ := Nat.exists_eq_succ_of_ne_zero (Nat.ne_zero_of_lt hshallow)
    have hread := inside depth fuel rest p hbody
    rw [if_pos (Nat.le_of_succ_le_succ hshallow)] at hread
    simpa [chars] using hread
  case deep =>
    intro depth fuel rest p henough _ hdeep
    obtain ⟨fuel, rfl, hbody⟩ := hfuel henough
    rw [nesting] at hdeep
    cases depth with
    | zero =>
      rw [chars]
      exact read_deep bracket _ p
    | succ depth =>
      have hread := inside depth fuel rest p hbody
      rw [if_neg (Nat.not_le_of_lt (Nat.lt_of_succ_lt_succ hdeep))] at hread
      simpa [chars] using hread

/-- Every value without floats is read back from its text. -/
theorem Proper.reads {v : Value} (h : Proper v) : Reads v := by
  induction h with
  | null => exact .of_flat rfl (by decide) fun _ _ _ _ => read_null
  | bool b => exact .of_flat rfl (by cases b <;> decide) fun _ _ _ _ => read_bool b
  | @integer n low high =>
    cases n with
    | ofNat n =>
      have hn : n < Nat.pow 2 64 := Int.ofNat_lt.1 high
      have hne : (nat n).chars ≠ [] := by
        rw [chars_nat]
        exact Nat.toDigits_ne_nil
      exact .of_flat rfl hne fun _ _ _ hrest => read_nat hn hrest
    | negSucc n =>
      have hn : n < Nat.pow 2 63 := by omega
      have hne : (number (.integer (Int.negSucc n))).chars ≠ [] := by simp [chars_negative]
      exact .of_flat rfl hne fun _ _ _ hrest => read_negative hn hrest
  | string s =>
    exact .of_flat rfl (by simp [chars, toText, Cursor.quoted]) fun _ _ _ _ => read_string s
  | @array items each ih =>
    refine .of_brackets (.inl rfl) (chars_array items) rfl fun depth fuel rest p hfuel => ?_
    have hitems := @readItems_joined depth rest items each ih true fuel hfuel (p.after '[')
    rw [read_bracket]
    split
    · rename_i hshallow
      rw [if_pos hshallow] at hitems
      rw [hitems]
      rfl
    · rename_i hdeep
      rw [if_neg hdeep] at hitems
      obtain ⟨q, hq⟩ := hitems
      exact ⟨q, by rw [hq]; rfl⟩
  | @object members sorted each ih =>
    refine .of_brackets (.inr rfl) (chars_object members) rfl fun depth fuel rest p hfuel => ?_
    have hmembers := @readMembers_joined depth rest members ih true fuel hfuel
      (p.after '\x7b') [] sorted
    rw [read_brace]
    split
    · rename_i hshallow
      rw [if_pos hshallow] at hmembers
      rw [hmembers]
      rfl
    · rename_i hdeep
      rw [if_neg hdeep] at hmembers
      obtain ⟨q, hq⟩ := hmembers
      exact ⟨q, by rw [hq]; rfl⟩

end Value

end SearchRelay.Json

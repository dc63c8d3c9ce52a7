import SearchRelay.Proofs.Yaml.Integers
import SearchRelay.Proofs.Yaml.Tree
import Mathlib.Data.List.Forall2

/-!
What a record holds, told from the members that were given for it, in which no order occurs.
-/

namespace SearchRelay.Yaml

open Decoder (made Steady form named section?)

/-- A part of a record: the key of its member, and what such a member makes it hold. -/
structure Slot (σ : Type) where
  name : String
  α : Type
  Reads : Tree → α → Prop
  get : σ → α

/-- A record as members give it: known keys come at most once, and without one the default stays. -/
structure Recorded {σ : Type} (slots : List (Slot σ)) (default : σ) (ms : List (Tree × Tree))
    (s : σ) : Prop where
  keys : ∀ m ∈ ms, m.1.text?.isSome
  once : ∀ slot ∈ slots, (ms.map fun m => m.1.text?).count (some slot.name) ≤ 1
  given : ∀ slot ∈ slots, ∀ m ∈ ms, m.1.text? = some slot.name → slot.Reads m.2 (slot.get s)
  absent : ∀ slot ∈ slots, (∀ m ∈ ms, m.1.text? ≠ some slot.name) → slot.get s = slot.get default

variable {σ : Type} {slots : List (Slot σ)} {slot : Slot σ} {f : Decoder.Field σ}
  {fields : List (Decoder.Field σ)} {default s : σ} {ms ms' : List (Tree × Tree)} {t : Tree}

namespace Slot

structure Fits (slot : Slot σ) (f : Decoder.Field σ) : Prop where
  name : f.name = slot.name
  steady : Steady f.read
  reads {t : Tree} {x : slot.α} : slot.Reads t x → (made f.read t).isSome
  sets {t : Tree} {set : σ → σ} : made f.read t = some set → ∀ s, slot.Reads t (slot.get (set s))
  unique {t : Tree} {x y : slot.α} : slot.Reads t x → slot.Reads t y → x = y

def Keeps (slot : Slot σ) (f : Decoder.Field σ) : Prop :=
  ∀ t set, made f.read t = some set → ∀ s, slot.get (set s) = slot.get s

end Slot

/-- The fields that are read are those that the slots tell of, and they make up the whole record. -/
structure Describes (slots : List (Slot σ)) (fields : List (Decoder.Field σ)) : Prop where
  fits : List.Forall₂ Slot.Fits slots fields
  distinct : (slots.map Slot.name).Nodup
  keeps : ∀ slot ∈ slots, ∀ f ∈ fields, f.name ≠ slot.name → slot.Keeps f
  ext : ∀ s s', (∀ slot ∈ slots, slot.get s = slot.get s') → s = s'

namespace Describes

theorem mem_named {m : Option String × Tree} :
    m ∈ named ms ↔ ∃ k, (k, m.2) ∈ ms ∧ k.text? = m.1 := by
  obtain ⟨name, t⟩ := m
  simp [named]

theorem count_named (ms : List (Tree × Tree)) (name : String) :
    Form.count name (named ms) = (ms.map fun m => m.1.text?).count (some name) := by
  rw [Form.count, named, List.map_map]
  rfl

theorem steady (h : Describes slots fields) : ∀ f ∈ fields, Steady f.read := by
  obtain ⟨fits, -, -, -⟩ := h
  induction fits with
  | nil => nofun
  | cons hf _ ih => exact List.forall_mem_cons.2 ⟨hf.steady, ih⟩

theorem known (h : Describes slots fields) : (form fields).known = slots.map Slot.name := by
  obtain ⟨fits, -, -, -⟩ := h
  rw [Decoder.known_form]
  induction fits with
  | nil => rfl
  | cons hf _ ih => rw [List.map_cons, List.map_cons, hf.name, ih]

theorem known_iff (h : Describes slots fields) {name : String} :
    name ∈ (form fields).known ↔ ∃ slot ∈ slots, slot.name = name := by
  rw [h.known, List.mem_map]

theorem found (h : Describes slots fields) (hslot : slot ∈ slots) :
    ∃ f, slot.Fits f ∧ ∀ t, (form fields).effect slot.name t = made f.read t := by
  suffices hfind : ∃ f, slot.Fits f ∧ (fields.find? fun f => f.name == slot.name) = some f by
    obtain ⟨f, fits, hf⟩ := hfind
    exact ⟨f, fits, Decoder.effect_known hf⟩
  obtain ⟨fits, distinct, -, -⟩ := h
  induction fits with
  | nil => cases hslot
  | @cons first f slots fields hf _ ih =>
    obtain ⟨hnew, distinct⟩ := List.nodup_cons.1 distinct
    rcases List.mem_cons.1 hslot with rfl | hslot
    · exact ⟨f, hf, List.find?_cons_of_pos (by simp [hf.name])⟩
    · have hne : f.name ≠ slot.name := fun hsame =>
        hnew (List.mem_map.2 ⟨slot, hslot, hsame.symm.trans hf.name⟩)
      obtain ⟨g, hg, hfind⟩ := ih hslot distinct
      exact ⟨g, hg, (List.find?_cons_of_neg (by simp [hne])).trans hfind⟩

theorem effect_keeps (h : Describes slots fields) (hslot : slot ∈ slots) (other : String)
    (t : Tree) (f : σ → σ) (hne : other ≠ slot.name)
    (heffect : (form fields).effect other t = some f) (v : σ) :
    slot.get (f v) = slot.get v := by
  by_cases hknown : other ∈ (form fields).known
  · obtain ⟨g, hg⟩ := Option.isSome_iff_exists.1 (Decoder.mem_known.1 hknown)
    have hname : g.name = other := by simpa using List.find?_some hg
    rw [Decoder.effect_known hg] at heffect
    exact h.keeps slot hslot g (List.mem_of_find?_eq_some hg) (hname ▸ hne) t f heffect v
  · rw [Decoder.effect_unknown hknown] at heffect
    obtain rfl := Option.some.inj heffect
    rfl

theorem recorded_of_filled (h : Describes slots fields)
    (filled : (form fields).Filled (named ms) default s) : Recorded slots default ms s where
  keys m hm := by
    have hact := filled.each _ (mem_named.2 ⟨m.1, hm, rfl⟩ : (m.1.text?, m.2) ∈ named ms)
    cases hkey : m.1.text? with
    | none =>
      rw [hkey] at hact
      cases hact
    | some name => rfl
  once slot hslot := count_named ms slot.name ▸
    filled.once slot.name (h.known_iff.2 ⟨slot, hslot, rfl⟩)
  given slot hslot m hm hkey := by
    obtain ⟨f, fits, heffect⟩ := h.found hslot
    obtain ⟨set, v, hset, hget⟩ := filled.get_of_mem (h.effect_keeps hslot)
      (h.known_iff.2 ⟨slot, hslot, rfl⟩) (mem_named.2 ⟨m.1, hm, hkey⟩)
    rw [heffect] at hset
    exact hget ▸ fits.sets hset v
  absent slot hslot hno := by
    refine filled.get_of_absent (h.effect_keeps hslot) fun m hm hname => ?_
    obtain ⟨k, hk, hkey⟩ := mem_named.1 hm
    exact hno _ hk (hkey.trans hname)

theorem exists_filled (h : Describes slots fields) (recorded : Recorded slots default ms s) :
    ∃ s', (form fields).Filled (named ms) default s' := by
  refine ⟨_, fun m hm => ?_, fun name hname => ?_, nofun, rfl⟩
  · obtain ⟨k, hk, hkey⟩ := mem_named.1 hm
    obtain ⟨name, hname⟩ := Option.isSome_iff_exists.1 (recorded.keys _ hk)
    obtain ⟨_, t⟩ := m
    obtain rfl : k.text? = _ := hkey
    rw [Form.act, hname, Option.bind_some]
    by_cases hknown : name ∈ (form fields).known
    · obtain ⟨slot, hslot, rfl⟩ := h.known_iff.1 hknown
      obtain ⟨f, fits, heffect⟩ := h.found hslot
      exact heffect t ▸ fits.reads (recorded.given slot hslot _ hk hname)
    · exact Decoder.effect_unknown hknown t ▸ rfl
  · obtain ⟨slot, hslot, rfl⟩ := h.known_iff.1 hname
    exact count_named ms slot.name ▸ recorded.once slot hslot

theorem eq_of_recorded (h : Describes slots fields) {s' : σ}
    (recorded : Recorded slots default ms s) (recorded' : Recorded slots default ms s') :
    s = s' := by
  refine h.ext s s' fun slot hslot => ?_
  by_cases hgiven : ∃ m ∈ ms, m.1.text? = some slot.name
  · obtain ⟨m, hm, hkey⟩ := hgiven
    obtain ⟨f, fits, -⟩ := h.found hslot
    exact fits.unique (recorded.given slot hslot m hm hkey) (recorded'.given slot hslot m hm hkey)
  · have hno : ∀ m ∈ ms, m.1.text? ≠ some slot.name := fun m hm hkey => hgiven ⟨m, hm, hkey⟩
    exact (recorded.absent slot hslot hno).trans (recorded'.absent slot hslot hno).symm

/-- A record is read from members exactly if they give it. -/
theorem filled_iff (h : Describes slots fields) :
    (form fields).Filled (named ms) default s ↔ Recorded slots default ms s := by
  refine ⟨h.recorded_of_filled, fun recorded => ?_⟩
  obtain ⟨s', filled⟩ := h.exists_filled recorded
  exact h.eq_of_recorded recorded (h.recorded_of_filled filled) ▸ filled

theorem made_record_iff (h : Describes slots fields) (expected : String) :
    made (Decoder.record expected fields default) t = some s ↔
      ∃ ms, section? t = some ms ∧ Recorded slots default ms s := by
  rw [Decoder.made_eq fun d path _ hn => Decoder.record_of_tree h.steady expected default d path hn,
    Option.bind_eq_some_iff]
  simp only [Form.fill_nil_iff, h.filled_iff]

end Describes

structure Decodes (read : Decoder σ) (slots : List (Slot σ)) (default : σ) : Prop where
  steady : Steady read
  made_iff (t : Tree) (s : σ) : made read t = some s ↔
    ∃ ms, section? t = some ms ∧ Recorded slots default ms s

theorem Describes.decodes (h : Describes slots fields) (expected : String) (default : σ) :
    Decodes (Decoder.record expected fields default) slots default where
  steady := .record h.steady expected default
  made_iff _ _ := h.made_record_iff expected

/-- The same members in any order, each as before or like it, and more of them with keys that are
not known. -/
def Rearranged (known : List String) (Like : Tree × Tree → Tree × Tree → Prop)
    (ms ms' : List (Tree × Tree)) : Prop :=
  ∃ kept extra, List.Forall₂ Like ms kept ∧
    (∀ m ∈ extra, ∃ name ∉ known, m.1.text? = some name) ∧ ms'.Perm (kept ++ extra)

theorem exists_like {α β : Type} {R : α → β → Prop} {as : List α} {bs : List β}
    (h : List.Forall₂ R as bs) {b : β} (hb : b ∈ bs) : ∃ a ∈ as, R a b := by
  induction h with
  | nil => cases hb
  | @cons a b' as bs hab _ ih =>
    rcases List.mem_cons.1 hb with rfl | hb
    · exact ⟨a, by simp, hab⟩
    · obtain ⟨a', ha', hr⟩ := ih hb
      exact ⟨a', by simp [ha'], hr⟩

/-- Of the members only those with known keys count, and how often each comes. -/
theorem Recorded.transfer (h : Recorded slots default ms s) (keys : ∀ m ∈ ms', m.1.text?.isSome)
    (count : ∀ slot ∈ slots, (ms'.map fun m => m.1.text?).count (some slot.name) =
      (ms.map fun m => m.1.text?).count (some slot.name))
    (reads : ∀ slot ∈ slots, ∀ m' ∈ ms', m'.1.text? = some slot.name →
      ∃ m ∈ ms, m.1.text? = some slot.name ∧ ∀ x, slot.Reads m.2 x → slot.Reads m'.2 x) :
    Recorded slots default ms' s where
  keys := keys
  once slot hslot := count slot hslot ▸ h.once slot hslot
  given slot hslot m' hm' hkey' := by
    obtain ⟨m, hm, hkey, hreads⟩ := reads slot hslot m' hm' hkey'
    exact hreads _ (h.given slot hslot m hm hkey)
  absent slot hslot hno := by
    have hzero : (ms'.map fun m => m.1.text?).count (some slot.name) = 0 :=
      List.count_eq_zero.2 fun hmem => by
        obtain ⟨m', hm', hkey'⟩ := List.mem_map.1 hmem
        exact hno m' hm' hkey'
    rw [count slot hslot] at hzero
    refine h.absent slot hslot fun m hm hkey => List.count_eq_zero.1 hzero ?_
    exact List.mem_map.2 ⟨m, hm, hkey⟩

theorem Rearranged.recorded_iff {Like : Tree × Tree → Tree × Tree → Prop}
    (h : Rearranged (slots.map Slot.name) Like ms ms')
    (key : ∀ m m', Like m m' → m'.1.text? = m.1.text?)
    (reads : ∀ m m', Like m m' → ∀ slot ∈ slots, m.1.text? = some slot.name →
      ∀ x, slot.Reads m.2 x ↔ slot.Reads m'.2 x) :
    Recorded slots default ms s ↔ Recorded slots default ms' s := by
  obtain ⟨kept, extra, hkept, hextra, hperm⟩ := h
  have hkeys : kept.map (fun m => m.1.text?) = ms.map fun m => m.1.text? := by
    clear hperm
    induction hkept with
    | nil => rfl
    | cons hm _ ih => rw [List.map_cons, List.map_cons, key _ _ hm, ih]
  -- Members that were added have no known key, so no known key comes more often.
  have hcount (slot : Slot σ) (hslot : slot ∈ slots) :
      (ms'.map fun m => m.1.text?).count (some slot.name) =
        (ms.map fun m => m.1.text?).count (some slot.name) := by
    have hzero : (extra.map fun m => m.1.text?).count (some slot.name) = 0 := by
      refine List.count_eq_zero.2 fun hmem => ?_
      obtain ⟨m, hm, hkey⟩ := List.mem_map.1 hmem
      obtain ⟨name, hname, hkey'⟩ := hextra m hm
      obtain rfl := Option.some.inj (hkey'.symm.trans hkey)
      exact hname (List.mem_map.2 ⟨slot, hslot, rfl⟩)
    rw [(hperm.map _).count_eq, List.map_append, List.count_append, hzero, Nat.add_zero, hkeys]
  have hmem (m' : Tree × Tree) : m' ∈ ms' ↔ m' ∈ kept ∨ m' ∈ extra := by
    rw [hperm.mem_iff, List.mem_append]
  constructor
  · refine fun recorded => recorded.transfer (fun m' hm' => ?_) hcount
      fun slot hslot m' hm' hkey' => ?_
    · rcases (hmem m').1 hm' with hm' | hm'
      · obtain ⟨m, hm, hlike⟩ := exists_like hkept hm'
        exact key m m' hlike ▸ recorded.keys m hm
      · obtain ⟨name, -, hkey'⟩ := hextra m' hm'
        exact hkey' ▸ rfl
    · rcases (hmem m').1 hm' with hm' | hm'
      · obtain ⟨m, hm, hlike⟩ := exists_like hkept hm'
        have hkey := (key m m' hlike).symm.trans hkey'
        exact ⟨m, hm, hkey, fun x => (reads m m' hlike slot hslot hkey x).1⟩
      · obtain ⟨name, hname, hother⟩ := hextra m' hm'
        obtain rfl := Option.some.inj (hother.symm.trans hkey')
        exact absurd (List.mem_map.2 ⟨slot, hslot, rfl⟩) hname
  · refine fun recorded => recorded.transfer (fun m hm => ?_)
      (fun slot hslot => (hcount slot hslot).symm) fun slot hslot m hm hkey => ?_
    · obtain ⟨m', hm', hlike⟩ := exists_like hkept.flip hm
      exact key m m' hlike ▸ recorded.keys m' ((hmem m').2 (.inl hm'))
    · obtain ⟨m', hm', hlike⟩ := exists_like hkept.flip hm
      exact ⟨m', (hmem m').2 (.inl hm'), (key m m' hlike).trans hkey,
        fun x => (reads m m' hlike slot hslot hkey x).2⟩

/-- A scalar that denotes an unsigned integer in a range. -/
def IsNumber (max : Nat) (t : Tree) (n : Nat) : Prop :=
  ∃ s, t = .scalar s ∧ s.canBeInteger ∧ s.text.toList.head? ≠ some '-' ∧
    Denotes s.text.toList n ∧ n ≤ max

/-- A sequence of scalars, or nothing at all. -/
def AreTexts (t : Tree) (texts : List String) : Prop :=
  (∃ ts, t = .sequence ts ∧ ts.map Tree.text? = texts.map some) ∨
    ∃ s, t = .scalar s ∧ s.isVoid ∧ texts = []

namespace Slot

variable {τ : Type}

def text (name : String) (get : σ → String) : Slot σ :=
  ⟨name, String, fun t s => t.text? = some s, get⟩

def texts (name : String) (get : σ → List String) : Slot σ := ⟨name, List String, AreTexts, get⟩

def number (name : String) (max : Nat) (get : σ → Nat) : Slot σ := ⟨name, Nat, IsNumber max, get⟩

def record (name : String) (slots : List (Slot τ)) (default : τ) (get : σ → τ) : Slot σ :=
  ⟨name, τ, fun t s => ∃ ms, section? t = some ms ∧ Recorded slots default ms s, get⟩

def within (part : τ → σ) (slot : Slot σ) : Slot τ :=
  ⟨slot.name, slot.α, slot.Reads, fun r => slot.get (part r)⟩

end Slot

theorem made_text_iff (expected : String) {text : String} :
    made (Decoder.text expected) t = some text ↔ t.text? = some text := by
  rw [Decoder.made_eq fun d path _ hn => Decoder.text_of_tree expected d path hn]

theorem made_unsigned_iff {max : Nat} (hmax : max < Nat.pow 2 64) (expected : String) {n : Nat} :
    made (Decoder.unsigned max expected) t = some n ↔ IsNumber max t n := by
  rw [Decoder.made_eq fun d path _ hn => Decoder.unsigned_of_tree max expected d path hn,
    Option.filter_eq_some_iff, decide_eq_true_eq]
  cases t with
  | scalar s =>
    simp only [Decoder.number?, Option.ite_none_right_eq_some, unsigned?_iff, IsNumber,
      Tree.scalar.injEq, exists_eq_left']
    constructor
    · rintro ⟨⟨hinteger, hhead, hdenotes, -⟩, hrange⟩
      exact ⟨hinteger, hhead, hdenotes, hrange⟩
    · rintro ⟨hinteger, hhead, hdenotes, hrange⟩
      exact ⟨⟨hinteger, hhead, hdenotes, Nat.lt_of_le_of_lt hrange hmax⟩, hrange⟩
  | sequence ts => simp [Decoder.number?, IsNumber]
  | mapping ms => simp [Decoder.number?, IsNumber]

theorem mapM_eq_some_iff {α β : Type} {f : α → Option β} {as : List α} {bs : List β} :
    as.mapM f = some bs ↔ as.map f = bs.map some := by
  induction as generalizing bs with
  | nil => cases bs <;> simp
  | cons a as ih =>
    cases ha : f a with
    | none => cases bs <;> simp [ha]
    | some b =>
      cases hrest : as.mapM f with
      | none =>
        have hno (bs : List β) : as.map f ≠ bs.map some := fun h => by
          rw [ih.2 h] at hrest
          cases hrest
        cases bs <;> simp [ha, hrest, hno]
      | some bs' =>
        have hsome (bs : List β) : as.map f = bs.map some ↔ bs' = bs := by
          rw [← ih, hrest, Option.some.injEq]
        cases bs <;> simp [ha, hrest, hsome]

theorem made_texts_iff (expected : String) {texts : List String} :
    made (Decoder.list (Decoder.text expected)) t = some texts ↔ AreTexts t texts := by
  rw [Decoder.made_eq fun d path _ hn =>
    Decoder.list_of_tree (Decoder.Steady.text expected) d path hn]
  have htext : made (Decoder.text expected) = Tree.text? :=
    funext fun _ => Decoder.made_eq fun d path _ hn => Decoder.text_of_tree expected d path hn
  cases t with
  | scalar s =>
    have hnil : some [] = some texts ↔ texts = [] := by rw [Option.some.injEq, eq_comm]
    simp [Decoder.elements?, AreTexts, hnil]
  | sequence ts => simp [Decoder.elements?, AreTexts, htext, mapM_eq_some_iff]
  | mapping ms => simp [Decoder.elements?, AreTexts]

end SearchRelay.Yaml

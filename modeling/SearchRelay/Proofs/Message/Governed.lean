import SearchRelay.Proofs.Json.Members
import SearchRelay.Proofs.Json.Written
import SearchRelay.Proofs.Message.Payload

namespace SearchRelay

open Json Json.Decoder

def Readable (text : List Char) : Prop := ∃ v, run Decoder.free (String.ofList text) = .ok v

theorem Readable.made {text : List Char} (h : Readable text) (htext : IsText 126 text) :
    ∃ v, Decoder.made Decoder.free 126 text = some v := by
  obtain ⟨v, hv⟩ := h
  rw [← made_free htext (show 126 ≤ maxDepth by decide)]
  simp only [run, String.toList_ofList] at hv
  rw [Decoder.made]
  cases hread : Decoder.free maxDepth ⟨text, .start⟩ with
  | error e =>
    rw [hread] at hv
    cases hv
  | ok x => exact ⟨x.1, rfl⟩

/-- Members that a message has no use for. -/
def Idle (known : List String) (extra : List (Option String × List Char)) : Prop :=
  ∀ m ∈ extra, ∃ name ∉ known, m.1 = some name ∧ Readable m.2

def ownContents {α : Type} [ToMembers α] (a : α) : List (Option String × List Char) :=
  (ToMembers.members a).map fun m => (some m.1, m.2.chars)

/-- A message is told by its known fields, of which some are counters. -/
structure Discerning {α : Type} [ToMembers α] (valid : α → Prop) (decoder : Decoder α)
    (known : List String) (counters : List (String × (α → Nat))) : Prop where
  /-- Neither the order of the members, nor the way they are written, nor further members with
  unknown names make a difference. -/
  others {o o' : ObjectText} {extra : List (Option String × List Char)} :
    o'.contents.Perm (o.contents ++ extra) → Idle known extra →
      ∀ a, run decoder o'.text = .ok a ↔ run decoder o.text = .ok a
  once {o : ObjectText} {name : String} : name ∈ known → Form.count name o.contents ≠ 1 →
    ∃ e, run decoder o.text = .error e
  /-- A counter holds the number that its numeral stands for. -/
  exact {o : ObjectText} {a : α} {name : String} {get : α → Nat} {text : List Char} :
    run decoder o.text = .ok a → (name, get) ∈ counters → (some name, text) ∈ o.contents →
      get a < 2 ^ 64 ∧ text = Nat.toDigits 10 (get a)
  /-- Nothing else than the numeral of an unsigned integer of 64 bits is taken for a counter. -/
  counted {o : ObjectText} {name : String} {get : α → Nat} {text : List Char} :
    (name, get) ∈ counters → (some name, text) ∈ o.contents →
      (∀ n < 2 ^ 64, text ≠ Nat.toDigits 10 n) → ∃ e, run decoder o.text = .error e
  own {a : α} {o : ObjectText} {extra : List (Option String × List Char)} : valid a →
    o.contents.Perm (ownContents a ++ extra) → Idle known extra → run decoder o.text = .ok a

theorem exists_own {α : Type} [ToMembers α] {a : α}
    (h : ∀ m ∈ ToMembers.members a, m.2.Proper ∧ m.2.nesting ≤ 126) :
    ∃ o : ObjectText, o.text = ToMembers.toText a ∧ o.contents = ownContents a := by
  obtain ⟨ms, hchars, hcontent⟩ := exists_members (ToMembers.members a)
  have hshallow (m) (hm : m ∈ ms) : IsText 126 m.value := by
    have hmem : m.content ∈ ownContents a := by
      rw [ownContents, ← hcontent]
      exact List.mem_map_of_mem hm
    obtain ⟨m', hm', heq⟩ := List.mem_map.1 hmem
    obtain ⟨proper, hnesting⟩ := h m' hm'
    have hvalue : m'.2.chars = m.value := congrArg Prod.snd heq
    exact hvalue ▸ proper.isText hnesting
  refine ⟨{ members := ms, shallow := hshallow }, ?_, hcontent⟩
  rw [← String.toList_inj, ToMembers.toList_toText]
  simp [ObjectText.text, ObjectText.inner, hchars]

/-- How the members of an object decide what a message is. -/
structure Governed {α : Type} (decoder : Decoder α) (form : Form (List Char) α) (blank : α)
    (counters : List (String × (α → Nat))) : Prop where
  decides (o : ObjectText) (a : α) :
    run decoder o.text = .ok a ↔ form.Filled o.contents blank a
  apart : form.Apart
  needed : form.needed = form.known
  skips {name : String} {text : List Char} : name ∉ form.known → IsText 126 text →
    Readable text → (form.effect name text).isSome
  counts {name : String} {get : α → Nat} {text : List Char} {set : α → α} (v : α) :
    (name, get) ∈ counters → IsText 126 text → form.effect name text = some set →
      get (set v) < 2 ^ 64 ∧ text = Nat.toDigits 10 (get (set v))

namespace Governed

variable {α : Type} {decoder : Decoder α} {form : Form (List Char) α} {blank : α}
  {counters : List (String × (α → Nat))}

theorem fails {o : ObjectText} (h : ∀ a, run decoder o.text ≠ .ok a) :
    ∃ e, run decoder o.text = .error e := by
  cases hrun : run decoder o.text with
  | error e => exact ⟨e, rfl⟩
  | ok a => exact (h a hrun).elim

theorem shallow {o : ObjectText} {m : Option String × List Char} (hm : m ∈ o.contents) :
    IsText 126 m.2 := by
  obtain ⟨t, ht, rfl⟩ := List.mem_map.1 hm
  exact o.shallow t ht

theorem exact (h : Governed decoder form blank counters) {o : ObjectText} {a : α} {name : String}
    {get : α → Nat} {text : List Char} (hrun : run decoder o.text = .ok a)
    (hcounter : (name, get) ∈ counters) (hmem : (some name, text) ∈ o.contents) :
    get a < 2 ^ 64 ∧ text = Nat.toDigits 10 (get a) := by
  obtain ⟨set, v, hset, rfl⟩ := ((h.decides o a).1 hrun).holds h.apart hmem
  exact h.counts v hcounter (shallow hmem) hset

theorem others (h : Governed decoder form blank counters) {o o' : ObjectText}
    {extra : List (Option String × List Char)} (hperm : o'.contents.Perm (o.contents ++ extra))
    (idle : Idle form.known extra) (a : α) :
    run decoder o'.text = .ok a ↔ run decoder o.text = .ok a := by
  have hunknown (m) (hm : m ∈ extra) : ∃ name ∉ form.known, m.1 = some name := by
    obtain ⟨name, hname, hfst, -⟩ := idle m hm
    exact ⟨name, hname, hfst⟩
  have heach (m) (hm : m ∈ extra) : (form.act m).isSome := by
    obtain ⟨name, hname, hfst, hread⟩ := idle m hm
    have htext := shallow (hperm.mem_iff.2 (List.mem_append_right _ hm))
    rw [Form.act, hfst]
    exact h.skips hname htext hread
  rw [h.decides o, ← Form.Filled.append_iff h.apart (fun _ hname => h.needed ▸ hname) hunknown
    heach, h.decides o']
  exact ⟨fun filled => filled.perm h.apart hperm, fun filled => filled.perm h.apart hperm.symm⟩

theorem discerning [ToMembers α] {valid : α → Prop} (h : Governed decoder form blank counters)
    (proper : ∀ a, valid a → ∀ m ∈ ToMembers.members a, m.2.Proper ∧ m.2.nesting ≤ 126)
    (back : ∀ a, valid a → run decoder (ToMembers.toText a) = .ok a) :
    Discerning valid decoder form.known counters where
  others hperm idle := h.others hperm idle
  once {o name} hname hcount := by
    refine fails fun a hrun => ?_
    have filled := (h.decides o a).1 hrun
    have honce := filled.once name hname
    have hpresent := filled.present name (h.needed ▸ hname)
    omega
  exact := h.exact
  counted hcounter hmem hother := by
    refine fails fun a hrun => ?_
    obtain ⟨hlt, htext⟩ := h.exact hrun hcounter hmem
    exact hother _ hlt htext
  own {a o extra} hvalid hperm idle := by
    obtain ⟨own, htext, hcontents⟩ := exists_own (proper a hvalid)
    rw [← hcontents] at hperm
    rw [h.others hperm idle, htext]
    exact back a hvalid

theorem of_record {name : String} {fields : List (Decoder.Field α)}
    (steady : ∀ f ∈ fields, Steady 126 f.read)
    (apart : (fields.map (Field.entry 126)).Pairwise Form.Entry.Commute)
    (counts : ∀ c ∈ counters, ∃ set : Nat → α → α,
      (fields.find? fun f => f.name == c.1) = some (field c.1 Decoder.word set) ∧
        ∀ n v, c.2 (set n v) = n) :
    Governed (record name fields blank) (Decoder.form fields 126) blank counters where
  decides o a := run_record steady name blank o a
  apart := Form.apart_ofFields apart
  needed := (known_form fields 126).symm
  skips hname _ _ := by
    rw [effect_unknown hname]
    rfl
  counts {_ get _ _} v hcounter htext hset := by
    obtain ⟨store, hf, hget⟩ := counts _ hcounter
    rw [effect_known hf, made_field] at hset
    obtain ⟨n, hn, rfl⟩ := Option.map_eq_some_iff.1 hset
    have hvalue : get (store n v) = n := hget n v
    rw [hvalue]
    exact (made_word htext).1 hn

end Governed

end SearchRelay

import SearchRelay.Config.Reader
import SearchRelay.Proofs.Yaml.Blank
import SearchRelay.Proofs.Yaml.Slots
import Mathlib.Data.List.Nodup

namespace SearchRelay.Config

open Yaml (Decoder Document Node Tree Scalar Slot Recorded Describes Decodes Rearranged Denotes)
open Yaml.Decoder (made Steady section?)

def serverSlots : List (Slot ServerSettings) :=
  [.text "host" ServerSettings.host, .number "port" maxPort ServerSettings.port,
    .text "websocket_path" ServerSettings.websocketPath,
    .number "broadcast_capacity" maxWord ServerSettings.broadcastCapacity]

def searchSlots : List (Slot SearchSettings) :=
  [.text "root" SearchSettings.root,
    .number "rescan_interval_secs" maxWord SearchSettings.rescanInterval,
    .texts "path_masks" SearchSettings.pathMasks]

def mockSlots : List (Slot MockSettings) :=
  [.number "progress_interval_ms" maxWord MockSettings.progressInterval,
    .number "total_files" maxWord MockSettings.totalFiles]

def shutdownSlots : List (Slot ShutdownSettings) :=
  [.number "drain_timeout_ms" maxWord ShutdownSettings.drainTimeout]

def loggingSlots : List (Slot LoggingSettings) := [.text "level" LoggingSettings.level]

def slots : List (Slot Config) :=
  [.record "server" serverSlots {} Config.server, .record "search" searchSlots {} Config.search,
    .record "mock" mockSlots {} Config.mock, .record "shutdown" shutdownSlots {} Config.shutdown,
    .record "logging" loggingSlots {} Config.logging]

section

variable {α σ : Type} {name : String} {read : Decoder α} {set : α → σ → σ}

@[simp] theorem name_field : (field name read set).name = name := rfl

theorem made_field (t : Tree) : made (field name read set).read t = (made read t).map set := by
  simp only [made, field]
  cases read _ _ t.node <;> rfl

theorem steady_field (h : Steady read) : Steady (field name read set).read := by
  intro d path n t hn
  rw [made_field, ← h d path n t hn]
  simp only [field]
  cases read d path n <;> rfl

theorem fits_field (slot : Slot σ) {set : slot.α → σ → σ} {read : Decoder slot.α}
    (steady : Steady read) (h : ∀ t x, made read t = some x ↔ slot.Reads t x)
    (get_set : ∀ x s, slot.get (set x s) = x) : slot.Fits (field slot.name read set) where
  name := rfl
  steady := steady_field steady
  reads hx := by rw [made_field, (h _ _).2 hx]; rfl
  sets hset s := by
    rw [made_field] at hset
    obtain ⟨x, hx, rfl⟩ := Option.map_eq_some_iff.1 hset
    exact (get_set x s).symm ▸ (h _ _).1 hx
  unique hx hy := Option.some.inj (((h _ _).2 hx).symm.trans ((h _ _).2 hy))

theorem keeps_field {slot : Slot σ} (get_set : ∀ x s, slot.get (set x s) = slot.get s) :
    slot.Keeps (field name read set) := by
  intro t f hf s
  rw [made_field] at hf
  obtain ⟨x, -, rfl⟩ := Option.map_eq_some_iff.1 hf
  exact get_set x s

theorem fits_text (expected : String) {get : σ → String} {set : String → σ → σ}
    (get_set : ∀ x s, get (set x s) = x) :
    (Slot.text name get).Fits (field name (Decoder.text expected) set) :=
  fits_field (.text name get) (.text expected) (fun _ _ => Yaml.made_text_iff expected)
    get_set

theorem fits_number {max : Nat} (hmax : max < Nat.pow 2 64) (expected : String) {get : σ → Nat}
    {set : Nat → σ → σ} (get_set : ∀ x s, get (set x s) = x) :
    (Slot.number name max get).Fits (field name (Decoder.unsigned max expected) set) :=
  fits_field (.number name max get) (.unsigned max expected)
    (fun _ _ => Yaml.made_unsigned_iff hmax expected) get_set

theorem fits_texts (expected : String) {get : σ → List String} {set : List String → σ → σ}
    (get_set : ∀ x s, get (set x s) = x) :
    (Slot.texts name get).Fits (field name (.list (Decoder.text expected)) set) :=
  fits_field (.texts name get) (.list (.text expected))
    (fun _ _ => Yaml.made_texts_iff expected) get_set

theorem fits_record {slots : List (Slot α)} {default : α} (h : Decodes read slots default)
    {get : σ → α} (get_set : ∀ x s, get (set x s) = x) :
    (Slot.record name slots default get).Fits (field name read set) :=
  fits_field (.record name slots default get) h.steady h.made_iff get_set

end

theorem maxPort_lt : maxPort < Nat.pow 2 64 := by decide

theorem maxWord_lt : maxWord < Nat.pow 2 64 := by decide

theorem decodes_server : Decodes serverSection serverSlots {} := by
  refine Describes.decodes ⟨?_, by decide, ?_, ?_⟩ _ _
  · exact .cons (fits_text _ fun _ _ => rfl) <|
      .cons (fits_number maxPort_lt _ fun _ _ => rfl) <| .cons (fits_text _ fun _ _ => rfl) <|
      .cons (fits_number maxWord_lt _ fun _ _ => rfl) .nil
  · simp [serverSlots, Slot.text, Slot.number, keeps_field]
  · rintro ⟨⟩ ⟨⟩ h
    simpa [serverSlots, Slot.text, Slot.number] using h

theorem decodes_search : Decodes searchSection searchSlots {} := by
  refine Describes.decodes ⟨?_, by decide, ?_, ?_⟩ _ _
  · exact .cons (fits_text _ fun _ _ => rfl) <|
      .cons (fits_number maxWord_lt _ fun _ _ => rfl) <| .cons (fits_texts _ fun _ _ => rfl) .nil
  · simp [searchSlots, Slot.text, Slot.number, Slot.texts, keeps_field]
  · rintro ⟨⟩ ⟨⟩ h
    simpa [searchSlots, Slot.text, Slot.number, Slot.texts] using h

theorem decodes_mock : Decodes mockSection mockSlots {} := by
  refine Describes.decodes ⟨?_, by decide, ?_, ?_⟩ _ _
  · exact .cons (fits_number maxWord_lt _ fun _ _ => rfl) <|
      .cons (fits_number maxWord_lt _ fun _ _ => rfl) .nil
  · simp [mockSlots, Slot.number, keeps_field]
  · rintro ⟨⟩ ⟨⟩ h
    simpa [mockSlots, Slot.number] using h

theorem decodes_shutdown : Decodes shutdownSection shutdownSlots {} := by
  refine Describes.decodes ⟨?_, by decide, ?_, ?_⟩ _ _
  · exact .cons (fits_number maxWord_lt _ fun _ _ => rfl) .nil
  · simp [shutdownSlots, Slot.number]
  · rintro ⟨⟩ ⟨⟩ h
    simpa [shutdownSlots, Slot.number] using h

theorem decodes_logging : Decodes loggingSection loggingSlots {} := by
  refine Describes.decodes ⟨?_, by decide, ?_, ?_⟩ _ _
  · exact .cons (fits_text _ fun _ _ => rfl) .nil
  · simp [loggingSlots, Slot.text]
  · rintro ⟨⟩ ⟨⟩ h
    simpa [loggingSlots, Slot.text] using h

theorem decodes_config : Decodes decoder slots {} := by
  refine Describes.decodes ⟨?_, by decide, ?_, ?_⟩ _ _
  · exact .cons (fits_record decodes_server fun _ _ => rfl) <|
      .cons (fits_record decodes_search fun _ _ => rfl) <|
      .cons (fits_record decodes_mock fun _ _ => rfl) <|
      .cons (fits_record decodes_shutdown fun _ _ => rfl) <|
      .cons (fits_record decodes_logging fun _ _ => rfl) .nil
  · simp [slots, Slot.record, keeps_field]
  · rintro ⟨⟩ ⟨⟩ h
    simpa [slots, Slot.record] using h

structure Written (text : String) (t : Tree) : Prop where
  root : (Document.ofString text).root.tree? = some t
  whole : (Document.ofString text).defect = none
  single : (Document.ofString text).continued = false

/-- A configuration is read from a mapping exactly if the members give it. -/
theorem read_iff {text : String} {ms : List (Tree × Tree)} (h : Written text (.mapping ms))
    (c : Config) : Config.read text = .ok c ↔ Recorded slots {} ms c := by
  obtain ⟨m, members, hroot, -⟩ := Node.eq_mapping_of_tree h.root
  have hblank : Text.isAllBlank text = false := by
    by_contra hblank
    exact Yaml.root_ne_mapping (by simpa using hblank) m members hroot
  have hmade := decodes_config.steady (Document.ofString text) [] _ _ h.root
  have hgiven : made decoder (.mapping ms) = some c ↔ Recorded slots {} ms c := by
    simp [decodes_config.made_iff, section?]
  rw [← hgiven, ← hmade, Config.read, hblank, if_neg Bool.false_ne_true, Decoder.run]
  cases hread : decoder (Document.ofString text) [] (Document.ofString text).root with
  | error e => simp [Except.toOption]
  | ok c' => simp [h.whole, h.single, Except.toOption]

example : Written "x: 1\nserver:\n  port: 0x50\n" (.mapping
    [(.scalar ⟨none, "x", .plain⟩, .scalar ⟨none, "1", .plain⟩),
      (.scalar ⟨none, "server", .plain⟩, .mapping
        [(.scalar ⟨none, "port", .plain⟩, .scalar ⟨none, "0x50", .plain⟩)])]) :=
  ⟨by cbv, by cbv, by cbv⟩

def Given (ms : List (Tree × Tree)) (group name : String) (t : Tree) : Prop :=
  ∃ m ∈ ms, m.1.text? = some group ∧ ∃ inner, section? m.2 = some inner ∧
    ∃ m' ∈ inner, m'.1.text? = some name ∧ m'.2 = t

def leaves : List (String × Slot Config) :=
  (serverSlots.map fun slot => ("server", slot.within Config.server)) ++
  (searchSlots.map fun slot => ("search", slot.within Config.search)) ++
  (mockSlots.map fun slot => ("mock", slot.within Config.mock)) ++
  (shutdownSlots.map fun slot => ("shutdown", slot.within Config.shutdown)) ++
  (loggingSlots.map fun slot => ("logging", slot.within Config.logging))

def groups : List (String × List String) :=
  [("server", ["host", "port", "websocket_path", "broadcast_capacity"]),
    ("search", ["root", "rescan_interval_secs", "path_masks"]),
    ("mock", ["progress_interval_ms", "total_files"]), ("shutdown", ["drain_timeout_ms"]),
    ("logging", ["level"])]

structure NumberField where
  group : String
  name : String
  max : Nat
  get : Config → Nat

def numbers : List NumberField :=
  [⟨"server", "port", 65535, fun c => c.server.port⟩,
    ⟨"server", "broadcast_capacity", 18446744073709551615, fun c => c.server.broadcastCapacity⟩,
    ⟨"search", "rescan_interval_secs", 18446744073709551615, fun c => c.search.rescanInterval⟩,
    ⟨"mock", "progress_interval_ms", 18446744073709551615, fun c => c.mock.progressInterval⟩,
    ⟨"mock", "total_files", 18446744073709551615, fun c => c.mock.totalFiles⟩,
    ⟨"shutdown", "drain_timeout_ms", 18446744073709551615, fun c => c.shutdown.drainTimeout⟩]

/-- A member of the root as it was, or a section whose members are in another order, with more of
them that are not known. -/
def SameMember (m m' : Tree × Tree) : Prop :=
  m'.1 = m.1 ∧ (m'.2 = m.2 ∨ ∃ g ∈ groups, m.1.text? = some g.1 ∧
    ∃ inner inner', section? m.2 = some inner ∧ section? m'.2 = some inner' ∧
      Rearranged g.2 (· = ·) inner inner')

/-- How the configuration of a document whose root is a mapping follows from its known keys. -/
structure KeysDecide : Prop where
  exactly {text : String} {ms : List (Tree × Tree)} : Written text (.mapping ms) →
    ∀ c, Config.read text = .ok c ↔ Recorded slots {} ms c
  rearranged {text text' : String} {ms ms' : List (Tree × Tree)} : Written text (.mapping ms) →
    Written text' (.mapping ms') → Rearranged (groups.map Prod.fst) SameMember ms ms' →
      ∀ c, Config.read text = .ok c ↔ Config.read text' = .ok c
  default {text : String} {ms : List (Tree × Tree)} {c : Config} : Written text (.mapping ms) →
    Config.read text = .ok c → ∀ leaf ∈ leaves, (∀ t, ¬ Given ms leaf.1 leaf.2.name t) →
      leaf.2.get c = leaf.2.get {}
  stored {text : String} {ms : List (Tree × Tree)} {c : Config} : Written text (.mapping ms) →
    Config.read text = .ok c → ∀ f ∈ numbers, ∀ t, Given ms f.group f.name t →
      ∃ s, t = .scalar s ∧ s.canBeInteger ∧ Denotes s.text.toList (f.get c) ∧ f.get c ≤ f.max
  outOfRange {text : String} {ms : List (Tree × Tree)} : Written text (.mapping ms) →
    ∀ f ∈ numbers, ∀ s k, Given ms f.group f.name (.scalar s) → Denotes s.text.toList k →
      k < 0 ∨ f.max < k → ∃ e, Config.read text = .error e
  repeatedGroup {text : String} {ms : List (Tree × Tree)} : Written text (.mapping ms) →
    ∀ g ∈ groups, 1 < (ms.map fun m => m.1.text?).count (some g.1) →
      ∃ e, Config.read text = .error e
  repeatedField {text : String} {ms : List (Tree × Tree)} : Written text (.mapping ms) →
    ∀ g ∈ groups, ∀ m ∈ ms, m.1.text? = some g.1 → ∀ inner, section? m.2 = some inner →
      ∀ name ∈ g.2, 1 < (inner.map fun m => m.1.text?).count (some name) →
        ∃ e, Config.read text = .error e
  scalarSection {text : String} {ms : List (Tree × Tree)} : Written text (.mapping ms) →
    ∀ g ∈ groups, ∀ k s, (k, .scalar s) ∈ ms → k.text? = some g.1 →
      s.text ≠ "" ∨ s.style ≠ .plain → ∃ e, Config.read text = .error e

section

variable {σ : Type} {group : String} {inner : List (Slot σ)} {default : σ} {get : Config → σ}
  {slot : Slot σ} {ms members : List (Tree × Tree)} {m : Tree × Tree} {c : Config} {t : Tree}

theorem recorded_section (h : Recorded slots {} ms c)
    (hgroup : Slot.record group inner default get ∈ slots) (hm : m ∈ ms)
    (hkey : m.1.text? = some group) :
    ∃ members, section? m.2 = some members ∧ Recorded inner default members (get c) :=
  h.given _ hgroup m hm hkey

theorem reads_of_given (h : Recorded slots {} ms c)
    (hgroup : Slot.record group inner default get ∈ slots) (hslot : slot ∈ inner)
    (hgiven : Given ms group slot.name t) : slot.Reads t (slot.get (get c)) := by
  obtain ⟨m, hm, hkey, members, hmembers, m', hm', hkey', rfl⟩ := hgiven
  obtain ⟨members', hmembers', recorded⟩ := recorded_section h hgroup hm hkey
  obtain rfl := Option.some.inj (hmembers.symm.trans hmembers')
  exact recorded.given slot hslot m' hm' hkey'

theorem get_of_not_given (h : Recorded slots {} ms c)
    (hgroup : Slot.record group inner default get ∈ slots) (hdefault : get {} = default)
    (hslot : slot ∈ inner) (hno : ∀ t, ¬ Given ms group slot.name t) :
    slot.get (get c) = slot.get (get {}) := by
  by_cases hsection : ∃ m ∈ ms, m.1.text? = some group
  · obtain ⟨m, hm, hkey⟩ := hsection
    obtain ⟨members, hmembers, recorded⟩ := recorded_section h hgroup hm hkey
    rw [hdefault]
    exact recorded.absent slot hslot fun m' hm' hkey' =>
      hno m'.2 ⟨m, hm, hkey, members, hmembers, m', hm', hkey', rfl⟩
  · have hsame : get c = get {} := h.absent _ hgroup fun m hm hkey => hsection ⟨m, hm, hkey⟩
    rw [hsame]

end

theorem slot_of_group {g : String × List String} (h : g ∈ groups) :
    ∃ (σ : Type) (inner : List (Slot σ)) (default : σ) (get : Config → σ),
      Slot.record g.1 inner default get ∈ slots ∧ g.2 = inner.map Slot.name := by
  simp only [groups, List.mem_cons, List.not_mem_nil, or_false] at h
  rcases h with rfl | rfl | rfl | rfl | rfl
  · exact ⟨_, serverSlots, {}, Config.server, by simp [slots], rfl⟩
  · exact ⟨_, searchSlots, {}, Config.search, by simp [slots], rfl⟩
  · exact ⟨_, mockSlots, {}, Config.mock, by simp [slots], rfl⟩
  · exact ⟨_, shutdownSlots, {}, Config.shutdown, by simp [slots], rfl⟩
  · exact ⟨_, loggingSlots, {}, Config.logging, by simp [slots], rfl⟩

theorem slot_of_leaf {leaf : String × Slot Config} (h : leaf ∈ leaves) :
    ∃ (σ : Type) (inner : List (Slot σ)) (default : σ) (get : Config → σ) (slot : Slot σ),
      Slot.record leaf.1 inner default get ∈ slots ∧ get {} = default ∧ slot ∈ inner ∧
        leaf.2 = slot.within get := by
  simp only [leaves, List.mem_append, List.mem_map] at h
  obtain (((⟨slot, hslot, rfl⟩ | ⟨slot, hslot, rfl⟩) | ⟨slot, hslot, rfl⟩) |
    ⟨slot, hslot, rfl⟩) | ⟨slot, hslot, rfl⟩ := h
  · exact ⟨_, serverSlots, {}, Config.server, slot, by simp [slots], rfl, hslot, rfl⟩
  · exact ⟨_, searchSlots, {}, Config.search, slot, by simp [slots], rfl, hslot, rfl⟩
  · exact ⟨_, mockSlots, {}, Config.mock, slot, by simp [slots], rfl, hslot, rfl⟩
  · exact ⟨_, shutdownSlots, {}, Config.shutdown, slot, by simp [slots], rfl, hslot, rfl⟩
  · exact ⟨_, loggingSlots, {}, Config.logging, slot, by simp [slots], rfl, hslot, rfl⟩

theorem reads_of_leaf {ms : List (Tree × Tree)} {c : Config} (h : Recorded slots {} ms c)
    {leaf : String × Slot Config} (hleaf : leaf ∈ leaves) {t : Tree}
    (hgiven : Given ms leaf.1 leaf.2.name t) : leaf.2.Reads t (leaf.2.get c) := by
  obtain ⟨σ, inner, default, get, slot, hgroup, -, hslot, hsame⟩ := slot_of_leaf hleaf
  obtain ⟨group, _⟩ := leaf
  obtain rfl := hsame
  exact reads_of_given h hgroup hslot hgiven

theorem get_of_leaf {ms : List (Tree × Tree)} {c : Config} (h : Recorded slots {} ms c)
    {leaf : String × Slot Config} (hleaf : leaf ∈ leaves)
    (hno : ∀ t, ¬ Given ms leaf.1 leaf.2.name t) : leaf.2.get c = leaf.2.get {} := by
  obtain ⟨σ, inner, default, get, slot, hgroup, hdefault, hslot, hsame⟩ := slot_of_leaf hleaf
  obtain ⟨group, _⟩ := leaf
  obtain rfl := hsame
  exact get_of_not_given h hgroup hdefault hslot hno

theorem leaf_of_number {f : NumberField} (h : f ∈ numbers) :
    (f.group, Slot.number f.name f.max f.get) ∈ leaves := by
  simp only [numbers, List.mem_cons, List.not_mem_nil, or_false] at h
  rcases h with rfl | rfl | rfl | rfl | rfl | rfl <;>
    simp [leaves, serverSlots, searchSlots, mockSlots, shutdownSlots, Slot.within, Slot.number,
      maxPort, maxWord]

theorem reads_iff_of_same {m m' : Tree × Tree} (h : SameMember m m') {slot : Slot Config}
    (hslot : slot ∈ slots) (hkey : m.1.text? = some slot.name) (x : slot.α) :
    slot.Reads m.2 x ↔ slot.Reads m'.2 x := by
  obtain ⟨-, hsame | ⟨g, hg, hgroup, members, members', hmembers, hmembers', rearranged⟩⟩ := h
  · rw [hsame]
  · obtain ⟨σ, inner, default, get, hrecord, hnames⟩ := slot_of_group hg
    have distinct : (slots.map Slot.name).Nodup := by decide
    obtain rfl : slot = .record g.1 inner default get :=
      List.inj_on_of_nodup_map distinct hslot hrecord (Option.some.inj (hkey.symm.trans hgroup))
    have hiff : Recorded inner default members x ↔ Recorded inner default members' x :=
      (hnames ▸ rearranged).recorded_iff (fun _ _ heq => heq ▸ rfl)
        fun _ _ heq _ _ _ _ => heq ▸ Iff.rfl
    simpa [Slot.record, hmembers, hmembers'] using hiff

theorem exists_error {text : String} (h : ∀ c, Config.read text ≠ .ok c) :
    ∃ e, Config.read text = .error e := by
  cases hread : Config.read text with
  | error e => exact ⟨e, rfl⟩
  | ok c => exact absurd hread (h c)

theorem keys_decide : KeysDecide where
  exactly := read_iff
  rearranged written written' h c := by
    have hnames : groups.map Prod.fst = slots.map Slot.name := rfl
    rw [read_iff written, read_iff written']
    exact (hnames ▸ h).recorded_iff (fun _ _ same => congrArg Tree.text? same.1)
      fun _ _ same _ hslot hkey => reads_iff_of_same same hslot hkey
  default written hread leaf hleaf := get_of_leaf ((read_iff written _).1 hread) hleaf
  stored written hread f hf t hgiven := by
    obtain ⟨s, ht, hinteger, -, hdenotes, hrange⟩ :=
      reads_of_leaf ((read_iff written _).1 hread) (leaf_of_number hf) hgiven
    exact ⟨s, ht, hinteger, hdenotes, hrange⟩
  outOfRange written f hf s k hgiven hdenotes hrange := exists_error fun c hread => by
    obtain ⟨s', ht, -, -, hdenotes', hle⟩ :=
      reads_of_leaf ((read_iff written c).1 hread) (leaf_of_number hf) hgiven
    obtain rfl := Tree.scalar.inj ht
    have hsame : k = f.get c := hdenotes.unique hdenotes'
    have hbound : (f.get c : Int) ≤ f.max := Int.ofNat_le.2 hle
    omega
  repeatedGroup written g hg htwice := exists_error fun c hread => by
    obtain ⟨σ, inner, default, get, hgroup, -⟩ := slot_of_group hg
    exact absurd (((read_iff written c).1 hread).once _ hgroup) (Nat.not_le.2 htwice)
  repeatedField written g hg m hm hkey inner hinner name hname htwice :=
    exists_error fun c hread => by
      obtain ⟨σ, inner, default, get, hgroup, hnames⟩ := slot_of_group hg
      obtain ⟨members, hmembers, recorded⟩ :=
        recorded_section ((read_iff written c).1 hread) hgroup hm hkey
      obtain rfl := Option.some.inj (hinner.symm.trans hmembers)
      obtain ⟨slot, hslot, rfl⟩ := List.mem_map.1 (hnames ▸ hname)
      exact absurd (recorded.once slot hslot) (Nat.not_le.2 htwice)
  scalarSection written g hg k s hm hkey htext := exists_error fun c hread => by
    obtain ⟨σ, inner, default, get, hgroup, -⟩ := slot_of_group hg
    obtain ⟨members, hmembers, -⟩ :=
      recorded_section ((read_iff written c).1 hread) hgroup hm hkey
    have hvoid : s.isVoid = false := by
      rcases htext with htext | hstyle
      · simp [Scalar.isVoid, htext]
      · simp [Scalar.isVoid, hstyle]
    simp [section?, hvoid] at hmembers

end SearchRelay.Config

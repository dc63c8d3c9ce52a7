import SearchRelay.Proofs.Config.Layout
import SearchRelay.Proofs.Yaml.Records

namespace SearchRelay.Config

open Yaml (Decoder Node Part Row Spelling Remark Name Item)
open Yaml.Decoder (Takes Fills takes_scalar takes_number takes_list takes_record)

structure InRange (c : Config) : Prop where
  port : c.server.port ≤ maxPort
  broadcastCapacity : c.server.broadcastCapacity ≤ maxWord
  rescanInterval : c.search.rescanInterval ≤ maxWord
  progressInterval : c.mock.progressInterval ≤ maxWord
  totalFiles : c.mock.totalFiles ≤ maxWord
  drainTimeout : c.shutdown.drainTimeout ≤ maxWord

theorem takes_field {α σ : Type} {decoder : Decoder α} {P : Node → Prop} {a : α} (name : String)
    (set : α → σ → σ) (h : Takes decoder P a) : Takes (field name decoder set).read P (set a) := by
  intro d path n hn
  simp [field, h d path n hn, Except.map]

theorem takes_number_of_le {n max : Nat} (expected : String) (h : n ≤ max) (hmax : max ≤ maxWord) :
    Takes (Decoder.unsigned max expected) (Node.IsCell (.number n)) n :=
  takes_number expected h (Nat.lt_of_le_of_lt hmax (by decide))

namespace Layout

variable {σ V : Type} {fields : List (Decoder.Field σ)} {P : V → Node → Prop} (lay : Layout)
  {path : Yaml.Path} {e : Entry V} {es : List (Entry V)} {s s' : σ}

theorem fills_nil : Fills fields P (lay.rows path []) s s := .nil s

theorem fills_cons {f : Decoder.Field σ} {set : σ → σ}
    (found : (fields.find? fun f => f.name == e.name.val) = some f)
    (takes : Takes f.read (P e.value) set) (single : ∀ e' ∈ es, e'.name ≠ e.name)
    (default : e.isDefault = true → set s = s)
    (rest : Fills fields P (lay.rows path es) (set s) s') :
    Fills fields P (lay.rows path (e :: es)) s s' := by
  have hsingle : ∀ row ∈ lay.rows path es, row.name ≠ e.name := by
    intro row hrow
    obtain ⟨e', he', rfl⟩ := List.mem_map.1 hrow
    exact single e' (List.mem_filter.1 he').1
  by_cases hwritten : lay.writes path e
  · have hrows : lay.rows path (e :: es) =
        ⟨lay.remarks (path ++ [.key e.name.val]), e.name, e.value⟩ :: lay.rows path es := by
      simp [rows, hwritten]
    rw [hrows]
    exact .cons found takes hsingle rest
  · have hrows : lay.rows path (e :: es) = lay.rows path es := by simp [rows, hwritten]
    have hdefault : e.isDefault = true := by
      simp only [writes, Bool.not_eq_true', Bool.not_eq_false, Bool.and_eq_true] at hwritten
      exact hwritten.1
    rw [hrows, ← default hdefault]
    exact rest

theorem takes_texts (path : Yaml.Path) (ss : List String) :
    Takes (Decoder.list text) (Node.IsCell (lay.texts path ss)) ss := by
  have hlist : Takes (Decoder.list text) _ _ := takes_list (fun s => takes_scalar _ s _) lay.indent
    (ss.mapIdx fun i s => ⟨lay.remarks (path ++ [.item i]), s⟩)
  have htexts : (ss.mapIdx fun i s => (⟨lay.remarks (path ++ [.item i]), s⟩ : Item)).map
      Item.text = ss := by
    apply List.ext_getElem <;> simp
  rwa [htexts] at hlist

end Layout

section

variable (lay : Layout) {c : Config}

theorem takes_server (h : c.InRange) (path : Yaml.Path) :
    Takes serverSection (Node.IsMapping Node.IsCell (lay.rows path (Layout.server c.server)))
      c.server := by
  refine takes_record _ (lay.fills_cons rfl (takes_field _ _ (takes_scalar _ _ _)) (by simp) ?_ <|
    lay.fills_cons rfl (takes_field _ _ (takes_number_of_le _ h.port (by decide))) (by simp) ?_ <|
    lay.fills_cons rfl (takes_field _ _ (takes_scalar _ _ _)) (by simp) ?_ <|
    lay.fills_cons rfl (takes_field _ _ (takes_number_of_le _ h.broadcastCapacity (Nat.le_refl _)))
      (by simp) ?_ lay.fills_nil) <;>
    exact fun hdefault => by simpa using hdefault

theorem takes_search (h : c.InRange) (path : Yaml.Path) :
    Takes searchSection (Node.IsMapping Node.IsCell (lay.rows path (lay.search c.search)))
      c.search := by
  refine takes_record _ (lay.fills_cons rfl (takes_field _ _ (takes_scalar _ _ _)) (by simp) ?_ <|
    lay.fills_cons rfl (takes_field _ _ (takes_number_of_le _ h.rescanInterval (Nat.le_refl _)))
      (by simp) ?_ <|
    lay.fills_cons rfl (takes_field _ _ (lay.takes_texts _ _)) (by simp) ?_ lay.fills_nil) <;>
    exact fun hdefault => by simpa using hdefault

theorem takes_mock (h : c.InRange) (path : Yaml.Path) :
    Takes mockSection (Node.IsMapping Node.IsCell (lay.rows path (Layout.mock c.mock))) c.mock := by
  refine takes_record _ (lay.fills_cons rfl
      (takes_field _ _ (takes_number_of_le _ h.progressInterval (Nat.le_refl _))) (by simp) ?_ <|
    lay.fills_cons rfl (takes_field _ _ (takes_number_of_le _ h.totalFiles (Nat.le_refl _)))
      (by simp) ?_ lay.fills_nil) <;>
    exact fun hdefault => by simpa using hdefault

theorem takes_shutdown (h : c.InRange) (path : Yaml.Path) :
    Takes shutdownSection (Node.IsMapping Node.IsCell (lay.rows path (Layout.shutdown c.shutdown)))
      c.shutdown :=
  takes_record _ (lay.fills_cons rfl
    (takes_field _ _ (takes_number_of_le _ h.drainTimeout (Nat.le_refl _))) (by simp)
    (fun hdefault => by simpa using hdefault) lay.fills_nil)

theorem takes_logging (path : Yaml.Path) :
    Takes loggingSection (Node.IsMapping Node.IsCell (lay.rows path (Layout.logging c.logging)))
      c.logging :=
  takes_record _ (lay.fills_cons rfl (takes_field _ _ (takes_scalar _ _ _)) (by simp)
    (fun hdefault => by simpa using hdefault) lay.fills_nil)

theorem takes_config (h : c.InRange) :
    Takes decoder (Node.IsMapping (Node.IsMapping Node.IsCell) (lay.rows [] (lay.sections c)))
      c := by
  refine takes_record _ (lay.fills_cons rfl (takes_field _ _ (takes_server lay h _)) (by simp) ?_ <|
    lay.fills_cons rfl (takes_field _ _ (takes_search lay h _)) (by simp) ?_ <|
    lay.fills_cons rfl (takes_field _ _ (takes_mock lay h _)) (by simp) ?_ <|
    lay.fills_cons rfl (takes_field _ _ (takes_shutdown lay h _)) (by simp) ?_ <|
    lay.fills_cons rfl (takes_field _ _ (takes_logging lay _)) (by simp) ?_ lay.fills_nil) <;>
    exact fun hdefault => by simpa using hdefault

/-- Where no section is written, the configuration is the default one. -/
theorem eq_default_of_rows (h : c.InRange) (hrows : lay.rows [] (lay.sections c) = []) :
    c = {} := by
  have htakes := takes_config lay h
  rw [hrows] at htakes
  have hread := htakes ⟨.absent, none, [], {}, false⟩ [] _ ⟨.start, rfl⟩
  exact (Except.ok.inj hread).symm

end

theorem not_isAllBlank_sheet (sp : Spelling) (part : Part) (parts : List Part)
    (ending : List Remark) : Text.isAllBlank (sp.sheet (part :: parts) ending) = false := by
  obtain ⟨x, more, hname⟩ := List.exists_cons_of_ne_nil part.name.toList_ne_nil
  have hx : Text.isBlank x = false := by
    rcases part.name.eq_or_toNat x (by simp [hname]) with rfl | hlower
    · rfl
    · simp only [Text.isBlank, Bool.or_eq_false_iff, Bool.and_eq_false_iff, decide_eq_false_iff_not,
        beq_eq_false_iff_ne]
      omega
  have hmem : x ∈ (sp.sheet (part :: parts) ending).toList := by
    simp [Spelling.sheet, Spelling.lines, Row.partLines, Spelling.line, Spelling.content, hname]
  exact List.all_eq_false.2 ⟨x, hmem, by simp [hx]⟩

/-- A configuration is read back from its text, in every layout. -/
theorem read_render (lay : Layout) (c : Config) (h : c.InRange) :
    Config.read (lay.render c) = .ok c := by
  obtain ⟨n, hn, hdocument⟩ :=
    Yaml.ofString_sheet lay.spelling (lay.rows [] (lay.sections c)) lay.ending
  have htakes := takes_config lay h
  have hdefault := eq_default_of_rows lay h
  unfold Layout.render Config.read
  -- Where everything is left out no document is written, and the defaults are read.
  cases hrows : lay.rows [] (lay.sections c) with
  | nil =>
    rw [hrows] at hn hdocument
    obtain rfl := hdefault hrows
    obtain rfl : n = .absent := hn
    split
    · rfl
    · rw [Decoder.run, hdocument]
      rfl
  | cons part parts =>
    rw [hrows] at hn hdocument htakes
    rw [not_isAllBlank_sheet, if_neg Bool.false_ne_true, Decoder.run, hdocument]
    simp only [htakes _ _ n hn]
    rfl

/-- The shortest layout: every default is left out. -/
def Layout.brief : Layout where
  spelling := .long
  omits _ := true
  remarks _ := []
  indent := 2
  ending := []

theorem read_render_brief :
    Config.read ("search:\n  path_masks:\n    - \".git\"\n    - \"a\\U00000022b \\U000000e9\"\n" ++
        "mock:\n  total_files: 18446744073709551615\n") =
      .ok { search := { pathMasks := [".git", "a\"b é"] },
            mock := { totalFiles := 18446744073709551615 } } := by
  have hrender : Layout.brief.render { search := { pathMasks := [".git", "a\"b é"] },
                                       mock := { totalFiles := 18446744073709551615 } } =
      "search:\n  path_masks:\n    - \".git\"\n    - \"a\\U00000022b \\U000000e9\"\n" ++
        "mock:\n  total_files: 18446744073709551615\n" := by
    decide +kernel
  rw [← hrender]
  exact read_render _ _ ⟨by decide, by decide, by decide, by decide, by decide, by decide⟩

end SearchRelay.Config

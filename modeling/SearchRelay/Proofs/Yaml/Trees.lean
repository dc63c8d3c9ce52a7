import Mathlib.Data.List.Forall2
import SearchRelay.Proofs.Yaml.Nodes

namespace SearchRelay.Yaml

namespace Node

def IsScalar (text : String) (style : Style) (n : Node) : Prop :=
  ∃ m, n = .scalar m ⟨none, text, style⟩

def IsList (texts : List String) (n : Node) : Prop :=
  ∃ m ns, n = .sequence m ns ∧ List.Forall₂ (fun text n => IsScalar text .doubleQuoted n) texts ns

def AreMembers {V : Type} (P : V → Node → Prop) (rows : List (Row V)) (ms : List (Node × Node)) :
    Prop :=
  List.Forall₂ (fun row kv => IsScalar row.name.val .plain kv.1 ∧ P row.value kv.2) rows ms

def IsMapping {V : Type} (P : V → Node → Prop) : List (Row V) → Node → Prop
  | [], n => IsScalar "" .plain n
  | row :: rows, n => ∃ m ms, n = .mapping m ms ∧ AreMembers P (row :: rows) ms

def IsCell : Cell → Node → Prop
  | .number n => IsScalar (String.ofList (Nat.toDigits 10 n)) .plain
  | .text s => IsScalar s .doubleQuoted
  | .list _ items => IsList (items.map Item.text)

end Node

namespace EventReader

/-- Where a node may stand, tokens are read as a node with a property. -/
def ReadsNode (ls : List Lexeme) (P : Node → Prop) : Prop :=
  ∀ (ts more : List Token) (r q : EventReader) (indentless : Bool), ts.map Token.lexeme = ls →
    r.expected ≠ .nothing → r.step = node true indentless q → q.tokens = ts ++ more →
    ∃ es n, P n ∧ es.length ≤ ts.length ∧ Makes es n ∧ Runs r es { q with tokens := more }.resume

def ReadsValue (ls : List Lexeme) (P : Node → Prop) : Prop :=
  ∀ (ts more : List Token) (r : EventReader) (t u : Token), ts.map Token.lexeme = ls →
    r.expected = .blockValue → r.tokens = t :: (ts ++ u :: more) → t.lexeme = .value →
    u.lexeme ∈ [.key, .blockEnd] →
    ∃ es n, P n ∧ es.length ≤ ts.length + 1 ∧ Makes es n ∧
      Runs r es { r with tokens := u :: more, expected := .blockKey }

variable {ts more : List Token} {r : EventReader} {t u : Token}

theorem readsNode_scalar (text : String) (style : Style) :
    ReadsNode [.scalar text style] (Node.IsScalar text style) := by
  intro ts more r q indentless hts hr hstep hq
  obtain ⟨t, rfl, ht⟩ : ∃ t, ts = [t] ∧ t.lexeme = .scalar text style := by
    simpa [List.map_eq_cons_iff] using hts
  have hnode : node true indentless q = _ := node_scalar hq ht
  exact ⟨_, _, ⟨t.start, rfl⟩, Nat.le_refl _, makes_scalar text style t.start,
    .next hr (hstep.trans hnode) (.done _)⟩

theorem readsNode_emptyList :
    ReadsNode [.flowSequenceStart, .flowSequenceEnd] (Node.IsList []) := by
  intro ts more r q indentless hts hr hstep hq
  obtain ⟨t, u, rfl, ht, hu⟩ : ∃ t u, ts = [t, u] ∧ t.lexeme = .flowSequenceStart ∧
      u.lexeme = .flowSequenceEnd := by
    simp only [List.map_eq_cons_iff, List.map_eq_nil_iff] at hts
    obtain ⟨t, _, rfl, ht, u, _, rfl, hu, rfl⟩ := hts
    exact ⟨t, u, rfl, ht, hu⟩
  have hnode : node true indentless q = _ := node_flowSequence hq ht
  have hend := step_flowEnd (r := ({ q with tokens := u :: more }.enter t.start).expect
    (.flowEntry true)) rfl rfl hu
  exact ⟨_, _, ⟨t.start, [], rfl, .nil⟩, Nat.le_refl _, makesItems_nil.sequence t.start u.start,
    .next hr (hstep.trans hnode) (.next (by simp [expect]) hend (.done _))⟩

theorem runs_items (items : List Item)
    (hr : r.expected = .blockEntry ∨ r.expected = .indentlessEntry)
    (hts : ts.map Token.lexeme = entries items) (htokens : r.tokens = ts ++ more) :
    ∃ es ns, List.Forall₂ (fun text n => Node.IsScalar text .doubleQuoted n)
        (items.map Item.text) ns ∧
      2 * es.length ≤ ts.length ∧ MakesItems es ns ∧ Runs r es { r with tokens := more } := by
  induction items generalizing ts r with
  | nil =>
    obtain rfl : ts = [] := by simpa [entries] using hts
    have hsame : { r with tokens := more } = r := by rw [← List.nil_append more, ← htokens]
    rw [hsame]
    exact ⟨[], [], .nil, Nat.le_refl _, makesItems_nil, .done r⟩
  | cons item items ih =>
    simp only [entries, List.flatMap_cons, List.cons_append, List.nil_append,
      List.map_eq_cons_iff] at hts
    obtain ⟨t, _, rfl, ht, u, ts, rfl, hu, hts⟩ := hts
    obtain ⟨es, ns, hns, hlength, hmakes, hruns⟩ := ih (r := { r with tokens := ts ++ more }) hr
      hts rfl
    have hstep := step_entry hr htokens ht hu
    refine ⟨_ :: es, _ :: ns, .cons ⟨u.start, rfl⟩ hns, ?_,
      (makes_scalar item.text .doubleQuoted u.start).items hmakes,
      .next (by rcases hr with hr | hr <;> simp [hr]) hstep hruns⟩
    simp only [List.length_cons]
    omega

theorem readsNode_list (items : List Item) :
    ReadsNode (.blockSequenceStart :: (entries items ++ [.blockEnd]))
      (Node.IsList (items.map Item.text)) := by
  intro ts more r q indentless hts hr hstep hq
  simp only [List.map_eq_cons_iff, List.map_eq_append_iff, List.map_eq_nil_iff] at hts
  obtain ⟨t, _, rfl, ht, ts, _, rfl, hts, u, _, rfl, hu, rfl⟩ := hts
  rw [List.cons_append, List.append_assoc, List.singleton_append] at hq
  have hnode : node true indentless q = _ := node_blockSequence hq ht
  obtain ⟨es, ns, hns, hlength, hmakes, hruns⟩ := runs_items
    (r := ({ q with tokens := ts ++ u :: more }.enter t.start).expect .blockEntry) items (.inl rfl)
    hts rfl
  have hend := step_sequenceEnd
    (r := ({ q with tokens := u :: more }.enter t.start).expect .blockEntry) rfl rfl hu
  refine ⟨_, _, ⟨t.start, ns, rfl, hns⟩, ?_, hmakes.sequence t.start u.start,
    .next hr (hstep.trans hnode) (hruns.trans (.next (by simp [expect]) hend (.done _)))⟩
  simp only [List.length_cons, List.length_append, List.length_nil]
  omega

theorem ReadsNode.value {l : Lexeme} {ls : List Lexeme} {P : Node → Prop}
    (h : ReadsNode (l :: ls) P) (hl : l ∉ [.key, .value, .blockEnd]) : ReadsValue (l :: ls) P := by
  intro ts more r t u hts hr htokens ht hu
  obtain ⟨v, ts, rfl, hv, -⟩ := List.map_eq_cons_iff.1 hts
  have hstep := step_value hr htokens ht (by rwa [hv])
  obtain ⟨es, n, hn, hlength, hmakes, hruns⟩ :=
    h _ (u :: more) r _ true hts (by simp [hr]) hstep rfl
  exact ⟨es, n, hn, Nat.le_succ_of_le hlength, hmakes, hruns⟩

theorem readsValue_nil : ReadsValue [] (Node.IsScalar "" .plain) := by
  intro ts more r t u hts hr htokens ht hu
  obtain rfl : ts = [] := by simpa using hts
  have hstep := step_noValue hr htokens ht (by revert hu; simp; rintro (h | h) <;> simp [h])
  exact ⟨_, _, ⟨t.stop, rfl⟩, Nat.le_refl _, makes_scalar "" .plain t.stop,
    .next (by simp [hr]) hstep (.done _)⟩

/-- The items of a list need no more indentation than its name. -/
theorem readsValue_indentless (item : Item) (items : List Item) :
    ReadsValue (entries (item :: items)) (Node.IsList ((item :: items).map Item.text)) := by
  intro ts more r t u hts hr htokens ht hu
  obtain ⟨v, ts, rfl, hv, hrest⟩ : ∃ v ts', ts = v :: ts' ∧ v.lexeme = .blockEntry ∧ _ :=
    List.map_eq_cons_iff.1 hts
  have hstep := step_value hr htokens ht (by simp [hv])
  have hnode : node true true ({ r with tokens := v :: (ts ++ u :: more) }.follow .blockKey) = _ :=
    node_indentless rfl hv
  obtain ⟨es, ns, hns, hlength, hmakes, hruns⟩ := runs_items
    (r := ({ r with tokens := v :: (ts ++ u :: more) }.follow .blockKey).expect .indentlessEntry)
    (item :: items) (.inr rfl) hts rfl
  have hend := step_indentlessEnd
    (r := ({ r with tokens := u :: more }.follow .blockKey).expect .indentlessEntry) rfl rfl
    (by rintro hentry; simp [hentry] at hu)
  refine ⟨_, _, ⟨v.start, ns, rfl, hns⟩, ?_, hmakes.sequence v.start u.start,
    .next (by simp [hr]) (hstep.trans hnode)
      (hruns.trans (.next (by simp [expect]) hend (.done _)))⟩
  -- The end takes no token of its own, but every item takes two.
  have htwo := congrArg List.length hts
  simp only [entries, List.length_map, List.flatMap_cons, List.length_append, List.length_cons,
    List.length_nil] at htwo hlength ⊢
  omega

section

variable {V : Type} {value : V → List Lexeme} {P : V → Node → Prop} {rows : List (Row V)}

theorem exists_next (more : List Token) (hts : ts.map Token.lexeme = Row.members value rows)
    (hu : u.lexeme = .blockEnd) :
    ∃ u' more', ts ++ u :: more = u' :: more' ∧ u'.lexeme ∈ [.key, .blockEnd] := by
  cases rows with
  | nil =>
    obtain rfl : ts = [] := by simpa [Row.members] using hts
    exact ⟨u, more, rfl, by simp [hu]⟩
  | cons row rows =>
    simp only [Row.members, List.flatMap_cons, List.cons_append, List.map_eq_cons_iff] at hts
    obtain ⟨t, ts, rfl, ht, -⟩ := hts
    exact ⟨t, _, rfl, by simp [ht]⟩

theorem runs_members (h : ∀ row ∈ rows, ReadsValue (value row.value) (P row.value))
    (hr : r.expected = .blockKey) (hts : ts.map Token.lexeme = Row.members value rows)
    (htokens : r.tokens = ts ++ u :: more) (hu : u.lexeme = .blockEnd) :
    ∃ es ms, Node.AreMembers P rows ms ∧ es.length ≤ ts.length ∧ MakesMembers es ms ∧
      Runs r es { r with tokens := u :: more } := by
  induction rows generalizing ts r with
  | nil =>
    obtain rfl : ts = [] := by simpa [Row.members] using hts
    have hsame : { r with tokens := u :: more } = r := by
      rw [← List.nil_append (u :: more), ← htokens]
    rw [hsame]
    exact ⟨[], [], .nil, Nat.le_refl _, makesMembers_nil, .done r⟩
  | cons row rows ih =>
    obtain ⟨hrow, hrows⟩ := List.forall_mem_cons.1 h
    simp only [Row.members, List.flatMap_cons, List.cons_append, List.nil_append,
      List.map_eq_cons_iff, List.map_eq_append_iff] at hts
    obtain ⟨t, _, rfl, ht, k, _, rfl, hk, v, _, rfl, hv, ts, ts', rfl, hvalue, hts⟩ := hts
    obtain ⟨u', more', hnext, hu'⟩ := exists_next more hts hu
    have hkey := step_key hr (show r.tokens = t :: k :: v :: (ts ++ u' :: more') by
      rw [htokens, ← hnext]; simp) ht hk
    obtain ⟨es, n, hn, hlength, hmakes, hruns⟩ := hrow ts more'
      { r with tokens := v :: (ts ++ u' :: more'), expected := .blockValue } v u' hvalue rfl rfl hv
      hu'
    obtain ⟨fs, ms, hms, hlength', hmakes', hruns'⟩ := ih hrows
      (r := { r with tokens := u' :: more', expected := .blockKey }) rfl hts hnext.symm
    have hback : ({ r with tokens := u :: more } : EventReader) =
        { r with tokens := u :: more, expected := .blockKey } := by rw [← hr]
    rw [hback]
    refine ⟨_ :: (es ++ fs), _ :: ms, .cons ⟨⟨k.start, rfl⟩, hn⟩ hms, ?_,
      (makes_scalar row.name.val .plain k.start).members hmakes hmakes',
      .next (by simp [hr]) hkey (hruns.trans hruns')⟩
    simp only [List.length_cons, List.length_append]
    omega

theorem readsNode_mapping {row : Row V}
    (h : ∀ row' ∈ row :: rows, ReadsValue (value row'.value) (P row'.value)) :
    ReadsNode (Row.mapping value (row :: rows)) (Node.IsMapping P (row :: rows)) := by
  intro ts more r q indentless hts hr hstep hq
  simp only [Row.mapping, List.map_eq_cons_iff, List.map_eq_append_iff, List.map_eq_nil_iff] at hts
  obtain ⟨t, _, rfl, ht, ts, _, rfl, hts, u, _, rfl, hu, rfl⟩ := hts
  rw [List.cons_append, List.append_assoc, List.singleton_append] at hq
  have hnode : node true indentless q = _ := node_blockMapping hq ht
  obtain ⟨es, ms, hms, hlength, hmakes, hruns⟩ := runs_members
    (r := ({ q with tokens := ts ++ u :: more }.enter t.start).expect .blockKey) h rfl hts rfl hu
  have hend := step_mappingEnd
    (r := ({ q with tokens := u :: more }.enter t.start).expect .blockKey) rfl rfl hu
  refine ⟨_, _, ⟨t.start, ms, rfl, hms⟩, ?_, hmakes.mapping t.start u.start,
    .next hr (hstep.trans hnode) (hruns.trans (.next (by simp [expect]) hend (.done _)))⟩
  simp only [List.length_cons, List.length_append, List.length_nil]
  omega

theorem readsValue_mapping (h : ∀ row ∈ rows, ReadsValue (value row.value) (P row.value)) :
    ReadsValue (Row.mapping value rows) (Node.IsMapping P rows) := by
  cases rows with
  | nil => exact readsValue_nil
  | cons row rows => exact (readsNode_mapping h).value (by simp)

end

theorem readsValue_cell (cell : Cell) : ReadsValue cell.lexemes (Node.IsCell cell) := by
  match cell with
  | .number n => exact (readsNode_scalar _ _).value (by simp)
  | .text s => exact (readsNode_scalar _ _).value (by simp)
  | .list _ [] => exact readsNode_emptyList.value (by simp)
  | .list 0 (item :: items) => exact readsValue_indentless item items
  | .list (_ + 1) (item :: items) => exact (readsNode_list (item :: items)).value (by simp)

theorem ofTokens_of_runs {ending : Except Fault Token} {es : List Event} {r' : EventReader}
    (h : Runs { tokens := ts, ending } es r') (hend : r'.expected = .nothing)
    (hlength : es.length ≤ 4 * ts.length + 8) :
    EventStream.ofTokens ⟨ts, ending⟩ = ⟨es, none⟩ := by
  obtain ⟨fuel, hfuel⟩ := Nat.exists_eq_add_of_le hlength
  have hrun : EventStream.ofReader (es.length + fuel) _ [] = _ := ofReader_of_runs h fuel
  rw [EventStream.ofTokens, hfuel, hrun]
  cases fuel <;> simp [EventStream.ofReader, hend]

/-- The tokens of a block mapping, between the start and the end of a text, are a document. -/
theorem ofTokens_node {ls : List Lexeme} {P : Node → Prop}
    (h : ReadsNode (.blockMappingStart :: ls) P)
    (hts : ts.map Token.lexeme = .streamStart :: .blockMappingStart :: ls)
    (ht : t.lexeme = .streamEnd) :
    ∃ n es, P n ∧ EventStream.ofTokens ⟨ts, .ok t⟩ = ⟨es, none⟩ ∧
      Document.build none es {} = ⟨n, none, [], {}, false⟩ := by
  obtain ⟨t₀, ts, rfl, ht₀, hts⟩ := List.map_eq_cons_iff.1 hts
  obtain ⟨t₁, ts', rfl, ht₁, -⟩ := List.map_eq_cons_iff.1 hts
  have hstart : step { tokens := t₀ :: t₁ :: ts', ending := .ok t } =
      .ok (⟨.streamStart, t₀.start⟩,
        { tokens := t₁ :: ts', ending := .ok t, expected := .document false }) := rfl
  have hdocument : step { tokens := t₁ :: ts', ending := .ok t, expected := .document false } =
      .ok (⟨.documentStart, t₁.start⟩,
        { tokens := t₁ :: ts', ending := .ok t, expected := .blockNode, pending := [.documentEnd],
          tagDirectives := defaultTags }) := by
    simp [step, document, peek, ht₁, isDirective, bind, Except.bind, emit, expect, follow]
  obtain ⟨es, n, hn, hlength, hmakes, hruns⟩ := h (t₁ :: ts') []
    { tokens := t₁ :: ts', ending := .ok t, expected := .blockNode, pending := [.documentEnd],
      tagDirectives := defaultTags } _ false hts (by simp) rfl (List.append_nil _).symm
  have hend : step
      { tokens := [], ending := .ok t, expected := .documentEnd, tagDirectives := defaultTags } =
      .ok (⟨.documentEnd, t.start⟩, { tokens := [], ending := .ok t, expected := .document true,
                                      tagDirectives := defaultTags }) := by
    simp [step, documentEnd, peek, ht, bind, Except.bind, emit, expect]
  have hlast : step
      { tokens := [], ending := .ok t, expected := .document true, tagDirectives := defaultTags } =
      .ok (⟨.streamEnd, t.start⟩, { tokens := [], ending := .ok t, expected := .nothing,
                                    tagDirectives := defaultTags }) := by
    simp [step, document, peek, ht, bind, Except.bind, emit, expect, skipDocumentEnds]
  have hall := Runs.next (by simp) hstart (.next (by simp) hdocument
    (hruns.trans (.next (by simp [resume]) hend (.next (by simp) hlast (.done _)))))
  refine ⟨n, _, hn, ofTokens_of_runs hall rfl ?_, ?_⟩
  · simp only [List.length_cons, List.length_append, List.length_nil] at hlength ⊢
    omega
  · exact hmakes none _ {}

/-- Without tokens of its own, a text holds no document. -/
theorem ofTokens_nothing (hts : ts.map Token.lexeme = [.streamStart])
    (ht : t.lexeme = .streamEnd) :
    ∃ es, EventStream.ofTokens ⟨ts, .ok t⟩ = ⟨es, none⟩ ∧
      Document.build none es {} = ⟨.absent, none, [], {}, false⟩ := by
  obtain ⟨t₀, rfl, ht₀⟩ : ∃ t₀, ts = [t₀] ∧ t₀.lexeme = .streamStart := by
    simpa [List.map_eq_cons_iff] using hts
  have hstart : step { tokens := [t₀], ending := .ok t } = .ok (⟨.streamStart, t₀.start⟩,
      { tokens := [], ending := .ok t, expected := .document false }) := rfl
  have hlast : step { tokens := [], ending := .ok t, expected := .document false } =
      .ok (⟨.streamEnd, t.start⟩, { tokens := [], ending := .ok t, expected := .nothing }) := by
    simp [step, document, peek, ht, bind, Except.bind, emit, expect]
  exact ⟨_, ofTokens_of_runs (.next (by simp) hstart (.next (by simp) hlast (.done _))) rfl
    (by simp), rfl⟩

end EventReader

end SearchRelay.Yaml

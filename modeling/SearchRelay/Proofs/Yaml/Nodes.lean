import SearchRelay.Proofs.Yaml.Outline

namespace SearchRelay.Yaml

open Document (Building build)

/-- Wherever they stand, the events place a node. -/
def Makes (es : List Event) (n : Node) : Prop :=
  ∀ fault more b, build fault (es ++ more) b = build fault more (b.place n)

def MakesItems (es : List Event) (ns : List Node) : Prop :=
  ∀ fault more (b : Building) m items stack,
    build fault (es ++ more) { b with stack := .sequence m none items :: stack } =
      build fault more { b with stack := .sequence m none (ns.reverse ++ items) :: stack }

def MakesMembers (es : List Event) (ms : List (Node × Node)) : Prop :=
  ∀ fault more (b : Building) m members stack,
    build fault (es ++ more) { b with stack := .mapping m none members none :: stack } =
      build fault more { b with stack := .mapping m none (ms.reverse ++ members) none :: stack }

section

variable {es fs : List Event} {n k : Node} {ns : List Node} {ms : List (Node × Node)}

theorem makes_scalar (text : String) (style : Style) (m : Mark) :
    Makes [⟨.scalar {} text style, m⟩] (.scalar m ⟨none, text, style⟩) := fun _ _ _ => rfl

theorem makesItems_nil : MakesItems [] [] := fun _ _ _ _ _ _ => rfl

theorem Makes.items (hn : Makes es n) (hns : MakesItems fs ns) :
    MakesItems (es ++ fs) (n :: ns) := by
  intro fault more b m items stack
  rw [List.append_assoc, hn]
  have hrest := hns fault more b m (n :: items) stack
  simpa [Building.place] using hrest

theorem MakesItems.sequence (h : MakesItems es ns) (m m' : Mark) :
    Makes (⟨.sequenceStart {}, m⟩ :: (es ++ [⟨.sequenceEnd, m'⟩])) (.sequence m ns) := by
  intro fault more b
  have hitems := h fault (⟨.sequenceEnd, m'⟩ :: more) b m [] b.stack
  rw [List.cons_append, List.append_assoc]
  exact hitems.trans (by simp [build, Building.close, Building.finish])

theorem makesMembers_nil : MakesMembers [] [] := fun _ _ _ _ _ _ => rfl

theorem Makes.members (hk : Makes es k) (hn : Makes fs n) {gs : List Event}
    (hms : MakesMembers gs ms) : MakesMembers (es ++ (fs ++ gs)) ((k, n) :: ms) := by
  intro fault more b m members stack
  rw [List.append_assoc, List.append_assoc, hk, hn]
  have hrest := hms fault more b m ((k, n) :: members) stack
  simpa [Building.place] using hrest

theorem MakesMembers.mapping (h : MakesMembers es ms) (m m' : Mark) :
    Makes (⟨.mappingStart {}, m⟩ :: (es ++ [⟨.mappingEnd, m'⟩])) (.mapping m ms) := by
  intro fault more b
  have hmembers := h fault (⟨.mappingEnd, m'⟩ :: more) b m [] b.stack
  rw [List.cons_append, List.append_assoc]
  exact hmembers.trans (by simp [build, Building.close, Building.finish])

end

namespace EventReader

inductive Runs : EventReader → List Event → EventReader → Prop
  | done (r : EventReader) : Runs r [] r
  | next {r r' r'' : EventReader} {e : Event} {es : List Event} (going : r.expected ≠ .nothing)
      (h : r.step = .ok (e, r')) (rest : Runs r' es r'') : Runs r (e :: es) r''

theorem Runs.trans {r r' r'' : EventReader} {es fs : List Event} (h : Runs r es r')
    (h' : Runs r' fs r'') : Runs r (es ++ fs) r'' := by
  induction h with
  | done => exact h'
  | next going hstep _ ih => exact .next going hstep (ih h')

theorem ofReader_of_runs {r r' : EventReader} {es acc : List Event} (h : Runs r es r')
    (fuel : Nat) :
    EventStream.ofReader (es.length + fuel) r acc =
      EventStream.ofReader fuel r' (es.reverse ++ acc) := by
  induction h generalizing acc with
  | done => rw [List.length_nil, Nat.zero_add]; rfl
  | next going hstep _ ih =>
    rw [List.length_cons, Nat.add_right_comm, EventStream.ofReader, if_neg going]
    simp only [hstep]
    rw [ih, List.reverse_cons, List.append_assoc]
    rfl

variable {q r : EventReader} {t u : Token} {ts more : List Token} {block indentless : Bool}

theorem node_scalar {text : String} {style : Style} (hq : q.tokens = t :: ts)
    (ht : t.lexeme = .scalar text style) :
    node block indentless q =
      .ok (⟨.scalar {} text style, t.start⟩, { q with tokens := ts }.resume) := by
  have hpeek : q.peek = .ok t := by simp [peek, hq]
  simp [node, nodeHead, hpeek, ht, bind, Except.bind, pure, Except.pure, emit, skip, hq]

theorem node_blockSequence (hq : q.tokens = t :: ts) (ht : t.lexeme = .blockSequenceStart) :
    node true indentless q = .ok (⟨.sequenceStart {}, t.start⟩,
      ({ q with tokens := ts }.enter t.start).expect .blockEntry) := by
  have hpeek : q.peek = .ok t := by simp [peek, hq]
  simp [node, nodeHead, hpeek, ht, bind, Except.bind, pure, Except.pure, emit, skip, hq]

theorem node_blockMapping (hq : q.tokens = t :: ts) (ht : t.lexeme = .blockMappingStart) :
    node true indentless q = .ok (⟨.mappingStart {}, t.start⟩,
      ({ q with tokens := ts }.enter t.start).expect .blockKey) := by
  have hpeek : q.peek = .ok t := by simp [peek, hq]
  simp [node, nodeHead, hpeek, ht, bind, Except.bind, pure, Except.pure, emit, skip, hq]

theorem node_flowSequence (hq : q.tokens = t :: ts) (ht : t.lexeme = .flowSequenceStart) :
    node block indentless q = .ok (⟨.sequenceStart {}, t.start⟩,
      ({ q with tokens := ts }.enter t.start).expect (.flowEntry true)) := by
  have hpeek : q.peek = .ok t := by simp [peek, hq]
  simp [node, nodeHead, hpeek, ht, bind, Except.bind, pure, Except.pure, emit, skip, hq]

/-- In a mapping, a sequence can start with its first dash. -/
theorem node_indentless (hq : q.tokens = t :: ts) (ht : t.lexeme = .blockEntry) :
    node block true q = .ok (⟨.sequenceStart {}, t.start⟩, q.expect .indentlessEntry) := by
  have hpeek : q.peek = .ok t := by simp [peek, hq]
  simp [node, nodeHead, hpeek, ht, bind, Except.bind, pure, Except.pure, emit]

theorem step_key {text : String} {style : Style} (he : r.expected = .blockKey)
    (hr : r.tokens = t :: u :: ts) (ht : t.lexeme = .key) (hu : u.lexeme = .scalar text style) :
    r.step = .ok (⟨.scalar {} text style, u.start⟩,
      { r with tokens := ts, expected := .blockValue }) := by
  have hpeek : r.peek = .ok t := by simp [peek, hr]
  have hnext : r.skip.peek = .ok u := by simp [peek, skip, hr]
  have hnode : node true true (r.skip.follow .blockValue) = _ :=
    node_scalar (show _ = u :: ts by simp [skip, follow, hr]) hu
  simp [step, he, blockKey, hpeek, ht, nodeAfter, hnext, hu, hnode, bind, Except.bind]
  rfl

theorem step_value (he : r.expected = .blockValue) (hr : r.tokens = t :: u :: ts)
    (ht : t.lexeme = .value) (hu : u.lexeme ∉ [.key, .value, .blockEnd]) :
    r.step = node true true ({ r with tokens := u :: ts }.follow .blockKey) := by
  have hpeek : r.peek = .ok t := by simp [peek, hr]
  have hskip : r.skip = { r with tokens := u :: ts } := by simp [skip, hr]
  have hnext : r.skip.peek = .ok u := by simp [peek, skip, hr]
  have hstops : [Lexeme.key, .value, .blockEnd].contains u.lexeme = false := by simpa using hu
  simp only [step, he, blockValue, hpeek, ht, nodeAfter, hnext, bind, Except.bind, hstops,
    Bool.false_eq_true, if_false]
  rw [hskip, he]

theorem step_noValue (he : r.expected = .blockValue) (hr : r.tokens = t :: u :: ts)
    (ht : t.lexeme = .value) (hu : u.lexeme ∈ [.key, .value, .blockEnd]) :
    r.step = .ok (⟨.scalar {} "" .plain, t.stop⟩,
      { r with tokens := u :: ts, expected := .blockKey }) := by
  have hpeek : r.peek = .ok t := by simp [peek, hr]
  have hskip : r.skip = { r with tokens := u :: ts } := by simp [skip, hr]
  have hnext : r.skip.peek = .ok u := by simp [peek, skip, hr]
  have hstops : [Lexeme.key, .value, .blockEnd].contains u.lexeme = true := by simpa using hu
  simp only [step, he, blockValue, hpeek, ht, nodeAfter, hnext, bind, Except.bind, hstops,
    if_true]
  rw [hskip]
  rfl

theorem step_mappingEnd (he : r.expected = .blockKey) (hr : r.tokens = t :: ts)
    (ht : t.lexeme = .blockEnd) :
    r.step = .ok (⟨.mappingEnd, t.start⟩, { r with tokens := ts }.leave.resume) := by
  have hpeek : r.peek = .ok t := by simp [peek, hr]
  simp [step, he, blockKey, hpeek, ht, bind, Except.bind, emit, skip, hr]

theorem step_entry {text : String} {style : Style}
    (he : r.expected = .blockEntry ∨ r.expected = .indentlessEntry)
    (hr : r.tokens = t :: u :: ts) (ht : t.lexeme = .blockEntry)
    (hu : u.lexeme = .scalar text style) :
    r.step = .ok (⟨.scalar {} text style, u.start⟩, { r with tokens := ts }) := by
  have hpeek : r.peek = .ok t := by simp [peek, hr]
  have hnext : r.skip.peek = .ok u := by simp [peek, skip, hr]
  have hnode : node true false (r.skip.follow r.expected) = _ :=
    node_scalar (show _ = u :: ts by simp [skip, follow, hr]) hu
  rcases he with he | he
  · rw [he] at hnode
    simp [step, he, blockEntry, hpeek, ht, nodeAfter, hnext, hu, hnode, bind, Except.bind]
    rw [← he]
    rfl
  · rw [he] at hnode
    simp [step, he, indentlessEntry, hpeek, ht, nodeAfter, hnext, hu, hnode, bind, Except.bind]
    rw [← he]
    rfl

theorem step_indentlessEnd (he : r.expected = .indentlessEntry) (hr : r.tokens = t :: ts)
    (ht : t.lexeme ≠ .blockEntry) : r.step = .ok (⟨.sequenceEnd, t.start⟩, r.resume) := by
  have hpeek : r.peek = .ok t := by simp [peek, hr]
  simp [step, he, indentlessEntry, hpeek, bind, Except.bind, emit]

theorem step_sequenceEnd (he : r.expected = .blockEntry) (hr : r.tokens = t :: ts)
    (ht : t.lexeme = .blockEnd) :
    r.step = .ok (⟨.sequenceEnd, t.start⟩, { r with tokens := ts }.leave.resume) := by
  have hpeek : r.peek = .ok t := by simp [peek, hr]
  simp [step, he, blockEntry, hpeek, ht, bind, Except.bind, emit, skip, hr]

theorem step_flowEnd (he : r.expected = .flowEntry true) (hr : r.tokens = t :: ts)
    (ht : t.lexeme = .flowSequenceEnd) :
    r.step = .ok (⟨.sequenceEnd, t.start⟩, { r with tokens := ts }.leave.resume) := by
  have hpeek : r.peek = .ok t := by simp [peek, hr]
  simp [step, he, flowEntry, separator, hpeek, ht, bind, Except.bind, pure, Except.pure, emit,
    skip, hr]

end EventReader

end SearchRelay.Yaml

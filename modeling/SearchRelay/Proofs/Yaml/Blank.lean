import SearchRelay.Text.Blank
import SearchRelay.Yaml.Node

namespace SearchRelay.Yaml

namespace Cursor

theorem advance_suffix (c : Cursor) (n : Nat) : (c.advance n).rest <:+ c.rest :=
  List.drop_suffix n c.rest

theorem crossBreak?_suffix {c d : Cursor} {b : Char} (h : c.crossBreak? = some (b, d)) :
    d.rest <:+ c.rest := by
  unfold crossBreak? at h
  split at h
  · rename_i r hr
    obtain ⟨-, rfl⟩ := by simpa using h
    exact hr ▸ ⟨['\r', '\n'], rfl⟩
  · rename_i x r hx hr
    split at h
    · obtain ⟨-, rfl⟩ := by simpa using h
      exact hr ▸ List.suffix_cons x r
    · cases h
  · cases h

theorem skipComment_suffix (c : Cursor) : c.skipComment.rest <:+ c.rest := by
  unfold skipComment
  split
  · exact c.advance_suffix _
  · exact List.suffix_refl _

end Cursor

theorem Gap.read_suffix {indent : Nat} {context : Context} {start : Mark} {c d : Cursor}
    {g g' : Gap} (h : Gap.read indent context start c g = .ok (g', d)) : d.rest <:+ c.rest := by
  fun_induction Gap.read indent context start c g with
  | case1 c g hc =>
    obtain ⟨rfl, rfl⟩ := by simpa using h
    exact List.suffix_refl _
  | case2 => cases h
  | case3 c g x r hc hx hb htab ih => exact (ih h).trans (c.advance_suffix 1)
  | case4 c g x r hc hx hb ih => exact (ih h).trans (c.advance_suffix 1)
  | case5 c g x r hc hx hb =>
    obtain ⟨rfl, rfl⟩ := by simpa using h
    exact List.suffix_refl _
  | case6 c g x r hc hx b e hb ih => exact (ih h).trans (Cursor.crossBreak?_suffix hb)

theorem PlainScalar.loop_suffix {inFlow : Bool} {indent : Nat} {start : Mark} {c d : Cursor}
    {gap : Gap} {p p' : Piece} (h : loop inFlow indent start c gap p = .ok (p', d)) :
    d.rest <:+ c.rest := by
  have ends {c d e : Cursor} {n : Nat} {g g' : Gap} (hd : d = c.advance n)
      (hgap : Gap.read indent .plainScalar start d g = .ok (g', e)) : e.rest <:+ c.rest :=
    (Gap.read_suffix hgap).trans (hd ▸ c.advance_suffix n)
  fun_induction loop inFlow indent start c gap p with
  | case1 =>
    obtain ⟨rfl, rfl⟩ := by simpa using h
    exact List.suffix_refl _
  | case2 => cases h
  | case3 => cases h
  | case4 c gap p hmark text d p₁ gap₁ hcolon gap₂ e hgap p₂ hbelow =>
    obtain ⟨rfl, rfl⟩ := by simpa using h
    exact ends rfl hgap
  | case5 c gap p hmark text d p₁ gap₁ hcolon gap₂ e hgap p₂ hbelow hshorter ih =>
    exact (ih h).trans (ends rfl hgap)
  | case6 c gap p hmark text d p₁ gap₁ hcolon gap₂ e hgap p₂ hbelow hshorter =>
    obtain ⟨rfl, rfl⟩ := by simpa using h
    exact ends rfl hgap

theorem PlainScalar.read_scalar {inFlow : Bool} {indent : Nat} {c d : Cursor} {t : Token}
    {broken : Bool} (h : read inFlow indent c = .ok (t, d, broken)) :
    d.rest <:+ c.rest ∧ ∃ text, t.lexeme = .scalar text .plain := by
  unfold read at h
  split at h
  · cases h
  · rename_i p e hloop
    obtain ⟨rfl, rfl, -⟩ := by simpa using h
    exact ⟨loop_suffix hloop, _, rfl⟩

namespace Scanner

theorem skipToToken_suffix (s : Scanner) : s.skipToToken.cursor.rest <:+ s.cursor.rest := by
  have horder (b : Bool) (c : Cursor) : (if b then c.advance 1 else c).rest <:+ c.rest := by
    cases b with
    | false => exact List.suffix_refl _
    | true => exact c.advance_suffix 1
  have hline (s : Scanner) (c : Cursor) : (c.skipWhile s.isSeparator).skipComment.rest <:+ c.rest :=
    (Cursor.skipComment_suffix _).trans (c.advance_suffix _)
  fun_induction skipToToken s with
  | case1 s => exact (hline s _).trans (horder _ _)
  | case2 s _ _ _ _ _ hcross hshorter ih =>
    exact ih.trans ((Cursor.crossBreak?_suffix hcross).trans ((hline s _).trans (horder _ _)))
  | case3 s _ _ _ _ _ hcross =>
    exact (Cursor.crossBreak?_suffix hcross).trans ((hline s _).trans (horder _ _))

/-- Up to here there was nothing but scalars, and from here there are only blanks. -/
structure Bare (s : Scanner) : Prop where
  blank : ∀ c ∈ s.cursor.rest, Text.isBlank c
  tokens : ∀ t ∈ s.tokens, t.lexeme = .streamStart ∨ ∃ text, t.lexeme = .scalar text .plain
  outer : s.outer = []
  ending : ∀ t ∈ s.ending, t.lexeme = .streamEnd

variable {s s' : Scanner}

theorem bind_eq_ok {α β ε : Type} {x : Except ε α} {f : α → Except ε β} {b : β}
    (h : x >>= f = .ok b) : ∃ a, x = .ok a ∧ f a = .ok b := by
  cases x with
  | error e => cases h
  | ok a => exact ⟨a, rfl, h⟩

theorem skipToToken_bare (h : Bare s) : Bare s.skipToToken := by
  have hsame : s.skipToToken.tokens = s.tokens ∧ s.skipToToken.outer = s.outer ∧
      s.skipToToken.ending = s.ending := by
    clear h
    fun_induction skipToToken s with
    | case1 => exact ⟨rfl, rfl, rfl⟩
    | case2 s _ _ _ _ _ _ _ ih => exact ih
    | case3 => exact ⟨rfl, rfl, rfl⟩
  obtain ⟨htokens, houter, hending⟩ := hsame
  exact ⟨fun c hc => h.blank c ((skipToToken_suffix s).subset hc), htokens ▸ h.tokens,
    houter.trans h.outer, hending ▸ h.ending⟩

theorem dropKey_bare (h : Bare s) (hs : s.dropKey = .ok s') : Bare s' := by
  unfold dropKey at hs
  split at hs
  · split at hs
    · cases hs
    · obtain rfl := Except.ok.inj hs
      exact ⟨h.blank, h.tokens, h.outer, h.ending⟩
  · obtain rfl := Except.ok.inj hs
    exact h

theorem dropStaleKeys_bare (h : Bare s) (hs : s.dropStaleKeys = .ok s') : Bare s' := by
  unfold dropStaleKeys at hs
  split at hs
  · cases hs
  · obtain rfl := Except.ok.inj hs
    exact ⟨h.blank, h.tokens, h.outer, h.ending⟩

theorem noteKey_bare (h : Bare s) (hs : s.noteKey = .ok s') : Bare s' := by
  unfold noteKey at hs
  split at hs
  · obtain ⟨d, hdrop, hd⟩ := bind_eq_ok hs
    have bare := dropKey_bare h hdrop
    obtain rfl := Except.ok.inj hd
    exact ⟨bare.blank, bare.tokens, bare.outer, bare.ending⟩
  · obtain rfl := Except.ok.inj hs
    exact h

theorem closeBlocks_bare (h : Bare s) (column : Int) : s.closeBlocks column = s := by
  unfold closeBlocks
  split
  · rfl
  · rw [h.outer, closeBlocksLoop]

theorem readPlainScalar_bare (h : Bare s) (hs : s.readPlainScalar = .ok s') : Bare s' := by
  obtain ⟨noted, hnote, hs⟩ := bind_eq_ok hs
  obtain ⟨⟨t, c, broken⟩, hread, hs⟩ := bind_eq_ok hs
  obtain ⟨hc, hscalar⟩ := PlainScalar.read_scalar hread
  have bare := noteKey_bare h hnote
  obtain rfl := Except.ok.inj hs
  refine ⟨fun x hx => bare.blank x (hc.subset hx), ?_, bare.outer, bare.ending⟩
  simp only [push, List.forall_mem_cons]
  exact ⟨.inr hscalar, bare.tokens⟩

theorem endStream_bare (h : Bare s) (hs : s.endStream = .ok s') : Bare s' := by
  obtain ⟨dropped, hdrop, hs⟩ := bind_eq_ok hs
  obtain rfl := Except.ok.inj hs
  have moved : Bare { s with cursor := { s.cursor with mark :=
      if s.mark.column = 0 then s.mark else ⟨s.mark.index, s.mark.line + 1, 0⟩ } } :=
    ⟨h.blank, h.tokens, h.outer, h.ending⟩
  rw [closeBlocks_bare moved] at hdrop
  have bare := dropKey_bare moved hdrop
  exact ⟨bare.blank, bare.tokens, bare.outer, fun t ht => Option.mem_some_iff.1 ht ▸ rfl⟩

def indicators : List Char :=
  ['%', '[', '\x7b', ']', '\x7d', ',', '-', '?', ':', '*', '&', '!', '|', '>', '\'', '"', '.']

theorem not_indicator_of_isBlank {c : Char} (h : Text.isBlank c) : c ∉ indicators := by
  have hno : indicators.all fun x => !Text.isBlank x := by decide +kernel
  intro hc
  simpa [h] using List.all_eq_true.1 hno c hc

theorem step_bare (h : Bare s) (hs : s.step = .ok s') : Bare s' := by
  obtain ⟨fresh, hfresh, hs⟩ := bind_eq_ok hs
  have bare := dropStaleKeys_bare (skipToToken_bare h) hfresh
  rw [closeBlocks_bare bare] at hs
  dsimp only at hs
  cases hrest : fresh.cursor.rest with
  | nil =>
    rw [hrest] at hs
    exact endStream_bare bare hs
  | cons c r =>
    have hblank : Text.isBlank c := bare.blank c (by simp [hrest])
    have hother := not_indicator_of_isBlank hblank
    simp only [indicators, List.mem_cons, not_or] at hother
    obtain ⟨h₁, h₂, h₃, h₄, h₅, h₆, h₇, h₈, h₉, h₁₀, h₁₁, h₁₂, h₁₃, h₁₄, h₁₅, h₁₆, h₁₇, -⟩ := hother
    have hmark : fresh.cursor.atDocumentMark = false := by
      simp only [Cursor.atDocumentMark, hrest, Bool.and_eq_false_iff]
      right
      split
      · rename_i heq
        exact absurd (List.cons.inj heq).1 h₇
      · rename_i heq
        exact absurd (List.cons.inj heq).1 h₁₇
      · rfl
    rw [hrest] at hs
    simp only [hmark, h₁, h₂, h₃, h₄, h₅, h₆, h₇, h₈, h₉, h₁₀, h₁₁, h₁₂, h₁₃, h₁₄, h₁₅, h₁₆,
      beq_eq_false_iff_ne.2, ne_eq, not_false_eq_true, Bool.and_false, Bool.false_and,
      Bool.false_eq_true, if_false] at hs
    split at hs
    · exact readPlainScalar_bare bare hs
    · cases hs

end Scanner

theorem ofScanner_bare {s : Scanner} (h : s.Bare) (fuel : Nat) :
    (∀ t ∈ (TokenStream.ofScanner fuel s).tokens,
      t.lexeme = .streamStart ∨ ∃ text, t.lexeme = .scalar text .plain) ∧
    ∀ t, (TokenStream.ofScanner fuel s).ending = .ok t → t.lexeme = .streamEnd := by
  induction fuel generalizing s with
  | zero =>
    refine ⟨fun t ht => h.tokens t (List.mem_reverse.1 ht), fun t ht => ?_⟩
    obtain rfl := Except.ok.inj ht
    rfl
  | succ fuel ih =>
    unfold TokenStream.ofScanner
    cases hending : s.ending with
    | some t =>
      refine ⟨fun t ht => h.tokens t (List.mem_reverse.1 ht), fun u hu => ?_⟩
      obtain rfl := Except.ok.inj hu
      exact h.ending _ hending
    | none =>
      cases hstep : s.step >>= Scanner.dropStaleKeys with
      | error f =>
        exact ⟨fun t ht => h.tokens t (List.mem_reverse.1 (List.mem_of_mem_take ht)), nofun⟩
      | ok s' =>
        obtain ⟨moved, hmoved, hdrop⟩ := Scanner.bind_eq_ok hstep
        exact ih (Scanner.dropStaleKeys_bare (Scanner.step_bare h hmoved) hdrop)

def Happening.isLeaf : Happening → Bool
  | .streamStart | .streamEnd | .documentStart | .documentEnd | .scalar .. => true
  | _ => false

namespace EventReader

/-- There are no tokens but those of scalars, and what is expected is no part of a collection. -/
structure Leafy (r : EventReader) : Prop where
  tokens : ∀ t ∈ r.tokens, t.lexeme = .streamStart ∨ ∃ text, t.lexeme = .scalar text .plain
  ending : ∀ t, r.ending = .ok t → t.lexeme = .streamEnd
  expected : r.expected ∈
    [.stream, .document false, .document true, .documentEnd, .blockNode, .nothing]
  pending : ∀ e ∈ r.pending, e = .documentEnd

variable {r r' : EventReader} {e : Event} {t : Token}

theorem Leafy.peek (h : Leafy r) (ht : r.peek = .ok t) : t.lexeme = .streamStart ∨
    t.lexeme = .streamEnd ∨ ∃ text, t.lexeme = .scalar text .plain := by
  unfold EventReader.peek at ht
  split at ht
  · rename_i u us hu
    obtain rfl := Except.ok.inj ht
    exact (h.tokens u (by simp [hu])).imp_right .inr
  · exact .inr (.inl (h.ending t ht))

theorem Leafy.skip (h : Leafy r) : Leafy r.skip :=
  ⟨fun t ht => h.tokens t (List.mem_of_mem_tail ht), h.ending, h.expected, h.pending⟩

theorem Leafy.expect (h : Leafy r) {x : Expectation} (hx : x ∈
    [.stream, .document false, .document true, .documentEnd, .blockNode, .nothing]) :
    Leafy (r.expect x) :=
  ⟨h.tokens, h.ending, hx, h.pending⟩

theorem Leafy.resume (h : Leafy r) : Leafy r.resume := by
  refine ⟨h.tokens, h.ending, ?_, fun e he => h.pending e (List.mem_of_mem_tail he)⟩
  unfold EventReader.resume
  cases hp : r.pending with
  | nil => simp
  | cons x xs =>
    obtain rfl := h.pending x (by simp [hp])
    simp

theorem node_leafy (h : Leafy r) (hs : node true false r = .ok (e, r')) :
    e.happening.isLeaf ∧ Leafy r' := by
  obtain ⟨t, hpeek, -⟩ := Scanner.bind_eq_ok hs
  rcases h.peek hpeek with ht | ht | ⟨text, ht⟩
  · simp [node, nodeHead, hpeek, ht, bind, Except.bind, pure, Except.pure] at hs
  · simp [node, nodeHead, hpeek, ht, bind, Except.bind, pure, Except.pure] at hs
  · have hnode : node true false r = .ok (⟨.scalar {} text .plain, t.start⟩, r.skip.resume) := by
      simp [node, nodeHead, hpeek, ht, bind, Except.bind, pure, Except.pure, emit]
    obtain ⟨rfl, rfl⟩ := Prod.mk.inj (Except.ok.inj (hnode.symm.trans hs))
    exact ⟨rfl, h.skip.resume⟩

theorem skipDocumentEnds_suffix (ts : List Token) : skipDocumentEnds ts <:+ ts := by
  fun_induction skipDocumentEnds ts with
  | case1 start stop ts ih => exact ih.trans (List.suffix_cons _ ts)
  | case2 => exact List.suffix_refl _

theorem directives_leafy (h : Leafy r) : directives false [] r.tokens = .ok ([], r.tokens) := by
  cases htokens : r.tokens with
  | nil => rfl
  | cons t ts =>
    obtain ⟨lexeme, start, stop⟩ := t
    have ht := h.tokens ⟨lexeme, start, stop⟩ (by simp [htokens])
    rcases ht with ht | ⟨text, ht⟩ <;>
      · obtain rfl : lexeme = _ := ht
        rfl

theorem document_leafy (h : Leafy r) {explicit : Bool}
    (hs : document explicit r = .ok (e, r')) : e.happening.isLeaf ∧ Leafy r' := by
  have hstart : Leafy (if explicit then { r with tokens := skipDocumentEnds r.tokens } else r) := by
    split
    · exact ⟨fun t ht => h.tokens t ((skipDocumentEnds_suffix _).subset ht), h.ending, h.expected,
        h.pending⟩
    · exact h
  unfold document at hs
  generalize (if explicit then { r with tokens := skipDocumentEnds r.tokens } else r) = q
    at hstart hs
  obtain ⟨t, hpeek, hs⟩ := Scanner.bind_eq_ok hs
  split at hs
  · obtain ⟨rfl, rfl⟩ := Prod.mk.inj (Except.ok.inj hs)
    exact ⟨rfl, hstart.expect (by simp)⟩
  split at hs
  · obtain ⟨rfl, rfl⟩ := Prod.mk.inj (Except.ok.inj hs)
    refine ⟨rfl, hstart.tokens, hstart.ending, by simp [EventReader.expect], ?_⟩
    exact List.forall_mem_cons.2 ⟨rfl, hstart.pending⟩
  · rw [directives_leafy hstart] at hs
    obtain ⟨_, hx, hs⟩ := Scanner.bind_eq_ok hs
    obtain rfl := Except.ok.inj hx
    obtain ⟨u, hu, hs⟩ := Scanner.bind_eq_ok hs
    have hnone : u.lexeme ≠ .documentStart := by
      have hother : Leafy { q with tagDirectives := [] ++ defaultTags } :=
        ⟨hstart.tokens, hstart.ending, hstart.expected, hstart.pending⟩
      rcases hother.peek hu with hu | hu | ⟨text, hu⟩ <;> simp [hu]
    rw [if_neg hnone] at hs
    cases hs

theorem step_leafy (h : Leafy r) (hs : r.step = .ok (e, r')) : e.happening.isLeaf ∧ Leafy r' := by
  have hexpected := h.expected
  simp only [List.mem_cons, List.not_mem_nil, or_false] at hexpected
  rcases hexpected with hx | hx | hx | hx | hx | hx <;> simp only [step, hx] at hs
  · obtain ⟨t, -, hs⟩ := Scanner.bind_eq_ok hs
    obtain ⟨rfl, rfl⟩ := Prod.mk.inj (Except.ok.inj hs)
    exact ⟨rfl, h.skip.expect (by simp)⟩
  · exact document_leafy h hs
  · exact document_leafy h hs
  · obtain ⟨t, -, hs⟩ := Scanner.bind_eq_ok hs
    obtain ⟨rfl, rfl⟩ := Prod.mk.inj (Except.ok.inj hs)
    have hrest : Leafy (if t.lexeme = .documentEnd then r.skip else r) := by
      split
      · exact h.skip
      · exact h
    exact ⟨rfl, hrest.expect (by simp)⟩
  · exact node_leafy h hs
  · obtain ⟨rfl, rfl⟩ := Prod.mk.inj (Except.ok.inj hs)
    exact ⟨rfl, h⟩

end EventReader

theorem ofReader_leafy {r : EventReader} (h : r.Leafy) (fuel : Nat) {acc : List Event}
    (hacc : ∀ e ∈ acc, e.happening.isLeaf) :
    ∀ e ∈ (EventStream.ofReader fuel r acc).events, e.happening.isLeaf := by
  induction fuel generalizing r acc with
  | zero => exact fun e he => hacc e (List.mem_reverse.1 he)
  | succ fuel ih =>
    unfold EventStream.ofReader
    split
    · exact fun e he => hacc e (List.mem_reverse.1 he)
    · cases hs : r.step with
      | error f => exact fun e he => hacc e (List.mem_reverse.1 he)
      | ok x =>
        obtain ⟨e, r'⟩ := x
        obtain ⟨he, hr'⟩ := EventReader.step_leafy h hs
        exact ih hr' (List.forall_mem_cons.2 ⟨he, hacc⟩)

/-- Without collections there is no mapping. -/
theorem build_leafy {fault : Option Fault} {es : List Event} (hes : ∀ e ∈ es, e.happening.isLeaf)
    {b : Document.Building} (hstack : b.stack = [])
    (hroot : ∀ m ms, b.root ≠ some (.mapping m ms)) (m : Mark) (ms : List (Node × Node)) :
    (Document.build fault es b).root ≠ .mapping m ms := by
  induction es generalizing b with
  | nil =>
    cases fault with
    | none =>
      cases hb : b.root with
      | none => simp [Document.build, Document.Building.toDocument, hb]
      | some n =>
        have hn := hroot m ms
        rw [hb] at hn
        simpa [Document.build, Document.Building.toDocument, hb] using hn
    | some f =>
      cases hb : b.root with
      | none =>
        simp [Document.build, Document.Building.toDocument, Document.Building.breakOff, hstack, hb]
      | some n =>
        have hn := hroot m ms
        rw [hb] at hn
        simpa [Document.build, Document.Building.toDocument, Document.Building.breakOff, hstack,
          hb] using hn
  | cons e es ih =>
    obtain ⟨he, hmore⟩ := List.forall_mem_cons.1 hes
    obtain ⟨happening, mark⟩ := e
    have hdone (continued : Bool) :
        (Document.Building.toDocument b none continued).root ≠ .mapping m ms := by
      cases hb : b.root with
      | none => simp [Document.Building.toDocument, hb]
      | some n =>
        have hn := hroot m ms
        rw [hb] at hn
        simpa [Document.Building.toDocument, hb] using hn
    cases happening with
    | streamStart | documentStart => exact ih hmore hstack hroot
    | streamEnd | documentEnd => exact hdone _
    | scalar p text style =>
      have hfinish (a : Option Nat) (n : Node) {b : Document.Building} (hb : b.stack = []) :
          (b.finish a n).stack = [] ∧ (b.finish a n).root = some n := by
        cases a <;> simp [Document.Building.finish, Document.Building.place, hb]
      have hanchor : (b.setAnchor p.anchor).2.stack = [] := by
        cases p.anchor <;> exact hstack
      obtain ⟨hstack', hroot'⟩ := hfinish (b.setAnchor p.anchor).1
        (.scalar mark ⟨p.tag, text, style⟩) hanchor
      exact ih hmore hstack' fun m ms hmapping => by
        cases hroot'.symm.trans hmapping
    | reference | sequenceStart | sequenceEnd | mappingStart | mappingEnd => cases he

theorem root_ne_mapping {text : String} (h : Text.isAllBlank text) (m : Mark)
    (ms : List (Node × Node)) : (Document.ofString text).root ≠ .mapping m ms := by
  unfold Document.ofString
  split
  · nofun
  · let first : Token := ⟨.streamStart, .start, .start⟩
    have hbare : Scanner.Bare { cursor := ⟨text.toList, .start⟩, tokens := [first], count := 1 } :=
      ⟨List.all_eq_true.1 h, by simp [first], rfl, nofun⟩
    obtain ⟨htokens, hending⟩ := ofScanner_bare hbare _
    exact build_leafy (ofReader_leafy ⟨htokens, hending, by simp, by simp⟩ _ (by simp)) rfl
      (by simp) m ms

end SearchRelay.Yaml

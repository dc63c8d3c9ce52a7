import Mathlib.Data.List.Basic
import SearchRelay.Page
import SearchRelay.Relay

namespace SearchRelay

/-- A slash and then segments of unreserved characters, with single slashes between them. -/
def IsPlainPath (path : String) : Prop := ∃ cs, path.toList = '/' :: cs ∧ isPlainRoute cs

def IsPathChar (c : Char) : Prop := c = '/' ∨ isUnreserved c

theorem mem_or_eq_of_splitOn {c x : Char} {cs : List Char} (h : x ∈ cs) :
    x = c ∨ ∃ part ∈ cs.splitOn c, x ∈ part := by
  induction cs with
  | nil => cases h
  | cons y cs ih =>
    rw [List.splitOn_cons_eq_if_modifyHead]
    obtain ⟨first, rest, hsplit⟩ := List.exists_cons_of_ne_nil (List.splitOn_ne_nil c cs)
    rw [hsplit] at ih ⊢
    have hrest (hx : x ∈ cs) : x = c ∨ x ∈ first ∨ ∃ part ∈ rest, x ∈ part := by
      simpa using ih hx
    split
    · rename_i hy
      rcases List.mem_cons.1 h with rfl | h
      · exact .inl (by simpa using hy)
      · simpa using hrest h
    · rcases List.mem_cons.1 h with rfl | h
      · exact .inr ⟨x :: first, List.mem_cons_self, List.mem_cons_self⟩
      · rcases hrest h with hx | hx | hx
        · exact .inl hx
        · exact .inr ⟨y :: first, List.mem_cons_self, List.mem_cons_of_mem _ hx⟩
        · obtain ⟨part, hpart, hx⟩ := hx
          exact .inr ⟨part, List.mem_cons_of_mem _ hpart, hx⟩

theorem IsPlainPath.chars {path : String} (h : IsPlainPath path) :
    ∀ c ∈ path.toList, IsPathChar c := by
  obtain ⟨cs, hcs, hplain⟩ := h
  rw [hcs]
  refine List.forall_mem_cons.2 ⟨.inl rfl, fun c hc => ?_⟩
  refine (mem_or_eq_of_splitOn hc).imp id ?_
  rintro ⟨part, hpart, hc⟩
  have hall := List.all_eq_true.1 hplain part hpart
  rw [Bool.and_eq_true, List.all_eq_true] at hall
  exact hall.2 c hc

theorem IsPlainPath.ne_root {path : String} (h : IsPlainPath path) : path ≠ "/" := by
  rintro rfl
  obtain ⟨cs, hcs, hplain⟩ := h
  obtain rfl : [] = cs := (List.cons.inj hcs).2
  cases hplain

theorem IsPathChar.notControl {c : Char} (h : IsPathChar c) : 0x20 ≤ c.toNat := by
  rcases h with rfl | h
  · decide
  · simp only [isUnreserved, Bool.or_eq_true, beq_iff_eq] at h
    rcases h with (((h | rfl) | rfl) | rfl) | rfl
    · -- Of each kind of characters the first one is above the control characters.
      have above {k : UInt32} (h : k ≤ c.val) (hk : 0x20 ≤ k.toNat) : 0x20 ≤ c.toNat :=
        Nat.le_trans hk (UInt32.le_iff_toNat_le.1 h)
      rcases Bool.or_eq_true_iff.1 h with halpha | hdigit
      · rcases Bool.or_eq_true_iff.1 halpha with hupper | hlower
        · exact above (of_decide_eq_true hupper).1 (by decide)
        · exact above (of_decide_eq_true (Bool.and_eq_true_iff.1 hlower).1) (by decide)
      · exact above (of_decide_eq_true (Bool.and_eq_true_iff.1 hdigit).1) (by decide)
    all_goals decide

namespace Relay

theorem defaultPath_isPlain : IsPlainPath defaultPath := ⟨"websocket".toList, rfl, by decide +kernel⟩

/-- Whatever text is given for the path, the channel has a plain one. -/
theorem withPath_isPlain {r : Relay} (h : IsPlainPath r.websocketPath) (path : String) :
    IsPlainPath (r.withPath path).1.websocketPath := by
  unfold withPath
  split
  · rename_i route hroute
    simp only [route?] at hroute
    split at hroute
    · rename_i hplain
      obtain rfl := Option.some.inj hroute
      exact ⟨trimPath path, by simp, hplain⟩
    · cases hroute
  · exact h

end Relay

namespace Page

def Piece.shown (label : String) : Piece → String
  | .text s => s
  | .value .title => markup title
  | .value .controller => markup label
  | _ => ""

def above (label : String) : String :=
  String.join ((template.takeWhile (· ≠ .script .path)).map (Piece.shown label))

def below (label : String) : String :=
  String.join ((template.dropWhile (· ≠ .script .path)).tail.map (Piece.shown label))

def naming (path label : String) : String := above label ++ "\"" ++ path ++ "\"" ++ below label

theorem escape_of_isPathChar {c : Char} (h : IsPathChar c) : Json.escape c = [c] := by
  have hcontrol := h.notControl
  unfold Json.escape
  split
  all_goals first
    | exact if_neg (by omega)
    | revert h; simp [IsPathChar, isUnreserved]

theorem escapeScript_of_isPathChar {c : Char} (h : IsPathChar c) : escapeScript c = [c] := by
  unfold escapeScript
  split <;> first | rfl | (revert h; simp [IsPathChar, isUnreserved])

theorem flatMap_of_forall {f : Char → List Char} {cs : List Char} (h : ∀ c ∈ cs, f c = [c]) :
    cs.flatMap f = cs := by
  induction cs with
  | nil => rfl
  | cons c cs ih =>
    obtain ⟨hc, hcs⟩ := List.forall_mem_cons.1 h
    rw [List.flatMap_cons, hc, ih hcs, List.singleton_append]

theorem scriptString_of_isPlain {path : String} (h : IsPlainPath path) :
    scriptString path = "\"" ++ path ++ "\"" := by
  have hjson : path.toList.flatMap Json.escape = path.toList :=
    flatMap_of_forall fun c hc => escape_of_isPathChar (h.chars c hc)
  have hscript : path.toList.flatMap escapeScript = path.toList :=
    flatMap_of_forall fun c hc => escapeScript_of_isPathChar (h.chars c hc)
  have hquote : escapeScript '"' = ['"'] := rfl
  apply String.toList_inj.1
  simp [scriptString, Json.quote, hjson, hscript, hquote]

def context (path label : String) : Context :=
  [(.title, title), (.path, path), (.controller, label)]

variable {path label : String}

theorem renderAll_append (ctx : Context) (ps qs : List Piece) :
    renderAll ctx (ps ++ qs) = (do
      let s ← renderAll ctx ps
      let r ← renderAll ctx qs
      pure (s ++ r)) := by
  induction ps with
  | nil => cases h : renderAll ctx qs <;> simp [renderAll, h, bind, Except.bind, pure, Except.pure]
  | cons p ps ih =>
    rw [List.cons_append, renderAll, renderAll, ih]
    cases p.render ctx with
    | error e => rfl
    | ok s =>
      cases renderAll ctx ps with
      | error e => rfl
      | ok t =>
        cases renderAll ctx qs with
        | error e => rfl
        | ok u => simp [bind, Except.bind, pure, Except.pure, String.append_assoc]

theorem renderAll_of_pathless {ps : List Piece}
    (h : ∀ p ∈ ps, p ≠ .value .path ∧ p ≠ .script .path ∧ p ≠ .script .title ∧
      p ≠ .script .controller) :
    renderAll (context path label) ps = .ok (String.join (ps.map (Piece.shown label))) := by
  induction ps with
  | nil => rfl
  | cons p ps ih =>
    obtain ⟨hp, hps⟩ := List.forall_mem_cons.1 h
    have hrender : p.render (context path label) = .ok (p.shown label) := by
      cases p with
      | text s => rfl
      | value slot => cases slot <;> simp_all <;> rfl
      | script slot => cases slot <;> simp_all
    rw [renderAll, hrender, ih hps, List.map_cons, String.join_cons]
    rfl

/-- The page has the path in one place, as a string of its script. -/
theorem render_eq (path label : String) :
    render path label = .ok (above label ++ scriptString path ++ below label) := by
  have htemplate : template = template.takeWhile (· ≠ .script .path) ++
      [.script .path] ++ (template.dropWhile (· ≠ .script .path)).tail := rfl
  have hslot : renderAll (context path label) [.script .path] = .ok (scriptString path) := by
    have hlookup : List.lookup Slot.path (context path label) = some path := rfl
    simp [renderAll, Piece.render, Piece.render.fill, hlookup, bind, Except.bind, pure, Except.pure]
  have habove : renderAll (context path label) (template.takeWhile (· ≠ .script .path)) =
      .ok (above label) := renderAll_of_pathless (by decide +kernel)
  have hbelow : renderAll (context path label) (template.dropWhile (· ≠ .script .path)).tail =
      .ok (below label) := renderAll_of_pathless (by decide +kernel)
  rw [render, ← context, htemplate, renderAll_append, renderAll_append, habove, hslot, hbelow]
  simp [bind, Except.bind, pure, Except.pure]

/-- A plain path stands in its place as it is. -/
theorem render_of_isPlain (h : IsPlainPath path) (label : String) :
    render path label = .ok (naming path label) := by
  simp only [render_eq, scriptString_of_isPlain h, naming, String.append_assoc]

end Page

end SearchRelay

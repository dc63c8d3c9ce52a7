import Mathlib.Data.List.DropRight
import SearchRelay.Proofs.Page

namespace SearchRelay

namespace Text

variable {p : Char → Bool} {cs core : List Char}

/-- A text, and what is left of it when a class of characters is taken off both of its ends. -/
structure Stripped (p : Char → Bool) (cs core : List Char) : Prop where
  around : ∃ before behind,
    cs = before ++ (core ++ behind) ∧ (∀ c ∈ before, p c) ∧ ∀ c ∈ behind, p c
  first : ∀ c ∈ core.head?, ¬ p c
  last : ∀ c ∈ core.getLast?, ¬ p c

theorem trimList_eq (p : Char → Bool) (cs : List Char) :
    trimList p cs = (cs.dropWhile p).rdropWhile p := rfl

theorem trimList_stripped (p : Char → Bool) (cs : List Char) : Stripped p cs (trimList p cs) := by
  have hfront := List.takeWhile_append_dropWhile (p := p) (l := cs)
  have hback := List.rdropWhile_append_rtakeWhile (p := p) (l := cs.dropWhile p)
  constructor
  case around =>
    refine ⟨cs.takeWhile p, (cs.dropWhile p).rtakeWhile p, ?_, ?_, ?_⟩
    · rw [trimList_eq, hback, hfront]
    · exact fun c hc => List.mem_takeWhile_imp hc
    · exact fun c hc => List.mem_rtakeWhile_imp hc
  case first =>
    intro c hc
    have hhead : (cs.dropWhile p).head? = some c := by
      rw [← hback, ← trimList_eq, List.head?_append, Option.mem_def.1 hc, Option.some_or]
    have hnot := List.head?_dropWhile_not p cs
    simpa [hhead] using hnot
  case last =>
    intro c hc
    obtain ⟨hne, rfl⟩ := List.mem_getLast?_eq_getLast hc
    exact List.rdropWhile_last_not p _ hne

theorem dropWhile_append {before : List Char} (hbefore : ∀ c ∈ before, p c)
    (first : ∀ c ∈ core.head?, ¬ p c) : (before ++ core).dropWhile p = core := by
  rw [List.dropWhile_append_of_pos hbefore]
  cases core with
  | nil => rfl
  | cons x core => exact List.dropWhile_cons_of_neg (first x rfl)

theorem rdropWhile_append {behind : List Char} (hbehind : ∀ c ∈ behind, p c)
    (last : ∀ c ∈ core.getLast?, ¬ p c) : (core ++ behind).rdropWhile p = core := by
  rw [List.rdropWhile, List.reverse_append, dropWhile_append (by simpa using hbehind)
    (by simpa using last), List.reverse_reverse]

theorem Stripped.eq (h : Stripped p cs core) : trimList p cs = core := by
  obtain ⟨⟨before, behind, rfl, hbefore, hbehind⟩, first, last⟩ := h
  rw [trimList_eq]
  cases core with
  | nil =>
    have hall : (before ++ behind).dropWhile p = [] :=
      List.dropWhile_eq_nil_iff.2 fun c hc => (List.mem_append.1 hc).elim (hbefore c) (hbehind c)
    rw [List.nil_append, hall]
    rfl
  | cons x core =>
    rw [dropWhile_append hbefore (by simpa using first), rdropWhile_append hbehind last]

end Text

def IsRouteChar (c : Char) : Prop :=
  ('a' ≤ c ∧ c ≤ 'z') ∨ ('A' ≤ c ∧ c ≤ 'Z') ∨ ('0' ≤ c ∧ c ≤ '9') ∨ c ∈ ['-', '_', '.', '~']

instance : DecidablePred IsRouteChar := fun _ => inferInstanceAs (Decidable (_ ∨ _ ∨ _ ∨ _))

structure IsSegment (segment : List Char) : Prop where
  nonempty : segment ≠ []
  chars : ∀ c ∈ segment, IsRouteChar c

/-- Segments with a slash in front of each. -/
def route (segments : List (List Char)) : List Char := segments.flatMap ('/' :: ·)

def IsRoute (path : String) : Prop :=
  ∃ segments, segments ≠ [] ∧ (∀ s ∈ segments, IsSegment s) ∧ path.toList = route segments

theorem isUnreserved_iff {c : Char} : isUnreserved c ↔ IsRouteChar c := by
  have hranges : isUnreserved c =
      (decide ('A' ≤ c ∧ c ≤ 'Z') || (decide ('a' ≤ c) && decide (c ≤ 'z')) ||
        (decide ('0' ≤ c) && decide (c ≤ '9')) || c == '-' || c == '_' || c == '.' || c == '~') :=
    rfl
  simp only [hranges, IsRouteChar, Bool.or_eq_true, Bool.and_eq_true, decide_eq_true_eq,
    beq_iff_eq, List.mem_cons, List.not_mem_nil, or_false]
  tauto

theorem IsRouteChar.range {c : Char} (h : IsRouteChar c) : 0x2d ≤ c.toNat ∧ c.toNat ≤ 0x7e := by
  have within {a b : Char} (h : a ≤ c ∧ c ≤ b) (ha : 0x2d ≤ a.toNat) (hb : b.toNat ≤ 0x7e) :
      0x2d ≤ c.toNat ∧ c.toNat ≤ 0x7e := ⟨Nat.le_trans ha h.1, Nat.le_trans h.2 hb⟩
  rcases h with h | h | h | h
  · exact within h (by decide) (by decide)
  · exact within h (by decide) (by decide)
  · exact within h (by decide) (by decide)
  · simp only [List.mem_cons, List.not_mem_nil, or_false] at h
    rcases h with rfl | rfl | rfl | rfl <;> decide

theorem IsRouteChar.notMem {c : Char} (h : IsRouteChar c) {others : List Char}
    (hothers : others.all fun d => ¬ IsRouteChar d) : c ∉ others :=
  fun hc => of_decide_eq_true (List.all_eq_true.1 hothers c hc) h

theorem IsRouteChar.ne_slash {c : Char} (h : IsRouteChar c) : c ≠ '/' := by
  rintro rfl
  revert h
  decide

theorem IsRouteChar.not_blank {c : Char} (h : IsRouteChar c) : Text.isBlank c = false := by
  obtain ⟨hlow, hhigh⟩ := h.range
  simp [Text.isBlank]
  omega

theorem cons_intercalate {segments : List (List Char)} (h : segments ≠ []) :
    '/' :: ['/'].intercalate segments = route segments := by
  induction segments with
  | nil => exact absurd rfl h
  | cons s segments ih =>
    cases segments with
    | nil => simp [route]
    | cons t segments =>
      rw [List.intercalate_cons_cons, List.append_assoc, List.singleton_append, ih (by simp)]
      rfl

theorem IsSegment.notMem {segment : List Char} (h : IsSegment segment) : '/' ∉ segment :=
  fun hslash => (h.chars _ hslash).ne_slash rfl

section

variable {cs : List Char} {segments : List (List Char)}

theorem splitOn_of_route (h : segments ≠ []) (hsegments : ∀ s ∈ segments, '/' ∉ s)
    (hroute : '/' :: cs = route segments) : cs.splitOn '/' = segments := by
  rw [← cons_intercalate h] at hroute
  rw [(List.cons.inj hroute).2]
  exact List.splitOn_intercalate '/' hsegments h

theorem splitOn_route (h : segments ≠ []) (hsegments : ∀ s ∈ segments, '/' ∉ s) :
    (route segments).splitOn '/' = [] :: segments := by
  have hroute := cons_intercalate h
  rw [← hroute]
  exact (List.splitOn_append_cons_self [] _).trans
    (congrArg ([] :: ·) (splitOn_of_route h hsegments hroute))

theorem route_injective {segments' : List (List Char)} (h : segments ≠ []) (h' : segments' ≠ [])
    (hsegments : ∀ s ∈ segments, '/' ∉ s) (hsegments' : ∀ s ∈ segments', '/' ∉ s)
    (hroute : route segments = route segments') : segments = segments' := by
  have hsplit := splitOn_route h hsegments
  rw [hroute, splitOn_route h' hsegments'] at hsplit
  exact (List.cons.inj hsplit).2.symm

end

theorem isPlainRoute_iff {cs : List Char} : isPlainRoute cs ↔
    ∃ segments, segments ≠ [] ∧ (∀ s ∈ segments, IsSegment s) ∧ '/' :: cs = route segments := by
  have hsegment {s : List Char} : (!s.isEmpty && s.all isUnreserved) ↔ IsSegment s := by
    simp only [Bool.and_eq_true, Bool.not_eq_true', List.isEmpty_eq_false_iff, List.all_eq_true,
      isUnreserved_iff]
    exact ⟨fun h => ⟨h.1, h.2⟩, fun h => ⟨h.1, h.2⟩⟩
  simp only [isPlainRoute, List.all_eq_true, hsegment]
  constructor
  · intro h
    have hne := List.splitOn_ne_nil '/' cs
    refine ⟨cs.splitOn '/', hne, h, ?_⟩
    rw [← cons_intercalate hne, List.intercalate_splitOn]
  · rintro ⟨segments, hne, hsegments, hroute⟩
    rwa [splitOn_of_route hne (fun s hs => (hsegments s hs).notMem) hroute]

theorem isPlainPath_iff {path : String} : IsPlainPath path ↔ IsRoute path := by
  constructor
  · rintro ⟨cs, hcs, hplain⟩
    obtain ⟨segments, hne, hsegments, hroute⟩ := isPlainRoute_iff.1 hplain
    exact ⟨segments, hne, hsegments, hcs.trans hroute⟩
  · rintro ⟨segments, hne, hsegments, hroute⟩
    rw [← cons_intercalate hne] at hroute
    exact ⟨_, hroute, isPlainRoute_iff.2 ⟨segments, hne, hsegments, cons_intercalate hne⟩⟩

section

variable {path : String} {core : List Char}

theorem IsRoute.rooted (h : IsRoute path) : ∃ core, path.toList = '/' :: core := by
  obtain ⟨segments, hne, -, hroute⟩ := h
  exact ⟨_, hroute.trans (cons_intercalate hne).symm⟩

theorem IsRoute.first (h : IsRoute path) (hcore : path.toList = '/' :: core) :
    ∀ c ∈ core.head?, IsRouteChar c := by
  obtain ⟨segments, hne, hsegments, hroute⟩ := h
  obtain ⟨s, segments, rfl⟩ := List.exists_cons_of_ne_nil hne
  obtain rfl : core = s ++ route segments := (List.cons.inj (hcore.symm.trans hroute)).2
  have hs := hsegments s List.mem_cons_self
  obtain ⟨x, s, rfl⟩ := List.exists_cons_of_ne_nil hs.nonempty
  rintro c ⟨⟩
  exact hs.chars _ List.mem_cons_self

theorem IsRoute.last (h : IsRoute path) : ∀ c ∈ path.toList.getLast?, IsRouteChar c := by
  obtain ⟨segments, hne, hsegments, hroute⟩ := h
  obtain ⟨above, s, rfl⟩ := (List.eq_nil_or_concat' segments).resolve_left hne
  have hs := hsegments s (by simp)
  intro c hc
  have hlast : (route (above ++ [s])).getLast? = s.getLast? := by
    rw [route, List.flatMap_append, List.flatMap_singleton, ← List.singleton_append,
      ← List.append_assoc]
    exact List.getLast?_append_of_ne_nil _ hs.nonempty
  rw [hroute, hlast] at hc
  exact hs.chars c (List.mem_of_mem_getLast? hc)

theorem IsRoute.chars (h : IsRoute path) : ∀ c ∈ path.toList, c = '/' ∨ IsRouteChar c :=
  fun c hc => ((isPlainPath_iff.2 h).chars c hc).imp_right isUnreserved_iff.1

theorem IsRoute.notMem (h : IsRoute path) {others : List Char}
    (hothers : others.all fun d => d ≠ '/' ∧ ¬ IsRouteChar d) : ∀ c ∈ path.toList, c ∉ others := by
  intro c hc hmem
  obtain ⟨hslash, hother⟩ := of_decide_eq_true (List.all_eq_true.1 hothers c hmem)
  exact (h.chars c hc).elim hslash hother

theorem IsRoute.notBlank (h : IsRoute path) : ∀ c ∈ path.toList, Text.isBlank c = false := by
  intro c hc
  rcases h.chars c hc with rfl | hc
  · decide
  · exact hc.not_blank

end

/-- The route that a text stands for, should it be one: the blanks around it do not count, and
neither do the slashes around what is left. -/
def StandsFor (path route : String) : Prop :=
  ∃ inner core, Text.Stripped Text.isBlank path.toList inner ∧
    Text.Stripped (· == '/') inner core ∧ route = String.ofList ('/' :: core)

theorem standsFor_iff {path route : String} :
    StandsFor path route ↔ route = String.ofList ('/' :: Relay.trimPath path) := by
  constructor
  · rintro ⟨inner, core, hinner, hcore, rfl⟩
    rw [Relay.trimPath, hinner.eq, hcore.eq]
  · rintro rfl
    exact ⟨_, _, Text.trimList_stripped _ _, Text.trimList_stripped _ _, rfl⟩

namespace Relay

variable {r : Relay} {path route : String}

theorem isPlainRoute_trimPath_iff :
    isPlainRoute (trimPath path) ↔ IsRoute (String.ofList ('/' :: trimPath path)) := by
  rw [isPlainRoute_iff, IsRoute, String.toList_ofList]

theorem withPath_of_isRoute (stands : StandsFor path route) (h : IsRoute route) :
    r.withPath path = ({ r with websocketPath := route }, []) := by
  obtain rfl := standsFor_iff.1 stands
  rw [withPath, route?, if_pos (isPlainRoute_trimPath_iff.2 h)]

theorem withPath_of_not_isRoute (stands : StandsFor path route) (h : ¬ IsRoute route) :
    r.withPath path = (r, [invalidPath path]) := by
  obtain rfl := standsFor_iff.1 stands
  rw [withPath, route?, if_neg (mt isPlainRoute_trimPath_iff.1 h)]

/-- What stands around a route does not count. -/
theorem standsFor_around {before slashes slashes' behind : String} (h : IsRoute route)
    (hbefore : ∀ c ∈ before.toList, Text.isBlank c) (hslashes : ∀ c ∈ slashes.toList, c = '/')
    (hslashes' : ∀ c ∈ slashes'.toList, c = '/') (hbehind : ∀ c ∈ behind.toList, Text.isBlank c) :
    StandsFor (before ++ (slashes ++ route ++ slashes') ++ behind) route := by
  obtain ⟨core, hcore⟩ := h.rooted
  have hinner : ∀ c ∈ (slashes ++ route ++ slashes').toList, ¬ Text.isBlank c := by
    have hslash : ¬ Text.isBlank '/' := by decide
    intro c hc
    simp only [String.toList_append, List.mem_append] at hc
    rcases hc with (hc | hc) | hc
    · exact hslashes c hc ▸ hslash
    · simp [h.notBlank c hc]
    · exact hslashes' c hc ▸ hslash
  refine ⟨(slashes ++ route ++ slashes').toList, core, ?inner, ?core, ?_⟩
  case inner =>
    refine ⟨⟨before.toList, behind.toList, ?_, hbefore, hbehind⟩, ?_, ?_⟩
    · simp only [String.toList_append, List.append_assoc]
    · exact fun c hc => hinner c (List.mem_of_mem_head? hc)
    · exact fun c hc => hinner c (List.mem_of_mem_getLast? hc)
  case core =>
    refine ⟨⟨slashes.toList ++ ['/'], slashes'.toList, by simp [hcore], ?_, ?_⟩, ?_, ?_⟩
    · simpa [or_imp, forall_and] using hslashes
    · simpa using hslashes'
    · exact fun c hc => by simpa using (h.first hcore c hc).ne_slash
    · intro c hc
      have hlast : c ∈ route.toList.getLast? := by
        rw [hcore, List.getLast?_cons]
        simp [Option.mem_def.1 hc]
      simpa using (h.last c hlast).ne_slash
  · rw [← hcore, String.ofList_toList]

end Relay

end SearchRelay

import SearchRelay.Http.Router
import SearchRelay.Proofs.Relay.Route

/-!
The paths that a router registers. A table of routes takes no path twice, and reads braces, colons
and stars in a path as captures and wildcards. Whatever text sets the path of the channel, the
table takes it beside the path of the page.
-/

namespace SearchRelay

theorem IsRouteChar.notCapture {c : Char} (h : IsRouteChar c) : c ∉ ['{', '}', ':', '*'] :=
  h.notMem (by decide)

section

variable {path : String}

theorem IsRoute.ne_root (h : IsRoute path) : path ≠ "/" := (isPlainPath_iff.2 h).ne_root

theorem IsRoute.notCapture (h : IsRoute path) : ∀ c ∈ path.toList, c ∉ ['{', '}', ':', '*'] :=
  h.notMem (by decide)

theorem IsRoute.splitOn (h : IsRoute path) :
    ∀ s ∈ path.toList.splitOn '/', s = [] ∨ IsSegment s := by
  obtain ⟨segments, hne, hsegments, hroute⟩ := h
  rw [hroute, splitOn_route hne fun s hs => (hsegments s hs).notMem]
  exact List.forall_mem_cons.2 ⟨.inl rfl, fun s hs => .inr (hsegments s hs)⟩

end

def Relay.fresh (queue : Queue QueueMessage) (events : Broadcast Emit) : Relay := { queue, events }

theorem Relay.fresh_isRoute (queue : Queue QueueMessage) (events : Broadcast Emit)
    (text : String) : IsRoute ((fresh queue events).withPath text).1.websocketPath :=
  isPlainPath_iff.1 (withPath_isPlain defaultPath_isPlain text)

namespace Http.Router

/-- The path stands for itself alone: none of its segments captures anything. -/
def isLiteral (path : String) : Bool :=
  path.toList.head? == some '/' && path.toList.all (fun c => c != '{' && c != '}') &&
    (path.toList.splitOn '/').all fun s => s.head? != some ':' && s.head? != some '*'

theorem isLiteral_root : isLiteral "/" := by decide +kernel

theorem isLiteral_of_isRoute {path : String} (h : IsRoute path) : isLiteral path := by
  have hrooted : path.toList.head? = some '/' := by
    obtain ⟨core, hcore⟩ := h.rooted
    rw [hcore, List.head?_cons]
  have hbraces : ∀ c ∈ path.toList, c ≠ '{' ∧ c ≠ '}' := by
    intro c hc
    have := h.notCapture c hc
    simp_all
  have hmarks : ∀ s ∈ path.toList.splitOn '/', s.head? ≠ some ':' ∧ s.head? ≠ some '*' := by
    intro s hs
    rcases h.splitOn s hs with rfl | hs
    · simp
    · obtain ⟨x, s, rfl⟩ := List.exists_cons_of_ne_nil hs.nonempty
      have := (hs.chars x List.mem_cons_self).notCapture
      simp_all
  simp only [isLiteral, Bool.and_eq_true, List.all_eq_true, beq_iff_eq, bne_iff_ne]
  exact ⟨⟨hrooted, hbraces⟩, hmarks⟩

/-- What a table does with literal paths, where `takes routes path` tells whether it takes a path
beside those that it has: each is taken once. -/
def TakesLiterals (takes : List String → String → Bool) : Prop :=
  ∀ {routes path}, (∀ r ∈ routes, isLiteral r) → isLiteral path →
    (takes routes path ↔ path ∉ routes)

def takesAll (takes : List String → String → Bool) : List String → List String → Bool
  | _, [] => true
  | routes, path :: paths => takes routes path && takesAll takes (path :: routes) paths

variable {takes : List String → String → Bool}

theorem takesAll_iff (literals : TakesLiterals takes) {routes paths : List String}
    (hroutes : ∀ r ∈ routes, isLiteral r) (hpaths : ∀ p ∈ paths, isLiteral p) :
    takesAll takes routes paths ↔ paths.Nodup ∧ paths.Disjoint routes := by
  induction paths generalizing routes with
  | nil => simp [takesAll]
  | cons path paths ih =>
    obtain ⟨hpath, hpaths⟩ := List.forall_mem_cons.1 hpaths
    have hadded : ∀ r ∈ path :: routes, isLiteral r := List.forall_mem_cons.2 ⟨hpath, hroutes⟩
    rw [takesAll, Bool.and_eq_true, literals hroutes hpath, ih hadded hpaths, List.nodup_cons,
      List.disjoint_cons_left, List.disjoint_cons_right]
    tauto

def paths (relay : Relay) : List String := ["/", relay.websocketPath]

theorem takesAll_paths (literals : TakesLiterals takes) {relay : Relay}
    (h : IsRoute relay.websocketPath) : takesAll takes [] (paths relay) := by
  have hpaths : ∀ p ∈ paths relay, isLiteral p := by
    simpa [paths] using And.intro isLiteral_root (isLiteral_of_isRoute h)
  refine (takesAll_iff literals (by simp) hpaths).2 ⟨?_, List.disjoint_nil_right _⟩
  simpa [paths] using h.ne_root.symm

theorem route?_eq_channel_iff {relay : Relay} (h : IsRoute relay.websocketPath) (path : String) :
    route? relay path = some .channel ↔ path = relay.websocketPath := by
  unfold route?
  split
  · rename_i hroot
    simpa using fun hpath => h.ne_root (hpath.symm.trans hroot)
  · simp

/-- What a relay is after a text for the path, of which nothing was set before. -/
structure Registered (takes : List String → String → Bool) (text : String) (fresh r : Relay) :
    Prop where
  isRoute : IsRoute r.websocketPath
  notRoot : r.websocketPath ≠ "/"
  slashless : r.websocketPath.toList.getLast? ≠ some '/'
  notCapture : ∀ c ∈ r.websocketPath.toList, c ∉ ['{', '}', ':', '*']
  taken : takesAll takes [] (paths r)
  page : route? r "/" = some .page
  channel : route? r r.websocketPath = some .channel
  stands : ∃ route, StandsFor text route
  adopted (route : String) : StandsFor text route → IsRoute route →
    r = { fresh with websocketPath := route } ∧ fresh.withPath text = (r, [])
  kept (route : String) : StandsFor text route → ¬ IsRoute route →
    r = { fresh with websocketPath := "/websocket" } ∧
      fresh.withPath text = (r, [Relay.invalidPath text])
  /-- The path stands for itself, with any blanks and slashes around it. -/
  again (r' : Relay) (before slashes slashes' behind : String) :
    (∀ c ∈ before.toList, Text.isBlank c) → (∀ c ∈ slashes.toList, c = '/') →
    (∀ c ∈ slashes'.toList, c = '/') → (∀ c ∈ behind.toList, Text.isBlank c) →
    r'.withPath (before ++ (slashes ++ r.websocketPath ++ slashes') ++ behind) =
      ({ r' with websocketPath := r.websocketPath }, [])

/-- Every text leaves the relay with a path that the router can register beside the page. -/
theorem withPath_registered (literals : TakesLiterals takes) (queue : Queue QueueMessage)
    (events : Broadcast Emit) (text : String) :
    Registered takes text (.fresh queue events) ((Relay.fresh queue events).withPath text).1 := by
  have h := Relay.fresh_isRoute queue events text
  constructor
  case isRoute => exact h
  case notRoot => exact h.ne_root
  case slashless => exact fun hlast => (h.last '/' hlast).ne_slash rfl
  case notCapture => exact h.notCapture
  case taken => exact takesAll_paths literals h
  case page => exact if_pos rfl
  case channel => exact (route?_eq_channel_iff h _).2 rfl
  case stands => exact ⟨_, standsFor_iff.2 rfl⟩
  case adopted =>
    intro route stands hroute
    rw [Relay.withPath_of_isRoute stands hroute]
    exact ⟨rfl, rfl⟩
  case kept =>
    intro route stands hroute
    rw [Relay.withPath_of_not_isRoute stands hroute]
    exact ⟨rfl, rfl⟩
  case again =>
    intro r' before slashes slashes' behind hbefore hslashes hslashes' hbehind
    exact Relay.withPath_of_isRoute
      (Relay.standsFor_around h hbefore hslashes hslashes' hbehind) h

def literalTable (routes : List String) (path : String) : Bool :=
  isLiteral path && !routes.contains path

theorem literalTable_takesLiterals : TakesLiterals literalTable := by
  intro routes path _ hpath
  simp [literalTable, hpath]

theorem withPath_registered_live : TakesLiterals literalTable ∧
    Registered literalTable "\t/live/v1/ " (.fresh {} { capacity := 8 })
      { Relay.fresh {} { capacity := 8 } with websocketPath := "/live/v1" } := by
  have hroute : Relay.route? "\t/live/v1/ " = some "/live/v1" := by decide +kernel
  have h := withPath_registered literalTable_takesLiterals {} { capacity := 8 } "\t/live/v1/ "
  rw [Relay.withPath, hroute] at h
  exact ⟨literalTable_takesLiterals, h⟩

end Http.Router

end SearchRelay

import SearchRelay.Proofs.Http.Registration
import SearchRelay.Proofs.Http.Routing

/-!
What a browser asks for when the page opens the channel. The page puts the path of the channel
behind a scheme and a host; of the path, the browser takes off every segment of one dot, and every
segment of two dots together with the one in front of it. So the page leads to the channel if the
path has no such segment, and only then.
-/

namespace SearchRelay

namespace Browser

/-- A segment with a dot for each `%2e`. -/
def readDots : List Char → List Char
  | '%' :: '2' :: 'e' :: r => '.' :: readDots r
  | '%' :: '2' :: 'E' :: r => '.' :: readDots r
  | c :: r => c :: readDots r
  | [] => []

def isSingle (segment : List Char) : Bool := readDots segment == ['.']

def isDouble (segment : List Char) : Bool := readDots segment == ['.', '.']

def isDots (segment : List Char) : Bool := isSingle segment || isDouble segment

def isKept (c : Char) : Bool :=
  0x20 < c.toNat && c.toNat < 0x7f && !"\"#<>?^`\x7b\x7d".toList.contains c

def percent (b : UInt8) : List Char :=
  ['%', (Nat.digitChar (b.toNat / 16)).toUpper, (Nat.digitChar (b.toNat % 16)).toUpper]

def encode (c : Char) : List Char :=
  if isKept c then [c] else (String.utf8EncodeChar c).flatMap percent

def follow (path : List (List Char)) (segment : List Char) : List (List Char) :=
  if isDouble segment then path.dropLast
  else if isSingle segment then path
  else path ++ [segment.flatMap encode]

/-- A path without the dots in it. Dots at its end leave an empty segment. -/
def resolve (segments : List (List Char)) : List (List Char) :=
  segments.foldl follow [] ++ if segments.getLast?.any isDots then [[]] else []

def isSlash (c : Char) : Bool := c == '/' || c == '\\'

/-- What is behind the scheme of a URL and the slashes in front of its host. -/
def behindScheme (url : List Char) : List Char :=
  ((url.dropWhile (· != ':')).drop 1).dropWhile isSlash

/-- The path that a browser asks for. The query and the fragment of the URL are no part of it. -/
def requested (url : String) : String :=
  let behind := (behindScheme url.toList).takeWhile fun c => c != '?' && c != '#'
  let path := (behind.dropWhile fun c => !isSlash c).drop 1
  let segments := (path.map fun c => if c = '\\' then '/' else c).splitOn '/'
  String.ofList (route (resolve segments))

def channelUrl (secure : Bool) (host path : String) : String :=
  (if secure then "wss://" else "ws://") ++ host ++ path

structure IsHost (host : String) : Prop where
  nonempty : host ≠ ""
  chars : ∀ c ∈ host.toList, c ∉ ['/', '\\', '?', '#']

variable {s : List Char} {segments path : List (List Char)}

theorem isKept_of_isRouteChar {c : Char} (h : IsRouteChar c) : isKept c := by
  obtain ⟨hlow, hhigh⟩ := h.range
  have hplain : c ∉ "\"#<>?^`\x7b\x7d".toList := h.notMem (by decide)
  simp only [isKept, Bool.and_eq_true, decide_eq_true_eq, Bool.not_eq_true', List.contains_eq_mem,
    decide_eq_false_iff_not]
  exact ⟨⟨by omega, by omega⟩, hplain⟩

theorem encode_segment (h : IsSegment s) : s.flatMap encode = s :=
  Page.flatMap_of_forall fun c hc => if_pos (isKept_of_isRouteChar (h.chars c hc))

theorem readDots_of_notMem (h : '%' ∉ s) : readDots s = s := by
  fun_induction readDots s with
  | case1 r ih | case2 r ih => exact absurd List.mem_cons_self h
  | case3 c r _ _ ih => rw [ih (fun hr => h (List.mem_cons_of_mem _ hr))]
  | case4 => rfl

theorem isDots_segment (h : IsSegment s) : isDots s ↔ s = ['.'] ∨ s = ['.', '.'] := by
  have hpercent : '%' ∉ s := fun hmem => by
    have hnot : ¬ IsRouteChar '%' := by decide
    exact hnot (h.chars _ hmem)
  simp [isDots, isSingle, isDouble, readDots_of_notMem hpercent]

theorem foldl_follow_of_dotless (hsegments : ∀ s ∈ segments, IsSegment s)
    (dotless : ∀ s ∈ segments, ¬ isDots s) : segments.foldl follow path = path ++ segments := by
  induction segments generalizing path with
  | nil => simp
  | cons s segments ih =>
    obtain ⟨hs, hsegments⟩ := List.forall_mem_cons.1 hsegments
    obtain ⟨hdots, dotless⟩ := List.forall_mem_cons.1 dotless
    have hfollow : follow path s = path ++ [s] := by
      simp only [isDots, Bool.or_eq_true, not_or] at hdots
      rw [follow, if_neg hdots.2, if_neg hdots.1, encode_segment hs]
    rw [List.foldl_cons, hfollow, ih hsegments dotless, List.append_assoc, List.singleton_append]

theorem mem_foldl_follow (hsegments : ∀ s ∈ segments, IsSegment s)
    (h : s ∈ segments.foldl follow path) : s ∈ path ∨ IsSegment s ∧ ¬ isDots s := by
  induction segments generalizing path with
  | nil => exact .inl h
  | cons t segments ih =>
    obtain ⟨ht, hsegments⟩ := List.forall_mem_cons.1 hsegments
    rcases ih hsegments h with hpath | hs
    · unfold follow at hpath
      split at hpath
      · exact .inl ((List.dropLast_subset path) hpath)
      · split at hpath
        · exact .inl hpath
        · rw [encode_segment ht, List.mem_append, List.mem_singleton] at hpath
          refine hpath.imp_right ?_
          rintro rfl
          simp_all [isDots]
    · exact .inr hs

theorem mem_resolve (hsegments : ∀ s ∈ segments, IsSegment s) (h : s ∈ resolve segments) :
    s = [] ∨ IsSegment s ∧ ¬ isDots s := by
  rw [resolve, List.mem_append] at h
  rcases h with h | h
  · exact .inr ((mem_foldl_follow hsegments h).resolve_left List.not_mem_nil)
  · split at h
    · exact .inl (List.mem_singleton.1 h)
    · cases h

theorem resolve_eq_iff (hsegments : ∀ s ∈ segments, IsSegment s) :
    resolve segments = segments ↔ ∀ s ∈ segments, ¬ isDots s := by
  constructor
  · intro h s hs
    have hkept := mem_resolve hsegments (h ▸ hs)
    exact (hkept.resolve_left (hsegments s hs).nonempty).2
  · intro dotless
    have hlast : ¬ segments.getLast?.any isDots := by
      rw [Option.any_eq_true]
      rintro ⟨s, hs, hdots⟩
      exact dotless s (List.mem_of_mem_getLast? hs) hdots
    rw [resolve, foldl_follow_of_dotless hsegments dotless, if_neg hlast, List.append_nil,
      List.nil_append]

theorem resolve_ne_nil (h : segments ≠ []) : resolve segments ≠ [] := by
  obtain ⟨above, s, rfl⟩ := (List.eq_nil_or_concat' segments).resolve_left h
  rw [resolve, List.foldl_append, List.getLast?_concat]
  intro hnil
  obtain ⟨hfollow, hlast⟩ := List.append_eq_nil_iff.1 hnil
  have hdots : ¬ isDots s := by
    intro hdots
    simp [hdots] at hlast
  simp_all [follow, isDots]

section

variable {host path : String}

theorem IsHost.notSlash (h : IsHost host) : ∀ c ∈ host.toList, c ≠ '/' ∧ c ≠ '\\' := by
  intro c hc
  have := h.chars c hc
  simp_all

theorem behindScheme_channelUrl (hhost : IsHost host) (secure : Bool) (path : String) :
    behindScheme (channelUrl secure host path).toList = host.toList ++ path.toList := by
  obtain ⟨c, cs, hcs⟩ := List.exists_cons_of_ne_nil (mt String.toList_eq_nil_iff.1 hhost.nonempty)
  have hc : c ≠ '/' ∧ c ≠ '\\' := hhost.notSlash c (hcs ▸ List.mem_cons_self)
  cases secure <;> simp [behindScheme, channelUrl, isSlash, hcs, hc]

/-- The path of a route, as a browser asks for it. -/
theorem requested_channelUrl (hhost : IsHost host) (secure : Bool)
    (hne : segments ≠ []) (hsegments : ∀ s ∈ segments, IsSegment s)
    (hroute : path.toList = route segments) :
    requested (channelUrl secure host path) = String.ofList (route (resolve segments)) := by
  have hpath : IsRoute path := ⟨segments, hne, hsegments, hroute⟩
  have hplain : ∀ c ∈ path.toList, c ∉ ['?', '#', '\\'] := hpath.notMem (by decide)
  obtain ⟨core, hcore⟩ := hpath.rooted
  have hquery : (host.toList ++ path.toList).takeWhile (fun c => c != '?' && c != '#') =
      host.toList ++ path.toList := by
    rw [List.takeWhile_eq_self_iff]
    intro c hc
    rcases List.mem_append.1 hc with hc | hc
    · have := hhost.chars c hc
      simp_all
    · have := hplain c hc
      simp_all
  have hdrop : (host.toList ++ path.toList).dropWhile (fun c => !isSlash c) = '/' :: core := by
    rw [hcore]
    refine Text.dropWhile_append (fun c hc => ?_) (by simp [isSlash])
    simpa [isSlash] using hhost.notSlash c hc
  have hmap : core.map (fun c => if c = '\\' then '/' else c) = core := by
    conv_rhs => rw [← List.map_id core]
    refine List.map_congr_left fun c hc => if_neg ?_
    have := hplain c (hcore ▸ List.mem_cons_of_mem _ hc)
    simp_all
  rw [requested, behindScheme_channelUrl hhost]
  simp only [hquery, hdrop, List.drop_one, List.tail_cons, hmap]
  rw [splitOn_of_route hne (fun s hs => (hsegments s hs).notMem) (hcore ▸ hroute)]

example : requested "ws://localhost/a/./b/.." = "/a/" := by decide +kernel

def Dotless (path : String) : Prop := ∀ s ∈ path.toList.splitOn '/', s ≠ ['.'] ∧ s ≠ ['.', '.']

theorem dotless_iff (hne : segments ≠ []) (hsegments : ∀ s ∈ segments, IsSegment s)
    (hroute : path.toList = route segments) :
    Dotless path ↔ ∀ s ∈ segments, ¬ isDots s := by
  rw [Dotless, hroute, splitOn_route hne fun s hs => (hsegments s hs).notMem,
    List.forall_mem_cons]
  refine ⟨fun h s hs => ?_, fun h => ⟨by simp, fun s hs => ?_⟩⟩
  · rw [isDots_segment (hsegments s hs), not_or]
    exact h.2 s hs
  · rw [← not_or, ← isDots_segment (hsegments s hs)]
    exact h s hs

/-- The browser asks for a route itself if there are no dots for it to take off. -/
theorem requested_eq_iff (hhost : IsHost host) (secure : Bool) (hpath : IsRoute path) :
    requested (channelUrl secure host path) = path ↔ Dotless path := by
  obtain ⟨segments, hne, hsegments, hroute⟩ := hpath
  have hslash : ∀ s ∈ resolve segments, '/' ∉ s := by
    intro s hs
    rcases mem_resolve hsegments hs with rfl | hs
    · exact List.not_mem_nil
    · exact hs.1.notMem
  rw [requested_channelUrl hhost secure hne hsegments hroute, dotless_iff hne hsegments hroute,
    ← resolve_eq_iff hsegments, ← String.toList_inj, String.toList_ofList, hroute]
  exact ⟨route_injective (resolve_ne_nil hne) hne hslash fun s hs => (hsegments s hs).notMem,
    fun h => by rw [h]⟩

theorem requested_chars (hhost : IsHost host) (secure : Bool) (hpath : IsRoute path) :
    ∃ core, (requested (channelUrl secure host path)).toList = '/' :: core ∧
      ∀ c ∈ '/' :: core, c = '/' ∨ IsRouteChar c := by
  obtain ⟨segments, hne, hsegments, hroute⟩ := hpath
  refine ⟨['/'].intercalate (resolve segments), ?_, ?_⟩
  · rw [requested_channelUrl hhost secure hne hsegments hroute, String.toList_ofList,
      cons_intercalate (resolve_ne_nil hne)]
  · rw [cons_intercalate (resolve_ne_nil hne)]
    intro c hc
    obtain ⟨s, hs, hc⟩ := List.mem_flatMap.1 hc
    refine (List.mem_cons.1 hc).imp_right fun hc => ?_
    rcases mem_resolve hsegments hs with rfl | hs
    · cases hc
    · exact hs.1.chars c hc

end

end Browser

namespace Http

open Browser (IsHost Dotless requested channelUrl)

theorem Request.target_of_rooted {request : Request} {core : List Char}
    (hpath : request.path.toList = '/' :: core)
    (hchars : ∀ c ∈ '/' :: core, c = '/' ∨ IsRouteChar c) : request.target = request.path := by
  have hquery : request.path.toList.takeWhile (fun c => c != '?' && c != '#') = '/' :: core := by
    rw [hpath, List.takeWhile_eq_self_iff]
    intro c hc
    rcases hchars c hc with rfl | hc
    · decide
    · have hplain : c ∉ ['?', '#'] := hc.notMem (by decide)
      simp_all
  rw [target, hquery, ← String.ofList_toList (s := request.path), hpath]
  rfl

namespace Router

structure Opens (relay : Relay) (secure : Bool) (host : String) : Prop where
  named : Page.render relay.websocketPath relay.controllerLabel =
    .ok (Page.naming relay.websocketPath relay.controllerLabel)
  script : [.text "  const path = ", .script .path, .text ";\n",
      .text "  const scheme = location.protocol === \"https:\" ? \"wss://\" : \"ws://\";\n"] <:+:
        Page.template ∧
    .text "  const socket = new WebSocket(scheme + location.host + path);\n" ∈ Page.template
  asked : requested (channelUrl secure host relay.websocketPath) = relay.websocketPath ↔
    Dotless relay.websocketPath
  reached : route? relay (requested (channelUrl secure host relay.websocketPath)) = some .channel ↔
    Dotless relay.websocketPath
  entered (request : Request) : request.method = "GET" → request.AsksUpgrade →
    request.path = requested (channelUrl secure host relay.websocketPath) →
    ((answer relay request true).1 = .upgrade ↔ Dotless relay.websocketPath)
  /-- With dots in its path the channel is never what the page gets to. -/
  missed (request : Request) (upgradable : Bool) : request.method = "GET" →
    request.path = requested (channelUrl secure host relay.websocketPath) →
    ¬ Dotless relay.websocketPath →
    (answer relay request upgradable).1 = .response (pageResponse relay request) ∨
      (answer relay request upgradable).1 = .response nowhereResponse

variable {relay : Relay} {host : String}

theorem opens_of_isRoute (h : IsRoute relay.websocketPath) (hhost : IsHost host) (secure : Bool) :
    Opens relay secure host := by
  have plain := isPlainPath_iff.2 h
  have hasked := Browser.requested_eq_iff hhost secure h
  have htarget (request : Request)
      (hpath : request.path = requested (channelUrl secure host relay.websocketPath)) :
      request.target = requested (channelUrl secure host relay.websocketPath) := by
    obtain ⟨core, hcore, hchars⟩ := Browser.requested_chars hhost secure h
    rw [Request.target_of_rooted (hpath ▸ hcore) hchars, hpath]
  constructor
  case named => exact Page.render_of_isPlain plain _
  case script => decide +kernel
  case asked => exact hasked
  case reached => rw [route?_eq_channel_iff h, hasked]
  case entered =>
    intro request get asks hpath
    rw [(routing_of_isPlain plain).upgrade request true get, htarget request hpath, hasked]
    exact and_iff_left ⟨asks, rfl⟩
  case missed =>
    intro request upgradable get hpath hdots
    have hchannel : request.target ≠ relay.websocketPath := by
      rwa [htarget request hpath, Ne, hasked]
    by_cases hroot : request.target = "/"
    · exact .inl (answer_page plain get hroot)
    · exact .inr (answer_nowhere get hroot hchannel)

/-- Whatever text sets the path of the channel, the page gets to the channel if and only if the path
has no dots for a browser to take off. -/
theorem page_opens_channel (queue : Queue QueueMessage) (events : Broadcast Emit)
    (text label : String) (secure : Bool) (hhost : IsHost host) :
    Opens (((Relay.fresh queue events).withPath text).1.withLabel label) secure host := by
  refine opens_of_isRoute ?_ hhost secure
  rw [Relay.withLabel_websocketPath]
  exact Relay.fresh_isRoute queue events text

theorem page_opens_channel_dotless : IsHost "[::1]:5000" ∧
    Opens { Relay.fresh {} { capacity := 8 } with
      websocketPath := "/v1.0/...", controllerLabel := "real" } true "[::1]:5000" ∧
    Dotless "/v1.0/..." := by
  have hchars : "[::1]:5000".toList.all fun c => c ∉ ['/', '\\', '?', '#'] := by decide
  have hhost : IsHost "[::1]:5000" :=
    ⟨by decide, fun c hc => of_decide_eq_true (List.all_eq_true.1 hchars c hc)⟩
  have hroute : Relay.route? "v1.0/.../" = some "/v1.0/..." := by decide +kernel
  have h := page_opens_channel {} { capacity := 8 } "v1.0/.../" "real" true hhost
  rw [Relay.withPath, hroute] at h
  exact ⟨hhost, h, by unfold Dotless; decide +kernel⟩

/-- Dots lead past the channel, to what is not there or to the page itself. -/
theorem dots_miss_channel :
    (((Relay.fresh {} { capacity := 8 }).withPath "/a/../b").1.websocketPath = "/a/../b" ∧
      requested (channelUrl false "localhost:5000" "/a/../b") = "/b" ∧
      route? ((Relay.fresh {} { capacity := 8 }).withPath "/a/../b").1 "/b" = none) ∧
    ((Relay.fresh {} { capacity := 8 }).withPath "..").1.websocketPath = "/.." ∧
      requested (channelUrl false "localhost:5000" "/..") = "/" ∧
      route? ((Relay.fresh {} { capacity := 8 }).withPath "..").1 "/" = some .page := by
  decide +kernel

end Router

end Http

end SearchRelay

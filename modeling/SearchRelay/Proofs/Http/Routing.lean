import SearchRelay.Http.Router
import SearchRelay.Proofs.Channel.Crowd
import SearchRelay.Proofs.Page

namespace SearchRelay

namespace Relay

def configured (r : Relay) (path label : String) : Relay :=
  let unset : Relay := { r with websocketPath := defaultPath }
  (unset.withPath path).1.withLabel label

theorem withLabel_websocketPath (r : Relay) (label : String) :
    (r.withLabel label).websocketPath = r.websocketPath := rfl

theorem configured_isPlain (r : Relay) (path label : String) :
    IsPlainPath (r.configured path label).websocketPath := by
  have hunset : IsPlainPath ({ r with websocketPath := defaultPath } : Relay).websocketPath :=
    defaultPath_isPlain
  rw [configured, withLabel_websocketPath]
  exact withPath_isPlain hunset path

end Relay

namespace Http

/-- The headers of a request that asks for a channel. -/
structure Request.AsksUpgrade (r : Request) : Prop where
  connection : ∃ v, r.header? "connection" = some v ∧
    "upgrade".toList <:+: (Request.lower v).toList
  upgrade : ∃ v, r.header? "upgrade" = some v ∧ Request.lower v = "websocket"
  key : ∃ v, r.header? "sec-websocket-key" = some v
  version : ∃ v, r.header? "sec-websocket-version" = some v ∧ Request.lower v = "13"

theorem Request.any_header_iff {r : Request} {name : String} {p : String → Bool} :
    ((r.header? name).any fun v => p (lower v)) ↔ ∃ v, r.header? name = some v ∧ p (lower v) := by
  simp [Option.any_eq_true]

theorem Request.upgradeFault?_eq_none_iff {r : Request} (get : r.method = "GET")
    (upgradable : Bool) :
    r.upgradeFault? upgradable = none ↔ r.AsksUpgrade ∧ upgradable := by
  have hasks : r.AsksUpgrade ↔
      ((r.header? "connection").any fun v => Text.occurs "upgrade".toList (lower v).toList) ∧
      ((r.header? "upgrade").any fun v => lower v == "websocket") ∧
      (r.header? "sec-websocket-key").isSome ∧
      ((r.header? "sec-websocket-version").any fun v => lower v == "13") := by
    simp only [any_header_iff (p := fun v => Text.occurs "upgrade".toList v.toList),
      any_header_iff (p := (· == "websocket")), any_header_iff (p := (· == "13")),
      Text.occurs_iff, beq_iff_eq, Option.isSome_iff_exists]
    exact ⟨fun ⟨hc, hu, hk, hv⟩ => ⟨hc, hu, hk, hv⟩, fun ⟨hc, hu, hk, hv⟩ => ⟨hc, hu, hk, hv⟩⟩
  rw [hasks, upgradeFault?]
  simp only [get, ne_eq, not_true_eq_false, if_false]
  split
  · simp_all
  · split
    · simp_all
    · split
      · simp_all
      · split
        · simp_all
        · split <;> simp_all [Option.isSome_iff_ne_none]

theorem UpgradeFault.status_client (f : UpgradeFault) : 400 ≤ f.status ∧ f.status < 500 := by
  cases f <;> decide

theorem UpgradeFault.status_ne_notFound (f : UpgradeFault) : f.status ≠ 404 := by
  cases f <;> decide

namespace Router

variable {relay : Relay} {request : Request} {upgradable : Bool}

def pageResponse (relay : Relay) (request : Request) : Response :=
  share (finish request (.ofHtml (Page.naming relay.websocketPath relay.controllerLabel)))

def faultResponse (request : Request) (f : UpgradeFault) : Response :=
  share (finish request f.toResponse)

def nowhereResponse : Response := share { status := 404 }

theorem finish_status (request : Request) (r : Response) :
    (finish request r).status = r.status := by
  unfold finish
  split <;> rfl

theorem share_status (r : Response) : (share r).status = r.status := rfl

theorem pageResponse_status (relay : Relay) (request : Request) :
    (pageResponse relay request).status = 200 := by
  rw [pageResponse, share_status, finish_status, Response.ofHtml]

theorem faultResponse_status (request : Request) (f : UpgradeFault) :
    (faultResponse request f).status = f.status := by
  rw [faultResponse, share_status, finish_status, UpgradeFault.toResponse, Response.ofText]

theorem answer_of_get (get : request.method = "GET") :
    (answer relay request upgradable).1 =
      match route? relay request.target with
      | none => .response nowhereResponse
      | some route =>
        match (serve relay request upgradable route).1 with
        | .response r => .response (share (finish request r))
        | .upgrade => .upgrade := by
  cases h : route? relay request.target with
  | none => simp [answer, h, get, nowhereResponse]
  | some route =>
    simp only [answer, h, get]
    cases serve relay request upgradable route with
    | mk a logs => cases a <;> simp

-- The equations of `serve` would have the whole page computed, so it is unfolded as it stands.
theorem serve_page (plain : IsPlainPath relay.websocketPath) :
    serve relay request upgradable .page =
      (.response (.ofHtml (Page.naming relay.websocketPath relay.controllerLabel)), []) := by
  delta serve
  simp only [Page.render_of_isPlain plain]

theorem serve_channel : serve relay request upgradable .channel =
    match request.upgradeFault? upgradable with
    | some f => (.response f.toResponse, [])
    | none => (.upgrade, []) := by
  delta serve
  rfl

theorem answer_page (plain : IsPlainPath relay.websocketPath) (get : request.method = "GET")
    (h : request.target = "/") :
    (answer relay request upgradable).1 = .response (pageResponse relay request) := by
  have hroute : route? relay request.target = some .page := if_pos h
  rw [answer_of_get get, hroute, pageResponse]
  simp only [serve_page plain]

theorem answer_channel (plain : IsPlainPath relay.websocketPath) (get : request.method = "GET")
    (h : request.target = relay.websocketPath) :
    (answer relay request upgradable).1 =
      match request.upgradeFault? upgradable with
      | some f => .response (faultResponse request f)
      | none => .upgrade := by
  have hroute : route? relay request.target = some .channel := by
    rw [route?, if_neg (h ▸ plain.ne_root), if_pos h]
  rw [answer_of_get get, hroute]
  simp only [serve_channel, faultResponse]
  cases request.upgradeFault? upgradable <;> simp only

theorem answer_nowhere (get : request.method = "GET") (hroot : request.target ≠ "/")
    (hchannel : request.target ≠ relay.websocketPath) :
    (answer relay request upgradable).1 = .response nowhereResponse := by
  have hroute : route? relay request.target = none := by
    rw [route?, if_neg hroot, if_neg hchannel]
  rw [answer_of_get get, hroute]

theorem answer_congr {other : Relay} (hpath : other.websocketPath = relay.websocketPath)
    (hlabel : other.controllerLabel = relay.controllerLabel) :
    answer other request upgradable = answer relay request upgradable := by
  have hroute (path : String) : route? other path = route? relay path := by
    rw [route?, route?, hpath]
  have hserve (route : Route) :
      serve other request upgradable route = serve relay request upgradable route := by
    delta serve
    rw [hpath, hlabel]
  simp only [answer, hroute, hserve]

/-- How a relay answers those who want to read something. -/
structure Routing (relay : Relay) : Prop where
  separate : relay.websocketPath ≠ "/"
  page (request : Request) (upgradable : Bool) : request.method = "GET" →
    ((answer relay request upgradable).1 = .response (pageResponse relay request) ↔
      request.target = "/")
  channel (request : Request) (upgradable : Bool) : request.method = "GET" →
    (((answer relay request upgradable).1 = .upgrade ∨
        ∃ f, (answer relay request upgradable).1 = .response (faultResponse request f)) ↔
      request.target = relay.websocketPath)
  nowhere (request : Request) (upgradable : Bool) : request.method = "GET" →
    ((answer relay request upgradable).1 = .response nowhereResponse ↔
      request.target ≠ "/" ∧ request.target ≠ relay.websocketPath)
  upgrade (request : Request) (upgradable : Bool) : request.method = "GET" →
    ((answer relay request upgradable).1 = .upgrade ↔
      request.target = relay.websocketPath ∧ request.AsksUpgrade ∧ upgradable)
  refused (request : Request) (upgradable : Bool) : request.method = "GET" →
    request.target = relay.websocketPath → ¬ (request.AsksUpgrade ∧ upgradable) →
    ∃ r, (answer relay request upgradable).1 = .response r ∧ 400 ≤ r.status ∧ r.status < 500
  /-- The page names the path at which the channel is. -/
  names : Page.render relay.websocketPath relay.controllerLabel =
    .ok (Page.naming relay.websocketPath relay.controllerLabel)

inductive Answered (relay : Relay) (request : Request) (upgradable : Bool) : Answer → Prop
  | page (root : request.target = "/") :
      Answered relay request upgradable (.response (pageResponse relay request))
  | fault (channel : request.target = relay.websocketPath) {f : UpgradeFault}
      (wrong : request.upgradeFault? upgradable = some f) :
      Answered relay request upgradable (.response (faultResponse request f))
  | upgrade (channel : request.target = relay.websocketPath)
      (right : request.upgradeFault? upgradable = none) :
      Answered relay request upgradable .upgrade
  | nowhere (notRoot : request.target ≠ "/") (notChannel : request.target ≠ relay.websocketPath) :
      Answered relay request upgradable (.response nowhereResponse)

theorem answer_answered (plain : IsPlainPath relay.websocketPath) (get : request.method = "GET")
    (upgradable : Bool) :
    Answered relay request upgradable (answer relay request upgradable).1 := by
  by_cases hroot : request.target = "/"
  · rw [answer_page plain get hroot]
    exact .page hroot
  by_cases hchannel : request.target = relay.websocketPath
  · rw [answer_channel plain get hchannel]
    cases hf : request.upgradeFault? upgradable with
    | some f => exact .fault hchannel hf
    | none => exact .upgrade hchannel hf
  · rw [answer_nowhere get hroot hchannel]
    exact .nowhere hroot hchannel

theorem page_ne_fault (f : UpgradeFault) :
    pageResponse relay request ≠ faultResponse request f := by
  intro h
  have hstatus := congrArg Response.status h
  rw [pageResponse_status, faultResponse_status] at hstatus
  have := f.status_client
  omega

theorem page_ne_nowhere : pageResponse relay request ≠ nowhereResponse := by
  intro h
  have hstatus := congrArg Response.status h
  rw [pageResponse_status] at hstatus
  cases hstatus

theorem fault_ne_nowhere (f : UpgradeFault) : faultResponse request f ≠ nowhereResponse := by
  intro h
  have hstatus := congrArg Response.status h
  rw [faultResponse_status] at hstatus
  exact f.status_ne_notFound hstatus

section

variable {a : Answer}

theorem Answered.page_iff (h : Answered relay request upgradable a)
    (separate : relay.websocketPath ≠ "/") :
    a = .response (pageResponse relay request) ↔ request.target = "/" := by
  cases h with
  | page root => exact ⟨fun _ => root, fun _ => rfl⟩
  | fault channel =>
    exact ⟨fun h => absurd (Answer.response.inj h).symm (page_ne_fault _),
      fun root => absurd (channel.symm.trans root) separate⟩
  | upgrade channel => exact ⟨fun h => (nomatch h), fun root => absurd (channel ▸ root) separate⟩
  | nowhere notRoot =>
    exact ⟨fun h => absurd (Answer.response.inj h).symm page_ne_nowhere,
      fun root => absurd root notRoot⟩

theorem Answered.channel_iff (h : Answered relay request upgradable a)
    (separate : relay.websocketPath ≠ "/") :
    (a = .upgrade ∨ ∃ f, a = .response (faultResponse request f)) ↔
      request.target = relay.websocketPath := by
  cases h with
  | page root =>
    refine ⟨?_, fun channel => absurd (channel.symm.trans root) separate⟩
    rintro (h | ⟨f, h⟩)
    · cases h
    · exact absurd (Answer.response.inj h) (page_ne_fault f)
  | fault channel => exact ⟨fun _ => channel, fun _ => .inr ⟨_, rfl⟩⟩
  | upgrade channel => exact ⟨fun _ => channel, fun _ => .inl rfl⟩
  | nowhere _ notChannel =>
    refine ⟨?_, fun channel => absurd channel notChannel⟩
    rintro (h | ⟨f, h⟩)
    · cases h
    · exact absurd (Answer.response.inj h).symm (fault_ne_nowhere f)

theorem Answered.nowhere_iff (h : Answered relay request upgradable a) :
    a = .response nowhereResponse ↔
      request.target ≠ "/" ∧ request.target ≠ relay.websocketPath := by
  cases h with
  | page root =>
    exact ⟨fun h => absurd (Answer.response.inj h) page_ne_nowhere, fun h => absurd root h.1⟩
  | fault channel =>
    exact ⟨fun h => absurd (Answer.response.inj h) (fault_ne_nowhere _),
      fun h => absurd channel h.2⟩
  | upgrade channel => exact ⟨fun h => (nomatch h), fun h => absurd channel h.2⟩
  | nowhere notRoot notChannel => exact ⟨fun _ => ⟨notRoot, notChannel⟩, fun _ => rfl⟩

theorem Answered.upgrade_iff (h : Answered relay request upgradable a)
    (separate : relay.websocketPath ≠ "/") :
    a = .upgrade ↔ request.target = relay.websocketPath ∧
      request.upgradeFault? upgradable = none := by
  cases h with
  | page root =>
    exact ⟨fun h => (nomatch h), fun h => absurd (h.1.symm.trans root) separate⟩
  | fault channel wrong => exact ⟨fun h => (nomatch h), fun h => by simp [wrong] at h⟩
  | upgrade channel right => exact ⟨fun _ => ⟨channel, right⟩, fun _ => rfl⟩
  | nowhere _ notChannel => exact ⟨fun h => (nomatch h), fun h => absurd h.1 notChannel⟩

end

theorem routing_of_isPlain (plain : IsPlainPath relay.websocketPath) : Routing relay := by
  have separate := plain.ne_root
  have answered (request : Request) (upgradable : Bool) (get : request.method = "GET") :=
    answer_answered plain get upgradable
  have hupgrade (request : Request) (upgradable : Bool) (get : request.method = "GET") :
      (answer relay request upgradable).1 = .upgrade ↔
        request.target = relay.websocketPath ∧ request.AsksUpgrade ∧ upgradable := by
    rw [(answered request upgradable get).upgrade_iff separate,
      Request.upgradeFault?_eq_none_iff get]
  constructor
  case separate => exact separate
  case page => exact fun request upgradable get => (answered request upgradable get).page_iff separate
  case channel =>
    exact fun request upgradable get => (answered request upgradable get).channel_iff separate
  case nowhere => exact fun request upgradable get => (answered request upgradable get).nowhere_iff
  case upgrade => exact hupgrade
  case refused =>
    intro request upgradable get channel wrong
    have hanswer := ((answered request upgradable get).channel_iff separate).2 channel
    rcases hanswer with h | ⟨f, h⟩
    · exact absurd ((hupgrade request upgradable get).1 h).2 wrong
    · refine ⟨_, h, ?_⟩
      rw [faultResponse_status]
      exact f.status_client
  case names => exact Page.render_of_isPlain plain _

end Router

end Http

end SearchRelay

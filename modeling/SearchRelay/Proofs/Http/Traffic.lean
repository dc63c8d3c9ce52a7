import SearchRelay.Proofs.Http.Routing

namespace SearchRelay

open Http

inductive Traffic
  | request (r : Request) (upgradable : Bool)
  | session (j : Nat) (input : SessionInput)
  /-- Whatever happens elsewhere to the queue, the events and the latch. -/
  | elsewhere (relay : Relay)

namespace Call

theorem performAll_keeps (r : Relay) (calls : List Call) :
    (performAll r calls).1.websocketPath = r.websocketPath ∧
      (performAll r calls).1.controllerLabel = r.controllerLabel := by
  induction calls generalizing r with
  | nil => exact ⟨rfl, rfl⟩
  | cons call calls ih =>
    obtain ⟨hpath, hlabel⟩ := ih (call.perform r).1
    rw [performAll]
    cases call <;> exact ⟨hpath, hlabel⟩

end Call

namespace Crowd

def handle (c : Crowd) : Traffic → Crowd
  | .request r upgradable =>
    match (Router.answer c.relay r upgradable).1 with
    | .upgrade => c.step .arrive
    | .response _ => c
  | .session j input => c.step (.session j input)
  | .elsewhere relay =>
    let path := c.relay.websocketPath
    let label := c.relay.controllerLabel
    c.step (.elsewhere { relay with websocketPath := path, controllerLabel := label })

def handleAll (c : Crowd) (traffic : List Traffic) : Crowd := traffic.foldl handle c

def concerns (c : Crowd) : Traffic → Bool
  | .request r upgradable => (Router.answer c.relay r upgradable).1 = .upgrade
  | _ => true

structure Settled (c c' : Crowd) : Prop where
  path : c'.relay.websocketPath = c.relay.websocketPath
  label : c'.relay.controllerLabel = c.relay.controllerLabel

variable {c c' : Crowd}

theorem handle_settled (c : Crowd) (t : Traffic) : Settled c (c.handle t) := by
  cases t with
  | request r upgradable =>
    simp only [handle]
    split <;> exact ⟨rfl, rfl⟩
  | session j input =>
    have heffect := (c.follows j input).effect
    obtain ⟨hpath, hlabel⟩ := Call.performAll_keeps c.relay ((c.phase j).calls (c.heed j input).1)
    exact ⟨(congrArg Relay.websocketPath heffect).trans hpath,
      (congrArg Relay.controllerLabel heffect).trans hlabel⟩
  | elsewhere relay => exact ⟨rfl, rfl⟩

theorem handleAll_settled (c : Crowd) (traffic : List Traffic) :
    Settled c (c.handleAll traffic) := by
  induction traffic generalizing c with
  | nil => exact ⟨rfl, rfl⟩
  | cons t traffic ih =>
    have hstep := c.handle_settled t
    have hrest := ih (c.handle t)
    exact ⟨hrest.path.trans hstep.path, hrest.label.trans hstep.label⟩

theorem Settled.answer (h : Settled c c') (r : Request) (upgradable : Bool) :
    Router.answer c'.relay r upgradable = Router.answer c.relay r upgradable :=
  Router.answer_congr h.path h.label

theorem Settled.concerns (h : Settled c c') : c'.concerns = c.concerns := by
  funext t
  cases t with
  | request r upgradable => simp only [Crowd.concerns, h.answer]
  | _ => rfl

theorem handle_of_unconcerned {t : Traffic} (h : c.concerns t = false) : c.handle t = c := by
  cases t with
  | request r upgradable =>
    simp only [handle]
    split
    · simp_all [concerns]
    · rfl
  | _ => cases h

/-- Nobody can tell whether requests came that did not become channels. -/
theorem handleAll_filter (c : Crowd) (traffic : List Traffic) :
    c.handleAll (traffic.filter c.concerns) = c.handleAll traffic := by
  induction traffic generalizing c with
  | nil => rfl
  | cons t traffic ih =>
    have hrest := ih (c.handle t)
    rw [(c.handle_settled t).concerns] at hrest
    cases h : c.concerns t with
    | true =>
      rw [List.filter_cons_of_pos h]
      exact hrest
    | false =>
      rw [List.filter_cons_of_neg (by simp [h])]
      rw [handle_of_unconcerned h] at hrest
      rw [hrest, handleAll, handleAll, List.foldl_cons, handle_of_unconcerned h]

/-- How requests are served in the course of any traffic. -/
structure Service (start : Crowd) : Prop where
  routing (traffic : List Traffic) :
    (start.handleAll traffic).relay.websocketPath = start.relay.websocketPath ∧
      Router.Routing (start.handleAll traffic).relay
  undisturbed (traffic : List Traffic) :
    start.handleAll (traffic.filter start.concerns) = start.handleAll traffic
  /-- After requests alone everything is as before, unless one of them became a channel. -/
  quiet (requests : List (Request × Bool)) :
    (∀ r ∈ requests, (Router.answer start.relay r.1 r.2).1 ≠ .upgrade) →
    start.handleAll (requests.map fun r => .request r.1 r.2) = start

theorem requests_are_served (relay : Relay) (path label : String) (sessions : List SessionPhase) :
    Service ⟨relay.configured path label, sessions⟩ := by
  have plain := relay.configured_isPlain path label
  generalize relay.configured path label = relay at plain
  constructor
  case routing =>
    intro traffic
    have hsettled := handleAll_settled ⟨relay, sessions⟩ traffic
    exact ⟨hsettled.path, Router.routing_of_isPlain (hsettled.path ▸ plain)⟩
  case undisturbed => exact handleAll_filter _
  case quiet =>
    intro requests hnone
    have hempty : (requests.map fun r => Traffic.request r.1 r.2).filter
        (concerns ⟨relay, sessions⟩) = [] := by
      rw [List.filter_eq_nil_iff]
      intro t ht
      obtain ⟨r, hr, rfl⟩ := List.mem_map.1 ht
      simpa [concerns] using hnone r hr
    rw [← handleAll_filter, hempty]
    rfl

end Crowd

end SearchRelay

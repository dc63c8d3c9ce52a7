import SearchRelay.Page.Board
import SearchRelay.Proofs.Channel.Reading
import SearchRelay.Proofs.Controller.Accounting

namespace SearchRelay.World

open Broadcast (eventsOf)

/-- A channel that subscribed when a client arrived got the newest of the events since, whatever it
missed, and its page shows how many files there are. -/
structure UpToDate (arrived : World) (j : Nat) (client : ClientId) (after : List Act) : Prop where
  newest : ((arrived.step (.session j .subscribe)).along (received j) after).getLast? =
    ((arrived.step (.session j .subscribe)).along emitted after).getLast?.map
      ControllerEvent.toEmit
  passes : (arrived.step (.session j .subscribe)).along (texts j) after =
    (Emit.connected ⟨client⟩ ::
      (arrived.step (.session j .subscribe)).along (received j) after).map Emit.toText
  files : ∃ c, ((arrived.step (.session j .subscribe)).after after).scene.task.controller =
      .real c ∧
    (Page.Board.ofEmits (Emit.connected ⟨client⟩ ::
      (arrived.step (.session j .subscribe)).along (received j) after)).files =
        some (.nat c.index.paths.card)

/-- From a start on, every channel that serves its client is up to date whenever it has nothing left
to get, if there was anything since it subscribed. -/
def Converges (start : World) : Prop :=
  ∀ (before after : List Act) (j i : Nat) (client : ClientId),
    (start.after before).phase j = .arriving →
    (start.after (before ++ .session j .subscribe :: after)).phase j = .serving i client →
    ((start.after (before ++ .session j .subscribe :: after)).events.receive i).1 = some .empty →
    ((start.after before).step (.session j .subscribe)).along emitted after ≠ [] →
    UpToDate (start.after before) j client after

theorem put_files {e : ControllerEvent} {n : Nat} (h : e.files? = some n) (b : Page.Board) :
    (b.put e.toEmit).files = some (.nat n) := by
  cases e with
  | status p =>
    obtain rfl := Option.some.inj h
    exact b.put_status_files p
  | indexUpdated u =>
    obtain rfl := Option.some.inj h
    exact b.put_indexUpdated_files u
  | progress p => exact nomatch h

theorem upToDate_of_drained {w : World} {j i : Nat} {client : ClientId} {after : List Act}
    (hn : w.Numbered) (there : w.events.hasBroadcaster) (room : 0 < w.events.capacity)
    (harrived : w.phase j = .arriving)
    (hserving : ((w.step (.session j .subscribe)).after after).phase j = .serving i client)
    (drained : (((w.step (.session j .subscribe)).after after).events.receive i).1 = some .empty)
    {newest : ControllerEvent} {c : RealController}
    (hlast : ((w.step (.session j .subscribe)).along emitted after).getLast? = some newest)
    (hc : ((w.step (.session j .subscribe)).after after).scene.task.controller = .real c)
    (hfiles : newest.files? = some c.index.size) : UpToDate w j client after := by
  obtain ⟨uses, huses, attends⟩ := (attends_subscribe hn harrived).run after
  simp only [List.nil_append] at attends
  generalize hgot : (w.step (.session j .subscribe)).along (received j) after = got at attends
  have hreads := attends.reads
  rw [hserving] at hreads
  rw [attends.events] at drained
  have hsent : (eventsOf uses).getLast? = some newest.toEmit := by
    rw [huses, List.getLast?_map, hlast]
    rfl
  have hne : eventsOf uses ≠ [] := by
    intro h0
    rw [h0] at hsent
    exact nomatch hsent
  have hnew : got.getLast? = some newest.toEmit := by
    cases hreads with
    | serving here hears _ passes =>
      exact ((Reads.serving here hears client passes).newest there room drained hne).trans hsent
  refine ⟨?_, ?_, c, hc, ?_⟩
  · rw [hgot, hnew, hlast]
    rfl
  · cases hreads with
    | serving here hears _ passes => rw [hgot, passes]
  -- The last event overwrites the number of files, whatever the board showed before.
  · obtain ⟨earlier, rfl⟩ := List.getLast?_eq_some_iff.1 hnew
    rw [hgot, ← List.cons_append, Page.Board.ofEmits_concat, put_files hfiles,
      FileIndex.card_paths]

theorem opening_numbered (root : Path) (masks : List String) (period : Option Nat)
    (around : Surroundings) (events : Broadcast Emit) :
    (opening root masks period around events).Numbered :=
  fun _ _ h => nomatch h

theorem run_tells (root : Path) (masks : List String) (period : Option Nat)
    (around : Surroundings) (events : Broadcast Emit) (acts : List Act) :
    ∃ c, ((opening root masks period around events).after acts).scene.task.controller = .real c ∧
      ∀ e, ((opening root masks period around events).along emitted acts).getLast? = some e →
        e.files? = some c.index.size := by
  obtain ⟨ms, hs, he⟩ := (opening root masks period around events).run_scene acts
  rw [hs, he]
  exact Scene.run_newest ms

/-- Every capacity that can be asked for gives clients that converge. -/
theorem clients_converge {capacity : Nat} (hc : capacity ≤ Broadcast.maxCapacity) (root : Path)
    (masks : List String) (period : Option Nat) (around : Surroundings) :
    ∃ fresh, Broadcast.ofCapacity capacity = .ok fresh ∧
      Converges (opening root masks period around fresh) := by
  obtain ⟨fresh, hf, -, room, there, -⟩ := @Broadcast.ofCapacity_ok Emit _ hc
  refine ⟨fresh, hf, ?_⟩
  have hnum := opening_numbered root masks period around fresh
  have htells := run_tells root masks period around fresh
  have hevents : (opening root masks period around fresh).events = fresh := rfl
  generalize opening root masks period around fresh = start at hnum htells hevents
  intro before after j i client harrived hserving drained hne
  obtain ⟨uses, huses⟩ := start.run_events before
  obtain ⟨c, hcontroller, hfiles⟩ := htells (before ++ .session j .subscribe :: after)
  obtain ⟨newest, hnewest⟩ := Option.isSome_iff_exists.1 (List.getLast?_isSome.2 hne)
  rw [after_append, after_cons] at hserving drained hcontroller
  refine upToDate_of_drained (hnum.run before) ?_ ?_ harrived hserving drained hnewest hcontroller
    (hfiles newest ?_)
  · rwa [huses, Broadcast.run_hasBroadcaster, hevents]
  · rwa [huses, Broadcast.run_capacity, hevents]
  · rw [along_append, along, List.getLast?_append, List.getLast?_append, hnewest]
    rfl

/-- With room for one event, a client that is told of two gets the second. -/
theorem clients_converge_one :
    1 ≤ Broadcast.maxCapacity ∧ ∃ fresh, Broadcast.ofCapacity 1 = .ok fresh ∧
      UpToDate ((opening "/" [] none { files := .empty } fresh).after [.move .begin, .arrive]) 0 ⟨0⟩
        [.session 0 (.connect ⟨0⟩), .session 0 (.greet true),
          .move (.endScan (.ok ⟨["/a"], List.pairwise_singleton _ _⟩)), .move .serveQueue,
          .session 0 (.event true), .session 0 (.event true)] := by
  obtain ⟨fresh, hf, h⟩ := @clients_converge 1 (by decide) "/" [] none { files := .empty }
  obtain rfl : { capacity := 1 } = fresh := Except.ok.inj hf
  exact ⟨by decide, _, hf, h _ _ 0 0 _ rfl rfl rfl (List.cons_ne_nil _ _)⟩

end SearchRelay.World

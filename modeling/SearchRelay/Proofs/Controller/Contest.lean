import Mathlib.Logic.Function.Basic
import SearchRelay.Proofs.Controller.Lasting

/-!
Any number of callers who want one controller to run, among those who want it to stop. The queue
lies behind a lock. Whoever finds it there takes it and runs; all others find nothing and are
refused.
-/

namespace SearchRelay

inductive Caller
  | waiting
  | running
  | refused (e : ControllerError)
  deriving DecidableEq

def Move.isBegin : Move → Bool
  | .begin => true
  | _ => false

def Move.isRequestStop : Move → Bool
  | .requestStop => true
  | _ => false

/-- A controller and all who call it. Nothing depends on the last three: they tell what happened. -/
structure Contest where
  scene : Scene
  untaken : Bool := true
  holder : Option Nat := none
  callers : Nat → Option Caller := fun _ => none
  /-- Those who found out whether the queue is there, in their order. -/
  looked : List Nat := []
  moves : List Move := []
  answers : List Bool := []

namespace Contest

inductive Action
  | call (i : Nat)
  | lock (i : Nat)
  | look (i : Nat)
  | move (m : Move)

def Action.caller? : Action → Option Nat
  | call i | lock i | look i => some i
  | move _ => none

def Action.isRequestStop : Action → Bool
  | move m => m.isRequestStop
  | _ => false

theorem Action.eq_of_isRequestStop {a : Action} (h : a.isRequestStop) : a = .move .requestStop := by
  cases a with
  | move m => cases m <;> first | rfl | cases h
  | _ => cases h

/-- A run does not begin before its caller has the queue. -/
def permits (k : Contest) (m : Move) : Bool := !(m.isBegin && k.untaken)

def answer (k : Contest) (m : Move) : List Bool :=
  if m.isRequestStop then [k.scene.task.stop.1] else []

def act (k : Contest) : Action → Contest
  | .call i =>
    if k.callers i = none then { k with callers := Function.update k.callers i (some .waiting) }
    else k
  | .lock i =>
    if k.holder = none ∧ k.callers i = some .waiting then { k with holder := some i } else k
  | .look i =>
    if k.holder = some i then
      { k with
        untaken := false, holder := none, looked := k.looked ++ [i]
        callers := Function.update k.callers i
          (some (if k.untaken then .running else .refused .alreadyRunning)) }
    else k
  | .move m =>
    if k.permits m then
      { k with
        scene := (k.scene.move m).1, moves := k.moves ++ [m], answers := k.answers ++ k.answer m }
    else k

def after (k : Contest) (actions : List Action) : Contest := actions.foldl act k

def result? (k : Contest) (i : Nat) : Option (Except ControllerError Unit) :=
  match k.callers i with
  | some .running => k.scene.task.result?
  | some (.refused e) => some (.error e)
  | _ => none

def opening (controller : Controller) (around : Surroundings) : Contest :=
  { scene := .opening controller around }

variable {k : Contest}

theorem after_append (k : Contest) (actions more : List Action) :
    k.after (actions ++ more) = (k.after actions).after more := List.foldl_append

theorem after_concat (k : Contest) (actions : List Action) (a : Action) :
    k.after (actions ++ [a]) = (k.after actions).act a := k.after_append actions [a]

/-- What every action keeps holds at every moment. -/
theorem after_keeps {P : Contest → Prop} (step : ∀ k a, P k → P (k.act a)) (h : P k)
    (actions : List Action) : P (k.after actions) := by
  induction actions generalizing k with
  | nil => exact h
  | cons a actions ih => exact ih (step k a h)

/-- Who knows what of the queue. -/
structure Order (k : Contest) : Prop where
  untaken : k.untaken ↔ k.looked = []
  holds (i : Nat) : k.holder = some i → k.callers i = some .waiting
  running (i : Nat) : k.callers i = some .running ↔ k.looked.head? = some i
  refused (i : Nat) : k.callers i = some (.refused .alreadyRunning) ↔ i ∈ k.looked.tail
  fair (i : Nat) (e : ControllerError) : k.callers i = some (.refused e) → e = .alreadyRunning
  once : k.looked.Nodup

theorem Order.unheard (h : Order k) {i : Nat}
    (hi : k.callers i = none ∨ k.callers i = some .waiting) :
    i ∉ k.looked := by
  intro hmem
  have hrunning := h.running i
  have hrefused := h.refused i
  cases hl : k.looked with
  | nil => simp [hl] at hmem
  | cons j r =>
    rw [hl, List.mem_cons] at hmem
    rw [hl] at hrunning hrefused
    rcases hmem with rfl | hmem
    · have hr := hrunning.2 rfl
      rcases hi with hi | hi <;> simp [hi] at hr
    · have hr := hrefused.2 hmem
      rcases hi with hi | hi <;> simp [hi] at hr

theorem Order.call (h : Order k) {i : Nat} (hi : k.callers i = none) :
    Order { k with callers := Function.update k.callers i (some .waiting) } := by
  have hne (j : Nat) (c : Caller) (hc : c ≠ .waiting) :
      Function.update k.callers i (some .waiting) j = some c ↔ k.callers j = some c := by
    by_cases hj : j = i
    · subst hj
      simp [hi, hc.symm]
    · simp [hj]
  refine ⟨h.untaken, fun j hj => ?_, fun j => ?_, fun j => ?_, fun j e he => ?_, h.once⟩
  · by_cases hij : j = i
    · subst hij
      simp
    · simpa [hij] using h.holds j hj
  · exact (hne j _ (by simp)).trans (h.running j)
  · exact (hne j _ (by simp)).trans (h.refused j)
  · exact h.fair j e ((hne j _ (by simp)).1 he)

theorem Order.look (h : Order k) {i : Nat} (hi : k.holder = some i) : Order
    { k with
      untaken := false, holder := none, looked := k.looked ++ [i]
      callers := Function.update k.callers i
        (some (if k.untaken then .running else .refused .alreadyRunning)) } := by
  have hnew : i ∉ k.looked := h.unheard (.inr (h.holds i hi))
  have honce : (k.looked ++ [i]).Nodup := List.nodup_append.2 ⟨h.once, by simp, by grind⟩
  have hother {j : Nat} (hj : j ≠ i) (c : Caller) :
      Function.update k.callers i (some c) j = k.callers j := Function.update_of_ne hj _ _
  have hrunning := h.running
  have hrefused := h.refused
  cases hl : k.looked with
  | nil =>
    have hu : k.untaken = true := h.untaken.2 hl
    rw [hl] at hrunning hrefused
    refine ⟨by simp, nofun, fun j => ?_, fun j => ?_, fun j e he => ?_, by simp⟩
    all_goals by_cases hj : j = i
    · simp [hj, hu]
    · simpa [hother hj, Ne.symm hj] using hrunning j
    · simp [hj, hu]
    · simpa [hother hj] using hrefused j
    · simp [hj, hu] at he
    · exact h.fair j e (by simpa [hother hj] using he)
  | cons first r =>
    have hu : k.untaken = false := by simpa [hl] using h.untaken
    have hfirst : first ≠ i := by
      rintro rfl
      exact hnew (by simp [hl])
    rw [hl] at hrunning hrefused
    refine ⟨by simp, nofun, fun j => ?_, fun j => ?_, fun j e he => ?_, hl ▸ honce⟩
    all_goals by_cases hj : j = i
    · simp [hj, hu, hfirst]
    · simpa [hother hj] using hrunning j
    · simp [hj, hu]
    · simpa [hother hj, hj] using hrefused j
    · simpa [hj, hu, eq_comm] using he
    · exact h.fair j e (by simpa [hother hj] using he)

theorem Order.act (h : Order k) (a : Action) : Order (k.act a) := by
  cases a with
  | call i =>
    by_cases hi : k.callers i = none
    · simpa only [Contest.act, if_pos hi] using h.call hi
    · simpa only [Contest.act, if_neg hi] using h
  | lock i =>
    by_cases hi : k.holder = none ∧ k.callers i = some .waiting
    · simp only [Contest.act, if_pos hi]
      refine ⟨h.untaken, ?_, h.running, h.refused, h.fair, h.once⟩
      rintro j ⟨⟩
      exact hi.2
    · simpa only [Contest.act, if_neg hi] using h
  | look i =>
    by_cases hi : k.holder = some i
    · simpa only [Contest.act, if_pos hi] using h.look hi
    · simpa only [Contest.act, if_neg hi] using h
  | move m =>
    by_cases hm : k.permits m
    · simp only [Contest.act, if_pos hm]
      exact ⟨h.untaken, h.holds, h.running, h.refused, h.fair, h.once⟩
    · simpa only [Contest.act, if_neg hm] using h

/-- Whoever takes the queue is the first who looked. -/
theorem Order.takes (h : Order k) {a : Action} {i : Nat} (there : k.untaken)
    (gone : ¬ (k.act a).untaken) (ha : a.caller? = some i) : (k.act a).looked = [i] := by
  cases a with
  | move m => cases ha
  | call j | lock j =>
    simp only [Contest.act] at gone
    split at gone <;> exact absurd there gone
  | look j =>
    obtain rfl := Option.some.inj ha
    simp only [Contest.act] at gone ⊢
    split
    · simp [h.untaken.1 there]
    · rename_i hfree
      exact absurd there (by simpa [hfree] using gone)

theorem after_looked (k : Contest) (actions : List Action) (h : k.looked ≠ []) :
    (k.after actions).looked.head? = k.looked.head? := by
  refine (after_keeps (P := fun k' => k'.looked ≠ [] ∧ k'.looked.head? = k.looked.head?) ?_
    ⟨h, rfl⟩ actions).2
  rintro k' a ⟨hne, hhead⟩
  cases a with
  | call i | lock i =>
    simp only [Contest.act]
    split <;> exact ⟨hne, hhead⟩
  | move m =>
    simp only [Contest.act]
    split <;> exact ⟨hne, hhead⟩
  | look i =>
    simp only [Contest.act]
    split
    · obtain ⟨j, r, hl⟩ := List.exists_cons_of_ne_nil hne
      simp only [hl] at hhead ⊢
      exact ⟨by simp, hhead⟩
    · exact ⟨hne, hhead⟩

theorem after_holder {i : Nat} (untaken : k.untaken) (h : Order k) (holds : k.holder = some i)
    (actions : List Action) {w : Nat} (hw : (k.after actions).looked.head? = some w) : w = i := by
  have hnone : k.looked = [] := h.untaken.1 untaken
  have hkeeps := after_keeps (P := fun k' => k'.looked.head? = some i ∨
    (k'.looked = [] ∧ k'.holder = some i)) ?_ (.inr ⟨hnone, holds⟩) actions
  · rcases hkeeps with hfirst | ⟨hnone, -⟩
    · exact Option.some.inj (hw.symm.trans hfirst)
    · simp [hnone] at hw
  · rintro k' a (hfirst | ⟨hnone, holds⟩)
    · have hne : k'.looked ≠ [] := fun hnil => by simp [hnil] at hfirst
      exact .inl ((k'.after_looked [a] hne).trans hfirst)
    · cases a with
      | call j | move m =>
        simp only [Contest.act]
        split <;> exact .inr ⟨hnone, holds⟩
      | lock j => simpa [act, holds] using .inr hnone
      | look j =>
        simp only [Contest.act]
        split
        · rename_i hj
          obtain rfl := Option.some.inj (holds.symm.trans hj)
          exact .inl (by simp [hnone])
        · exact .inr ⟨hnone, holds⟩

def Action.concerns (winner : Option Nat) (a : Action) : Bool :=
  match a.caller? with
  | some i => winner = some i
  | none => true

/-- Two contests that nobody but losers can tell apart. -/
structure Alike (winner : Option Nat) (k k' : Contest) : Prop where
  scene : k'.scene = k.scene
  moves : k'.moves = k.moves
  answers : k'.answers = k.answers
  untaken : k'.untaken = k.untaken
  winner (i : Nat) : winner = some i → k.untaken → k'.holder = k.holder ∧ k'.callers i = k.callers i

theorem Alike.move {winner : Option Nat} {k k' : Contest} (h : Alike winner k k') (m : Move) :
    Alike winner (k.act (.move m)) (k'.act (.move m)) := by
  have hpermits : k'.permits m = k.permits m := by rw [permits, h.untaken, permits]
  simp only [act, hpermits]
  split
  · exact ⟨by rw [h.scene], by rw [h.moves], by rw [h.answers, answer, h.scene, answer], h.untaken,
      h.winner⟩
  · exact h

/-- A caller has no part in what happens in the scene. -/
theorem act_call (k : Contest) {a : Action} {i : Nat} (ha : a.caller? = some i) :
    (k.act a).scene = k.scene ∧ (k.act a).moves = k.moves ∧ (k.act a).answers = k.answers := by
  cases a with
  | call j | lock j | look j =>
    simp only [act]
    split <;> exact ⟨rfl, rfl, rfl⟩
  | move m => cases ha

theorem act_untaken {a : Action} (h : (k.act a).untaken) : k.untaken := by
  cases a with
  | call j | lock j | move m =>
    simp only [act] at h
    split at h <;> exact h
  | look j =>
    simp only [act] at h
    split at h
    · cases h
    · exact h

theorem Alike.call {i : Nat} {k k' : Contest} (h : Alike (some i) k k') {a : Action}
    (ha : a.caller? = some i) : Alike (some i) (k.act a) (k'.act a) := by
  obtain ⟨hscene, hmoves, hanswers⟩ := k.act_call ha
  obtain ⟨hscene', hmoves', hanswers'⟩ := k'.act_call ha
  have hall : (k'.act a).untaken = (k.act a).untaken ∧ ((k.act a).untaken →
      (k'.act a).holder = (k.act a).holder ∧ (k'.act a).callers i = (k.act a).callers i) := by
    cases hu : k.untaken with
    | false =>
      have hgone : (k.act a).untaken = false :=
        Bool.eq_false_iff.2 fun h => by simp [act_untaken h] at hu
      have hgone' : (k'.act a).untaken = false :=
        Bool.eq_false_iff.2 fun h' => by simp [← h.untaken, act_untaken h'] at hu
      exact ⟨hgone'.trans hgone.symm, fun h => by simp [hgone] at h⟩
    | true =>
      obtain ⟨hholder, hcaller⟩ := h.winner i rfl hu
      cases a with
      | move m => cases ha
      | call j =>
        obtain rfl := Option.some.inj ha
        simp only [act, hcaller]
        split <;> simp [h.untaken, hholder, hcaller]
      | lock j =>
        obtain rfl := Option.some.inj ha
        simp only [act, hholder, hcaller]
        split <;> simp [h.untaken, hholder, hcaller]
      | look j =>
        obtain rfl := Option.some.inj ha
        simp only [act, hholder]
        split <;> simp [h.untaken, hholder, hcaller]
  refine ⟨hscene'.trans (h.scene.trans hscene.symm), hmoves'.trans (h.moves.trans hmoves.symm),
    hanswers'.trans (h.answers.trans hanswers.symm), hall.1, ?_⟩
  rintro j ⟨⟩ hu
  exact hall.2 hu

/-- What a loser does changes nothing, as no loser has the lock while the queue is there. -/
theorem Alike.lose {winner : Option Nat} {k k' : Contest} (h : Alike winner k k') {a : Action}
    {j : Nat} (ha : a.caller? = some j) (hj : winner ≠ some j)
    (holds : ∀ i, winner = some i → (k.act a).untaken → (k.act a).holder ≠ some j)
    (looks : k.untaken → (k.act a).untaken) : Alike winner (k.act a) k' := by
  obtain ⟨hscene, hmoves, hanswers⟩ := k.act_call ha
  have huntaken : k'.untaken = (k.act a).untaken := by
    rw [h.untaken]
    exact Bool.eq_iff_iff.2 ⟨looks, act_untaken⟩
  refine ⟨h.scene.trans hscene.symm, h.moves.trans hmoves.symm, h.answers.trans hanswers.symm,
    huntaken, fun i hi hu => ?_⟩
  have hne : i ≠ j := by
    rintro rfl
    exact hj hi
  obtain ⟨hholder, hcaller⟩ := h.winner i hi (act_untaken hu)
  have hfree := holds i hi hu
  cases a with
  | move m => cases ha
  | call j' =>
    obtain rfl := Option.some.inj ha
    simp only [act]
    split
    · exact ⟨hholder, by simp [hcaller, hne]⟩
    · exact ⟨hholder, hcaller⟩
  | lock j' =>
    obtain rfl := Option.some.inj ha
    simp only [act] at hfree ⊢
    split
    · rename_i hlock
      exact absurd hfree (by simp [hlock])
    · exact ⟨hholder, hcaller⟩
  | look j' =>
    obtain rfl := Option.some.inj ha
    simp only [act] at hu ⊢
    split
    · rename_i hlook
      simp [hlook] at hu
    · exact ⟨hholder, hcaller⟩

theorem alike_after {winner : Option Nat} {k k' : Contest} (h : Alike winner k k') (order : Order k)
    (actions : List Action) (hw : (k.after actions).looked.head? = winner) :
    Alike winner (k.after actions) (k'.after (actions.filter (Action.concerns winner))) := by
  induction actions generalizing k k' with
  | nil => exact h
  | cons a actions ih =>
    have horder := order.act a
    cases hcaller : a.caller? with
    | none =>
      have hkeep : a.concerns winner := by simp [Action.concerns, hcaller]
      rw [List.filter_cons_of_pos hkeep]
      cases a with
      | move m => exact ih (h.move m) horder hw
      | _ => cases hcaller
    | some j =>
      by_cases hj : winner = some j
      · have hkeep : a.concerns winner := by simp [Action.concerns, hcaller, hj]
        rw [List.filter_cons_of_pos hkeep]
        subst hj
        exact ih (h.call hcaller) horder hw
      · have hdrop : ¬ a.concerns winner := by simp [Action.concerns, hcaller, hj]
        rw [List.filter_cons_of_neg hdrop]
        -- Who has the lock while the queue is there is the winner.
        refine ih (h.lose hcaller hj ?_ ?_) horder hw
        · rintro i rfl hu holds
          exact hj (congrArg some (after_holder hu horder holds actions hw))
        · intro hu
          by_contra hgone
          have hlooked := order.takes hu hgone hcaller
          have hfirst := (k.act a).after_looked actions (by simp [hlooked])
          exact hj (hw.symm.trans (hfirst.trans (congrArg List.head? hlooked)))

end Contest

end SearchRelay

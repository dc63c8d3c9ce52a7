import Mathlib.Data.List.Perm.Basic
import Mathlib.Data.List.Count
import Mathlib.Data.List.Pairwise

/-!
Records as forms, filled by members with names: whether a form can be filled, and with what, is
decided neither by the order of the members nor by those with names that it does not know.
-/

namespace SearchRelay

/-- The names that a record knows, those it cannot do without, and what a member does to it. -/
structure Form (τ σ : Type) where
  known : List String
  needed : List String
  effect : String → τ → Option (σ → σ)

namespace Form

variable {τ σ : Type}

def act (form : Form τ σ) (m : Option String × τ) : Option (σ → σ) :=
  m.1.bind fun name => form.effect name m.2

/-- Members fill a form one after the other, and no known name comes twice. -/
def fill (form : Form τ σ) : List (Option String × τ) → List String → σ → Option σ
  | [], seen, value => if form.needed ⊆ seen then some value else none
  | (none, _) :: _, _, _ => none
  | (some name, t) :: r, seen, value =>
    if name ∈ form.known ∧ name ∈ seen then none
    else (form.effect name t).bind fun set => form.fill r (name :: seen) (set value)

def count (name : String) (ms : List (Option String × τ)) : Nat :=
  (ms.map Prod.fst).count (some name)

def run (sets : List (σ → σ)) (value : σ) : σ := sets.foldl (fun v set => set v) value

/-- What it takes to fill a form, in which no order of the members occurs. -/
structure Filled (form : Form τ σ) (ms : List (Option String × τ)) (blank value : σ) : Prop where
  each : ∀ m ∈ ms, (form.act m).isSome
  once : ∀ name ∈ form.known, count name ms ≤ 1
  present : ∀ name ∈ form.needed, 1 ≤ count name ms
  all : run (ms.filterMap form.act) blank = value

variable {form : Form τ σ} {ms ms' : List (Option String × τ)} {blank value : σ}

theorem fill_iff (seen : List String) : form.fill ms seen blank = some value ↔
    (∀ m ∈ ms, (form.act m).isSome) ∧
      (∀ name ∈ form.known, count name ms + (if name ∈ seen then 1 else 0) ≤ 1) ∧
        (∀ name ∈ form.needed, 1 ≤ count name ms + (if name ∈ seen then 1 else 0)) ∧
          run (ms.filterMap form.act) blank = value := by
  induction ms generalizing seen blank with
  | nil =>
    have hcount (name : String) : count name ([] : List (Option String × τ)) = 0 := rfl
    have honce (name : String) : (if name ∈ seen then 1 else 0) ≤ 1 := by split <;> decide
    have hpresent (name : String) : 1 ≤ (if name ∈ seen then 1 else 0) ↔ name ∈ seen := by
      split <;> simp_all
    by_cases h : form.needed ⊆ seen
    · simpa [fill, if_pos h, hcount, honce, hpresent, run] using fun _ name hname => h hname
    · simp only [fill, if_neg h, hcount, Nat.zero_add, hpresent]
      exact ⟨nofun, fun ⟨_, _, hall, _⟩ => (h hall).elim⟩
  | cons m ms ih =>
    obtain ⟨_ | name, t⟩ := m
    · simp [fill, act]
    have hact : form.act (some name, t) = form.effect name t := rfl
    by_cases htwice : name ∈ form.known ∧ name ∈ seen
    · simp only [fill, if_pos htwice]
      refine ⟨nofun, fun ⟨_, honce, _⟩ => ?_⟩
      have hname := honce name htwice.1
      simp [htwice.2, count] at hname
    · cases heffect : form.effect name t with
      | none => simp [fill, heffect, hact]
      | some set =>
        -- The name goes over from those to come to those that were seen, so the sums stay the same.
        have hknown (other : String) (hother : other ∈ form.known) :
            count other ms + (if other ∈ name :: seen then 1 else 0) =
              count other ((some name, t) :: ms) + (if other ∈ seen then 1 else 0) := by
          by_cases hsame : other = name
          · subst hsame
            have hnew : other ∉ seen := fun h => htwice ⟨hother, h⟩
            simp [count, hnew]
          · have hne : ¬ name = other := Ne.symm hsame
            simp [count, hsame, hne]
        have hneeded (other : String) :
            1 ≤ count other ms + (if other ∈ name :: seen then 1 else 0) ↔
              1 ≤ count other ((some name, t) :: ms) + (if other ∈ seen then 1 else 0) := by
          by_cases hsame : other = name
          · subst hsame
            simp [count]
            omega
          · have hne : ¬ name = other := Ne.symm hsame
            simp [count, hsame, hne]
        simp only [fill, if_neg htwice, heffect, Option.bind_some, ih, List.forall_mem_cons, hact,
          Option.isSome_some, true_and, hneeded, run, List.foldl_cons, List.filterMap_cons_some
            (show form.act (some name, t) = some set from heffect)]
        refine and_congr_right fun _ => and_congr_left fun _ => forall₂_congr fun other hother => ?_
        rw [hknown other hother]

theorem fill_nil_iff : form.fill ms [] blank = some value ↔ form.Filled ms blank value := by
  rw [fill_iff]
  simp only [List.not_mem_nil, if_false, Nat.add_zero]
  exact ⟨fun ⟨each, once, present, all⟩ => ⟨each, once, present, all⟩,
    fun ⟨each, once, present, all⟩ => ⟨each, once, present, all⟩⟩

/-- Of the names that came before only the known ones count. -/
theorem fill_congr (needed : form.needed ⊆ form.known) {seen seen' : List String}
    (h : ∀ name ∈ form.known, name ∈ seen ↔ name ∈ seen') :
    form.fill ms seen value = form.fill ms seen' value := by
  induction ms generalizing seen seen' value with
  | nil =>
    have hall : form.needed ⊆ seen ↔ form.needed ⊆ seen' :=
      forall₂_congr fun name hname => h name (needed hname)
    simp only [fill, hall]
  | cons m ms ih =>
    obtain ⟨_ | name, t⟩ := m
    · rfl
    have htwice : (name ∈ form.known ∧ name ∈ seen) ↔ (name ∈ form.known ∧ name ∈ seen') :=
      and_congr_right fun hname => h name hname
    have hmore (v : σ) : form.fill ms (name :: seen) v = form.fill ms (name :: seen') v :=
      ih fun other hother => by simp only [List.mem_cons, h other hother]
    simp only [fill, htwice, hmore]

/-- Members with different names leave each other alone, and members with unknown names do
nothing. -/
structure Apart (form : Form τ σ) : Prop where
  commute {n n' : String} {t t' : τ} {f g : σ → σ} : n ≠ n' → form.effect n t = some f →
    form.effect n' t' = some g → ∀ v, f (g v) = g (f v)
  idle {n : String} {t : τ} {f : σ → σ} : n ∉ form.known → form.effect n t = some f → f = id

abbrev Entry (τ σ : Type) := String × (τ → Option (σ → σ))

namespace Entry

def Commute (f g : Entry τ σ) : Prop :=
  ∀ t t' a b, f.2 t = some a → g.2 t' = some b → ∀ v, a (b v) = b (a v)

instance : Std.Symm (Commute (τ := τ) (σ := σ)) where
  symm _ _ h t t' a b ha hb v := (h t' t b a hb ha v).symm

theorem Commute.of_sets {α β : Type} (n n' : String) {read : τ → Option α}
    {read' : τ → Option β} {set : α → σ → σ} {set' : β → σ → σ}
    (h : ∀ x y v, set x (set' y v) = set' y (set x v)) :
    Commute (n, fun t => (read t).map set) (n', fun t => (read' t).map set') := by
  intro t t' a b ha hb v
  obtain ⟨x, -, rfl⟩ := Option.map_eq_some_iff.1 ha
  obtain ⟨y, -, rfl⟩ := Option.map_eq_some_iff.1 hb
  exact h x y v

end Entry

/-- The form of a record with some fields; members with other names are passed over. -/
def ofFields (fields : List (Entry τ σ)) (needed : List String) : Form τ σ where
  known := fields.map Prod.fst
  needed := needed
  effect name t :=
    match fields.find? fun f => f.1 == name with
    | some f => f.2 t
    | none => some id

section

variable {fields : List (Entry τ σ)} {needed : List String} {name : String}

theorem find?_isSome : (fields.find? fun f => f.1 == name).isSome ↔ name ∈ fields.map Prod.fst := by
  simp [List.find?_isSome]

theorem effect_known {f : Entry τ σ} (known : (fields.find? fun f => f.1 == name) = some f)
    (t : τ) : (ofFields fields needed).effect name t = f.2 t := by
  simp only [ofFields, known]

theorem effect_unknown (unknown : name ∉ fields.map Prod.fst) (t : τ) :
    (ofFields fields needed).effect name t = some id := by
  have hnone : fields.find? (fun f => f.1 == name) = none := by
    rwa [← Option.not_isSome_iff_eq_none, find?_isSome]
  simp only [ofFields, hnone]

theorem apart_ofFields (h : fields.Pairwise Entry.Commute) : (ofFields fields needed).Apart := by
  constructor
  case idle =>
    intro n t f hn hf
    rw [effect_unknown hn] at hf
    exact (Option.some.inj hf).symm
  case commute =>
    intro n n' t t' a b hne ha hb v
    cases hf : fields.find? fun f => f.1 == n with
    | none =>
      have hn : n ∉ fields.map Prod.fst := by simp [← find?_isSome, hf]
      rw [effect_unknown hn] at ha
      obtain rfl := Option.some.inj ha
      rfl
    | some f =>
      cases hg : fields.find? fun f => f.1 == n' with
      | none =>
        have hn' : n' ∉ fields.map Prod.fst := by simp [← find?_isSome, hg]
        rw [effect_unknown hn'] at hb
        obtain rfl := Option.some.inj hb
        rfl
      | some g =>
        rw [effect_known hf] at ha
        rw [effect_known hg] at hb
        have hfg : f ≠ g := by
          rintro rfl
          have hn : f.1 = n := by simpa using List.find?_some hf
          have hn' : f.1 = n' := by simpa using List.find?_some hg
          exact hne (hn.symm.trans hn')
        exact h.forall (List.mem_of_find?_eq_some hf) (List.mem_of_find?_eq_some hg) hfg t t' a b
          ha hb v

end

theorem run_idle {sets : List (σ → σ)} (idle : ∀ f ∈ sets, f = id) (v : σ) : run sets v = v := by
  induction sets with
  | nil => rfl
  | cons f fs ih =>
    rw [run, List.foldl_cons, idle f (by simp)]
    exact ih fun g hg => idle g (by simp [hg])

theorem get_run {α : Type} {get : σ → α} {sets : List (σ → σ)}
    (keeps : ∀ f ∈ sets, ∀ v, get (f v) = get v) (v : σ) : get (run sets v) = get v := by
  induction sets generalizing v with
  | nil => rfl
  | cons f fs ih =>
    rw [run, List.foldl_cons]
    exact (ih (fun g hg => keeps g (by simp [hg])) (f v)).trans (keeps f (by simp) v)

namespace Filled

/-- A name that comes once has one value. -/
theorem same (h : form.Filled ms blank value) {name : String} (hknown : name ∈ form.known)
    {t t' : τ} (ht : (some name, t) ∈ ms) (ht' : (some name, t') ∈ ms) : t = t' := by
  have hone : (ms.filter fun m => m.1 == some name).length ≤ 1 := by
    rw [← List.countP_eq_length_filter]
    refine Nat.le_trans (Nat.le_of_eq ?_) (h.once name hknown)
    rw [count, List.count_eq_countP, List.countP_map]
    rfl
  have hmem {u : τ} (hu : (some name, u) ∈ ms) :
      (some name, u) ∈ ms.filter fun m => m.1 == some name :=
    List.mem_filter.2 ⟨hu, by simp⟩
  generalize (ms.filter fun m => m.1 == some name) = named at hone hmem
  match named, hone with
  | [], _ => exact absurd (hmem ht) (List.not_mem_nil)
  | [m], _ =>
    have hpair := (List.mem_singleton.1 (hmem ht)).trans (List.mem_singleton.1 (hmem ht')).symm
    exact (Prod.mk.inj hpair).2

theorem perm (h : form.Filled ms blank value) (apart : form.Apart) (hperm : ms.Perm ms') :
    form.Filled ms' blank value := by
  have hcount (name : String) : count name ms' = count name ms :=
    ((hperm.map Prod.fst).count_eq _).symm
  refine ⟨fun m hm => h.each m (hperm.mem_iff.2 hm), fun name hname => ?_, fun name hname => ?_, ?_⟩
  · exact hcount name ▸ h.once name hname
  · exact hcount name ▸ h.present name hname
  · rw [← h.all]
    refine ((hperm.filterMap form.act).foldl_eq' (fun f hf g hg v => ?_) blank).symm
    obtain ⟨⟨_ | n, t⟩, hm, hact⟩ := List.mem_filterMap.1 hf
    · cases hact
    obtain ⟨⟨_ | n', t'⟩, hm', hact'⟩ := List.mem_filterMap.1 hg
    · cases hact'
    have hf' : form.effect n t = some f := hact
    have hg' : form.effect n' t' = some g := hact'
    by_cases hsame : n = n'
    · subst hsame
      by_cases hknown : n ∈ form.known
      · obtain rfl := h.same hknown hm hm'
        obtain rfl := Option.some.inj (hf'.symm.trans hg')
        rfl
      · rw [apart.idle hknown hf', apart.idle hknown hg']
    · exact (apart.commute hsame hf' hg' v).symm

theorem append_iff (apart : form.Apart) (needed : form.needed ⊆ form.known)
    {extra : List (Option String × τ)}
    (unknown : ∀ m ∈ extra, ∃ name ∉ form.known, m.1 = some name)
    (each : ∀ m ∈ extra, (form.act m).isSome) :
    form.Filled (ms ++ extra) blank value ↔ form.Filled ms blank value := by
  have hcount (name : String) (hname : name ∈ form.known) :
      count name (ms ++ extra) = count name ms := by
    have hzero : (extra.map Prod.fst).count (some name) = 0 := by
      refine List.count_eq_zero.2 fun hmem => ?_
      obtain ⟨m, hm, hfst⟩ := List.mem_map.1 hmem
      obtain ⟨other, hother, heq⟩ := unknown m hm
      rw [heq, Option.some.injEq] at hfst
      exact hother (hfst ▸ hname)
    rw [count, List.map_append, List.count_append, hzero, Nat.add_zero, count]
  have hrun : run ((ms ++ extra).filterMap form.act) blank = run (ms.filterMap form.act) blank := by
    rw [List.filterMap_append, run, List.foldl_append]
    refine run_idle (fun f hf => ?_) _
    obtain ⟨m, hm, hact⟩ := List.mem_filterMap.1 hf
    obtain ⟨name, hname, hfst⟩ := unknown m hm
    rw [act, hfst, Option.bind_some] at hact
    exact apart.idle hname hact
  constructor
  · rintro ⟨heach, honce, hpresent, hall⟩
    exact ⟨fun m hm => heach m (List.mem_append_left _ hm),
      fun name hname => hcount name hname ▸ honce name hname,
      fun name hname => hcount name (needed hname) ▸ hpresent name hname, hrun.symm.trans hall⟩
  · rintro ⟨heach, honce, hpresent, hall⟩
    exact ⟨List.forall_mem_append.2 ⟨heach, each⟩,
      fun name hname => (hcount name hname).symm ▸ honce name hname,
      fun name hname => (hcount name (needed hname)).symm ▸ hpresent name hname, hrun.trans hall⟩

theorem holds (h : form.Filled ms blank value) (apart : form.Apart) {name : String} {t : τ}
    (hm : (some name, t) ∈ ms) : ∃ set v, form.effect name t = some set ∧ value = set v := by
  obtain ⟨before, after, rfl⟩ := List.append_of_mem hm
  have hlast : (before ++ (some name, t) :: after).Perm (before ++ after ++ [(some name, t)]) :=
    List.perm_middle.trans (List.perm_append_singleton _ _).symm
  obtain ⟨each, -, -, all⟩ := h.perm apart hlast
  obtain ⟨set, hset⟩ := Option.isSome_iff_exists.1 (each (some name, t) (by simp))
  rw [List.filterMap_append, run, List.foldl_append, List.filterMap_cons_some hset,
    List.filterMap_nil, List.foldl_cons, List.foldl_nil] at all
  exact ⟨set, _, hset, all.symm⟩

section

variable {α : Type} {get : σ → α} {name : String}
  (keeps : ∀ other t f, other ≠ name → form.effect other t = some f → ∀ v, get (f v) = get v)

include keeps in
theorem get_of_absent (h : form.Filled ms blank value) (absent : ∀ m ∈ ms, m.1 ≠ some name) :
    get value = get blank := by
  rw [← h.all]
  refine get_run (fun f hf => ?_) blank
  obtain ⟨⟨_ | other, t⟩, hm, hact⟩ := List.mem_filterMap.1 hf
  · cases hact
  · exact keeps other t f (fun hsame => absent _ hm (congrArg some hsame)) hact

include keeps in
theorem get_of_mem (h : form.Filled ms blank value) (known : name ∈ form.known) {t : τ}
    (hm : (some name, t) ∈ ms) :
    ∃ set v, form.effect name t = some set ∧ get value = get (set v) := by
  obtain ⟨set, hset⟩ := Option.isSome_iff_exists.1 (h.each _ hm)
  obtain ⟨before, after, rfl⟩ := List.append_of_mem hm
  have honce := h.once name known
  have hafter : some name ∉ after.map Prod.fst := by
    rw [count, List.map_append, List.map_cons, List.count_append, List.count_cons_self] at honce
    exact fun hmem => absurd (List.count_pos_iff.2 hmem) (by omega)
  refine ⟨set, run (before.filterMap form.act) blank, hset, ?_⟩
  rw [← h.all, List.filterMap_append, List.filterMap_cons_some hset, run, List.foldl_append,
    List.foldl_cons]
  refine get_run (fun f hf => ?_) _
  obtain ⟨⟨_ | other, u⟩, hm', hact⟩ := List.mem_filterMap.1 hf
  · cases hact
  · refine keeps other u f ?_ hact
    rintro rfl
    exact hafter (List.mem_map.2 ⟨_, hm', rfl⟩)

end

end Filled

end Form

end SearchRelay

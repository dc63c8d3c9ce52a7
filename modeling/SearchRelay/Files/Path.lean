namespace SearchRelay

inductive Component
  | root
  | current
  | parent
  | normal (name : String)
  deriving DecidableEq, Repr

namespace Component

def rank : Component → Nat
  | root => 0
  | current => 1
  | parent => 2
  | normal _ => 3

def name : Component → String
  | normal n => n
  | _ => ""

def lt (a b : Component) : Bool :=
  a.rank < b.rank || (a.rank == b.rank && a.name < b.name)

theorem lt_iff {a b : Component} :
    a.lt b ↔ a.rank < b.rank ∨ (a.rank = b.rank ∧ a.name < b.name) := by
  simp [lt]

theorem not_lt_self (a : Component) : ¬ a.lt a := by
  rw [lt_iff]
  rintro (h | ⟨_, h⟩)
  · exact Nat.lt_irrefl _ h
  · exact String.lt_irrefl _ h

theorem lt_trans {a b c : Component} (hab : a.lt b) (hbc : b.lt c) : a.lt c := by
  rw [lt_iff] at hab hbc ⊢
  rcases hab with hab | ⟨hab, nab⟩ <;> rcases hbc with hbc | ⟨hbc, nbc⟩
  · exact .inl (Nat.lt_trans hab hbc)
  · exact .inl (hbc ▸ hab)
  · exact .inl (hab ▸ hbc)
  · exact .inr ⟨hab.trans hbc, String.lt_trans nab nbc⟩

theorem eq_of_rank_of_name {a b : Component} (hr : a.rank = b.rank) (hn : a.name = b.name) :
    a = b := by
  cases a <;> cases b <;> simp_all [rank, name]

theorem eq_of_not_lt {a b : Component} (hab : ¬ a.lt b) (hba : ¬ b.lt a) : a = b := by
  simp only [lt_iff, not_or, not_and, Nat.not_lt] at hab hba
  have hr : a.rank = b.rank := Nat.le_antisymm hba.1 hab.1
  have hn : a.name = b.name :=
    String.le_antisymm (String.not_lt.1 (hba.2 hr.symm)) (String.not_lt.1 (hab.2 hr))
  exact eq_of_rank_of_name hr hn

end Component

abbrev Path := String

namespace Path

def parts (p : Path) : List String := (p.toList.splitOn '/').map String.ofList

def segments (p : Path) : List String := p.parts.filter fun s => !s.isEmpty

def isAbsolute (p : Path) : Bool := p.startsWith "/"

/-- A dot means something at the very start of a path only. -/
def components (p : Path) : List Component :=
  let ofSegment (s : String) : Option Component :=
    if s = "." then none else if s = ".." then some .parent else some (.normal s)
  let steps := p.segments.filterMap ofSegment
  if p.isAbsolute then .root :: steps
  else if p.parts.head? = some "." then .current :: steps
  else steps

def ltComponents : List Component → List Component → Bool
  | _, [] => false
  | [], _ :: _ => true
  | a :: r, b :: s => a.lt b || (a == b && ltComponents r s)

theorem ltComponents_cons {a b : Component} {r s : List Component} :
    ltComponents (a :: r) (b :: s) ↔ a.lt b ∨ (a = b ∧ ltComponents r s) := by
  simp [ltComponents]

theorem not_ltComponents_self (cs : List Component) : ¬ ltComponents cs cs := by
  induction cs with
  | nil => simp [ltComponents]
  | cons a r ih => simp [ltComponents_cons, Component.not_lt_self, ih]

theorem ltComponents_trans {x y z : List Component} (hxy : ltComponents x y)
    (hyz : ltComponents y z) : ltComponents x z := by
  induction x generalizing y z with
  | nil =>
    cases z with
    | nil => cases y <;> simp [ltComponents] at hyz
    | cons c t => rfl
  | cons a r ih =>
    cases y with
    | nil => simp [ltComponents] at hxy
    | cons b s =>
      cases z with
      | nil => simp [ltComponents] at hyz
      | cons c t =>
        rw [ltComponents_cons] at hxy hyz ⊢
        rcases hxy with hxy | ⟨rfl, hxy⟩ <;> rcases hyz with hyz | ⟨rfl, hyz⟩
        · exact .inl (Component.lt_trans hxy hyz)
        · exact .inl hxy
        · exact .inl hyz
        · exact .inr ⟨rfl, ih hxy hyz⟩

theorem eq_of_not_ltComponents {x y : List Component} (hxy : ¬ ltComponents x y)
    (hyx : ¬ ltComponents y x) : x = y := by
  induction x generalizing y with
  | nil =>
    cases y with
    | nil => rfl
    | cons b s => simp [ltComponents] at hxy
  | cons a r ih =>
    cases y with
    | nil => simp [ltComponents] at hyx
    | cons b s =>
      rw [ltComponents_cons, not_or, not_and] at hxy hyx
      have hab : a = b := Component.eq_of_not_lt hxy.1 hyx.1
      rw [hab, ih (hxy.2 hab) (hyx.2 hab.symm)]

def same (p q : Path) : Bool := p.components == q.components

/-- The path of an entry below `p`; a slash is put between only where there is none. -/
def join (p : Path) (below : List String) : Path :=
  p ++ (if p.endsWith "/" then "" else "/") ++ "/".intercalate below

end Path

end SearchRelay

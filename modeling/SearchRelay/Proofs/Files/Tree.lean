import Mathlib.Data.List.Basic
import SearchRelay.Files.FileSystem
import SearchRelay.Proofs.Files.Path

/-!
Trees of files in which every entry has a name of its own. The list of the files below a directory
has just those names that lead to a file, without a link on the way.
-/

namespace SearchRelay

namespace FileNode

inductive Proper : FileNode → Prop
  | file (content : String) : Proper (.file content)
  | link (target : Path) : Proper (.link target)
  | socket : Proper .socket
  | directory {es : Entries} (named : ∀ e ∈ es, Path.IsName e.1)
      (distinct : (es.map Prod.fst).Nodup) (below : ∀ e ∈ es, Proper e.2) : Proper (.directory es)

theorem lookup_eq_some_iff_mem {es : Entries} (h : (es.map Prod.fst).Nodup) {name : String}
    {n : FileNode} : es.lookup name = some n ↔ (name, n) ∈ es := by
  rw [List.lookup_eq_some_iff]
  constructor
  · rintro ⟨before, after, rfl, -⟩
    simp
  · intro hmem
    obtain ⟨before, after, rfl⟩ := List.append_of_mem hmem
    refine ⟨before, after, rfl, fun p hp => bne_iff_ne.2 ?_⟩
    rw [List.map_append, List.map_cons, List.nodup_append] at h
    exact (h.2.2 p.1 (List.mem_map_of_mem hp) name List.mem_cons_self).symm

def Lists (e : String × FileNode) (names : List String) : Prop :=
  ∃ rest, names = e.1 :: rest ∧ ((∃ text, e.2 = .file text) ∧ rest = [] ∨ rest ∈ e.2.files)

theorem mem_filesOf_cons {e : String × FileNode} {r : Entries} {names : List String} :
    names ∈ filesOf (e :: r) ↔ Lists e names ∨ names ∈ filesOf r := by
  obtain ⟨name, n⟩ := e
  cases n <;> simp [filesOf, files, Lists, eq_comm, and_comm]

theorem mem_filesOf {es : Entries} {names : List String} :
    names ∈ filesOf es ↔ ∃ e ∈ es, Lists e names := by
  induction es with
  | nil => simp [filesOf]
  | cons e r ih => rw [mem_filesOf_cons, ih, List.exists_mem_cons_iff]

variable {n : FileNode} {names : List String}

theorem mem_files (h : n.Proper) :
    names ∈ n.files ↔ names ≠ [] ∧ ∃ text, n.at? names = some (.file text) := by
  induction h generalizing names with
  | directory named distinct below ih =>
    rename_i es
    rw [files, mem_filesOf]
    constructor
    · rintro ⟨⟨name, n⟩, hmem, rest, rfl, hrest⟩
      have hat : (directory es).at? (name :: rest) = n.at? rest := by
        simp [at?, child?, entries, (lookup_eq_some_iff_mem distinct).2 hmem]
      rw [hat]
      refine ⟨List.cons_ne_nil _ _, ?_⟩
      rcases hrest with ⟨⟨text, rfl⟩, rfl⟩ | hrest
      · exact ⟨text, rfl⟩
      · exact ((ih _ hmem).1 hrest).2
    · rintro ⟨hne, text, hat⟩
      obtain ⟨name, rest, rfl⟩ := List.exists_cons_of_ne_nil hne
      obtain ⟨n, hn, hrest⟩ := Option.bind_eq_some_iff.1 hat
      have hmem := (lookup_eq_some_iff_mem distinct).1 hn
      refine ⟨(name, n), hmem, rest, rfl, ?_⟩
      by_cases hnil : rest = []
      · subst hnil
        exact .inl ⟨⟨text, Option.some.inj hrest⟩, rfl⟩
      · exact .inr ((ih _ hmem).2 ⟨hnil, text, hrest⟩)
  | _ =>
    refine ⟨fun hmem => (nomatch hmem), ?_⟩
    rintro ⟨hne, text, hat⟩
    obtain ⟨name, rest, rfl⟩ := List.exists_cons_of_ne_nil hne
    cases hat

theorem Proper.child? (h : n.Proper) {name : String} (hchild : n.child? name = some m) :
    Path.IsName name ∧ m.Proper := by
  cases h with
  | directory named distinct below =>
    have hmem := (lookup_eq_some_iff_mem distinct).1 hchild
    exact ⟨named _ hmem, below _ hmem⟩
  | _ => cases hchild

theorem Proper.at? (h : n.Proper) (hat : n.at? names = some m) :
    (∀ name ∈ names, Path.IsName name) ∧ m.Proper := by
  induction names generalizing n with
  | nil =>
    obtain rfl := Option.some.inj hat
    exact ⟨List.forall_mem_nil _, h⟩
  | cons name names ih =>
    obtain ⟨c, hc, hrest⟩ := Option.bind_eq_some_iff.1 hat
    obtain ⟨hname, hproper⟩ := h.child? hc
    obtain ⟨hnames, hm⟩ := ih hproper hrest
    exact ⟨List.forall_mem_cons.2 ⟨hname, hnames⟩, hm⟩

theorem Proper.setEntry (h : n.Proper) {name : String} (hname : Path.IsName name)
    {o : Option FileNode} (ho : ∀ m ∈ o, m.Proper) :
    (FileNode.directory (FileNode.setEntry n.entries name o)).Proper := by
  obtain ⟨named, distinct, below⟩ : (∀ e ∈ n.entries, Path.IsName e.1) ∧
      (n.entries.map Prod.fst).Nodup ∧ ∀ e ∈ n.entries, e.2.Proper := by
    cases h with
    | directory named distinct below => exact ⟨named, distinct, below⟩
    | _ => simp [entries]
  have hsub : (n.entries.filter fun e => e.1 != name).Sublist n.entries := List.filter_sublist
  have hdistinct := distinct.sublist (hsub.map Prod.fst)
  cases o with
  | none =>
    exact .directory (fun e he => named e (hsub.subset he)) hdistinct
      fun e he => below e (hsub.subset he)
  | some m =>
    simp only [FileNode.setEntry]
    refine .directory ?_ ?_ ?_
    · rw [List.forall_mem_append]
      exact ⟨fun e he => named e (hsub.subset he), by simpa using hname⟩
    · rw [List.map_append, List.nodup_append]
      refine ⟨hdistinct, List.pairwise_singleton _ _, ?_⟩
      intro a ha b hb
      obtain ⟨e, he, rfl⟩ := List.mem_map.1 ha
      obtain rfl := List.mem_singleton.1 hb
      simpa using (List.mem_filter.1 he).2
    · rw [List.forall_mem_append]
      exact ⟨fun e he => below e (hsub.subset he), by simpa using ho m rfl⟩

/-- A tree stays proper when what stands at some names is put in or taken away. -/
theorem Proper.update (h : n.Proper) {o : Option FileNode} (ho : ∀ m ∈ o, m.Proper)
    (hnames : ∀ name ∈ names, Path.IsName name) : (n.update (fun _ => o) names).Proper := by
  fun_induction FileNode.update (fun _ => o) names n with
  | case1 n =>
    cases o with
    | none => exact h
    | some m => exact ho m rfl
  | case2 name n => exact h.setEntry (hnames _ List.mem_cons_self) ho
  | case3 name rest n _ c hc ih =>
    obtain ⟨hname, hrest⟩ := List.forall_mem_cons.1 hnames
    refine h.setEntry hname fun m hm => ?_
    obtain rfl := Option.some.inj hm
    exact ih (h.child? hc).2 hrest
  | case4 => exact h

end FileNode

namespace FileSystem

variable {fs : FileSystem}

theorem walk_node {follow : Bool} {links : Nat} {here rest : List String} {place : Place}
    (h : fs.walk follow links here rest = .ok place) : place.node = fs.root.at? place.names := by
  fun_induction walk fs follow links here rest with
  | case1 =>
    obtain rfl := Except.ok.inj h
    rfl
  | case5 | case8 | case11 =>
    obtain rfl := Except.ok.inj h
    exact Eq.symm ‹_›
  | case4 | case6 | case9 | case12 => cases h
  | case2 links here r ih | case3 links here r _ ih | case7 links here name r _ _ _ _ _ _ ih
  | case10 here name r _ _ _ _ _ _ _ links ih => exact ih h

theorem place_of_lookup {p : Path} {n : FileNode} (h : fs.lookup p = .ok n) :
    ∃ names, fs.place true p = .ok ⟨names, some n⟩ := by
  simp only [lookup] at h
  split at h
  · cases h
  · rename_i names m hm
    exact ⟨names, Except.ok.inj h ▸ hm⟩
  · cases h

theorem lookup_ok {p : Path} {n : FileNode} (h : fs.lookup p = .ok n) :
    p ≠ "" ∧ ∃ names, fs.root.at? names = some n := by
  obtain ⟨names, hplace⟩ := place_of_lookup h
  simp only [place] at hplace
  split at hplace
  · cases hplace
  · split at hplace
    · cases hplace
    · rename_i hempty
      split at hplace
      · cases hplace
      · split at hplace
        · rename_i place hwalk
          obtain rfl := Except.ok.inj hplace
          exact ⟨by simpa using hempty, names, (walk_node hwalk).symm⟩
        · cases hplace

end FileSystem

end SearchRelay

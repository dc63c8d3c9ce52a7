import SearchRelay.Files.Entry
import SearchRelay.Proofs.Files.Tree

namespace SearchRelay

namespace Path

/-- What stands between the slashes of a path: a name, or dots. -/
def IsSegment (s : String) : Prop := s ≠ "" ∧ '/' ∉ s.toList

theorem not_mem_of_mem_splitOn {c : Char} {cs part : List Char} (h : part ∈ cs.splitOn c) :
    c ∉ part := by
  induction cs generalizing part with
  | nil => simp_all
  | cons x cs ih =>
    rw [List.splitOn_cons_eq_if_modifyHead] at h
    obtain ⟨first, rest, hsplit⟩ := List.exists_cons_of_ne_nil (List.splitOn_ne_nil c cs)
    rw [hsplit] at h ih
    split at h
    · rcases List.mem_cons.1 h with rfl | h
      · exact List.not_mem_nil
      · exact ih h
    · rename_i hx
      rcases List.mem_cons.1 h with rfl | h
      · have hfirst := ih List.mem_cons_self
        rw [List.mem_cons, not_or]
        exact ⟨fun hc => hx (by simp [hc]), hfirst⟩
      · exact ih (List.mem_cons_of_mem _ h)

theorem segments_isSegment (p : Path) : ∀ s ∈ p.segments, IsSegment s := by
  intro s hs
  obtain ⟨hmem, hne⟩ := List.mem_filter.1 hs
  obtain ⟨cs, hcs, rfl⟩ := List.mem_map.1 hmem
  exact ⟨by simpa using hne, by simpa using not_mem_of_mem_splitOn hcs⟩

end Path

theorem FileNode.Proper.nothing : (FileNode.directory []).Proper :=
  .directory (List.forall_mem_nil _) .nil (List.forall_mem_nil _)

namespace FileSystem

structure Proper (fs : FileSystem) : Prop where
  root : fs.root.Proper
  workingDirectory : ∀ name ∈ fs.workingDirectory, Path.IsName name

variable {fs : FileSystem}

theorem pathNames_isSegment (p : Path) : ∀ s ∈ pathNames p, Path.IsSegment s := by
  rw [pathNames, List.forall_mem_append]
  refine ⟨p.segments_isSegment, ?_⟩
  split
  · simp [Path.IsSegment]
  · exact List.forall_mem_nil _

theorem walk_names {follow : Bool} {links : Nat} {here rest : List String} {place : Place}
    (h : fs.walk follow links here rest = .ok place) (hhere : ∀ name ∈ here, Path.IsName name)
    (hrest : ∀ s ∈ rest, Path.IsSegment s) : ∀ name ∈ place.names, Path.IsName name := by
  have step {here rest : List String} {name : String} (hhere : ∀ name ∈ here, Path.IsName name)
      (hrest : ∀ s ∈ name :: rest, Path.IsSegment s) (hcurrent : ¬ name = ".")
      (hparent : ¬ name = "..") : ∀ n ∈ here ++ [name], Path.IsName n := by
    obtain ⟨hne, hslash⟩ := hrest name List.mem_cons_self
    rw [List.forall_mem_append]
    exact ⟨hhere, by simpa using ⟨hne, hslash, hcurrent, hparent⟩⟩
  fun_induction walk fs follow links here rest with
  | case1 =>
    obtain rfl := Except.ok.inj h
    exact hhere
  | case2 links here r ih =>
    exact ih h hhere (List.forall_mem_cons.1 hrest).2
  | case3 links here r _ ih =>
    exact ih h (fun name hname => hhere name (List.dropLast_subset _ hname))
      (List.forall_mem_cons.1 hrest).2
  | case4 | case6 | case9 | case12 => cases h
  | case5 links here name r hcurrent hparent =>
    obtain rfl := Except.ok.inj h
    exact step hhere hrest hcurrent hparent
  | case7 links here name r hcurrent hparent _ _ _ _ ih =>
    exact ih h (step hhere hrest hcurrent hparent) (List.forall_mem_cons.1 hrest).2
  | case8 | case11 =>
    obtain rfl := Except.ok.inj h
    exact step hhere hrest ‹_› ‹_›
  | case10 here name r hcurrent hparent _ _ target _ _ links ih =>
    refine ih h ?_ ?_
    · split
      · exact List.forall_mem_nil _
      · exact hhere
    · rw [List.forall_mem_append]
      exact ⟨pathNames_isSegment target, (List.forall_mem_cons.1 hrest).2⟩

theorem Proper.place_names (h : fs.Proper) {follow : Bool} {p : Path} {place : Place}
    (hplace : fs.place follow p = .ok place) : ∀ name ∈ place.names, Path.IsName name := by
  simp only [FileSystem.place] at hplace
  split at hplace
  · cases hplace
  · split at hplace
    · cases hplace
    · split at hplace
      · cases hplace
      · split at hplace
        · rename_i hwalk
          obtain rfl := Except.ok.inj hplace
          refine walk_names hwalk ?_ (pathNames_isSegment p)
          split
          · exact List.forall_mem_nil _
          · exact h.workingDirectory
        · cases hplace

theorem Proper.setAt (h : fs.Proper) {names : List String} {o : Option FileNode}
    (hnames : ∀ name ∈ names, Path.IsName name) (ho : ∀ m ∈ o, m.Proper) :
    (fs.setAt names o).Proper :=
  ⟨h.root.update ho hnames, h.workingDirectory⟩

theorem Proper.write (h : fs.Proper) (p : Path) (text : String) : (fs.write p text).Proper := by
  have hfile : ∀ m ∈ some (FileNode.file text), m.Proper := by simpa using .file text
  unfold FileSystem.write
  split
  · split
    · exact h
    · exact h.setAt (h.place_names ‹_›) hfile
  · exact h.setAt (h.place_names ‹_›) hfile
  · exact h

theorem Proper.create (h : fs.Proper) (p : Path) {n : FileNode} (hn : n.Proper) :
    (fs.create p n).Proper := by
  unfold FileSystem.create
  split
  · exact h.setAt (h.place_names ‹_›) (by simpa using hn)
  · exact h

theorem Proper.makeDirectories (h : fs.Proper) (ps : List Path) :
    (fs.makeDirectories ps).1.Proper := by
  induction ps generalizing fs with
  | nil => exact h
  | cons p r ih =>
    have hmade : (fs.create p (.directory [])).Proper := h.create p .nothing
    simp only [FileSystem.makeDirectories]
    split
    · exact ih h
    · split
      · exact ih hmade
      · exact h

theorem Proper.withParents (h : fs.Proper) (p : Path) {act : FileSystem → FileSystem}
    (hact : ∀ fs : FileSystem, fs.Proper → (act fs).Proper) : (fs.withParents p act).Proper := by
  have hmade := h.makeDirectories (ancestors p).dropLast
  unfold FileSystem.withParents
  split
  rename_i heq
  rw [heq] at hmade
  split
  · exact hact _ hmade
  · exact hmade

theorem Proper.remove (h : fs.Proper) (p : Path) : (fs.remove p).Proper := by
  unfold FileSystem.remove
  split
  · split
    · exact h.setAt (h.place_names ‹_›) (by simpa using .nothing)
    · split
      · exact h
      · exact h.setAt (h.place_names ‹_›) (by simp)
  · exact h

theorem empty_proper : empty.Proper := by
  have hname {name : String} {n : FileNode} (hname : Path.IsName name) (hn : n.Proper) :
      (FileNode.directory [(name, n)]).Proper :=
    .directory (by simpa using hname) (by simp) (by simpa using hn)
  have htmp : Path.IsName "tmp" := ⟨by decide, by decide, by decide, by decide⟩
  have hrelay : Path.IsName "relay" := ⟨by decide, by decide, by decide, by decide⟩
  exact ⟨hname htmp (hname hrelay .nothing), by simpa [empty] using ⟨htmp, hrelay⟩⟩

end FileSystem

namespace TreeChange

theorem apply_proper {fs : FileSystem} (h : fs.Proper) (change : TreeChange) :
    (change.apply fs).Proper := by
  cases change with
  | write p text => exact h.withParents p fun fs h => h.write p text
  | makeDirectory p => exact h.makeDirectories _
  | link p target =>
    simp only [apply]
    refine h.withParents p fun fs h => ?_
    split
    · exact h
    · exact h.create p (.link target)
  | socket p =>
    simp only [apply]
    split
    · exact h
    · exact h.withParents p fun fs h => h.create p .socket
  | remove p => exact h.remove p
  | skip => exact h

/-- Whatever changes are made, one after another, the tree is a proper one. -/
theorem applyAll_proper {fs : FileSystem} (h : fs.Proper) (changes : List TreeChange) :
    (applyAll fs changes).Proper :=
  List.foldlRecOn changes apply h fun _ h change _ => apply_proper h change

end TreeChange

end SearchRelay

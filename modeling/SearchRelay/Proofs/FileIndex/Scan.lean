import SearchRelay.Proofs.FileIndex
import SearchRelay.Proofs.Files.Change
import SearchRelay.Proofs.Files.Resolution

/-!
What a scan finds. Below a root that leads to a directory these are just the files that are reached
through directories and have none of the masks in their path. One root is passed over: the one that
is called like the standard input.
-/

namespace SearchRelay

namespace FileIndex

/-- A path is kept when no other one has its steps. -/
theorem mem_insertSorted_iff {p x : Path} {ps : List Path}
    (hp : ∀ q ∈ ps, q.components = p.components → q = p) :
    x ∈ insertSorted p ps ↔ x = p ∨ x ∈ ps := by
  refine ⟨mem_insertSorted, ?_⟩
  induction ps with
  | nil => simp [insertSorted]
  | cons q r ih =>
    intro hx
    simp only [insertSorted]
    split
    · simpa using hx
    · rename_i hpq
      split
      · have := ih (fun s hs => hp s (List.mem_cons_of_mem _ hs))
        rcases hx with rfl | hx
        · exact List.mem_cons_of_mem _ (this (.inl rfl))
        · rcases List.mem_cons.1 hx with rfl | hx
          · exact List.mem_cons_self
          · exact List.mem_cons_of_mem _ (this (.inr hx))
      · rename_i hqp
        have hq : q = p := hp q List.mem_cons_self (Path.eq_of_not_ltComponents hqp hpq)
        rcases hx with rfl | hx
        · simp [hq]
        · exact hx

theorem mem_ofPaths {paths : List Path} {x : Path}
    (hinj : ∀ p ∈ paths, ∀ q ∈ paths, p.components = q.components → p = q) :
    x ∈ (ofPaths paths).files ↔ x ∈ paths := by
  suffices ∀ i : FileIndex, (∀ p ∈ i.files, ∀ q ∈ paths, p.components = q.components → p = q) →
      (x ∈ (paths.foldl insert i).files ↔ x ∈ i.files ∨ x ∈ paths) from
    (this ∅ fun p hp => nomatch hp).trans (or_iff_right List.not_mem_nil)
  intro i hi
  induction paths generalizing i with
  | nil => simp
  | cons p ps ih =>
    have hput {y : Path} : y ∈ (i.insert p).files ↔ y = p ∨ y ∈ i.files :=
      mem_insertSorted_iff fun q hq => hi q hq p List.mem_cons_self
    rw [List.foldl_cons, ih, hput, List.mem_cons]
    · tauto
    · exact fun a ha b hb => hinj a (List.mem_cons_of_mem _ ha) b (List.mem_cons_of_mem _ hb)
    · intro a ha b hb
      rcases hput.1 ha with rfl | ha
      · exact hinj a List.mem_cons_self b (List.mem_cons_of_mem _ hb)
      · exact hi a ha b (List.mem_cons_of_mem _ hb)

theorem isMasked_iff {masks : List String} {p : Path} :
    isMasked masks p ↔ ∃ m ∈ masks, m.toList <:+: p.toList := by
  simp [isMasked, Text.occurs_iff]

/-- A regular file that is reached from a directory through directories, and none of the masks
stands anywhere in its path, what leads to the directory included. -/
def IsFound (n : FileNode) (root : Path) (masks : List String) (p : Path) : Prop :=
  ∃ names text, n.at? names = some (.file text) ∧ p = root.join names ∧
    ∀ m ∈ masks, ¬ m.toList <:+: p.toList

variable {fs : FileSystem} {root : Path} {masks : List String} {n : FileNode}

theorem scan_missing (h : ∀ n, fs.lookup root ≠ .ok n) :
    scan fs root masks = .error (.rootNotFound root) := by
  unfold scan
  split
  · rfl
  · exact absurd ‹_› (h _)

theorem scan_of_lookup (h : fs.lookup root = .ok n) :
    scan fs root masks =
      if !n.isDirectory then .error (.rootNotDirectory root)
      else if root.components = standardInput then .ok ∅
      else .ok (ofPaths ((n.files.map root.join).filter fun p => !isMasked masks p)) := by
  rw [scan, h]

theorem mem_files_iff (hn : n.Proper) (hdir : n.isDirectory) {names : List String} :
    names ∈ n.files ↔ ∃ text, n.at? names = some (.file text) := by
  rw [FileNode.mem_files hn, and_iff_right_iff_imp]
  rintro ⟨text, htext⟩ rfl
  obtain rfl := Option.some.inj htext
  cases hdir

theorem scan_found (hfs : fs.root.Proper) (h : fs.lookup root = .ok n) (hdir : n.isDirectory)
    (hroot : root.components ≠ standardInput) (masks : List String) :
    ∃ i, scan fs root masks = .ok i ∧ ∀ p, p ∈ i.files ↔ IsFound n root masks p := by
  obtain ⟨hne, above, habove⟩ := FileSystem.lookup_ok h
  have hn : n.Proper := (hfs.at? habove).2
  have hnames {names : List String} (hmem : names ∈ n.files) :
      names ≠ [] ∧ ∀ name ∈ names, Path.IsName name := by
    obtain ⟨hne, text, htext⟩ := (FileNode.mem_files hn).1 hmem
    exact ⟨hne, (hn.at? htext).1⟩
  refine ⟨_, by rw [scan_of_lookup h, hdir, if_neg (by decide), if_neg hroot], fun p => ?_⟩
  rw [mem_ofPaths]
  · simp only [List.mem_filter, List.mem_map, mem_files_iff hn hdir, Bool.not_eq_true',
      ← Bool.not_eq_true, isMasked_iff, IsFound]
    constructor
    · rintro ⟨⟨names, ⟨text, htext⟩, rfl⟩, hmasks⟩
      exact ⟨names, text, htext, rfl, fun m hm hin => hmasks ⟨m, hm, hin⟩⟩
    · rintro ⟨names, text, htext, rfl, hmasks⟩
      exact ⟨⟨names, ⟨text, htext⟩, rfl⟩, fun ⟨m, hm, hin⟩ => hmasks m hm hin⟩
  · intro p hp q hq heq
    obtain ⟨names, hnames₁, rfl⟩ := List.mem_map.1 (List.mem_filter.1 hp).1
    obtain ⟨more, hmore, rfl⟩ := List.mem_map.1 (List.mem_filter.1 hq).1
    obtain ⟨hne₁, hproper₁⟩ := hnames hnames₁
    obtain ⟨hne₂, hproper₂⟩ := hnames hmore
    rw [Path.join_injective hne hproper₁ hne₁ hproper₂ hne₂ heq]

/-- What a scan of a root comes to, whatever the masks are. -/
structure ScanIsWhole (fs : FileSystem) (root : Path) : Prop where
  missing : (∀ n, fs.lookup root ≠ .ok n) →
    ∀ masks, scan fs root masks = .error (.rootNotFound root)
  notDirectory : ∀ n, fs.lookup root = .ok n → n.isDirectory = false →
    ∀ masks, scan fs root masks = .error (.rootNotDirectory root)
  /-- Every file and nothing else, for every root but one. -/
  found : ∀ n, fs.lookup root = .ok n → n.isDirectory → root.components ≠ standardInput →
    ∀ masks, ∃ i, scan fs root masks = .ok i ∧ ∀ p, p ∈ i.files ↔ IsFound n root masks p
  passedOver : ∀ n, fs.lookup root = .ok n → n.isDirectory → root.components = standardInput →
    ∀ masks, scan fs root masks = .ok ∅
  both : ∀ {masks more i j}, scan fs root masks = .ok i → scan fs root more = .ok j →
    ∃ k, scan fs root (masks ++ more) = .ok k ∧ ∀ p, p ∈ k.files ↔ p ∈ i.files ∧ p ∈ j.files
  nothing : ∀ n, fs.lookup root = .ok n → n.isDirectory → ∀ masks, "" ∈ masks →
    scan fs root masks = .ok ∅

theorem scan_of_ok {i : FileIndex} (h : scan fs root masks = .ok i) :
    ∃ n, fs.lookup root = .ok n ∧ n.isDirectory := by
  unfold scan at h
  split at h
  · cases h
  · rename_i n hn
    split at h
    · cases h
    · rename_i hdir
      exact ⟨n, hn, by simpa using hdir⟩

theorem scan_append {more : List String} {i j : FileIndex} (hfs : fs.root.Proper)
    (hi : scan fs root masks = .ok i) (hj : scan fs root more = .ok j) :
    ∃ k, scan fs root (masks ++ more) = .ok k ∧
      ∀ p, p ∈ k.files ↔ p ∈ i.files ∧ p ∈ j.files := by
  obtain ⟨n, hn, hdir⟩ := scan_of_ok hi
  by_cases hroot : root.components = standardInput
  · have hall (masks : List String) : scan fs root masks = .ok ∅ := by
      rw [scan_of_lookup hn, hdir, if_neg (by decide), if_pos hroot]
    rw [hall] at hi hj
    obtain rfl := Except.ok.inj hi
    obtain rfl := Except.ok.inj hj
    exact ⟨∅, hall _, fun p => (and_self_iff).symm⟩
  · have hall := scan_found hfs hn hdir hroot
    obtain ⟨_, hi', hfi⟩ := hall masks
    obtain ⟨_, hj', hfj⟩ := hall more
    obtain ⟨k, hk, hfk⟩ := hall (masks ++ more)
    obtain rfl := Except.ok.inj (hi.symm.trans hi')
    obtain rfl := Except.ok.inj (hj.symm.trans hj')
    refine ⟨k, hk, fun p => ?_⟩
    rw [hfk, hfi, hfj]
    constructor
    · rintro ⟨names, text, htext, rfl, hmasks⟩
      obtain ⟨hm, hm'⟩ := List.forall_mem_append.1 hmasks
      exact ⟨⟨names, text, htext, rfl, hm⟩, names, text, htext, rfl, hm'⟩
    · rintro ⟨⟨names, text, htext, rfl, hm⟩, -, -, -, -, hm'⟩
      exact ⟨names, text, htext, rfl, List.forall_mem_append.2 ⟨hm, hm'⟩⟩

theorem scan_of_empty_mask (hn : fs.lookup root = .ok n) (hdir : n.isDirectory)
    (hmask : "" ∈ masks) : scan fs root masks = .ok ∅ := by
  have hnone : ((n.files.map root.join).filter fun p => !isMasked masks p) = [] := by
    rw [List.filter_eq_nil_iff]
    intro p _
    have : isMasked masks p := isMasked_iff.2 ⟨"", hmask, by simp⟩
    simp [this]
  rw [scan_of_lookup hn, hdir, if_neg (by decide), hnone]
  split <;> rfl

theorem scan_isWhole (fs : FileSystem) (root : Path) (hfs : fs.root.Proper) :
    ScanIsWhole fs root where
  missing h _ := scan_missing h
  notDirectory n hn hdir _ := by rw [scan_of_lookup hn, hdir]; rfl
  found n hn hdir hroot := scan_found hfs hn hdir hroot
  passedOver n hn hdir hroot _ := by
    rw [scan_of_lookup hn, hdir, if_neg (by decide), if_pos hroot]
  both hi hj := scan_append hfs hi hj
  nothing n hn hdir _ hmask := scan_of_empty_mask hn hdir hmask

/-- A directory with a hidden file, a link to what is above, a link to itself and a socket. -/
def linkedTree : FileSystem :=
  TreeChange.applyAll .empty
    [.write "data/.a" "", .link "data/b" "..", .link "data/c" "c", .socket "data/d"]

theorem scan_linkedTree_isWhole : linkedTree.root.Proper ∧ ScanIsWhole linkedTree "data" :=
  have h := (TreeChange.applyAll_proper FileSystem.empty_proper _).root
  ⟨h, scan_isWhole linkedTree "data" h⟩

def dashTree : FileSystem := ⟨.directory [("-", .directory [("a", .file "")])], []⟩

/-- The file is there, and no mask is against it, but the scan is over before it begins. -/
theorem scan_passes_over_dash :
    ∃ n, dashTree.lookup "-" = .ok n ∧ n.isDirectory ∧ IsFound n "-" [] "-/a" ∧
      scan dashTree "-" [] = .ok ∅ := by
  have hlookup : dashTree.lookup "-" = .ok (.directory [("a", .file "")]) := by
    refine FileSystem.lookup_ok_iff.2 ⟨by decide +kernel, by decide, by decide +kernel, 0,
      Nat.zero_le _, ?_⟩
    have hnames : FileSystem.pathNames "-" = ["-"] := by decide +kernel
    have hrelative : Path.isAbsolute "-" = false := by decide +kernel
    rw [hnames, hrelative, if_neg Bool.false_ne_true]
    exact .into (by decide) (by decide) rfl (.here rfl)
  refine ⟨_, hlookup, rfl, ⟨["a"], "", rfl, by decide +kernel, List.forall_mem_nil _⟩, ?_⟩
  rw [scan_of_lookup hlookup, if_neg (by decide), if_pos (by decide +kernel)]

end FileIndex

end SearchRelay

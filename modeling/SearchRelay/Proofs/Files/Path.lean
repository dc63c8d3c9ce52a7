import Mathlib.Data.List.Basic
import SearchRelay.Files.Path

namespace SearchRelay.Path

structure IsName (name : String) : Prop where
  nonempty : name ≠ ""
  unsplit : '/' ∉ name.toList
  notCurrent : name ≠ "."
  notParent : name ≠ ".."

theorem endsWith_slash_iff {p : Path} : p.endsWith "/" ↔ ∃ cs, p.toList = cs ++ ['/'] := by
  have hsuffix : p.endsWith "/" ↔ ['/'] <:+ p.toList := by simp [← String.endsWith_toSlice]
  rw [hsuffix, List.IsSuffix]
  simp only [eq_comm]

section

variable {root : Path} {names : List String}

theorem splitOn_intercalate (hnames : ∀ n ∈ names, IsName n) (hne : names ≠ []) :
    ("/".intercalate names).toList.splitOn '/' = names.map String.toList := by
  rw [String.toList_intercalate]
  refine List.splitOn_intercalate '/' ?_ (by simpa using hne)
  intro l hl
  obtain ⟨n, hn, rfl⟩ := List.mem_map.1 hl
  exact (hnames n hn).unsplit

/-- A slash at the end of the path above is not repeated. -/
theorem parts_join (root : Path) (hnames : ∀ n ∈ names, IsName n) (hne : names ≠ []) :
    ∃ above, above ≠ [] ∧ (root.parts = above ∨ root.parts = above ++ [""]) ∧
      (root.join names).parts = above ++ names := by
  have hsplit := splitOn_intercalate hnames hne
  have hback : (names.map String.toList).map String.ofList = names := by simp
  by_cases hend : root.endsWith "/"
  · obtain ⟨cs, hcs⟩ := endsWith_slash_iff.1 hend
    have hjoin : (root.join names).toList = cs ++ '/' :: ("/".intercalate names).toList := by
      simp [join, hend, hcs]
    refine ⟨(cs.splitOn '/').map String.ofList, by simp [List.splitOn_ne_nil], .inr ?_, ?_⟩
    · rw [parts, hcs, List.splitOn_append_cons_self, List.map_append]
      rfl
    · rw [parts, hjoin, List.splitOn_append_cons_self, List.map_append, hsplit, hback]
  · have hjoin : (root.join names).toList =
        root.toList ++ '/' :: ("/".intercalate names).toList := by
      simp [join, hend]
    refine ⟨root.parts, by simp [parts, List.splitOn_ne_nil], .inl rfl, ?_⟩
    rw [parts, hjoin, List.splitOn_append_cons_self, List.map_append, hsplit, hback, parts]

theorem segments_join (hnames : ∀ n ∈ names, IsName n) (hne : names ≠ []) :
    (root.join names).segments = root.segments ++ names := by
  obtain ⟨above, -, hroot, hjoin⟩ := parts_join root hnames hne
  have hall : (names.filter fun s => !s.isEmpty) = names :=
    List.filter_eq_self.2 fun n hn => by simpa using (hnames n hn).nonempty
  rw [segments, segments, hjoin, List.filter_append, hall]
  rcases hroot with hroot | hroot <;> simp [hroot]

theorem head?_parts_join (hnames : ∀ n ∈ names, IsName n) (hne : names ≠ []) :
    (root.join names).parts.head? = root.parts.head? := by
  obtain ⟨above, habove, hroot, hjoin⟩ := parts_join root hnames hne
  obtain ⟨first, rest, rfl⟩ := List.exists_cons_of_ne_nil habove
  rw [hjoin]
  rcases hroot with hroot | hroot <;> rw [hroot] <;> rfl

theorem isAbsolute_join (hroot : root ≠ "") (names : List String) :
    (root.join names).isAbsolute = root.isAbsolute := by
  obtain ⟨c, cs, hcs⟩ := List.exists_cons_of_ne_nil (mt String.toList_eq_nil_iff.1 hroot)
  have hfirst {p : Path} {cs : List Char} (h : p.toList = c :: cs) :
      p.isAbsolute = decide (c = '/') := by
    rw [Bool.eq_iff_iff, isAbsolute, String.startsWith_string_iff, h]
    simp [eq_comm]
  have hjoin : ∃ more, (root.join names).toList = c :: more := by
    rw [join, String.toList_append, String.toList_append, hcs]
    exact ⟨_, rfl⟩
  obtain ⟨more, hmore⟩ := hjoin
  rw [hfirst hcs, hfirst hmore]

theorem components_join (hroot : root ≠ "") (hnames : ∀ n ∈ names, IsName n) (hne : names ≠ []) :
    (root.join names).components = root.components ++ names.map .normal := by
  have hsteps {step : String → Option Component}
      (hstep : ∀ n ∈ names, step n = some (.normal n)) :
      names.filterMap step = names.map .normal := by
    rw [← List.filterMap_eq_map']
    exact List.filterMap_congr hstep
  simp only [components, isAbsolute_join hroot, segments_join hnames hne,
    head?_parts_join hnames hne, List.filterMap_append]
  rw [hsteps fun n hn => by rw [if_neg (hnames n hn).notCurrent, if_neg (hnames n hn).notParent]]
  split
  · rfl
  · split <;> rfl

/-- Entries of different names have different steps. -/
theorem join_injective (hroot : root ≠ "") {more : List String}
    (hnames : ∀ n ∈ names, IsName n) (hne : names ≠ []) (hmore : ∀ n ∈ more, IsName n)
    (hne' : more ≠ []) (h : (root.join names).components = (root.join more).components) :
    names = more := by
  rw [components_join hroot hnames hne, components_join hroot hmore hne'] at h
  exact (List.map_inj_right fun _ _ => Component.normal.inj).1 (List.append_cancel_left h)

end

end SearchRelay.Path

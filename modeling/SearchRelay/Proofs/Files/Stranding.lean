import SearchRelay.Proofs.Files.Resolution

namespace SearchRelay.FileSystem

/-- From a directory and with so many links left, names lead nowhere. -/
inductive Strands (fs : FileSystem) : Nat → List String → List String → Errno → Prop
  | lost {k : Nat} {dir : List String} (nothing : fs.root.at? dir = none) :
      Strands fs k dir [] .notFound
  | stay {k : Nat} {dir more : List String} {e : Errno} (rest : Strands fs k dir more e) :
      Strands fs k dir ("." :: more) e
  | back {k : Nat} {dir more : List String} {e : Errno} (rest : Strands fs k dir.dropLast more e) :
      Strands fs k dir (".." :: more) e
  | tooLong {k : Nat} {dir more : List String} {name : String} (own : name ≠ "." ∧ name ≠ "..")
      (long : maxNameLength < name.utf8ByteSize) : Strands fs k dir (name :: more) .nameTooLong
  | missing {k : Nat} {dir more : List String} {name : String} (own : name ≠ "." ∧ name ≠ "..")
      (short : name.utf8ByteSize ≤ maxNameLength) (nothing : fs.root.at? (dir ++ [name]) = none) :
      Strands fs k dir (name :: more) .notFound
  | into {k : Nat} {dir more : List String} {name : String} {entries : FileNode.Entries} {e : Errno}
      (own : name ≠ "." ∧ name ≠ "..") (short : name.utf8ByteSize ≤ maxNameLength)
      (there : fs.root.at? (dir ++ [name]) = some (.directory entries))
      (rest : Strands fs k (dir ++ [name]) more e) : Strands fs k dir (name :: more) e
  | through {k : Nat} {dir more : List String} {name : String} {target : Path} {e : Errno}
      (own : name ≠ "." ∧ name ≠ "..") (short : name.utf8ByteSize ≤ maxNameLength)
      (there : fs.root.at? (dir ++ [name]) = some (.link target))
      (rest : Strands fs k (if target.isAbsolute then [] else dir) (pathNames target ++ more) e) :
      Strands fs (k + 1) dir (name :: more) e
  | worn {dir more : List String} {name : String} {target : Path} (own : name ≠ "." ∧ name ≠ "..")
      (short : name.utf8ByteSize ≤ maxNameLength)
      (there : fs.root.at? (dir ++ [name]) = some (.link target)) :
      Strands fs 0 dir (name :: more) .tooManyLinks
  | blocked {k : Nat} {dir more : List String} {name : String} {n : FileNode}
      (own : name ≠ "." ∧ name ≠ "..") (short : name.utf8ByteSize ≤ maxNameLength)
      (there : fs.root.at? (dir ++ [name]) = some n)
      (noDirectory : ∀ entries, n ≠ .directory entries) (noLink : ∀ target, n ≠ .link target)
      (goesOn : more ≠ []) : Strands fs k dir (name :: more) .notDirectory

/-- Why a path resolves to nothing. One that the system never sees is refused before any walk. -/
inductive Unresolved (fs : FileSystem) (p : Path) : IoError → Prop
  | nul (nul : '\x00' ∈ p.toList) : Unresolved fs p .nulInPath
  | empty (empty : p = "") : Unresolved fs p (.system .notFound)
  | long (noNul : '\x00' ∉ p.toList) (long : maxPathLength < p.utf8ByteSize) :
      Unresolved fs p (.system .nameTooLong)
  | strands {e : Errno} (noNul : '\x00' ∉ p.toList) (notEmpty : p ≠ "")
      (short : p.utf8ByteSize ≤ maxPathLength)
      (strands : fs.Strands maxLinks (if p.isAbsolute then [] else fs.workingDirectory)
        (pathNames p) e) : Unresolved fs p (.system e)

def Misses (r : Except Errno Place) (e : Errno) : Prop :=
  r = .error e ∨ e = .notFound ∧ ∃ place, r = .ok place ∧ place.node = none

theorem misses_error {e e' : Errno} : Misses (.error e') e ↔ e' = e := by
  simp [Misses]

theorem misses_ok {place : Place} {e : Errno} :
    Misses (.ok place) e ↔ e = .notFound ∧ place.node = none := by
  simp [Misses]

variable {fs : FileSystem} {here names : List String} {links : Nat} {e : Errno} {p : Path}

theorem strands_of_walk (h : Misses (fs.walk true links here names) e) :
    fs.Strands links here names e := by
  fun_induction walk fs true links here names with
  | case1 links here =>
    obtain ⟨rfl, hnone⟩ := misses_ok.1 h
    exact .lost hnone
  | case2 links here r ih => exact .stay (ih h)
  | case3 links here r _ ih => exact .back (ih h)
  | case4 links here name r hdot hdots hlong =>
    obtain rfl := misses_error.1 h
    exact .tooLong ⟨hdot, hdots⟩ hlong
  | case5 links here name r hdot hdots hlong there hnone hlast =>
    obtain ⟨rfl, -⟩ := misses_ok.1 h
    exact .missing ⟨hdot, hdots⟩ (Nat.le_of_not_lt hlong) hnone
  | case6 links here name r hdot hdots hlong there hnone hmore =>
    obtain rfl := misses_error.1 h
    exact .missing ⟨hdot, hdots⟩ (Nat.le_of_not_lt hlong) hnone
  | case7 links here name r hdot hdots hlong there entries hthere ih =>
    exact .into ⟨hdot, hdots⟩ (Nat.le_of_not_lt hlong) hthere (ih h)
  | case8 => simp at *
  | case9 here name r hdot hdots hlong there target hthere _ =>
    obtain rfl := misses_error.1 h
    exact .worn ⟨hdot, hdots⟩ (Nat.le_of_not_lt hlong) hthere
  | case10 here name r hdot hdots hlong there target hthere _ links ih =>
    exact .through ⟨hdot, hdots⟩ (Nat.le_of_not_lt hlong) hthere (ih h)
  | case11 =>
    obtain ⟨-, hnone⟩ := misses_ok.1 h
    cases hnone
  | case12 links here name r hdot hdots hlong there m hdirectory hlink hthere hmore =>
    obtain rfl := misses_error.1 h
    exact .blocked ⟨hdot, hdots⟩ (Nat.le_of_not_lt hlong) hthere hdirectory hlink
      (by simpa using hmore)

theorem walk_of_strands (h : fs.Strands links here names e) :
    Misses (fs.walk true links here names) e := by
  induction h with
  | lost nothing =>
    rw [walk]
    exact misses_ok.2 ⟨rfl, nothing⟩
  | stay rest ih =>
    rw [walk, if_pos rfl]
    exact ih
  | back rest ih =>
    rw [walk, if_neg (by decide), if_pos rfl]
    exact ih
  | tooLong own long =>
    rw [walk, if_neg own.1, if_neg own.2, if_pos long]
    exact misses_error.2 rfl
  | @missing _ _ more _ own short nothing =>
    rw [walk, if_neg own.1, if_neg own.2, if_neg (Nat.not_lt.2 short)]
    simp only [nothing]
    cases more with
    | nil => exact misses_ok.2 ⟨rfl, rfl⟩
    | cons name more => exact misses_error.2 rfl
  | into own short there rest ih =>
    rw [walk, if_neg own.1, if_neg own.2, if_neg (Nat.not_lt.2 short)]
    simp only [there]
    exact ih
  | through own short there rest ih =>
    rw [walk, if_neg own.1, if_neg own.2, if_neg (Nat.not_lt.2 short)]
    simp only [there, Bool.not_true, Bool.and_false, Bool.false_eq_true, if_false]
    exact ih
  | worn own short there =>
    rw [walk, if_neg own.1, if_neg own.2, if_neg (Nat.not_lt.2 short)]
    simp only [there, Bool.not_true, Bool.and_false, Bool.false_eq_true, if_false]
    exact misses_error.2 rfl
  | @blocked _ _ more _ n own short there noDirectory noLink goesOn =>
    have hmore : more.isEmpty = false := by simpa using goesOn
    rw [walk, if_neg own.1, if_neg own.2, if_neg (Nat.not_lt.2 short)]
    cases n with
    | directory entries => exact absurd rfl (noDirectory entries)
    | link target => exact absurd rfl (noLink target)
    | _ =>
      simp only [there, hmore, Bool.false_eq_true, if_false]
      exact misses_error.2 rfl

theorem lookup_of_walk {e : IoError} (noNul : '\x00' ∉ p.toList) (notEmpty : p ≠ "")
    (short : p.utf8ByteSize ≤ maxPathLength) : fs.lookup p = .error e ↔
      ∃ why, Misses (fs.walk true maxLinks (if p.isAbsolute then [] else fs.workingDirectory)
        (pathNames p)) why ∧ e = .system why := by
  have hnul : p.toList.contains '\x00' = false := by simpa using noNul
  have hempty : p.isEmpty = false := by simpa using notEmpty
  simp only [lookup, place, hnul, hempty, Nat.not_lt.2 short, if_false, Bool.false_eq_true]
  cases fs.walk true maxLinks _ (pathNames p) with
  | error why => simp [misses_error, eq_comm]
  | ok place =>
    obtain ⟨names, _ | n⟩ := place
    · simp [misses_ok, eq_comm]
    · simp [misses_ok]

theorem Unresolved.lookup_eq {e : IoError} (h : fs.Unresolved p e) : fs.lookup p = .error e := by
  cases h with
  | nul nul => simp only [lookup, place, List.contains_iff_mem.2 nul, if_true]
  | empty empty =>
    subst empty
    rfl
  | long noNul long =>
    have hnul : p.toList.contains '\x00' = false := by simpa using noNul
    have hempty : p.isEmpty = false := by
      have hne : p ≠ "" := by
        rintro rfl
        cases long
      simpa using hne
    simp only [lookup, place, hnul, hempty, long, if_false, if_true, Bool.false_eq_true]
  | strands noNul notEmpty short strands =>
    exact (lookup_of_walk noNul notEmpty short).2 ⟨_, walk_of_strands strands, rfl⟩

/-- A path fails to be looked up for one of these reasons, and for no other. -/
theorem lookup_error_iff {e : IoError} : fs.lookup p = .error e ↔ fs.Unresolved p e := by
  refine ⟨fun h => ?_, Unresolved.lookup_eq⟩
  have same {e' : IoError} (h' : fs.Unresolved p e') : fs.Unresolved p e :=
    Except.error.inj (h'.lookup_eq.symm.trans h) ▸ h'
  by_cases hnul : '\x00' ∈ p.toList
  · exact same (.nul hnul)
  by_cases hempty : p = ""
  · exact same (.empty hempty)
  by_cases hlong : maxPathLength < p.utf8ByteSize
  · exact same (.long hnul hlong)
  · have hshort := Nat.le_of_not_lt hlong
    obtain ⟨why, hwalk, rfl⟩ := (lookup_of_walk hnul hempty hshort).1 h
    exact .strands hnul hempty hshort (strands_of_walk hwalk)

theorem Unresolved.unique {e e' : IoError} (h : fs.Unresolved p e) (h' : fs.Unresolved p e') :
    e = e' :=
  Except.error.inj (h.lookup_eq.symm.trans h'.lookup_eq)

theorem Unresolved.not_resolves {e : IoError} {n : FileNode} (h : fs.Unresolved p e) :
    ¬ fs.Resolves p n :=
  fun hn => nomatch h.lookup_eq.symm.trans (lookup_ok_iff.2 hn)

/-- Links of one directory that lead to each other are followed until there were too many. -/
theorem strands_of_ring {dir : List String} {ring : String → Prop}
    (links : ∀ name, ring name → (name ≠ "." ∧ name ≠ "..") ∧
      name.utf8ByteSize ≤ maxNameLength ∧ ∃ target next, ring next ∧
        fs.root.at? (dir ++ [name]) = some (.link target) ∧ target.isAbsolute = false ∧
          pathNames target = [next])
    {name : String} (h : ring name) (k : Nat) (more : List String) :
    fs.Strands k dir (name :: more) .tooManyLinks := by
  induction k generalizing name with
  | zero =>
    obtain ⟨own, short, target, next, -, there, -⟩ := links name h
    exact .worn own short there
  | succ k ih =>
    obtain ⟨own, short, target, next, hnext, there, hrelative, hnames⟩ := links name h
    refine .through own short there ?_
    rw [hrelative, if_neg Bool.false_ne_true, hnames]
    exact ih hnext

end SearchRelay.FileSystem

import SearchRelay.Proofs.Files.Tree

namespace SearchRelay.FileSystem

/-- From a directory, names lead to a node through so many links. -/
inductive Leads (fs : FileSystem) : Nat → List String → List String → FileNode → Prop
  | here {dir : List String} {n : FileNode} (there : fs.root.at? dir = some n) :
      Leads fs 0 dir [] n
  | stay {k : Nat} {dir more : List String} {n : FileNode} (rest : Leads fs k dir more n) :
      Leads fs k dir ("." :: more) n
  | back {k : Nat} {dir more : List String} {n : FileNode} (rest : Leads fs k dir.dropLast more n) :
      Leads fs k dir (".." :: more) n
  | into {k : Nat} {dir more : List String} {name : String} {entries : FileNode.Entries}
      {n : FileNode} (own : name ≠ "." ∧ name ≠ "..") (short : name.utf8ByteSize ≤ maxNameLength)
      (there : fs.root.at? (dir ++ [name]) = some (.directory entries))
      (rest : Leads fs k (dir ++ [name]) more n) : Leads fs k dir (name :: more) n
  | through {k : Nat} {dir more : List String} {name : String} {target : Path} {n : FileNode}
      (own : name ≠ "." ∧ name ≠ "..") (short : name.utf8ByteSize ≤ maxNameLength)
      (there : fs.root.at? (dir ++ [name]) = some (.link target))
      (rest : Leads fs k (if target.isAbsolute then [] else dir) (pathNames target ++ more) n) :
      Leads fs (k + 1) dir (name :: more) n
  | last {dir : List String} {name : String} {n : FileNode} (own : name ≠ "." ∧ name ≠ "..")
      (short : name.utf8ByteSize ≤ maxNameLength) (there : fs.root.at? (dir ++ [name]) = some n)
      (noDirectory : ∀ entries, n ≠ .directory entries) (noLink : ∀ target, n ≠ .link target) :
      Leads fs 0 dir [name] n

variable {fs : FileSystem} {here names : List String} {links : Nat} {n : FileNode} {p : Path}

theorem leads_of_walk {place : Place} (h : fs.walk true links here names = .ok place)
    (hn : place.node = some n) : ∃ k ≤ links, fs.Leads k here names n := by
  fun_induction walk fs true links here names with
  | case1 links here =>
    obtain rfl := Except.ok.inj h
    exact ⟨0, Nat.zero_le _, .here hn⟩
  | case2 links here r ih =>
    obtain ⟨k, hk, rest⟩ := ih h
    exact ⟨k, hk, .stay rest⟩
  | case3 links here r _ ih =>
    obtain ⟨k, hk, rest⟩ := ih h
    exact ⟨k, hk, .back rest⟩
  | case4 | case6 | case9 | case12 => cases h
  | case5 =>
    obtain rfl := Except.ok.inj h
    cases hn
  | case7 links here name r hdot hdots hlong there entries hthere ih =>
    obtain ⟨k, hk, rest⟩ := ih h
    exact ⟨k, hk, .into ⟨hdot, hdots⟩ (Nat.le_of_not_lt hlong) hthere rest⟩
  | case8 => simp at *
  | case10 here name r hdot hdots hlong there target hthere _ links ih =>
    obtain ⟨k, hk, rest⟩ := ih h
    exact ⟨k + 1, Nat.succ_le_succ hk, .through ⟨hdot, hdots⟩ (Nat.le_of_not_lt hlong) hthere rest⟩
  | case11 links here name r hdot hdots hlong there m hdirectory hlink hthere hlast =>
    obtain rfl := Except.ok.inj h
    obtain rfl := Option.some.inj hn
    obtain rfl := List.isEmpty_iff.1 hlast
    exact ⟨0, Nat.zero_le _, .last ⟨hdot, hdots⟩ (Nat.le_of_not_lt hlong) hthere hdirectory hlink⟩

theorem walk_of_leads {k : Nat} (h : fs.Leads k here names n) (hk : k ≤ links) :
    ∃ place, fs.walk true links here names = .ok place ∧ place.node = some n := by
  induction h generalizing links with
  | here there =>
    rw [walk]
    exact ⟨_, rfl, there⟩
  | stay rest ih =>
    rw [walk, if_pos rfl]
    exact ih hk
  | back rest ih =>
    rw [walk, if_neg (by decide), if_pos rfl]
    exact ih hk
  | into own short there rest ih =>
    rw [walk, if_neg own.1, if_neg own.2, if_neg (Nat.not_lt.2 short)]
    simp only [there]
    exact ih hk
  | through own short there rest ih =>
    obtain ⟨links, rfl⟩ := Nat.exists_eq_add_of_le' (Nat.le_of_add_left_le hk)
    rw [walk, if_neg own.1, if_neg own.2, if_neg (Nat.not_lt.2 short)]
    simp only [there, Bool.not_true, Bool.and_false, Bool.false_eq_true, if_false]
    exact ih (Nat.le_of_succ_le_succ hk)
  | @last dir name n own short there noDirectory noLink =>
    rw [walk, if_neg own.1, if_neg own.2, if_neg (Nat.not_lt.2 short)]
    cases n with
    | file text => exact ⟨⟨_, _⟩, by simp only [there]; rfl, rfl⟩
    | directory entries => exact absurd rfl (noDirectory entries)
    | link target => exact absurd rfl (noLink target)
    | socket => exact ⟨⟨_, _⟩, by simp only [there]; rfl, rfl⟩

/-- A path resolves to a node: it can be asked for, and few enough links are on the way. -/
structure Resolves (fs : FileSystem) (p : Path) (n : FileNode) : Prop where
  noNul : '\x00' ∉ p.toList
  notEmpty : p ≠ ""
  short : p.utf8ByteSize ≤ maxPathLength
  leads : ∃ k ≤ maxLinks,
    fs.Leads k (if p.isAbsolute then [] else fs.workingDirectory) (pathNames p) n

theorem lookup_ok_iff : fs.lookup p = .ok n ↔ fs.Resolves p n := by
  constructor
  · intro h
    obtain ⟨names, hplace⟩ := place_of_lookup h
    simp only [place] at hplace
    split at hplace
    · cases hplace
    rename_i hnul
    split at hplace
    · cases hplace
    rename_i hempty
    split at hplace
    · cases hplace
    rename_i hshort
    split at hplace
    · rename_i found hwalk
      obtain rfl := Except.ok.inj hplace
      exact ⟨by simpa using hnul, by simpa using hempty, Nat.le_of_not_lt hshort,
        leads_of_walk hwalk rfl⟩
    · cases hplace
  · rintro ⟨noNul, notEmpty, short, k, hk, leads⟩
    obtain ⟨⟨names, _⟩, hwalk, rfl⟩ := walk_of_leads leads hk
    have hplace : fs.place true p = .ok ⟨names, some n⟩ := by
      have hnul : p.toList.contains '\x00' = false := by simpa using noNul
      have hempty : p.isEmpty = false := by simpa using notEmpty
      simp only [place, hnul, hempty, Nat.not_lt.2 short, hwalk, if_false, Bool.false_eq_true]
    rw [lookup, hplace]

theorem Resolves.unique {m : FileNode} (h : fs.Resolves p n) (h' : fs.Resolves p m) : n = m :=
  Except.ok.inj ((lookup_ok_iff.2 h).symm.trans (lookup_ok_iff.2 h'))

end SearchRelay.FileSystem

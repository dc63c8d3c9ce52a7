import SearchRelay.Controller.Basic
import SearchRelay.Text.Occurrence

namespace SearchRelay

/-- The paths of the files that were found, each once, in order. -/
structure FileIndex where
  files : List Path
  ascending : files.Pairwise fun p q => Path.ltComponents p.components q.components
  deriving DecidableEq, Repr

namespace FileIndex

abbrev Key := List Component

def keys (i : FileIndex) : List Key := i.files.map Path.components

instance : EmptyCollection FileIndex := ⟨⟨[], .nil⟩⟩

/-- Puts a path in its place; of paths with the same steps the first stays. -/
def insertSorted (p : Path) : List Path → List Path
  | [] => [p]
  | q :: r =>
    if Path.ltComponents p.components q.components then p :: q :: r
    else if Path.ltComponents q.components p.components then q :: insertSorted p r
    else q :: r

theorem mem_insertSorted {p x : Path} {ps : List Path} (h : x ∈ insertSorted p ps) :
    x = p ∨ x ∈ ps := by
  induction ps with
  | nil => simpa [insertSorted] using h
  | cons q r ih =>
    simp only [insertSorted] at h
    split at h
    · simpa using h
    · split at h
      · rcases List.mem_cons.1 h with rfl | h
        · simp
        · rcases ih h with rfl | h <;> simp [*]
      · exact .inr h

theorem insertSorted_ascending (p : Path) {ps : List Path}
    (h : ps.Pairwise fun p q => Path.ltComponents p.components q.components) :
    (insertSorted p ps).Pairwise fun p q => Path.ltComponents p.components q.components := by
  induction ps with
  | nil => simp [insertSorted]
  | cons q r ih =>
    obtain ⟨hq, hr⟩ := List.pairwise_cons.1 h
    simp only [insertSorted]
    split
    · rename_i hpq
      refine List.pairwise_cons.2 ⟨?_, h⟩
      intro x hx
      rcases List.mem_cons.1 hx with rfl | hx
      · exact hpq
      · exact Path.ltComponents_trans hpq (hq x hx)
    · split
      · rename_i hqp
        refine List.pairwise_cons.2 ⟨?_, ih hr⟩
        intro x hx
        rcases mem_insertSorted hx with rfl | hx
        · exact hqp
        · exact hq x hx
      · exact h

def insert (i : FileIndex) (p : Path) : FileIndex :=
  ⟨insertSorted p i.files, insertSorted_ascending p i.ascending⟩

def ofPaths (paths : List Path) : FileIndex := paths.foldl insert ∅

def isMasked (masks : List String) (p : Path) : Bool :=
  masks.any fun m => Text.occurs m.toList p.toList

/-- The root that stands for the standard input, in which there are no files. -/
def standardInput : Key := [.normal "-"]

/-- Finds every regular file below a root whose path contains no mask. -/
def scan (fs : FileSystem) (root : Path) (masks : List String) : Except ControllerError FileIndex :=
  match fs.lookup root with
  | .error _ => .error (.rootNotFound root)
  | .ok n =>
    if !n.isDirectory then .error (.rootNotDirectory root)
    else if root.components = standardInput then .ok ∅
    else .ok (ofPaths ((n.files.map (Path.join root)).filter fun p => !isMasked masks p))

def size (i : FileIndex) : Nat := i.files.length

def contains (i : FileIndex) (p : Path) : Bool := i.keys.contains p.components

def same (i j : FileIndex) : Bool := i.keys == j.keys

def countMissing (ks other : List Key) : Nat := (ks.filter fun k => !other.contains k).length

def diff (old new : FileIndex) : IndexUpdate :=
  let (a, b) := (old.keys, new.keys)
  ⟨new.size, countMissing b a, countMissing a b⟩

end FileIndex

end SearchRelay

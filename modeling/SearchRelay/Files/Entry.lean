import SearchRelay.Files.FileSystem

namespace SearchRelay

inductive TreeChange
  | write (path : Path) (text : String)
  | makeDirectory (path : Path)
  | link (path : Path) (target : Path)
  | socket (path : Path)
  | remove (path : Path)
  /-- An entry that leads out of the tree changes nothing. -/
  | skip
  deriving DecidableEq, Repr

namespace TreeChange

/-- The longest path that a socket can be bound to. -/
abbrev maxSocketPath : Nat := 107

def splitFirst? (mark : List Char) : List Char → List Char → Option (List Char × List Char)
  | acc, [] => if mark.isEmpty then some (acc.reverse, []) else none
  | acc, c :: r =>
    if mark.isPrefixOf (c :: r) then some (acc.reverse, (c :: r).drop mark.length)
    else splitFirst? mark (c :: acc) r

def leavesTree (entry : String) : Bool :=
  entry.startsWith "/" || (entry.splitOn "/").contains ".."

def after? (c : Char) (s : String) : Option String :=
  match s.toList with
  | x :: r => if x = c then some (String.ofList r) else none
  | [] => none

def before? (final s : String) : Option String :=
  let (cs, fs) := (s.toList, final.toList)
  if fs.isSuffixOf cs then some (String.ofList (cs.take (cs.length - fs.length))) else none

/-- `a/b` is an empty file, `a/` a directory, `a -> t` a link, `a|socket` a socket and `!a` no
longer there. -/
def ofEntry (entry : String) : TreeChange :=
  if leavesTree entry then .skip
  else
    match after? '!' entry with
    | some p => .remove p
    | none =>
      match splitFirst? " -> ".toList [] entry.toList with
      | some (p, t) => .link (String.ofList p) (String.ofList t)
      | none =>
        match before? "|socket" entry with
        | some p => .socket p
        | none => if entry.endsWith "/" then .makeDirectory entry else .write entry ""

def ofContent (path text : String) : TreeChange :=
  if leavesTree path then .skip else .write path text

def apply (fs : FileSystem) : TreeChange → FileSystem
  | write p text => fs.withParents p fun fs => fs.write p text
  | makeDirectory p => fs.createDirectory p
  | link p target =>
    fs.withParents p fun fs => if target.isEmpty then fs else fs.create p (.link target)
  | socket p =>
    if maxSocketPath < p.utf8ByteSize then fs
    else fs.withParents p fun fs => fs.create p .socket
  | remove p => fs.remove p
  | skip => fs

def applyAll (fs : FileSystem) (changes : List TreeChange) : FileSystem := changes.foldl apply fs

end TreeChange

end SearchRelay

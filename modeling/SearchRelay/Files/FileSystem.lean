import SearchRelay.Files.Errno
import SearchRelay.Files.Path

namespace SearchRelay

inductive FileNode
  | file (content : String)
  | directory (entries : List (String × FileNode))
  | link (target : Path)
  | socket
  deriving Repr

namespace FileNode

abbrev Entries := List (String × FileNode)

def entries : FileNode → Entries
  | directory es => es
  | _ => []

def isDirectory : FileNode → Bool
  | directory _ => true
  | _ => false

def child? (n : FileNode) (name : String) : Option FileNode := n.entries.lookup name

def setEntry (es : Entries) (name : String) : Option FileNode → Entries
  | none => es.filter fun e => e.1 != name
  | some n => es.filter (fun e => e.1 != name) ++ [(name, n)]

def at? (n : FileNode) : List String → Option FileNode
  | [] => some n
  | name :: r => (n.child? name).bind fun c => c.at? r

def update (f : Option FileNode → Option FileNode) : List String → FileNode → FileNode
  | [], n => (f (some n)).getD n
  | [name], n => .directory (setEntry n.entries name (f (n.child? name)))
  | name :: r, n =>
    match n.child? name with
    | some c => .directory (setEntry n.entries name (some (update f r c)))
    | none => n

mutual

/-- The regular files below a directory, as chains of names. Links are not followed. -/
def files : FileNode → List (List String)
  | .directory es => filesOf es
  | _ => []

def filesOf : List (String × FileNode) → List (List String)
  | [] => []
  | (name, .file _) :: r => [name] :: filesOf r
  | (name, n) :: r => n.files.map (name :: ·) ++ filesOf r

end

end FileNode

structure FileSystem where
  root : FileNode
  /-- The working directory, as a chain of names from the root. -/
  workingDirectory : List String
  deriving Repr

namespace FileSystem

def empty : FileSystem :=
  ⟨.directory [("tmp", .directory [("relay", .directory [])])], ["tmp", "relay"]⟩

abbrev maxNameLength : Nat := 255
abbrev maxPathLength : Nat := 4095
abbrev maxLinks : Nat := 40

/-- The names of a path; a slash at its end asks for a directory like a dot. -/
def pathNames (p : Path) : List String :=
  p.segments ++ (if p.endsWith "/" then ["."] else [])

/-- Where a path leads: a chain of names from the root, and what stands there, if anything. -/
structure Place where
  names : List String
  node : Option FileNode

/-- Walks names from a directory. With `follow` a link at the very end is followed too. -/
def walk (fs : FileSystem) (follow : Bool) (links : Nat) (here : List String) :
    List String → Except Errno Place
  | [] => .ok ⟨here, fs.root.at? here⟩
  | name :: r =>
    if name = "." then walk fs follow links here r
    else if name = ".." then walk fs follow links here.dropLast r
    else if maxNameLength < name.utf8ByteSize then .error .nameTooLong
    else
      let there := here ++ [name]
      match fs.root.at? there with
      | none => if r.isEmpty then .ok ⟨there, none⟩ else .error .notFound
      | some (.directory _) => walk fs follow links there r
      | some (.link target) =>
        if r.isEmpty && !follow then .ok ⟨there, some (.link target)⟩
        else
          match links with
          | 0 => .error .tooManyLinks
          | links + 1 =>
            walk fs follow links (if target.isAbsolute then [] else here) (pathNames target ++ r)
      | some n => if r.isEmpty then .ok ⟨there, some n⟩ else .error .notDirectory
termination_by r => (links, r.length)

def place (fs : FileSystem) (follow : Bool) (p : Path) : Except IoError Place :=
  if p.toList.contains '\x00' then .error .nulInPath
  else if p.isEmpty then .error (.system .notFound)
  else if maxPathLength < p.utf8ByteSize then .error (.system .nameTooLong)
  else
    let here := if p.isAbsolute then [] else fs.workingDirectory
    match fs.walk follow maxLinks here (pathNames p) with
    | .ok place => .ok place
    | .error e => .error (.system e)

def lookup (fs : FileSystem) (p : Path) : Except IoError FileNode :=
  match fs.place true p with
  | .error e => .error e
  | .ok ⟨_, some n⟩ => .ok n
  | .ok ⟨_, none⟩ => .error (.system .notFound)

def exists? (fs : FileSystem) (p : Path) : Bool := (fs.lookup p).toOption.isSome

def isDirectory (fs : FileSystem) (p : Path) : Bool :=
  (fs.lookup p).toOption.any FileNode.isDirectory

def read (fs : FileSystem) (p : Path) : Except IoError String :=
  match fs.lookup p with
  | .error e => .error e
  | .ok (.file text) => .ok text
  | .ok (.directory _) => .error (.system .isDirectory)
  | .ok _ => .error (.system .noDevice)

def setAt (fs : FileSystem) (names : List String) (n : Option FileNode) : FileSystem :=
  { fs with root := fs.root.update (fun _ => n) names }

/-- Writes a file, through links; nothing happens where that cannot be done. -/
def write (fs : FileSystem) (p : Path) (text : String) : FileSystem :=
  match fs.place true p with
  | .ok ⟨names, none⟩ => if p.endsWith "/" then fs else fs.setAt names (some (.file text))
  | .ok ⟨names, some (.file _)⟩ => fs.setAt names (some (.file text))
  | _ => fs

def create (fs : FileSystem) (p : Path) (n : FileNode) : FileSystem :=
  match fs.place false p with
  | .ok ⟨names, none⟩ => fs.setAt names (some n)
  | _ => fs

def ancestors (p : Path) : List Path :=
  let start := if p.isAbsolute then "/" else ""
  (p.segments.foldl
    (fun (acc : List Path × Path) s =>
      let q := if acc.2.isEmpty || acc.2 == "/" then acc.2 ++ s else acc.2 ++ "/" ++ s
      (acc.1 ++ [q], q))
    ([], start)).1

def makeDirectories (fs : FileSystem) : List Path → FileSystem × Bool
  | [] => (fs, true)
  | p :: r =>
    if fs.isDirectory p then makeDirectories fs r
    else
      let made := fs.create p (.directory [])
      if made.isDirectory p then makeDirectories made r else (fs, false)

def createDirectory (fs : FileSystem) (p : Path) : FileSystem :=
  (fs.makeDirectories (ancestors p)).1

/-- Makes the parents of a path, then does something if they are there. -/
def withParents (fs : FileSystem) (p : Path) (act : FileSystem → FileSystem) : FileSystem :=
  let (fs, ok) := fs.makeDirectories (ancestors p).dropLast
  if ok then act fs else fs

/-- Removes a file or a link, or a directory with all that is in it. The working directory itself
stays. -/
def remove (fs : FileSystem) (p : Path) : FileSystem :=
  match fs.place false p with
  | .ok ⟨names, some _⟩ =>
    if names = fs.workingDirectory then fs.setAt names (some (.directory []))
    else if names.isEmpty then fs
    else fs.setAt names none
  | _ => fs

end FileSystem

end SearchRelay

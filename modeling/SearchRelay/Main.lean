import SearchRelay.Files.Entry
import SearchRelay.Transcript

namespace SearchRelay.Main

def readText? (path : Path) : IO (Option String) := do
  try
    pure (some (← IO.FS.readFile path))
  catch _ => pure none

/-- The changes that make the tree below a directory, links left out. -/
partial def changesBelow (path : Path) : IO (List TreeChange) := do
  let entries ← (← IO.FS.realPath path).readDir
  let below ← entries.toList.mapM fun entry => do
    let there := Path.join path [entry.fileName]
    match (← entry.path.symlinkMetadata).type with
    | .dir => changesBelow there
    | .file => pure [.write there ""]
    | _ => pure []
  pure (.makeDirectory path :: below.flatten)

def changesAt (path : Path) : IO (List TreeChange) := do
  try
    changesBelow path
  catch _ =>
    match ← readText? path with
    | some _ => pure [.write path ""]
    | none => pure []

def files (arguments : List String) (lookup : String → Option String) : IO FileSystem := do
  let config : List TreeChange ← (
    match Transcript.configPath? arguments with
    | none => pure []
    | some path => do
      match ← readText? path with
      | some text => pure [TreeChange.write path text]
      | none => pure [])
  let fs := TreeChange.applyAll .empty config
  match Transcript.searchRoot? arguments fs lookup with
  | none => pure fs
  | some root => pure (TreeChange.applyAll fs (← changesAt root))

def environment : IO Environment := do
  let found ← Transcript.variableNames.mapM fun name => do
    pure ((← IO.getEnv name).map fun value => (name, value))
  pure (found.filterMap id)

end SearchRelay.Main

open SearchRelay in
def main (arguments : List String) : IO UInt32 := do
  let lookup := Environment.get? (← SearchRelay.Main.environment)
  let files ← SearchRelay.Main.files arguments lookup
  let told := Transcript.ofArguments arguments { files } {} lookup
  told.logs.forM fun r => IO.println r.line
  IO.print told.stdout
  IO.eprint told.stderr
  pure told.exit.toUInt32

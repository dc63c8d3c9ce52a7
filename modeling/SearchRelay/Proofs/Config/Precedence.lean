import SearchRelay.Config.Source
import SearchRelay.Proofs.Files.Resolution
import SearchRelay.Proofs.Yaml.Comments

namespace SearchRelay

open Yaml (CommentOnly)

namespace Config

/-- A text that leaves every field at its default: a blank one, or comments behind spaces. -/
def SaysNothing (text : String) : Prop :=
  Text.isAllBlank text ∨
    CommentOnly (· = ' ') text ∧ ∀ c ∈ text.toList, Yaml.Document.isAllowed c

theorem read_of_saysNothing {text : String} (h : SaysNothing text) :
    Config.read text = .ok {} := by
  by_cases hblank : Text.isAllBlank text
  · rw [Config.read, if_pos hblank]
  · obtain ⟨comments, allowed⟩ := h.resolve_left hblank
    rw [Config.read, if_neg hblank, Yaml.Decoder.run, Yaml.ofString_comments comments allowed]
    rfl

end Config

inductive FromFile (fs : FileSystem) (env : String → Option String) (path : Path) :
    Except ConfigError LoadedConfig → Prop
  | loaded {text : String} {base : Config} (there : fs.Resolves path (.file text))
      (parsed : Config.read text = .ok base) :
      FromFile fs env path (.ok ⟨(base.override env).1, .file path, (base.override env).2⟩)
  | malformed {text : String} {e : Yaml.Error} (there : fs.Resolves path (.file text))
      (refused : Config.read text = .error e) : FromFile fs env path (.error (.yaml e))
  | directory {entries : FileNode.Entries} (there : fs.Resolves path (.directory entries)) :
      FromFile fs env path (.error (.io (.system .isDirectory)))
  | special {n : FileNode} (there : fs.Resolves path n) (noFile : ∀ text, n ≠ .file text)
      (noDirectory : ∀ entries, n ≠ .directory entries) :
      FromFile fs env path (.error (.io (.system .noDevice)))
  | unresolved {e : IoError} (missing : ∀ n, ¬ fs.Resolves path n)
      (why : fs.lookup path = .error e) : FromFile fs env path (.error (.io e))

namespace CommandLine

open Config (usualPath SaysNothing)

/-- Where a configuration comes from, for one tree of files and one environment. -/
structure SourceDecides (fs : FileSystem) (env : String → Option String) : Prop where
  named {c : CommandLine} {path : Path} : c.config = some path →
    FromFile fs env path (c.loadConfig fs env)
  usual {c : CommandLine} {n : FileNode} : c.config = none → fs.Resolves usualPath n →
    FromFile fs env usualPath (c.loadConfig fs env)
  defaults {c : CommandLine} : c.config = none → (∀ n, ¬ fs.Resolves usualPath n) →
    c.loadConfig fs env =
      .ok ⟨(({} : Config).override env).1, .defaults, (({} : Config).override env).2⟩
  silent {c : CommandLine} {text : String} : c.config = none →
    fs.Resolves usualPath (.file text) → SaysNothing text →
      c.loadConfig fs env =
        .ok ⟨(({} : Config).override env).1, .file usualPath, (({} : Config).override env).2⟩
  same {c : CommandLine} {path : Path} {n : FileNode} : c.config = some path →
    fs.Resolves path n → fs.Resolves usualPath n →
      (c.loadConfig fs env).map LoadedConfig.config =
        (({ c with config := none } : CommandLine).loadConfig fs env).map LoadedConfig.config

variable {fs : FileSystem} {env : String → Option String} {c : CommandLine} {path : Path}
  {n : FileNode}

theorem loadConfig_named (h : c.config = some path) : c.loadConfig fs env =
    (Config.ofFile fs path).map fun base =>
      ⟨(base.override env).1, .file path, (base.override env).2⟩ := by
  simp only [loadConfig, source, h]

theorem loadConfig_usual (h : c.config = none) (there : fs.Resolves usualPath n) :
    c.loadConfig fs env = (Config.ofFile fs usualPath).map fun base =>
      ⟨(base.override env).1, .file usualPath, (base.override env).2⟩ := by
  have hexists : fs.exists? usualPath = true := by
    rw [FileSystem.exists?, FileSystem.lookup_ok_iff.2 there]
    rfl
  simp only [loadConfig, source, h, hexists, if_true]

theorem loadConfig_missing (h : c.config = none) (missing : ∀ n, ¬ fs.Resolves usualPath n) :
    c.loadConfig fs env =
      .ok ⟨(({} : Config).override env).1, .defaults, (({} : Config).override env).2⟩ := by
  have hexists : fs.exists? usualPath = false := by
    rw [FileSystem.exists?]
    cases hlookup : fs.lookup usualPath with
    | error e => rfl
    | ok n => exact absurd (FileSystem.lookup_ok_iff.1 hlookup) (missing n)
  simp only [loadConfig, source, h, hexists, Bool.false_eq_true, if_false]
  rfl

theorem ofFile_congr {path' : Path} (h : fs.lookup path = fs.lookup path') :
    Config.ofFile fs path = Config.ofFile fs path' := by
  simp only [Config.ofFile, FileSystem.read, h]

theorem fromFile (fs : FileSystem) (env : String → Option String) (path : Path) :
    FromFile fs env path ((Config.ofFile fs path).map fun base =>
      ⟨(base.override env).1, .file path, (base.override env).2⟩) := by
  cases hlookup : fs.lookup path with
  | error e =>
    have missing (n : FileNode) : ¬ fs.Resolves path n := by
      rw [← FileSystem.lookup_ok_iff, hlookup]
      nofun
    simp only [Config.ofFile, FileSystem.read, hlookup]
    exact .unresolved missing hlookup
  | ok n =>
    have there := FileSystem.lookup_ok_iff.1 hlookup
    cases n with
    | file text =>
      cases hread : Config.read text with
      | error e =>
        simp only [Config.ofFile, FileSystem.read, hlookup, hread]
        exact .malformed there hread
      | ok base =>
        simp only [Config.ofFile, FileSystem.read, hlookup, hread]
        exact .loaded there hread
    | directory entries =>
      simp only [Config.ofFile, FileSystem.read, hlookup]
      exact .directory there
    | link target =>
      simp only [Config.ofFile, FileSystem.read, hlookup]
      exact .special there nofun nofun
    | socket =>
      simp only [Config.ofFile, FileSystem.read, hlookup]
      exact .special there nofun nofun

/-- The source decides, and the environment has the last word on what it says. -/
theorem source_decides (fs : FileSystem) (env : String → Option String) :
    SourceDecides fs env where
  named h := loadConfig_named h ▸ fromFile fs env _
  usual h there := loadConfig_usual h there ▸ fromFile fs env _
  defaults h missing := loadConfig_missing h missing
  silent h there nothing := by
    rw [loadConfig_usual h there]
    simp only [Config.ofFile, FileSystem.read, FileSystem.lookup_ok_iff.2 there,
      Config.read_of_saysNothing nothing]
    rfl
  same h there usual := by
    have hsame := (FileSystem.lookup_ok_iff.2 there).trans (FileSystem.lookup_ok_iff.2 usual).symm
    rw [loadConfig_named h, loadConfig_usual rfl usual]
    rw [ofFile_congr hsame]
    cases Config.ofFile fs usualPath <;> rfl

theorem pathNames_usual : FileSystem.pathNames usualPath = ["cedar-config.yaml"] := by
  decide +kernel

theorem resolves_usual {text : String}
    (h : fs.root.at? (fs.workingDirectory ++ ["cedar-config.yaml"]) = some (.file text)) :
    fs.Resolves usualPath (.file text) := by
  refine ⟨by decide +kernel, by decide +kernel, by decide +kernel, 0, Nat.zero_le _, ?_⟩
  have hrelative : usualPath.isAbsolute = false := by decide +kernel
  rw [pathNames_usual, hrelative, if_neg Bool.false_ne_true]
  exact .last (by decide) (by decide) h nofun nofun

theorem not_resolves_usual
    (h : fs.root.at? (fs.workingDirectory ++ ["cedar-config.yaml"]) = none) (n : FileNode) :
    ¬ fs.Resolves usualPath n := by
  rintro ⟨-, -, -, k, -, leads⟩
  have hrelative : usualPath.isAbsolute = false := by decide +kernel
  rw [pathNames_usual, hrelative, if_neg Bool.false_ne_true] at leads
  generalize hname : "cedar-config.yaml" = name at leads h
  cases leads with
  | stay => exact absurd hname (by decide)
  | back => exact absurd hname (by decide)
  | into _ _ there => simp [h] at there
  | through _ _ there => simp [h] at there
  | last _ _ there => simp [h] at there

def usualFile (text : String) : FileSystem := ⟨.directory [("cedar-config.yaml", .file text)], []⟩

/-- A file of nothing but comments does not do what a missing one does. -/
structure RefusedComments (text : String) : Prop where
  comments : CommentOnly (fun c => Yaml.isBlank c) text
  there : (usualFile text).Resolves usualPath (.file text)
  missing : ∀ n, ¬ (⟨.directory [], []⟩ : FileSystem).Resolves usualPath n
  differ : (CommandLine.loadConfig {} (usualFile text) fun _ => none).map LoadedConfig.config ≠
    (CommandLine.loadConfig {} ⟨.directory [], []⟩ fun _ => none).map LoadedConfig.config

theorem refusedComments_of_line (indent words : List Char) {text : String}
    (blanks : indent.all Yaml.isBlank) (oneLine : words.all fun c => !Yaml.isBreak c)
    (h : text.toList = indent ++ ('#' :: words ++ ['\n']))
    (refused : (Config.read text).toOption = none) : RefusedComments text := by
  have only : Yaml.IsRemark ('#' :: words) := by
    refine ⟨fun c hc => (Option.some.inj hc).symm, List.forall_mem_cons.2 ⟨rfl, fun c hc => ?_⟩⟩
    simpa using List.all_eq_true.1 oneLine c hc
  have nothing : Yaml.CommentLines (fun c => Yaml.isBlank c) [] :=
    @Yaml.CommentLines.last _ [] [] nofun ⟨nofun, nofun⟩
  have comments : CommentOnly (fun c => Yaml.isBlank c) text :=
    ⟨_, .line (List.all_eq_true.1 blanks) only rfl nothing, .inl h⟩
  have there : (usualFile text).Resolves usualPath (.file text) := resolves_usual rfl
  have missing (n : FileNode) : ¬ (⟨.directory [], []⟩ : FileSystem).Resolves usualPath n :=
    not_resolves_usual rfl n
  refine ⟨comments, there, missing, ?_⟩
  rw [loadConfig_missing rfl missing, loadConfig_usual rfl there]
  simp only [Config.ofFile, FileSystem.read, FileSystem.lookup_ok_iff.2 there]
  cases hread : Config.read text with
  | error e => nofun
  | ok c =>
    rw [hread] at refused
    cases refused

/-- No token starts with a tab, and no text holds control characters, not even in a comment. -/
theorem load_refused_comments :
    RefusedComments "\t# comment\n" ∧ RefusedComments "# \x07\n" := by
  constructor
  · exact refusedComments_of_line ['\t'] " comment".toList (by decide) (by decide) (by decide)
      (by decide +kernel)
  · exact refusedComments_of_line [] " \x07".toList (by decide) (by decide) (by decide)
      (by decide +kernel)

end CommandLine

end SearchRelay

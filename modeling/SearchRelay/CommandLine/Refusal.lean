import SearchRelay.CommandLine

namespace SearchRelay

namespace CommandLine

def programName : String := "cedar-engine"
def version : String := "0.1.0"

def lines (ls : List String) : String := "\n".intercalate ls ++ "\n"

def about : String := "WebSocket relay for the Cedar search controller"

def usage (options : String) : String := s!"Usage: {programName} {options} [MODE]..."

def modeHelp : String :=
  "Mode words: `mockcedar` (mock controller) or `noredcedar` (no controller)"

def briefHelp : String :=
  lines
    [about, "", usage "[OPTIONS]", "", "Arguments:", "  [MODE]...  " ++ modeHelp, "", "Options:",
      "      --config <PATH>  Path to the YAML configuration file",
      "  -h, --help           Print help (see more with '--help')",
      "  -V, --version        Print version"]

def help : String :=
  lines
    [about, "", usage "[OPTIONS]", "", "Arguments:", "  [MODE]...", "          " ++ modeHelp ++ ".",
      "          ",
      "          Everything after the first word is taken as-is, so extra flags from a launcher " ++
        "script do not abort startup.",
      "", "Options:", "      --config <PATH>", "          Path to the YAML configuration file", "",
      "  -h, --help", "          Print help (see a summary with '-h')", "",
      "  -V, --version", "          Print version"]

end CommandLine

namespace Query

def flag : Query → String
  | help | briefHelp => "--help"
  | version => "--version"

def answer : Query → String
  | help => CommandLine.help
  | briefHelp => CommandLine.briefHelp
  | version => CommandLine.lines [CommandLine.programName ++ " " ++ CommandLine.version]

end Query

namespace CommandLine.Refusal

def complaint (text : String) (usage : Option String) : String :=
  let usage :=
    match usage with
    | some options => ["", CommandLine.usage options]
    | none => []
  lines (["error: " ++ text] ++ usage ++ ["", "For more information, try '--help'."])

def message : Refusal → String
  | query q => q.answer
  | missingPath =>
    complaint "a value is required for '--config <PATH>' but none was supplied" none
  | repeatedConfig =>
    complaint "the argument '--config <PATH>' cannot be used multiple times" (some "[OPTIONS]")
  | unexpectedValue q value =>
    complaint s!"unexpected value '{value}' for '{q.flag}' found; no more were expected"
      (some q.flag)

def isAnswer : Refusal → Bool
  | query _ => true
  | _ => false

end CommandLine.Refusal

end SearchRelay

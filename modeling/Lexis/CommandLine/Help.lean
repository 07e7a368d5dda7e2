/-!
# Help

What the command says about itself.
-/

set_option autoImplicit false

namespace Lexis.CommandLine

/-- Lines, each with its newline. -/
def unlines (lines : List String) : String :=
  String.join (lines.map (· ++ "\n"))

def versionText : String :=
  "1.0.0"

def versionLine : String :=
  unlines ["gyh " ++ versionText]

def shortHelp : String :=
  unlines
    ["GYH - Lexical analyzer for the GYH teaching language",
     "",
     "Usage: gyh [OPTIONS] <FILE>",
     "",
     "Arguments:",
     "  <FILE>  Path to the .gyh source file",
     "",
     "Options:",
     "      --format <FORMAT>  Output format for tokens " ++
       "[default: text] [possible values: text, json]",
     "  -v, --verbose          Enable debug logging",
     "  -q, --quiet            Only print the summary, not the tokens",
     "  -h, --help             Print help (see more with '--help')",
     "  -V, --version          Print version"]

def longHelp : String :=
  unlines
    ["GYH - Lexical analyzer for the GYH teaching language",
     "",
     "Usage: gyh [OPTIONS] <FILE>",
     "",
     "Arguments:",
     "  <FILE>",
     "          Path to the .gyh source file",
     "",
     "Options:",
     "      --format <FORMAT>",
     "          Output format for tokens",
     "",
     "          Possible values:",
     "          - text: `<kind, \"lexeme\", line: N, fingerprint: H>`",
     "          - json: One JSON object per line",
     "          ",
     "          [default: text]",
     "",
     "  -v, --verbose",
     "          Enable debug logging",
     "",
     "  -q, --quiet",
     "          Only print the summary, not the tokens",
     "",
     "  -h, --help",
     "          Print help (see a summary with '-h')",
     "",
     "  -V, --version",
     "          Print version"]

end Lexis.CommandLine

/-!
The texts that the program prints about itself.
-/

namespace LineTokens

def versionNumber : String := "1.0"

/-- The overview of all commands, with an empty line at its end. -/
def usageText : String :=
  "Usage: linesplit [-h | --help] <command> [<args>]\n" ++
  "\n" ++
  "Commands:\n" ++
  "  split                    Split a line into tokens\n" ++
  "      -f, --format STR     Output format: list, json or lines (default: list)\n" ++
  "      <line>               The line to split (default: first line of stdin)\n" ++
  "\n" ++
  "  demo                     Split a set of sample lines and show the results\n" ++
  "\n" ++
  "  help                     Show this help message\n" ++
  "  version                  Show program version\n" ++
  "\n"

end LineTokens

import SourceChunks.Calculator.Registry
import SourceChunks.Settings

/-!
# What the command says about itself

Asked for help, the command shows how it is called and what its options mean, set for a
terminal of eighty columns.  Words that it does not understand get the first part of this.
-/

namespace SourceChunks.Command

/-- How the command is called. -/
def usageLines : List String :=
  ["usage: ChunkCLI.py [-h] [--max-tokens MAX_TOKENS] [--calculator CALCULATOR]",
    "                   [--encoding ENCODING] [--coalesce-comments] [--limit LIMIT]",
    "                   [-v]",
    "                   paths [paths ...]"]

/-- What the words of a command mean. -/
def optionLines : List String :=
  ["positional arguments:",
    "  paths                 Source files to chunk",
    "",
    "options:",
    "  -h, --help            show this help message and exit",
    "  --max-tokens MAX_TOKENS",
    s!"                        Token budget per chunk (default: {Settings.defaultBudget})",
    "  --calculator CALCULATOR",
    "                        Token calculator: "
      ++ ", ".intercalate CalculatorRegistry.builtin.available,
    "  --encoding ENCODING   Encoding or model name for the tiktoken calculator",
    "  --coalesce-comments   Merge runs of adjacent comments before chunking.",
    "  --limit LIMIT         Stop after this many chunks per file",
    "  -v, --verbose         Enable debug logging"]

/-- The lines of the help. -/
def helpLines : List String :=
  usageLines ++ ["", "Split source files into syntax-aware chunks.", ""] ++ optionLines

/-- The help. -/
def helpText : String :=
  String.join (helpLines.map (· ++ "\n"))

end SourceChunks.Command

import SourceChunks.Text.Quoted

/-!
# Failures

Every reason for which the library refuses a request, with the words in which it says so.
-/

namespace SourceChunks

/-- Why a request was refused. -/
inductive Failure where
  /-- A node number is past the end of the arena. -/
  | noSuchNode
  /-- The child numbers lead back to a node above, so the tree has no end. -/
  | endlessTree
  /-- The number given for the root is not the number of a node. -/
  | rootOutOfRange (root : Int) (size : Nat)
  /-- No language is known for the extension of the path. -/
  | unsupportedFile (path : String)
  /-- The parser provider has no grammar of that name. -/
  | noGrammar (language : String)
  /-- The grammar configuration has no table of defaults. -/
  | noDefaultProfile
  /-- A list of node types holds an array or an object. -/
  | nestedEntry (kind : String)
  /-- The grammar configuration has a value of another kind where a list of node types is
  expected. -/
  | notAList (kind : String)
  /-- The grammar configuration, or something in it, is no table where one is expected. -/
  | notATable (kind : String)
  /-- The tables of a profile have fields that mean nothing. -/
  | unknownFields (profile : String) (fields : List String)
  /-- No token encoding and no model has that name. -/
  | unknownEncoding (name : String)
  /-- A calculator gave up. -/
  | calculatorFailed (reason : String)
  /-- A calculator was to be registered under a blank name. -/
  | blankCalculatorName
  /-- What was to be registered makes no calculators. -/
  | notAFactory
  /-- No calculator is registered under the name; `none` when no name was given. -/
  | unsupportedCalculator (name : Option String)
  /-- A factory refused to make a calculator. -/
  | factoryRefused (reason : String)
  /-- The token budget is not a whole number. -/
  | budgetNotAnInteger (raw : String)
  /-- A token budget was given with nothing for its value. -/
  | budgetWanting
  /-- The bound on the number of chunks is no number, negative or too large. -/
  | badLimit
  /-- There is no file of that path. -/
  | noSuchFile (path : String)
  /-- The path leads through a file. -/
  | notADirectory (path : String)
  /-- The path is that of a directory. -/
  | isADirectory (path : String)
  /-- The path, or a name in it, is longer than paths and names can be. -/
  | nameTooLong (path : String)
  /-- The path holds a NUL character, which no path can. -/
  | nulInPath
  /-- An output has no codes for these characters of a text, which stand after so many others. -/
  | noCode (before : Nat) (chars : List Char)
  deriving DecidableEq

namespace Failure

open Text (numberedChar quoted quotedList)

/-- Which characters of a text an output has no codes for. -/
def unwritable (before : Nat) : List Char → String
  | [char] => s!"character '{String.ofList (numberedChar char)}' in position {before}"
  | chars => s!"characters in position {before}-{before + chars.length - 1}"

/-- What the library says about a failure. -/
def message : Failure → String
  | noSuchNode => "no node of that number"
  | endlessTree => "the tree has no end"
  | rootOutOfRange root size => s!"root index {root} out of range for {size} nodes"
  | unsupportedFile path => s!"Failed to load parser for file {path}: unsupported file type"
  | noGrammar language => s!"No Tree-sitter grammar for language '{language}'"
  | noDefaultProfile => "profiles.json must define a 'default' profile"
  | nestedEntry kind => s!"unhashable type: '{kind}'"
  | notAList kind => s!"'{kind}' object is not iterable"
  | notATable kind => s!"'{kind}' object has no attribute 'items'"
  | unknownFields profile fields =>
    s!"Unknown grammar profile fields for {quoted profile}: {quotedList fields}"
  | unknownEncoding name => s!"Unknown tiktoken encoding or model '{name}'"
  | calculatorFailed reason => reason
  | blankCalculatorName => "Calculator name must be non-empty"
  | notAFactory => "Calculator factory must be callable"
  | unsupportedCalculator none => "Unsupported token calculator 'None'"
  | unsupportedCalculator (some name) => s!"Unsupported token calculator '{name}'"
  | factoryRefused reason => reason
  | budgetNotAnInteger raw => s!"CODE_CHUNKER_MAX_TOKENS must be an integer, got {quoted raw}"
  | budgetWanting =>
    "int() argument must be a string, a bytes-like object or a real number, not 'list'"
  | badLimit =>
    "Stop argument for islice() must be None or an integer: 0 <= x <= sys.maxsize."
  | noSuchFile path => s!"[Errno 2] No such file or directory: {quoted path}"
  | notADirectory path => s!"[Errno 20] Not a directory: {quoted path}"
  | isADirectory path => s!"[Errno 21] Is a directory: {quoted path}"
  | nameTooLong path => s!"[Errno 36] File name too long: {quoted path}"
  | nulInPath => "embedded null byte"
  | noCode before chars =>
    s!"'ascii' codec can't encode {unwritable before chars}: ordinal not in range(128)"

end Failure

end SourceChunks

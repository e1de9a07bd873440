import SourceChunks.CommandLine.GivenInteger
import SourceChunks.Text.Numeral

/-!
# Arguments of the command

The words after the command's name are options with their values, and paths.

Up to a double hyphen a word is an option if it begins with a hyphen, except that a hyphen
alone, a negative number and a word with a space in it that names no option are plain words.
A long option may be shortened as long as no other begins the same way, and may carry its
value after an equals sign; otherwise its value is the next word, which has to be plain.
A double hyphen after an equals sign is no value: it takes back what the option said before.
Options of one letter may stand together after one hyphen, with or without an equals sign
after the first letter.  After a double hyphen every word is plain.

All paths stand together: once an option has followed them, further plain words are
refused.  Words are acted on from left to right, so a request for help is heeded unless
something before it is wrong; what is merely unknown, or missing, is complained of last.
-/

namespace SourceChunks

/-- What the words of a command say. -/
structure Arguments where
  paths : List String := []
  maxTokens : Option GivenInteger := none
  calculator : Option String := none
  encoding : Option String := none
  coalesceComments : Bool := false
  limit : Option GivenInteger := none
  verbose : Bool := false
  deriving DecidableEq, Repr

/-- An option of the command. -/
inductive CommandOption where
  | help
  | maxTokens
  | calculator
  | encoding
  | coalesceComments
  | limit
  | verbose
  deriving DecidableEq, Repr

namespace CommandOption

/-- The long options. -/
def longNames : List (String × CommandOption) :=
  [("--help", help), ("--max-tokens", maxTokens), ("--calculator", calculator),
    ("--encoding", encoding), ("--coalesce-comments", coalesceComments), ("--limit", limit),
    ("--verbose", verbose)]

/-- The option of a letter. -/
def ofLetter? : Char → Option CommandOption
  | 'h' => some help
  | 'v' => some verbose
  | _ => none

/-- Does the option have a value? -/
def hasValue : CommandOption → Bool
  | maxTokens | calculator | encoding | limit => true
  | help | coalesceComments | verbose => false

end CommandOption

/-- A word of the command, as it is understood by itself. -/
inductive CommandWord where
  /-- A path, or the value of an option. -/
  | plain (text : String)
  /-- The double hyphen that ends the options. -/
  | endOfOptions
  /-- A long option, with what follows its equals sign. -/
  | long (option : CommandOption) (value : Option String)
  /-- Options by their letters after a single hyphen. -/
  | letters (options : List CommandOption)
  /-- Letters after a single hyphen, not all of which are options. -/
  | malformed
  /-- Something that looks like an option but is none. -/
  | unknown
  deriving DecidableEq, Repr

namespace CommandWord

/-- Is the word a negative number, whole or with a point?  One line feed may follow it. -/
def isNegativeNumber (text : List Char) : Bool :=
  match text with
  | '-' :: number =>
    let number := if number.getLast? = some '\n' then number.dropLast else number
    let whole := number.takeWhile Text.isDecimalDigit
    match number.dropWhile Text.isDecimalDigit with
    | [] => !whole.isEmpty
    | '.' :: fraction => !fraction.isEmpty && fraction.all Text.isDecimalDigit
    | _ => false
  | _ => false

/-- A word that begins like an option but names none. -/
def unnamed (text : String) : CommandWord :=
  if isNegativeNumber text.toList || text.toList.contains ' ' then plain text else unknown

/-- What stands before the first equals sign, and what after it. -/
def splitAtEquals (text : List Char) : List Char × Option String :=
  match text.dropWhile (· != '=') with
  | _ :: value => (text.takeWhile (· != '='), some (String.ofList value))
  | [] => (text, none)

/-- Understands a word with two hyphens in front; `none` if it may mean several options. -/
def ofLong? (text : String) : Option CommandWord :=
  let (name, value) := splitAtEquals text.toList
  match CommandOption.longNames.lookup (String.ofList name) with
  | some option => some (long option value)
  | none =>
    match CommandOption.longNames.filter fun known => name.isPrefixOf known.1.toList with
    | [] => some (unnamed text)
    | [(_, option)] => some (long option value)
    | _ => none

/-- The options of letters after a single hyphen, of which the first is known.  None of them
takes a value; an equals sign after the first is passed over if letters follow it. -/
def ofLetters (first : CommandOption) (rest : List Char) : CommandWord :=
  let later :=
    match rest with
    | '=' :: letter :: more => letter :: more
    | _ => rest
  match later.mapM CommandOption.ofLetter? with
  | some options => letters (first :: options)
  | none => malformed

/-- Understands a word before any double hyphen; `none` if it may mean several options. -/
def ofText? (text : String) : Option CommandWord :=
  match text.toList with
  | '-' :: '-' :: [] => some endOfOptions
  | '-' :: '-' :: _ => ofLong? text
  | '-' :: letter :: rest =>
    match CommandOption.ofLetter? letter with
    | some option => some (ofLetters option rest)
    | none => some (unnamed text)
  | _ => some (plain text)

/-- Understands the words of a command; `none` if one of them may mean several options. -/
def ofTexts? : List String → Option (List CommandWord)
  | [] => some []
  | text :: rest => do
    match ← ofText? text with
    | endOfOptions => return endOfOptions :: rest.map plain
    | word => return word :: (← ofTexts? rest)

end CommandWord

/-- What comes of reading the words of a command. -/
inductive Reading where
  /-- They say what to do. -/
  | understood (arguments : Arguments)
  /-- They ask for help. -/
  | helpWanted
  /-- They make no sense. -/
  | refused
  deriving DecidableEq, Repr

/-- Whether plain words are paths. -/
inductive PathsPlace where
  /-- No path has been seen yet. -/
  | ahead
  /-- The last word was a path. -/
  | here
  /-- An option has followed the paths. -/
  | behind
  deriving DecidableEq, Repr

/-- How far the words of a command have been acted on. -/
structure ReadingState where
  arguments : Arguments := {}
  paths : PathsPlace := .ahead
  /-- The option whose value has to come next. -/
  waiting : Option CommandOption := none
  /-- Has something been seen that is of no use? -/
  leftOver : Bool := false
  deriving DecidableEq, Repr

namespace ReadingState

/-- An option has been seen, so that paths, if there were any, are over. -/
def closePaths (state : ReadingState) : ReadingState :=
  if state.paths = .here then { state with paths := .behind } else state

/-- Acts on an option that has no value. -/
def flag (state : ReadingState) : CommandOption → Except Reading ReadingState
  | .verbose => .ok { state with arguments.verbose := true }
  | .coalesceComments => .ok { state with arguments.coalesceComments := true }
  | .help => .error .helpWanted
  | _ => .error .refused

/-- Reads the value of an option that is a whole number. -/
def integer (value : String) : Except Reading GivenInteger :=
  match Text.integer? value with
  | some number => .ok (.number number)
  | none => .error .refused

/-- Acts on an option with its value. -/
def setValue (state : ReadingState) (value : String) :
    CommandOption → Except Reading ReadingState
  | .maxTokens => do return { state with arguments.maxTokens := some (← integer value) }
  | .limit => do return { state with arguments.limit := some (← integer value) }
  | .calculator => .ok { state with arguments.calculator := some value }
  | .encoding => .ok { state with arguments.encoding := some value }
  | _ => .error .refused

/-- Acts on an option that is given with nothing for its value.  A text is taken back; a
number cannot be, and is then wanting. -/
def setNothing (state : ReadingState) : CommandOption → Except Reading ReadingState
  | .maxTokens => .ok { state with arguments.maxTokens := some .nothing }
  | .limit => .ok { state with arguments.limit := some .nothing }
  | .calculator => .ok { state with arguments.calculator := none }
  | .encoding => .ok { state with arguments.encoding := none }
  | _ => .error .refused

/-- Acts on an option with what stands after its equals sign. -/
def setGiven (state : ReadingState) (value : String) (option : CommandOption) :
    Except Reading ReadingState :=
  if value = "--" then state.setNothing option else state.setValue value option

/-- Acts on a plain word that is no value. -/
def path (state : ReadingState) (text : String) : ReadingState :=
  match state.paths with
  | .behind => { state with leftOver := true }
  | _ =>
    { state with arguments.paths := state.arguments.paths ++ [text], paths := .here }

/-- Acts on a word when no value is waited for. -/
def act (state : ReadingState) : CommandWord → Except Reading ReadingState
  | .plain text => .ok (state.path text)
  | .endOfOptions => .ok (if state.paths = .behind then { state with leftOver := true } else state)
  | .unknown => .ok { state.closePaths with leftOver := true }
  | .malformed => .error .refused
  | .letters options => options.foldlM flag state.closePaths
  | .long option none =>
    if option.hasValue then .ok { state.closePaths with waiting := some option }
    else state.closePaths.flag option
  | .long option (some value) => state.closePaths.setGiven value option

/-- Acts on a word. -/
def step (state : ReadingState) (word : CommandWord) : Except Reading ReadingState :=
  match state.waiting, word with
  | none, word => state.act word
  | some option, .plain value => { state with waiting := none }.setValue value option
  | some _, _ => .error .refused

/-- What comes of it when all words have been acted on. -/
def finish (state : ReadingState) : Reading :=
  if state.waiting.isSome || state.leftOver || state.arguments.paths.isEmpty then .refused
  else .understood state.arguments

end ReadingState

/-- Reads the words of a command. -/
def Arguments.read (texts : List String) : Reading :=
  match CommandWord.ofTexts? texts with
  | none => .refused
  | some words =>
    match words.foldlM ReadingState.step {} with
    | .ok state => state.finish
    | .error reading => reading

end SourceChunks

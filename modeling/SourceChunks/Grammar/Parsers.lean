import SourceChunks.Arena.ParseCopy
import SourceChunks.Grammar.Config
import SourceChunks.Producer

/-!
# Parsers

Parsing is done elsewhere: somebody provides parsers by the name of a grammar, or refuses.
What a parser returns is copied into an arena.
-/

namespace SourceChunks

/-- A parser for each grammar that is provided. -/
abbrev Parsers := String → Option (Bytes → Tree Symbol)

/-- The languages that can be chunked: how they are told apart and what their node types
mean, and their parsers. -/
structure Languages where
  config : Config
  parsers : Parsers

/-- Asks for the grammar of a language and parses the contents with it. -/
def Parsers.parse (parsers : Parsers) (language : String) (contents : Bytes) : Producer Arena :=
  .request language <|
    match parsers language with
    | some parser => .ofExcept (Arena.copyParse contents (parser contents))
    | none => .fail (.noGrammar language)

end SourceChunks

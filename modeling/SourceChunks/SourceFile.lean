import SourceChunks.Comment.Coalesce
import SourceChunks.Grammar.Parsers
import SourceChunks.Walk

/-!
# Chunking a source file

The language of a file is told from its path.  A file of blank bytes has no chunks, and no
grammar is asked for.  If it is wanted, runs of comments are put together before the walk.
-/

namespace SourceChunks

/-- Does a file hold nothing but blank bytes? -/
def isBlankFile (contents : Bytes) : Bool :=
  contents.all Text.isBlankByte

/-- The arena that is walked: the given one, or its copy with composite comments. -/
def Arena.prepared (arena : Arena) (profile : Profile) (coalesce : Bool) : Except Failure Arena :=
  if coalesce then arena.coalesce (profile.types .comments) else .ok arena

/-- Delivers the chunks of a file, given by its path and its contents. -/
def Languages.chunkFile (languages : Languages) (budget : Int) (coalesce : Bool) (path : String)
    (contents : Bytes) : Producer Unit :=
  if isBlankFile contents then return ()
  else
    match languages.config.languageOfPath? path with
    | none => .fail (.unsupportedFile path)
    | some language => do
      let profile ← Producer.ofExcept (languages.config.profile (some language))
      let parsed ← languages.parsers.parse language contents
      let arena ← Producer.ofExcept (parsed.prepared profile coalesce)
      ChunkWalk.chunks { arena, profile, budget }

end SourceChunks

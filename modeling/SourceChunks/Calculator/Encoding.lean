import SourceChunks.Failure
import SourceChunks.Text.Utf8

/-!
# Token encodings

An encoding is found by its own name or, failing that, by the name of a model that uses it.
Marks that some models treat specially are ordinary text to it.

Encodings are provided by somebody else (`EncodingSource`), who may have none for a name, or
fail for a reason of their own.

## What is assumed of them

Who provides encodings answers the same name in the same way each time.  An encoding that was
provided, once it is loaded, never fails: it has a number of tokens for every text, and always
the same one.  Both are in the types, for a source and an encoding are functions and an
`Encoding` has no failures to answer with.  Everything that is said of a calculator of tokens
rests on this.

## Encodings to try things with

`EncodingSource.byteGroups` does not spell out tokens: a text is taken to have one token for
each started group of so many bytes of its UTF-8 form.  No result about calculators depends on
it; whoever runs the command says whose encodings it is to use.
-/

namespace SourceChunks

/-- A way to count the tokens of a text, which never fails. -/
structure Encoding where
  count : String → Nat

/-- Why an encoding is not provided. -/
inductive EncodingFailure where
  /-- There is none of that name, or it cannot be used. -/
  | unusable
  /-- Something else went wrong. -/
  | other (reason : String)

/-- Somebody who provides encodings. -/
class EncodingSource where
  /-- The names of encodings. -/
  listed : List String
  /-- The encoding of a name. -/
  get : String → Except EncodingFailure Encoding
  /-- The encoding of a model. -/
  forModel : String → Except EncodingFailure Encoding

namespace Encoding

/-- Loads the encoding of that name, if it is listed, or that of the model of that name. -/
def load [EncodingSource] (name : String) : Except Failure Encoding :=
  let found :=
    if EncodingSource.listed.contains name then EncodingSource.get name
    else EncodingSource.forModel name
  match found with
  | .ok encoding => .ok encoding
  | .error .unusable => .error (.unknownEncoding name)
  | .error (.other reason) => .error (.calculatorFailed reason)

/-- One token for each started group of so many bytes. -/
def ofBytes (bytesPerToken : Nat) : Encoding where
  count text := ((Utf8.encode text).length + bytesPerToken - 1) / bytesPerToken

/-- The encoding of most models: four bytes to a token. -/
def cl100k : Encoding := ofBytes 4

/-- The encoding of newer models: three bytes to a token. -/
def o200k : Encoding := ofBytes 3

/-- The encoding of a name among those that are known. -/
def among (known : List (String × Encoding)) (name : String) : Except EncodingFailure Encoding :=
  match known.lookup name with
  | some encoding => .ok encoding
  | none => .error .unusable

end Encoding

/-- Two encodings and two models; one more name is listed, but cannot be loaded. -/
@[reducible] def EncodingSource.byteGroups : EncodingSource where
  listed := ["cl100k_base", "o200k_base", "broken_base"]
  get := Encoding.among [("cl100k_base", .cl100k), ("o200k_base", .o200k)]
  forModel := Encoding.among [("gpt-4", .cl100k), ("gpt-4o", .o200k)]

end SourceChunks

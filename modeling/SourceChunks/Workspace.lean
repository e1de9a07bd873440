import SourceChunks.Grammar.Parsers

/-!
# Workspaces

The files a run can see, with the parse trees that come with them.  A path leads down the
directories in which the files stand, and up again where a component is two dots; above the
workspace there is nothing to see.
-/

namespace SourceChunks

/-- A file with its contents, and the parser's tree for them if there is one. -/
structure SourceFile where
  path : String
  contents : Bytes
  tree : Option (Tree Symbol) := none

/-- The files that can be seen, and the grammars that no parser is provided for. -/
structure Workspace where
  files : List SourceFile
  missingGrammars : List String := []

/-- What stands at a place in a workspace. -/
inductive PlaceKind where
  | file (contents : Bytes)
  | directory
  | nothing

namespace Workspace

/-- The slashes with which messages show that a path starts at the very top.  Two of them
are told apart from one; more than two mean as much as one. -/
def shownTop (path : String) : String :=
  match (path.toList.takeWhile (· == '/')).length with
  | 0 => ""
  | 2 => "//"
  | _ => "/"

/-- A path as messages show it: without what means nothing in it. -/
def shownPath (path : String) : String :=
  let text := shownTop path ++ "/".intercalate (Path.components path)
  if text = "" then "." else text

/-- What stands at a place that is given by its components from the top. -/
def kindAt (workspace : Workspace) (place : List String) : PlaceKind :=
  match workspace.files.reverse.find? fun file => Path.components file.path == place with
  | some file => .file file.contents
  | none =>
    if place.isEmpty || workspace.files.any fun file => place.isPrefixOf (Path.components file.path)
    then .directory
    else .nothing

/-- The number of bytes that a name may have. -/
def maxNameLength : Nat := 255

/-- The number of bytes that a path may have. -/
def maxPathLength : Nat := 4095

/-- Follows the components of a path from a place, whose components are given from the
bottom. -/
def follow (workspace : Workspace) (shown : String) :
    List String → List String → Except Failure Bytes
  | place, [] =>
    match workspace.kindAt place.reverse with
    | .file contents => .ok contents
    | .directory => .error (.isADirectory shown)
    | .nothing => .error (.noSuchFile shown)
  | place, component :: rest =>
    match workspace.kindAt place.reverse with
    | .file _ => .error (.notADirectory shown)
    | .nothing => .error (.noSuchFile shown)
    | .directory =>
      if component = ".." then
        match place with
        | [] => if rest.isEmpty then .error (.isADirectory shown) else .error (.noSuchFile shown)
        | _ :: above => workspace.follow shown above rest
      else if maxNameLength < (Utf8.encode component).length then .error (.nameTooLong shown)
      else workspace.follow shown (component :: place) rest

/-- The contents of the file at a path. -/
def read (workspace : Workspace) (path : String) : Except Failure Bytes :=
  let shown := shownPath path
  if path.toList.contains '\x00' then .error .nulInPath
  else if maxPathLength < (Utf8.encode shown).length then .error (.nameTooLong shown)
  else if path.toList.head? = some '/' then
    match (Path.components path).dropWhile (· == "..") with
    | [] => .error (.isADirectory shown)
    | top :: _ =>
      if maxNameLength < (Utf8.encode top).length then .error (.nameTooLong shown)
      else .error (.noSuchFile shown)
  else workspace.follow shown [] (Path.components path)

/-- The tree for contents of which none is known: a single node. -/
def bareTree (contents : Bytes) : Tree Symbol :=
  ⟨⟨"source", ⟨0, contents.length, ⟨0, 0⟩, ⟨0, 0⟩⟩⟩, .nil⟩

/-- The tree that comes with contents in a language. -/
def treeOf (workspace : Workspace) (config : Config) (language : String) (contents : Bytes) :
    Tree Symbol :=
  let same := workspace.files.filter fun file => file.contents == contents && file.tree.isSome
  let inLanguage := same.filter fun file => config.languageOfPath? file.path == some language
  (((inLanguage ++ same).head?.bind (·.tree))).getD (bareTree contents)

/-- The languages as the workspace provides for them. -/
def languages (workspace : Workspace) (config : Config) : Languages where
  config
  parsers := fun language =>
    if workspace.missingGrammars.contains language then none
    else some (workspace.treeOf config language)

end Workspace

end SourceChunks

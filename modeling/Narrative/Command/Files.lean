import Narrative.KeyMap

/-!
The files that a command works on. What a command sees of them is a view from paths to texts, and a
directory without subdirectories gives such a view.
-/

set_option autoImplicit false

namespace Narrative

inductive FileError where
  | missing
  /-- A path goes on below a file. -/
  | notDirectory
  | isDirectory
  /-- A path, or a name in it, is longer than the system allows. -/
  | tooLong
  /-- The bytes of a file are not the UTF-8 form of a text. -/
  | notText
  /-- Any other reason, in words. -/
  | other (reason : String)
deriving DecidableEq

namespace FileError

def message : FileError → String
  | missing => "No such file or directory (os error 2)"
  | notDirectory => "Not a directory (os error 20)"
  | isDirectory => "Is a directory (os error 21)"
  | tooLong => "File name too long (os error 36)"
  | notText => "stream did not contain valid UTF-8"
  | other reason => reason

/-- Whether the reason is that there is nothing at the path. -/
def isAbsence : FileError → Bool
  | missing | notDirectory | tooLong => true
  | _ => false

end FileError

/-- What a command sees of the files: the text at each path. -/
abbrev FileView := String → Except FileError String

namespace FileView

def has (view : FileView) (path : String) : Bool :=
  match view path with
  | .ok _ => true
  | .error error => !error.isAbsence

end FileView

/-- The parts of a path between slashes. -/
def pathParts (path : String) : List (List Char) := path.toList.splitOn '/'

/-- The last part of a path that names something. -/
def fileName? (path : String) : Option (List Char) :=
  match ((pathParts path).filter (fun part => part != [] && part != ['.'])).getLast? with
  | some name => if name = ['.', '.'] then none else some name
  | none => none

/-- A file name without its last extension. A dot at the front begins none. -/
def stem (name : List Char) : List Char :=
  let extension := name.reverse.takeWhile (· != '.')
  let front := (name.reverse.drop (extension.length + 1)).reverse
  if front.isEmpty then name else front

def documentName (path : String) : String :=
  match fileName? path with
  | some name => String.ofList (stem name)
  | none => "doc"

/-- The files of a directory, by name. A file that is no text has no content. -/
abbrev Directory := KeyMap (Option String)

/-- What a path leads to in a directory without subdirectories. -/
inductive Target where
  | directory
  /-- A name in the directory, and whether the path asks for a directory of that name. -/
  | entry (name : String) (asDirectory : Bool)
  /-- A path below a name in the directory. -/
  | below (name : String)
  /-- A path that leaves the directory, and the first name on it. -/
  | outside (name : String)
deriving DecidableEq

namespace Target

def maxPathBytes : Nat := 4095

def maxNameBytes : Nat := 255

/-- Whether a part of a path names nothing. -/
def isDots (part : List Char) : Bool := part == ['.'] || part == ['.', '.']

/-- Follows a path from the directory. Outside of it there is nothing but the directories that
lead to it, which have no names. -/
def ofPath (path : String) : Target :=
  let parts := (pathParts path).filter (· != [])
  let asDirectory := path.toList.getLast? == some '/'
  if path.isEmpty then .outside ""
  else if path.toList.head? == some '/' then ofOuter parts
  else
    match parts.dropWhile (· == ['.']) with
    | [] => .directory
    | name :: rest =>
      if name = ['.', '.'] then ofOuter rest
      else if rest.isEmpty then .entry (String.ofList name) asDirectory
      else .below (String.ofList name)
where
  /-- Follows the parts of a path from a directory above. -/
  ofOuter (parts : List (List Char)) : Target :=
    match parts.find? (fun part => !isDots part) with
    | none => .directory
    | some name => .outside (String.ofList name)

example : ofPath "./scene.txt" = .entry "scene.txt" false ∧ ofPath "scene.txt/" =
    .entry "scene.txt" true ∧ ofPath "scene.txt/." = .below "scene.txt" := by decide +kernel

example : ofPath "./" = .directory ∧ ofPath "../scene.txt" = .outside "scene.txt" := by
  decide +kernel

end Target

namespace Directory

/-- The error of looking for a name that is not there. -/
def absence (name : String) : FileError :=
  if Target.maxNameBytes < name.utf8ByteSize then .tooLong else .missing

/-- The error of a path that goes on below a name. -/
def belowError (directory : Directory) (name : String) : FileError :=
  if (directory.get? name).isSome then .notDirectory else absence name

def view (directory : Directory) : FileView := fun path =>
  if Target.maxPathBytes < path.utf8ByteSize then .error .tooLong
  else
    match Target.ofPath path with
    | .directory => .error .isDirectory
    | .outside name => .error (absence name)
    | .below name => .error (directory.belowError name)
    | .entry name asDirectory =>
      match directory.get? name with
      | none => .error (absence name)
      | some content =>
        if asDirectory then .error .notDirectory
        else
          match content with
          | some text => .ok text
          | none => .error .notText

def write (directory : Directory) (path text : String) : Except FileError Directory :=
  if Target.maxPathBytes < path.utf8ByteSize then .error .tooLong
  else
    match Target.ofPath path with
    | .directory => .error .isDirectory
    | .outside name => .error (absence name)
    | .below name => .error (directory.belowError name)
    | .entry name asDirectory =>
      if asDirectory then .error .isDirectory
      else if Target.maxNameBytes < name.utf8ByteSize then .error .tooLong
      else .ok (directory.insert name (some text))

end Directory

end Narrative

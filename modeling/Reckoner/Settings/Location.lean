/-
Module: Reckoner.Settings.Location
Layer: Settings
Purpose: Where the configuration file is. A path given by the environment wins; otherwise the file
  is looked for in a directory and in every directory above it. Paths are sequences of names, so
  that this is decided without a file system; a folder stands for the part of one that is known.
  Names and paths beyond a certain length cannot be asked for, and neither can a name with the
  character that ends paths.
Main exports: Path, Path.ofText, Path.text, Path.resolve, Settings.candidates, Settings.locate,
  Folder, Folder.entryAt, Settings.locateIn
-/
import Reckoner.Settings.Load

namespace Reckoner

/-- A path: the slashes it starts with, and its names. Two names are special: `..` leads one step
    up; and neither `.` nor the empty name occurs, since they lead nowhere. -/
structure Path where
  root : String
  names : List String
deriving DecidableEq, Repr

namespace Path

/-- The slashes at the start of a path. Exactly two are kept, any other number counts as one. -/
def rootOf : List Char → String
  | '/' :: '/' :: '/' :: _ => "/"
  | '/' :: '/' :: _ => "//"
  | '/' :: _ => "/"
  | _ => ""

def ofText (text : String) : Path :=
  let names := (Text.pieces (· = '/') text.toList).map String.ofList
  ⟨rootOf text.toList, names.filter fun name => !name.isEmpty && name != "."⟩

def text (path : Path) : String :=
  if path.root.isEmpty && path.names.isEmpty then "."
  else path.root ++ "/".intercalate path.names

/-- The names that lead to the end of a path without any step up, given the names that lead to its
    start. At the top a step up leads nowhere. -/
def resolveFrom (start : List String) : List String → List String
  | [] => start
  | name :: names =>
      if name = ".." then resolveFrom start.dropLast names else resolveFrom (start ++ [name]) names

/-- The names that lead from the top to the end of a path that is taken from a directory. -/
def resolve (directory : List String) (path : Path) : List String :=
  if path.root.isEmpty then resolveFrom directory path.names else resolveFrom [] path.names

def nameLimit : Nat := 255

/-- The greatest number of bytes in the text of a path. -/
def textLimit : Nat := 4095

/-- A name that no file system can hold, since it is too long. -/
def isLongName (name : String) : Bool :=
  nameLimit < name.utf8ByteSize

/-- A path that cannot be asked for as a whole, since it is too long. -/
def isLong (path : Path) : Bool :=
  textLimit < path.text.utf8ByteSize

/-- A text that is no path, since it holds the character that ends paths. -/
def endsEarly (text : String) : Bool :=
  text.toList.contains '\x00'

end Path

namespace Settings

def fileName : String := "intcalc.toml"

/-- The environment variable that holds the path of the configuration file. -/
def pathVariable : String := "INTCALC_CONFIG"

/-- The places where the configuration file may be: in a directory and in those above it. -/
def candidates (directory : List String) : List (List String) :=
  ((List.range (directory.length + 1)).reverse).map fun depth => directory.take depth ++ [fileName]

/-- The path that the environment gives, unless it is empty. -/
def pathOfEnvironment (variableValue : Option String) : Option Path :=
  match variableValue with
  | some text => if text.isEmpty then none else some (Path.ofText text)
  | none => none

inductive PathFault where
  /-- A name holds the character that ends paths. -/
  | endsEarly
  /-- The path, or a name in it, is too long. -/
  | tooLong
deriving DecidableEq, Repr

/-- The first of several places that has a file, unless one before it cannot be asked for. -/
def firstFile (entryAt : List String → Entry) :
    List (List String) → Except PathFault (Option (List String))
  | [] => .ok none
  | place :: others =>
      match entryAt place with
      | .file _ => .ok (some place)
      | .tooLong => .error .tooLong
      | .missing | .directory => firstFile entryAt others

/-- The first place from a directory upwards that has a configuration file. -/
def locate (entryAt : List String → Entry) (directory : List String) :
    Except PathFault (Option (List String)) :=
  firstFile entryAt (candidates directory)

end Settings

/-- A part of a file system: the directories and the files under one directory, named by the names
    that lead to them, and some directories elsewhere, named by the names that lead to them from the
    root. The directories on the way to an entry are part of it. -/
structure Folder where
  directories : List (List String)
  files : List (List String × ByteArray)
  elsewhere : List (List String)

namespace Folder

/-- What stands at the end of names that lead down. -/
def entryBelow (folder : Folder) (names : List String) : Settings.Entry :=
  match folder.files.lookup names with
  | some content => .file content
  | none =>
      if names.isEmpty || folder.directories.any names.isPrefixOf
        || folder.files.any fun file => names.isPrefixOf file.1 then .directory
      else .missing

/-- What stands at the end of names that may also lead up. Every name but the last has to lead to a
    directory, and then the next name must not be too long. Above the folder nothing is known but
    the directories on the way up. -/
def entryFrom (folder : Folder) (place : Option (List String)) : List String → Settings.Entry
  | [] =>
      match place with
      | some names => folder.entryBelow names
      | none => .directory
  | name :: names =>
      match place with
      | none =>
          if name = ".." then folder.entryFrom none names
          else if Path.isLongName name then .tooLong
          else .missing
      | some above =>
          match folder.entryBelow above with
          | .directory =>
              if Path.isLongName name then .tooLong
              else if name ≠ ".." then folder.entryFrom (some (above ++ [name])) names
              else if above.isEmpty then folder.entryFrom none names
              else folder.entryFrom (some above.dropLast) names
          | _ => .missing

/-- What stands at the end of names that are taken from a directory elsewhere. -/
def entryElsewhere (folder : Folder) (place : List String) : List String → Settings.Entry
  | [] => .directory
  | name :: names =>
      if name = ".." then folder.entryElsewhere place.dropLast names
      else if Path.isLongName name then .tooLong
      else if folder.elsewhere.any (place ++ [name]).isPrefixOf then
        folder.entryElsewhere (place ++ [name]) names
      else .missing

/-- What stands at the end of a path that is taken from the folder. -/
def entryAt (folder : Folder) (path : Path) : Settings.Entry :=
  if path.isLong then .tooLong
  else if path.root.isEmpty then folder.entryFrom (some []) path.names
  else folder.entryElsewhere [] path.names

end Folder

namespace Settings

/-- The place of the configuration file, looked for in a folder from the end of a path upwards. The
    path is taken from a directory of the folder. -/
def locateIn (folder : Folder) (directory : List String) (start : Path) :
    Except PathFault (Option (List String)) :=
  if start.names.any Path.endsEarly then .error .endsEarly
  else locate (fun place => folder.entryAt ⟨"", place⟩) (start.resolve directory)

end Settings

end Reckoner

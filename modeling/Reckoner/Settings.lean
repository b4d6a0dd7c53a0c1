/-
Module: Reckoner.Settings
Layer: Settings
Purpose: The settings of the read loop and how they are read from the entries of a section. Entries
  that are not named after settings are left out, and one warning lists their names; the others are
  checked against the declaration of the settings. How data are converted, what a style is, and how
  a section is checked against a declaration is decided by rules that are not the program's own.
Main exports: Settings, Settings.Field, Settings.Rules, Settings.Rules.conversions,
  Settings.unknownNames, Settings.ofSection, Settings.ofDatum
-/
import Reckoner.Datum
import Reckoner.Style

namespace Reckoner

/-- The settings of the read loop. The styles are those that texts describe. -/
structure Settings where
  prompt : String
  showTree : Bool
  color : Bool
  treeStyle : String
  errorStyle : String
deriving DecidableEq, Repr

namespace Settings

/-- What holds without any configuration. -/
def standard : Settings where
  prompt := "> "
  showTree := false
  color := true
  treeStyle := "bright_black"
  errorStyle := "red"

/-- The settings, in the order of their declaration. -/
inductive Field where
  | prompt
  | showTree
  | color
  | treeStyle
  | errorStyle
deriving DecidableEq, Repr

namespace Field

def all : List Field := [prompt, showTree, color, treeStyle, errorStyle]

def name : Field → String
  | prompt => "prompt"
  | showTree => "show_tree"
  | color => "color"
  | treeStyle => "tree_style"
  | errorStyle => "error_style"

def Content : Field → Type
  | prompt | treeStyle | errorStyle => String
  | showTree | color => Bool

def content : (field : Field) → Settings → field.Content
  | prompt, settings => settings.prompt
  | showTree, settings => settings.showTree
  | color, settings => settings.color
  | treeStyle, settings => settings.treeStyle
  | errorStyle, settings => settings.errorStyle

def put : (field : Field) → field.Content → Settings → Settings
  | prompt, value, settings => { settings with prompt := value }
  | showTree, value, settings => { settings with showTree := value }
  | color, value, settings => { settings with color := value }
  | treeStyle, value, settings => { settings with treeStyle := value }
  | errorStyle, value, settings => { settings with errorStyle := value }

end Field

/-!
### Rules
-/

abbrev Section : Type := List (String × Datum)

/-- How the datum of each setting is converted, or refused. -/
abbrev Conversions : Type := (field : Field) → Datum → Option field.Content

/-- What the program leaves to others: the conversion of data to texts and to switches, the reading
    of styles, and the check of a section against a declaration, which gives settings or the
    settings that are refused. -/
structure Rules where
  readText : Datum → Option String
  readSwitch : Datum → Option Bool
  parseStyle : String → Except Style.Fault Style
  validate : Conversions → Section → Except (List Field) Settings

/-- A text that describes a style is taken as it is written, any other is refused. -/
def validateStyle (parseStyle : String → Except Style.Fault Style) (text : String) :
    Option String :=
  match parseStyle text with
  | .ok _ => some text
  | .error _ => none

/-- The declaration of the settings. -/
def Rules.conversions (rules : Rules) : Conversions
  | .prompt => rules.readText
  | .showTree | .color => rules.readSwitch
  | .treeStyle | .errorStyle =>
      fun datum => (rules.readText datum).bind (validateStyle rules.parseStyle)

/-!
### Sections
-/

/-- The names that are not settings, each once and in the order of their characters. -/
def unknownNames (names : List String) : List String :=
  ((names.filter fun name => !(Field.all.map Field.name).contains name).eraseDups).mergeSort

/-- A remark about a configuration that does not keep it from being used. -/
inductive Warning where
  | unknownNames (source : String) (names : List String)
  | unreadable (source : String)
deriving DecidableEq, Repr

def Warning.message : Warning → String
  | unknownNames source names =>
      s!"Ignoring unknown [repl] keys in {source}: " ++ ", ".intercalate names
  | unreadable source => s!"Failed to read {source}"

/-- The warning about names that are not settings, if there are any. -/
def warningsFor (source : String) (names : List String) : List Warning :=
  match unknownNames names with
  | [] => []
  | unknown => [.unknownNames source unknown]

inductive Failure where
  /-- Settings are refused. -/
  | refused (source : String) (fields : List Field)
  /-- What stands for the section has no entries at all. -/
  | noEntries
  /-- What stands for the section lists names without data. -/
  | namesOnly
  /-- The file is not encoded as UTF-8. -/
  | encoding
  /-- The file holds a decimal integer of too many digits. -/
  | numeralTooLong
  /-- The path, or a name in it, is longer than a file system allows. -/
  | pathTooLong
deriving DecidableEq, Repr

/-- The wording of a refusal, and nothing for the other failures. -/
def Failure.message? : Failure → Option String
  | refused source fields =>
      let count := fields.length
      let errors := if count = 1 then "error" else "errors"
      some s!"Invalid [repl] section in {source}: {count} validation {errors} for ReplConfig"
  | _ => none

/-- What loading a configuration gives, and the warnings made on the way. -/
structure Loaded where
  outcome : Except Failure Settings
  warnings : List Warning

/-- Reads the entries of a section. Those with unknown names are left out, and are warned of even if
    settings are refused. -/
def ofSection (rules : Rules) (source : String) (entries : Section) : Loaded :=
  let names := entries.map Prod.fst
  let kept := entries.filter fun entry => !(unknownNames names).contains entry.1
  let outcome :=
    match rules.validate rules.conversions kept with
    | .ok settings => .ok settings
    | .error fields => .error (.refused source fields)
  ⟨outcome, warningsFor source names⟩

def texts? (items : List Datum) : Option (List String) :=
  items.mapM Datum.text?

/-- Reads the datum that stands for a section. If it says nothing the defaults hold. A text is taken
    for a list of names of one character, and a list of texts for a list of names; both lack the
    data that belong to the names. -/
def ofDatum (rules : Rules) (source : String) (datum : Datum) : Loaded :=
  if datum.isEmpty then ⟨.ok standard, []⟩
  else
    match datum with
    | .table entries => ofSection rules source entries
    | .text value =>
        ⟨.error .namesOnly, warningsFor source (value.toList.map fun c => String.ofList [c])⟩
    | .list items =>
        match texts? items with
        | some names => ⟨.error .namesOnly, warningsFor source names⟩
        | none => ⟨.error .noEntries, []⟩
    | _ => ⟨.error .noEntries, []⟩

end Settings

end Reckoner

/-
Module: Reckoner.Settings.Load
Layer: Settings
Purpose: Loading the settings from a configuration file. A file that is not there, that cannot be
  opened or that is no TOML document leaves the defaults in force, the latter two with a warning; so
  does a file without a section for the read loop.
Main exports: Settings.Entry, Settings.load
-/
import Reckoner.Settings
import Reckoner.Toml.Document

namespace Reckoner.Settings

/-- The name of the section that holds the settings. -/
def sectionName : String := "repl"

inductive Entry where
  | missing
  | directory
  | file (content : ByteArray)
  /-- The path, or a name in it, is too long to be asked for. -/
  | tooLong

/-- Reads the settings of a document. -/
def ofDocument (rules : Rules) (source : String) (document : Section) : Loaded :=
  match document.lookup sectionName with
  | none => ⟨.ok standard, []⟩
  | some datum => ofDatum rules source datum

def ofText (rules : Rules) (source : String) (text : String) : Loaded :=
  match Toml.read text with
  | .ok document => ofDocument rules source document
  | .error .malformed => ⟨.ok standard, [.unreadable source]⟩
  | .error .numeralTooLong => ⟨.error .numeralTooLong, []⟩

/-- Loads the settings from what stands at the place that is called `source`. -/
def load (rules : Rules) (source : String) : Entry → Loaded
  | .missing => ⟨.ok standard, []⟩
  | .directory => ⟨.ok standard, [.unreadable source]⟩
  | .tooLong => ⟨.error .pathTooLong, []⟩
  | .file content =>
      match String.fromUTF8? content with
      | some text => ofText rules source text
      | none => ⟨.error .encoding, []⟩

end Reckoner.Settings

/-
Module: Reckoner.Settings.Checking
Layer: Settings
Purpose: How sections are checked. The settings are checked one after the other, in the order of
  their declaration: an absent one keeps its default, a present one is converted or refused, and
  what is refused does not keep the others from being checked. The rules that the program runs with
  check so; they take texts as they are, and know several ways to write a switch.
Main exports: Settings.Checked, Settings.Checked.check, Settings.checkInTurn,
  Settings.Rules.ChecksInTurn, Settings.Rules.lenient
-/
import Reckoner.Settings

namespace Reckoner.Settings

/-!
### One after the other
-/

/-- How far a section has been checked: the settings that it gives, and those that it has refused
    data for. -/
structure Checked where
  settings : Settings
  refused : List Field

def Checked.check (conversions : Conversions) (entries : Section) (checked : Checked)
    (field : Field) : Checked :=
  match entries.lookup field.name with
  | none => checked
  | some datum =>
      match conversions field datum with
      | some value => { checked with settings := field.put value checked.settings }
      | none => { checked with refused := checked.refused ++ [field] }

/-- What the check comes to: settings, unless any has been refused. -/
def Checked.outcome (checked : Checked) : Except (List Field) Settings :=
  match checked.refused with
  | [] => .ok checked.settings
  | fields => .error fields

/-- Checks a section for all settings in turn. -/
def checkInTurn (conversions : Conversions) (entries : Section) : Except (List Field) Settings :=
  (Field.all.foldl (Checked.check conversions entries) ⟨standard, []⟩).outcome

/-- The rules check every setting in turn, in sections that have each name at most once and no name
    but those of settings. What they make of any other section is left open. -/
def Rules.ChecksInTurn (rules : Rules) : Prop :=
  ∀ (conversions : Conversions) (entries : Section), (entries.map Prod.fst).Nodup →
    (∀ name ∈ entries.map Prod.fst, name ∈ Field.all.map Field.name) →
    rules.validate conversions entries = checkInTurn conversions entries

/-!
### The rules of the program
-/

def switchWords : List (String × Bool) :=
  [("0", false), ("off", false), ("f", false), ("false", false), ("n", false), ("no", false),
   ("1", true), ("on", true), ("t", true), ("true", true), ("y", true), ("yes", true)]

/-- A switch is a truth value, a number equal to zero or one, or a word for yes or no in lower or
    upper case. -/
def switchOf : Datum → Option Bool
  | .boolean value => some value
  | .integer value => if value = 0 then some false else if value = 1 then some true else none
  | .real value =>
      if value.roundsToZero then some false else if value.roundsToOne then some true else none
  | .text value => switchWords.lookup (String.ofList (value.toList.map Char.toLower))
  | _ => none

def Rules.lenient : Rules where
  readText := Datum.text?
  readSwitch := switchOf
  parseStyle := Style.read
  validate := checkInTurn

theorem Rules.lenient_checksInTurn : Rules.lenient.ChecksInTurn :=
  fun _ _ _ _ => rfl

end Reckoner.Settings

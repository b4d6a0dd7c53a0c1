/-
Module: Reckoner.Command.Options
Layer: Command line
Purpose: Telling options from other arguments. An option has names of two forms: a long name behind
  two dashes, to which a value may be attached with an equals sign, and a short one of one letter
  behind one dash, several of which may share a dash. Two dashes alone end the options.
Main exports: Options.Form, Options.Split, Options.split
-/

namespace Reckoner.Options

/-- An option: its names with their dashes, what it means, and whether a value follows it. -/
structure Form (κ : Type) where
  names : List String
  meaning : κ
  takesValue : Bool

/-- Arguments told apart: options in their order, each with its value if it takes one, and the other
    arguments in theirs. -/
structure Split (κ : Type) where
  options : List (κ × Option String)
  others : List String

variable {κ : Type}

namespace Split

def plain (others : List String) : Split κ := ⟨[], others⟩

def withOptions (found : List (κ × Option String)) (s : Split κ) : Split κ :=
  { s with options := found ++ s.options }

/-- Another argument in front of what follows. -/
def withOther (argument : String) (s : Split κ) : Split κ :=
  { s with others := argument :: s.others }

end Split

def find? (forms : List (Form κ)) (name : String) : Option (Form κ) :=
  forms.find? fun form => form.names.contains name

/-- What an argument that starts with a dash says. -/
inductive Sense (κ : Type) where
  /-- Options that are complete. -/
  | complete (found : List (κ × Option String))
  /-- Options of which the last takes the next argument as its value. -/
  | awaiting (found : List (κ × Option String)) (meaning : κ)
  /-- An unknown name, or a value where none is taken. -/
  | wrong

/-- The sense of the letters behind one dash. A letter whose option takes a value has the letters
    behind it for its value, if there are any. -/
def senseOfLetters (forms : List (Form κ)) : List Char → Sense κ
  | [] => .complete []
  | letter :: letters =>
      match find? forms (String.ofList ['-', letter]) with
      | none => .wrong
      | some form =>
          if form.takesValue then
            if letters.isEmpty then .awaiting [] form.meaning
            else .complete [(form.meaning, some (String.ofList letters))]
          else
            match senseOfLetters forms letters with
            | .complete found => .complete ((form.meaning, none) :: found)
            | .awaiting found meaning => .awaiting ((form.meaning, none) :: found) meaning
            | .wrong => .wrong

/-- The sense of a long name, to which a value may be attached. -/
def senseOfLong (forms : List (Form κ)) (argument : String) : Sense κ :=
  let characters := argument.toList
  let name := String.ofList (characters.takeWhile (· != '='))
  let attached := characters.dropWhile (· != '=')
  match find? forms name with
  | none => .wrong
  | some form =>
      match attached, form.takesValue with
      | [], false => .complete [(form.meaning, none)]
      | [], true => .awaiting [] form.meaning
      | _ :: value, true => .complete [(form.meaning, some (String.ofList value))]
      | _ :: _, false => .wrong

/-- The sense of an argument that starts with a dash. -/
def sense (forms : List (Form κ)) (argument : String) : Sense κ :=
  match argument.toList with
  | '-' :: '-' :: _ => senseOfLong forms argument
  | _ :: letters => senseOfLetters forms letters
  | [] => .wrong

/-- Whether an argument stands for options: it starts with a dash and is more than that. -/
def isOption (argument : String) : Bool :=
  match argument.toList with
  | '-' :: _ :: _ => true
  | _ => false

/-- Tells the arguments of a command apart. `mixed` says whether options may also follow other
    arguments. There is no answer for an argument without sense, and none if a value is missing. -/
def split (forms : List (Form κ)) (mixed : Bool) : List String → Option (Split κ)
  | [] => some (.plain [])
  | argument :: arguments =>
      if argument = "--" then some (.plain arguments)
      else if isOption argument then
        match sense forms argument with
        | .complete found => (split forms mixed arguments).map (.withOptions found)
        | .awaiting found meaning =>
            match arguments with
            | [] => none
            | value :: rest =>
                (split forms mixed rest).map (.withOptions (found ++ [(meaning, some value)]))
        | .wrong => none
      else if mixed then (split forms mixed arguments).map (.withOther argument)
      else some (.plain (argument :: arguments))

end Reckoner.Options

/-
Module: Reckoner.Console
Layer: Terminal
Purpose: What the program prints and reads through. How a text looks in a style, and what appears
  when a line is asked for behind a prompt, is decided by the console and not by the program; a
  prompt may even keep the console from asking.
Main exports: Print, Console, Console.Fault, Console.printed
-/

namespace Reckoner

/-- A text to be printed, with the style it is given if it is given one. -/
structure Print where
  text : String
  style : Option String
deriving DecidableEq, Repr

inductive Console.Fault where
  /-- The markup of the prompt is wrong. -/
  | markup
  /-- A part of a colour in the markup is no number. -/
  | number
deriving DecidableEq, Repr

/-- What appears for a print, and what appears when a line is asked for behind a prompt. -/
structure Console where
  render : Print → String
  ask : String → Except Console.Fault String

/-- What appears for several prints, one after the other. -/
def Console.printed (console : Console) (prints : List Print) : String :=
  String.join (prints.map console.render)

end Reckoner

/-
Module: Reckoner.Session
Layer: Calculation
Purpose: The read loop. Lines are read one after the other, each behind a prompt; a line is either a
  command, which turns the printing of trees on or off, or a line to be calculated. The loop goes on
  until the input ends, unless asking for a line fails or the calculation of one breaks off. One
  pass of the loop is one function, whoever serves the lines.
Main exports: Session.isToggle, Session.drawn, Session.report, Session.answer, Session.Turn,
  Session.Reading, Session.Loop, Session.Loop.next, Session.Loop.pass, Session.Loop.after
-/
import Reckoner.Console
import Reckoner.Expr.Outline
import Reckoner.Line
import Reckoner.Settings

namespace Reckoner.Session

/-!
### What is printed
-/

/-- The command that turns the printing of trees on or off. -/
def toggleCommand : String := "#showTree"

/-- Whether a line is the command. Blanks around it do not matter. -/
def isToggle (line : String) : Bool :=
  Text.trim Text.isBlank line.toList == toggleCommand.toList

/-- The style to print with, unless colours are turned off. -/
def styled (settings : Settings) (style : String) : Option String :=
  if settings.color then some style else none

def treePrint (settings : Settings) (root : Expr) : Print :=
  ⟨"\n".intercalate (Node.expr root).outline, styled settings settings.treeStyle⟩

/-- The print of a message about what is wrong with a line. -/
def messagePrint (settings : Settings) (message : String) : Print :=
  ⟨message, styled settings settings.errorStyle⟩

/-- The text of a value, or a word if there is none. -/
def valueText : Option Int → String
  | some value => s!"{value}"
  | none => "None"

/-- The prints of a tree, if trees are shown. -/
def drawn (settings : Settings) (shown : Bool) (tree : Tree) : List Print :=
  if shown then [treePrint settings tree.root] else []

/-- The prints that report a calculation: the diagnostics if there are any, else the error if there
    is one, else the value. -/
def report (settings : Settings) (calculation : Line.Calculation) : List Print :=
  match calculation.tree.diagnostics with
  | _ :: _ => calculation.tree.diagnostics.map (messagePrint settings)
  | [] =>
      match calculation.error with
      | some message => [messagePrint settings message]
      | none => [⟨valueText calculation.value, none⟩]

/-- The print that confirms whether trees are shown. -/
def togglePrint (shown : Bool) : Print :=
  ⟨if shown then "Showing tree" else "Not showing tree", none⟩

/-- Answers a line: the prints, and whether trees are shown from then on. -/
def answer (settings : Settings) (shown : Bool) (line : String) :
    Except Fault (List Print × Bool) :=
  if isToggle line then .ok ([togglePrint !shown], !shown)
  else
    match Line.calculate line with
    | .ok calculation =>
        .ok (drawn settings shown calculation.tree ++ report settings calculation, shown)
    | .error fault => .error fault

/-!
### The loop
-/

/-- What asking for a line comes to. -/
inductive Reading where
  | line (text : String)
  /-- The input has ended, or was broken off from outside. -/
  | ended
  | failed (fault : Console.Fault)

/-- Whoever serves the lines: what asking with a prompt comes to, after a number of readings. -/
abbrev Reader : Type := Nat → String → Reading

/-- Serves lines one after the other, and then the end of the input. -/
def Reader.ofLines (lines : List String) : Reader := fun count _ =>
  match lines[count]? with
  | some line => .line line
  | none => .ended

/-- One turn of a session: the prompt that a line was asked for with, and what was printed then. -/
structure Turn where
  prompt : String
  prints : List Print

inductive Status where
  | reading
  | ended
  /-- Asking for a line has failed. -/
  | unread (fault : Console.Fault)
  /-- The calculation of a line has broken off. -/
  | broken (fault : Fault)

/-- The loop between two passes: whether trees are shown, the turns so far, and whether the loop
    goes on. -/
structure Loop where
  shown : Bool
  turns : List Turn
  status : Status

namespace Loop

def start (settings : Settings) : Loop :=
  ⟨settings.showTree, [], .reading⟩

/-- What becomes of the loop when a line has been asked for. -/
def next (settings : Settings) (loop : Loop) : Reading → Loop
  | .failed fault => { loop with status := .unread fault }
  | .ended => ⟨loop.shown, loop.turns ++ [⟨settings.prompt, [⟨"", none⟩]⟩], .ended⟩
  | .line text =>
      match answer settings loop.shown text with
      | .ok (prints, shown) => ⟨shown, loop.turns ++ [⟨settings.prompt, prints⟩], .reading⟩
      | .error fault =>
          ⟨loop.shown, loop.turns ++ [⟨settings.prompt, []⟩], .broken fault⟩

/-- One pass asks for a line. When the loop no longer goes on nothing happens. -/
def pass (settings : Settings) (reader : Reader) (loop : Loop) : Loop :=
  match loop.status with
  | .reading => loop.next settings (reader loop.turns.length settings.prompt)
  | _ => loop

def after (settings : Settings) (reader : Reader) : Nat → Loop
  | 0 => start settings
  | count + 1 => (after settings reader count).pass settings reader

end Loop

end Reckoner.Session

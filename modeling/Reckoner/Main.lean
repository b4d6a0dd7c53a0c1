/-
Module: Reckoner.Main
Layer: Program
Purpose: The program. It reads the arguments, the environment, the configuration file and the lines,
  and prints; what any of them means is decided elsewhere.
Main exports: main
-/
import Reckoner.Command
import Reckoner.Settings.Checking
import Reckoner.Terminal.Markup

namespace Reckoner.Program

/-- What stands at a path. A directory, or a file that cannot be opened, is there but unreadable. -/
def entryAt (path : Path) : IO Settings.Entry := do
  match ← (IO.FS.readBinFile path.text).toBaseIO with
  | .ok content => pure (.file content)
  | .error (.noFileOrDirectory ..) => pure .missing
  | .error _ =>
      pure (if path.isLong || path.names.any Path.isLongName then .tooLong else .directory)

def loadAt (path : Path) : IO Settings.Loaded := do
  pure (Settings.load .lenient path.text (← entryAt path))

/-- Loads the settings from the first of several places that has a file. -/
def loadFirst (places : List (List String)) : IO (Except Settings.PathFault Settings.Loaded) := do
  let found ← places.mapM fun place => do pure (place, ← entryAt ⟨"/", place⟩)
  let entryOf (place : List String) : Settings.Entry := (found.lookup place).getD .missing
  pure ((Settings.firstFile entryOf places).map fun
    | some place => Settings.load .lenient (Path.text ⟨"/", place⟩) (entryOf place)
    | none => ⟨.ok Settings.standard, []⟩)

/-- Loads the settings of a command, or the defaults if it needs none. -/
def loadFor (command : Command) : IO (Except Settings.PathFault Settings.Loaded) := do
  match command.source with
  | .nowhere => pure (.ok ⟨.ok Settings.standard, []⟩)
  | .path path => .ok <$> loadAt path
  | .search =>
      match Settings.pathOfEnvironment (← IO.getEnv Settings.pathVariable) with
      | some path => .ok <$> loadAt path
      | none =>
          let directory := Path.ofText (← IO.currentDir).toString
          loadFirst (Settings.candidates directory.names)

def send (text : String) : IO Unit := do
  let output ← IO.getStdout
  output.putStr text
  output.flush

/-- Asks for a line, and gives what is left of the input that has been read. A piece of input may
    hold several lines. -/
def readLine (console : Console) (prompt : String) (waiting : List String) :
    IO (Session.Reading × List String) := do
  match console.ask prompt with
  | .error fault => pure (.failed fault, waiting)
  | .ok shown =>
      send shown
      match waiting with
      | line :: others => pure (.line line, others)
      | [] =>
          let piece ← (← IO.getStdin).getLine
          match (Text.lines piece.toList).map String.ofList with
          | line :: others => pure (.line line, others)
          | [] => pure (.ended, [])

/-- Makes passes of the read loop until it is over. -/
partial def converse (console : Console) (settings : Settings) (waiting : List String)
    (loop : Session.Loop) : IO Session.Loop := do
  match loop.status with
  | .reading =>
      let (reading, waiting) ← readLine console settings.prompt waiting
      let next := loop.next settings reading
      for turn in next.turns.drop loop.turns.length do
        send (console.printed turn.prints)
      converse console settings waiting next
  | _ => pure loop

/-- Tells what a transcript has besides its output, and gives the exit code. -/
def finish (transcript : Command.Transcript) : IO UInt32 := do
  unless transcript.complaint.isEmpty do
    IO.eprintln transcript.complaint
  if transcript.failure.isSome then
    IO.eprintln "The program cannot go on"
  pure transcript.exitCode.toUInt32

/-- The texts in which the command line explains itself. -/
def explanation : List String :=
  ["Evaluate integer arithmetic expressions with precise diagnostics",
   "  repl   Start the interactive calculator.",
   "  eval   Evaluate a single expression.",
   "  tree   Show the syntax tree of an expression, malformed or not."]

/-- What the system tells of itself under a name, if it does. -/
def systemFact (name : String) : IO String := do
  match ← (IO.FS.readFile ("/proc/sys/kernel/" ++ name)).toBaseIO with
  | .ok text => pure text.trimAscii.toString
  | .error _ => pure ""

/-- What the program runs on here: a terminal that knows no names of pictographs. -/
def host : IO Command.Host := do
  let terminal : Terminal := { takesCodes := ← (← IO.getStdout).isTty }
  let system ← systemFact "ostype"
  let release ← systemFact "osrelease"
  pure ⟨terminal.console, [s!"  Platform:      {system} {release}"], "\n".intercalate explanation⟩

/-- Carries out a command with what loading its settings gave. -/
def carryOutWith (host : Command.Host) (command : Command) (loaded : Settings.Loaded) :
    IO Command.Transcript := do
  match command, loaded.outcome with
  | .converse _ showTree, .ok settings =>
      let settings := Command.adjusted settings showTree
      let loop ← converse host.console settings [] (.start settings)
      pure (Command.ofLoop host.console loop)
  | _, _ =>
      let transcript := command.run host loaded []
      send transcript.output
      pure transcript

/-- Carries out a command and gives its exit code. -/
def carryOut (command : Command) : IO UInt32 := do
  match ← loadFor command with
  | .ok loaded =>
      for warning in loaded.warnings do
        IO.eprintln warning.message
      finish (← carryOutWith (← host) command loaded)
  | .error fault => finish (Command.failed (.location fault) "" [])

end Reckoner.Program

/-- Runs the program. -/
def main (arguments : List String) : IO UInt32 :=
  Reckoner.Program.carryOut (Reckoner.Command.ofArguments arguments)

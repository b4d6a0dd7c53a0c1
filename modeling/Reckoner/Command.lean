/-
Module: Reckoner.Command
Layer: Command line
Purpose: The command line. Its arguments are read as one of a few commands; a command that needs
  settings is carried out with what loading them gave; and what comes of it is a transcript: an exit
  code, what is printed, and what is remarked. The console, and the texts that describe the machine
  and the command line, are those of the host that the program runs on.
Main exports: Command, Command.ofArguments, Command.source, Command.Host, Command.Deed,
  Command.calculating, Command.drawing, Command.readerOf, Command.ofLoop, Command.Transcript,
  Command.run, Command.runIn
-/
import Reckoner.Command.Options
import Reckoner.Session
import Reckoner.Settings.Location

namespace Reckoner

/-- What a command line asks for. -/
inductive Command where
  | version
  | help
  /-- The arguments make no sense. -/
  | misuse
  /-- To read lines, with the settings at a path if one is given; trees may be turned on or off. -/
  | converse (configuration : Option String) (showTree : Option Bool)
  /-- To calculate one line, possibly showing its tree. -/
  | calculate (line : String) (showTree : Bool)
  /-- To show the tree of one line. -/
  | draw (line : String)
deriving DecidableEq, Repr

namespace Command

/-- The version of the program. -/
def versionNumber : String := "0.1.0"

/-- The line that names the program and its version. -/
def versionLine : String := "intcalc version " ++ versionNumber

/-!
### Arguments
-/

/-- The meanings of all options. -/
inductive Meaning where
  | version
  | verbose
  | help
  | configuration
  | showTree
  | hideTree
  | tree
deriving DecidableEq, Repr

def helpForm : Options.Form Meaning := ⟨["--help"], .help, false⟩

/-- The options in front of the name of a command. -/
def generalForms : List (Options.Form Meaning) :=
  [⟨["--version"], .version, false⟩, ⟨["--verbose"], .verbose, false⟩, helpForm]

/-- The options of the command that reads lines. -/
def converseForms : List (Options.Form Meaning) :=
  [⟨["--config", "-c"], .configuration, true⟩, ⟨["--show-tree"], .showTree, false⟩,
   ⟨["--no-show-tree"], .hideTree, false⟩, helpForm]

/-- The options of the command that calculates a line. -/
def calculateForms : List (Options.Form Meaning) :=
  [⟨["--tree", "-t"], .tree, false⟩, helpForm]

/-- The command of an option that is acted on before all else. -/
def urgent? : Meaning × Option String → Option Command
  | (.version, _) => some version
  | (.help, _) => some help
  | _ => none

/-- Reads the arguments behind the name of a command, unless its options ask for something else. -/
def behindName (forms : List (Options.Form Meaning)) (arguments : List String)
    (command : Options.Split Meaning → Command) : Command :=
  match Options.split forms true arguments with
  | none => misuse
  | some found =>
      match found.options.findSome? urgent? with
      | some other => other
      | none => command found

/-- The command that reads lines takes no argument that is not an option. Of several options of one
    kind the last one holds, and a path has to be one. -/
def converseOf (found : Options.Split Meaning) : Command :=
  match found.others with
  | [] =>
      let configuration := found.options.reverse.findSome? fun
        | (.configuration, value) => value
        | _ => none
      let showTree := found.options.reverse.findSome? fun
        | (.showTree, _) => some true
        | (.hideTree, _) => some false
        | _ => none
      if configuration.any Path.endsEarly then misuse else converse configuration showTree
  | _ :: _ => misuse

/-- The command that calculates takes the line. -/
def calculateOf (found : Options.Split Meaning) : Command :=
  match found.others with
  | [line] => calculate line (found.options.any fun option => option.1 = .tree)
  | _ => misuse

/-- The command that draws a tree takes the line. -/
def drawOf (found : Options.Split Meaning) : Command :=
  match found.others with
  | [line] => draw line
  | _ => misuse

/-- The command of a name and the arguments behind it. -/
def named? (name : String) (arguments : List String) : Option Command :=
  if name = "repl" then some (behindName converseForms arguments converseOf)
  else if name = "eval" then some (behindName calculateForms arguments calculateOf)
  else if name = "tree" then some (behindName [helpForm] arguments drawOf)
  else none

/-- What an unknown name means. One that looks like an option, because two dashes ended the options
    before it, is given another chance to be one. -/
def unknownName (arguments : List String) : Command :=
  match Options.split generalForms false arguments with
  | none => misuse
  | some found => (found.options.findSome? urgent?).getD misuse

/-- Reads the arguments of a command line. Without the name of a command, lines are read. -/
def ofArguments (arguments : List String) : Command :=
  match Options.split generalForms false arguments with
  | none => misuse
  | some found =>
      match found.options.findSome? urgent?, found.others with
      | some other, _ => other
      | none, [] => converse none none
      | none, name :: behind => (named? name behind).getD (unknownName (name :: behind))

/-!
### Single lines
-/

/-- What a command that takes one line does: it prints, and then it ends with an exit code, unless a
    fault breaks it off. -/
structure Deed where
  prints : List Print
  ending : Except Fault Nat

/-- Calculates a line. The tree is printed first if it is asked for, then the calculation is
    reported, and without a value the command fails. -/
def calculating (settings : Settings) (line : String) (showTree : Bool) : Deed :=
  match Line.calculate line with
  | .error fault => ⟨[], .error fault⟩
  | .ok calculation =>
      ⟨Session.drawn settings showTree calculation.tree ++ Session.report settings calculation,
        .ok (if calculation.value.isSome then 0 else 1)⟩

/-- Draws the tree of a line, and prints the diagnostics behind it. -/
def drawing (settings : Settings) (line : String) : Deed :=
  let tree := Tree.ofLine line
  ⟨Session.treePrint settings tree.root ::
    tree.diagnostics.map (Session.messagePrint settings), .ok 0⟩

/-!
### Transcripts
-/

inductive Failure where
  /-- The configuration gives no settings. -/
  | configuration (failure : Settings.Failure)
  /-- The place of the configuration cannot be asked for. -/
  | location (fault : Settings.PathFault)
  /-- No line can be asked for with the prompt. -/
  | prompt (fault : Console.Fault)
  /-- The calculation of a line has broken off. -/
  | calculation (fault : Fault)
deriving DecidableEq, Repr

/-- All that a command line leads to: the exit code, what is printed, the refusal of the settings,
    the warnings, and the failure that ends the program early if one does. -/
structure Transcript where
  exitCode : Nat
  output : String
  complaint : String
  warnings : List Settings.Warning
  failure : Option Failure

/-- The transcript of a program that ends early, after some output. -/
def failed (failure : Failure) (output : String) (warnings : List Settings.Warning) : Transcript :=
  ⟨1, output, "", warnings, some failure⟩

/-- A transcript without complaints. -/
def quiet (exitCode : Nat) (output : String) : Transcript :=
  ⟨exitCode, output, "", [], none⟩

def Deed.transcript (console : Console) (deed : Deed) : Transcript :=
  match deed.ending with
  | .ok exitCode => quiet exitCode (console.printed deed.prints)
  | .error fault => failed (.calculation fault) (console.printed deed.prints) []

/-- The settings of a read loop in which trees may have been turned on or off. -/
def adjusted (settings : Settings) (showTree : Option Bool) : Settings :=
  match showTree with
  | some shown => { settings with showTree := shown }
  | none => settings

/-- A console serves the lines of its input one after the other, as long as it can ask with the
    prompt. -/
def readerOf (console : Console) (lines : List String) : Session.Reader :=
  fun count prompt =>
    match console.ask prompt with
    | .ok _ => Session.Reader.ofLines lines count prompt
    | .error fault => .failed fault

/-- What appears in one turn of a session: the prompt, and behind it what is printed. -/
def turnOutput (console : Console) (turn : Session.Turn) : String :=
  let prompt :=
    match console.ask turn.prompt with
    | .ok shown => shown
    | .error _ => ""
  prompt ++ console.printed turn.prints

/-- The transcript of a read loop. -/
def ofLoop (console : Console) (loop : Session.Loop) : Transcript :=
  let output := String.join (loop.turns.map (turnOutput console))
  match loop.status with
  | .reading | .ended => quiet 0 output
  | .unread fault => failed (.prompt fault) output []
  | .broken fault => failed (.calculation fault) output []

/-- Reads the lines of an input. One pass more than there are lines finds its end. -/
def conversation (console : Console) (settings : Settings) (lines : List String) : Transcript :=
  ofLoop console (.after settings (readerOf console lines) (lines.length + 1))

/-!
### Carrying out
-/

/-- What the program runs on: the console, the lines that describe the machine behind the version,
    and the text that explains the command line. -/
structure Host where
  console : Console
  description : List String
  help : String

/-- Carries out a command whose settings have been loaded, with the lines of the input. -/
def withSettings (host : Host) (command : Command) (settings : Settings) (lines : List String) :
    Transcript :=
  match command with
  | converse _ showTree => conversation host.console (adjusted settings showTree) lines
  | calculate line showTree => (calculating settings line showTree).transcript host.console
  | draw line => (drawing settings line).transcript host.console
  | version => quiet 0 (String.join ((versionLine :: host.description).map (· ++ "\n")))
  | help => quiet 0 (host.help ++ "\n")
  | misuse => quiet 2 ""

/-- Where the settings of a command come from. -/
inductive Source where
  /-- The command needs no settings. -/
  | nowhere
  /-- The configuration file is looked for. -/
  | search
  /-- The configuration file is at a path. -/
  | path (path : Path)
deriving DecidableEq, Repr

/-- Where the settings of a command come from. -/
def source : Command → Source
  | converse (some text) _ => .path (Path.ofText text)
  | converse none _ | calculate .. | draw _ => .search
  | version | help | misuse => .nowhere

/-- Carries out a command, given what loading its settings gave. Refused settings are complained
    about and end the program with code 2, and any other failure with code 1. -/
def run (host : Host) (command : Command) (loaded : Settings.Loaded) (lines : List String) :
    Transcript :=
  match loaded.outcome with
  | .ok settings => { command.withSettings host settings lines with warnings := loaded.warnings }
  | .error failure =>
      match failure.message? with
      | some message => ⟨2, "", message, loaded.warnings, none⟩
      | none => failed (.configuration failure) "" loaded.warnings

/-- What loading the settings from a folder gives, with the path that the environment gives for the
    configuration, unless the configuration cannot be looked for. -/
def loadIn (rules : Settings.Rules) (folder : Folder) (variableValue : Option String)
    (source : Source) : Except Settings.PathFault Settings.Loaded :=
  let loadAt (path : Path) : Settings.Loaded :=
    Settings.load rules path.text (folder.entryAt path)
  match source with
  | .nowhere => .ok ⟨.ok Settings.standard, []⟩
  | .path path => .ok (loadAt path)
  | .search =>
      match Settings.pathOfEnvironment variableValue with
      | some path => .ok (loadAt path)
      | none =>
          (Settings.locateIn folder [] ⟨"", []⟩).map fun
            | some place => loadAt ⟨"", place⟩
            | none => ⟨.ok Settings.standard, []⟩

/-- Carries out a command line in a folder, with the path that the environment gives for the
    configuration. -/
def runIn (host : Host) (rules : Settings.Rules) (folder : Folder) (variableValue : Option String)
    (arguments : List String) (input : String) : Transcript :=
  let command := ofArguments arguments
  match loadIn rules folder variableValue command.source with
  | .ok loaded => command.run host loaded ((Text.lines input.toList).map String.ofList)
  | .error fault => failed (.location fault) "" []

end Command

end Reckoner

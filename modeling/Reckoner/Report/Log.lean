/-
Module: Reckoner.Report.Log
Layer: Diagnostics
Purpose: A log of reports, to which reports are only ever added. A snapshot is what the log held
  when it was taken; later reports do not change it.
Main exports: Log, Log.Request, Log.perform, Log.performAll
-/
import Reckoner.Report
import Reckoner.Text.Quoted

namespace Reckoner

/-- Reports in the order in which they were made, and the snapshot taken last. -/
structure Log where
  reports : List Report
  snapshot : List Report
deriving DecidableEq, Repr

namespace Log

/-- The log in which nothing has been reported. -/
def empty : Log := ⟨[], []⟩

def messages (log : Log) : List String :=
  log.reports.map Report.message

def display (log : Log) : String :=
  "DiagnosticBag(" ++ Text.quotedList log.messages ++ ")"

inductive Request where
  | add (reports : List Report)
  | takeSnapshot
  | showSnapshot
  | showReports
  | display
deriving DecidableEq, Repr

/-- The answer to a request: nothing, messages, or the log on one line. -/
inductive Answer where
  | done
  | messages (texts : List String)
  | line (text : String)
deriving DecidableEq, Repr

def perform (log : Log) : Request → Answer × Log
  | .add reports => (.done, { log with reports := log.reports ++ reports })
  | .takeSnapshot => (.done, { log with snapshot := log.reports })
  | .showSnapshot => (.messages (log.snapshot.map Report.message), log)
  | .showReports => (.messages log.messages, log)
  | .display => (.line log.display, log)

/-- Answers requests one after the other. Each answer comes with the log behind it. -/
def performAll (log : Log) : List Request → List (Answer × Log)
  | [] => []
  | request :: requests =>
      let (answer, next) := log.perform request
      (answer, next) :: next.performAll requests

end Log

end Reckoner

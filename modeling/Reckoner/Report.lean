/-
Module: Reckoner.Report
Layer: Diagnostics
Purpose: The reports that reading a line can make, each a cause with its data, and their wording. No
  other module words a diagnostic.
Main exports: Report, Report.message
-/

namespace Reckoner

/-- What can be wrong with a line. Reading never stops at a report: it goes on with the rest. -/
inductive Report where
  /-- A run of digits denotes no word. The whole line is quoted, not only the run. -/
  | invalidNumber (line : String)
  /-- A character that no token starts with. -/
  | badCharacter (character : String)
  /-- A token of one kind stands where another kind was expected. -/
  | unexpected (actual expected : String)
  /-- A group is nested deeper than the limit. -/
  | tooDeep (position limit : Int)
  /-- A message that is passed on as it is. -/
  | verbatim (text : String)
deriving DecidableEq, Repr

/-- The wording of a report. -/
def Report.message : Report → String
  | .invalidNumber line => s!"{line} isn't valid Int32."
  | .badCharacter character => s!"ERR: bad character input: '{character}'"
  | .unexpected actual expected => s!"ERR: Unexpected token <{actual}>, expected <{expected}>"
  | .tooDeep position limit =>
      s!"ERR: Parentheses nested deeper than {limit} levels at position {position}"
  | .verbatim text => text

end Reckoner

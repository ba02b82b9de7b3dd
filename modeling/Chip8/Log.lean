import Chip8.Text.Terminal

/-!
# Log records

Operations report what they do as a list of records, each with a severity and one text. What
the user sees of a record is `LogRecord.shown`.
-/

namespace Chip8

/-- How much a record matters, from the least to the most. -/
inductive Severity
  | trace
  | debug
  | info
  | warn
  | error
  deriving DecidableEq

/-- The name of a severity in lower case. -/
def Severity.name : Severity → String
  | trace => "trace"
  | debug => "debug"
  | info => "info"
  | warn => "warn"
  | error => "error"

/-- One report of what was done. -/
structure LogRecord where
  severity : Severity
  text : String
  deriving DecidableEq

namespace LogRecord

/-- A text whose lines after the first are set in by four blanks. -/
def indent (text : String) : String :=
  String.ofList (text.toList.flatMap fun char =>
    if char = '\n' then ['\n', ' ', ' ', ' ', ' '] else [char])

/-- The record as the user sees it: no line of its text can be taken for another record, and
nothing in it drives the terminal. -/
def shown (record : LogRecord) : LogRecord :=
  { record with text := Terminal.plain (indent record.text) }

end LogRecord

end Chip8

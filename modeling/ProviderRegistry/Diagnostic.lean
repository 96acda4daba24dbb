import ProviderRegistry.Datum
import ProviderRegistry.Text.Markup

/-!
# Diagnostics

What is reported about declarations and files. Reports are collected in the
order in which they are made, so that one bad declaration never stops the
rest; a console, where there is one, prints each as it is made.
-/

namespace ProviderRegistry

/-- How bad a report is. -/
inductive Severity where
  | error
  | warning
  | note
  deriving DecidableEq, Repr

namespace Severity

/-- The word for a severity. -/
def label : Severity → String
  | error => "error"
  | warning => "warning"
  | note => "note"

/-- The severity that a word stands for. -/
def ofLabel? (word : String) : Option Severity :=
  [error, warning, note].find? (·.label == word)

end Severity

/-- A report, tied to a declaration if there is one. -/
structure Diagnostic where
  severity : Severity := .error
  message : String
  element : Option Element := none

namespace Diagnostic

/-- The report as one line: the place, where there is one, the severity and the
message. -/
def format (d : Diagnostic) : String :=
  let body := d.severity.label ++ ": " ++ d.message
  match d.element with
  | none => body
  | some e => e.location ++ ": " ++ body

/-- The report as a console shows it. -/
def display (d : Diagnostic) : String :=
  let body := d.severity.label ++ ": " ++ Text.verbatim d.message
  Text.laidOut (match d.element with
    | none => body
    | some e => Text.verbatim e.location ++ ": " ++ body)

/-- Whether the report is an error. -/
def isError (d : Diagnostic) : Bool := d.severity == .error

/-- A report from the data of its fields. -/
def check (severity message : Datum) (element : Option Element) : Checked Diagnostic :=
  let severity : Checked Severity := match severity with
    | .str word => match Severity.ofLabel? word with
      | some s => .ok s
      | none => Datum.refuse ["severity"] .enumMember
    | _ => Datum.refuse ["severity"] .enumMember
  (Checked.both severity (message.checkString ["message"])).map
    fun (severity, message) => { severity, message, element }

end Diagnostic

/-- The reports made so far, oldest first. -/
structure Reports where
  diagnostics : List Diagnostic := []

namespace Reports

/-- Adds a report. -/
def report (m : Reports) (d : Diagnostic) : Reports := ⟨m.diagnostics ++ [d]⟩

/-- Adds an error. -/
def error (m : Reports) (message : String) (element : Option Element := none) : Reports :=
  m.report { message, element }

/-- Adds errors that are tied to no declaration. -/
def errors (m : Reports) (messages : List String) : Reports :=
  ⟨m.diagnostics ++ messages.map fun message => { message := message }⟩

/-- How many errors have been reported. -/
def errorCount (m : Reports) : Nat := (m.diagnostics.filter (·.isError)).length

/-- Whether any error has been reported. -/
def hasErrors (m : Reports) : Bool := 0 < m.errorCount

/-- The reports after the first `index` ones. A negative index counts from the
end, and one out of range stands for the end that it is beyond. -/
def since (m : Reports) (index : Int) : List Diagnostic :=
  let n := m.diagnostics.length
  m.diagnostics.drop (if index < 0 then (n + index).toNat else index.toNat)

/-- What a console prints for the reports: each on a line of its own. -/
def console (m : Reports) : String :=
  String.join (m.diagnostics.map fun d => d.display ++ "\n")

end Reports

end ProviderRegistry

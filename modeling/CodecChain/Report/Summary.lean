import CodecChain.Report.Basic
import CodecChain.Run.Execution

/-
  This file defines the summary of a run: its report together
  with its trace and its diagnostics, as JSON text.

  Key definitions include:
    * `StepEntry`
    * `NoteEntry`
    * `Summary`
    * `Summary.toJson`
    * `Summary.print`
-/

namespace CodecChain

------------------------------------------------------------
-- Entries
------------------------------------------------------------

/- An entry for a completed step. -/
structure StepEntry where
  step : Nat
  token : Text
  action : Text
  codec : Option Text
  content : Text
deriving DecidableEq, Repr

/- An entry for a step that was skipped. -/
structure NoteEntry where
  step : Nat
  token : Text
  kind : Text
  message : Text
deriving DecidableEq, Repr

/- An entry for a completed step as data. -/
def StepEntry.toJson (e : StepEntry) : Json :=
  .record
    [("step", .ofNat e.step),
     ("token", .text e.token),
     ("action", .text e.action),
     ("codec", .ofText? e.codec),
     ("content", .text e.content)]

/- An entry for a skipped step as data. -/
def NoteEntry.toJson (e : NoteEntry) : Json :=
  .record
    [("step", .ofNat e.step),
     ("token", .text e.token),
     ("kind", .text e.kind),
     ("message", .text e.message)]

/- The entry of a completed step. -/
def Record.toEntry (r : Record) : StepEntry where
  step := r.step
  token := r.token
  action := .ofString r.action.key
  codec := r.action.codec?.map Codec.tag
  content := r.content

/- The entry of a diagnostic. -/
def Diagnostic.toEntry (d : Diagnostic) : NoteEntry where
  step := d.step
  token := d.token
  kind := .ofString d.key
  message := .ofString d.cause.message

------------------------------------------------------------
-- Summaries
------------------------------------------------------------

/- All there is to say about a run. -/
structure Summary where
  report : Report
  trace : List StepEntry
  diagnostics : List NoteEntry
deriving DecidableEq, Repr

namespace Summary

/- The summary of a report and its execution. -/
def compose
    (report : Report)
    (e : Execution) : Summary where
  report := report
  trace := e.trace.map Record.toEntry
  diagnostics := e.diagnostics.map Diagnostic.toEntry

/- The summary as data. -/
def toJson (s : Summary) : Json :=
  .record
    [("report", s.report.toJson),
     ("trace", .array (s.trace.map StepEntry.toJson)),
     ("diagnostics", .array (s.diagnostics.map NoteEntry.toJson))]

/- The summary as JSON text. -/
def print (s : Summary) : Text :=
  s.toJson.print

end Summary

end CodecChain

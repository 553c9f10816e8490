import CodecChain.Chain.Basic
import CodecChain.Json.Value

/-
  This file defines the report on a run, as text and as data.

  Key definitions include:
    * `Report`
    * `Report.compose`
    * `Report.render`
    * `Report.toJson`
-/

namespace CodecChain

/- The four sections of a report in order. -/
structure Report where
  initial : Text
  instructions : Text
  inverted : Text
  final : Text
deriving DecidableEq, Repr

namespace Report

/- The report on a chain that made one content of another. -/
def compose
    (initial : Text)
    (chain : Chain)
    (final : Text) : Report where
  initial := initial
  instructions := chain.source
  inverted := chain.inverted
  final := final

/- A section under its label. -/
def labelled (label : String) (content : Text) : Text :=
  .ofString label ++ [':', ' '] ++ content ++ ['\n']

/- The report as text, one labelled section after another. -/
def render (r : Report) : Text :=
  labelled "Original Content" r.initial ++
    labelled "Instructions" r.instructions ++
    labelled "Inverted Instructions" r.inverted ++
    labelled "Final Result" r.final

/- The report as data. -/
def toJson (r : Report) : Json :=
  .record
    [("original_content", .text r.initial),
     ("instructions", .text r.instructions),
     ("inverted_instructions", .text r.inverted),
     ("final_content", .text r.final)]

end Report

end CodecChain

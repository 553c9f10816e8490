import CodecChain.Config.Basic

/-
  This file defines the fields of a configuration file, and
  how the values of a file change a configuration. It does so
  for every kind of values from which texts, truth values and
  names can be had.

  Key definitions include:
    * `Config.Field`
    * `Config.Field.key`
    * `Config.Notation`
    * `Config.Field.change?`
    * `Config.ofMembers?`
    * `Config.ofItems?`

  Main statements:
    * `Field.ofKey?_key`: a key finds its field.
-/

namespace CodecChain.Config

------------------------------------------------------------
-- Fields
------------------------------------------------------------

/- The fields of a configuration file. -/
inductive Field where
  | separator
  | inputPath
  | parametersPath
  | outputPath
  | markerPath
  | guidePath
  | trimContent
  | reportFormat
  | echoTrace
deriving DecidableEq, Repr

namespace Field

/- All fields in order. -/
def all : List Field :=
  [separator, inputPath, parametersPath, outputPath, markerPath,
   guidePath, trimContent, reportFormat, echoTrace]

/- The key of a field. -/
def name : Field → String
  | separator => "separator"
  | inputPath => "input_path"
  | parametersPath => "parameters_path"
  | outputPath => "output_path"
  | markerPath => "marker_path"
  | guidePath => "guide_path"
  | trimContent => "trim_content"
  | reportFormat => "report_format"
  | echoTrace => "echo_trace"

/- The key of a field as a text. -/
def key (field : Field) : Text :=
  .ofString field.name

/- The field with the given key. -/
def ofKey? (t : Text) : Option Field :=
  all.find? fun field => field.key = t

/- A key finds its field. -/
theorem ofKey?_key (field : Field) :
    ofKey? field.key = some field := by
  cases field <;> decide +kernel

end Field

------------------------------------------------------------
-- Values
------------------------------------------------------------

/- What can be had from the values of a file. -/
structure Notation (V : Type) where
  text? : V → Option Text
  bool? : V → Option Bool
  name? : V → Option Text

variable {V : Type}

/- The only character of a text. -/
def onlyChar? : Text → Option Char
  | [c] => some c
  | _ => none

/- The configuration with a field set to a value. -/
def Field.change?
    (n : Notation V)
    (value : V)
    (config : Config) : Field → Option Config
  | separator =>
      ((n.text? value).bind onlyChar?).map fun c =>
        { config with separator := c }
  | inputPath =>
      (n.text? value).map fun p => { config with inputPath := p }
  | parametersPath =>
      (n.text? value).map fun p =>
        { config with parametersPath := p }
  | outputPath =>
      (n.text? value).map fun p => { config with outputPath := p }
  | markerPath =>
      (n.text? value).map fun p => { config with markerPath := p }
  | guidePath =>
      (n.text? value).map fun p => { config with guidePath := p }
  | trimContent =>
      (n.bool? value).map fun b => { config with trimContent := b }
  | reportFormat =>
      ((n.name? value).bind ReportFormat.ofName?).map fun f =>
        { config with reportFormat := f }
  | echoTrace =>
      (n.bool? value).map fun b => { config with echoTrace := b }

------------------------------------------------------------
-- Files
------------------------------------------------------------

/-
  The configuration with the members of a mapping applied in
  order. Unknown keys do not count; a known one must not come
  again after those that have been seen.
-/
def applyMembers?
    (n : Notation V) :
    List Field → Config → List (Text × V) → Option Config
  | _, config, [] => some config
  | seen, config, (key, value) :: members =>
      match Field.ofKey? key with
      | none => applyMembers? n seen config members
      | some field =>
          if field ∈ seen then
            none
          else do
            let config ← field.change? n value config
            applyMembers? n (field :: seen) config members

/- The configuration of a mapping; missing keys do not count. -/
def ofMembers?
    (n : Notation V)
    (members : List (Text × V)) : Option Config :=
  applyMembers? n [] default members

/- The configuration with values applied to fields in turn. -/
def applyItems?
    (n : Notation V) :
    List Field → Config → List V → Option Config
  | _, config, [] => some config
  | [], _, _ :: _ => none
  | field :: fields, config, value :: values => do
      let config ← field.change? n value config
      applyItems? n fields config values

/-
  The configuration of a sequence, whose values are those of
  the fields in order; there must not be too many.
-/
def ofItems?
    (n : Notation V)
    (values : List V) : Option Config :=
  applyItems? n Field.all default values

end CodecChain.Config

import CodecChain.Chain.Basic
import CodecChain.Files.Path
import CodecChain.Text.Alphabetic
import CodecChain.Text.Numeric

/-
  This file defines the configuration of the program: which
  files it works on, and how it reads and reports.

  Key definitions include:
    * `ReportFormat`
    * `Config`
    * `Config.default`
    * `Config.CanSeparate`
    * `Config.rootedAt`
    * `Config.SameAs`

  Main statements:
    * `Config.canSeparate_default`: the separator where none
      is set is a valid one.
-/

namespace CodecChain

------------------------------------------------------------
-- Report Formats
------------------------------------------------------------

/- The forms in which a report is written. -/
inductive ReportFormat where
  | text
  | json
deriving DecidableEq, Repr

namespace ReportFormat

/- The name of a format. -/
def name : ReportFormat → Text
  | text => ['t', 'e', 'x', 't']
  | json => ['j', 's', 'o', 'n']

/- The format with exactly the given name. -/
def ofName? (t : Text) : Option ReportFormat :=
  [text, json].find? fun format => format.name = t

/-
  The format that a word asks for, in whatever case; what is
  no format is given back in small letters.
-/
def ofWord (t : Text) : Except Text ReportFormat :=
  let word := t.map Char.toLower
  if word = ['t', 'x', 't'] then
    .ok text
  else
    match ofName? word with
    | some format => .ok format
    | none => .error word

end ReportFormat

------------------------------------------------------------
-- Configurations
------------------------------------------------------------

/- What can be set. -/
structure Config where
  separator : Char
  inputPath : Path
  parametersPath : Path
  outputPath : Path
  markerPath : Path
  guidePath : Path
  trimContent : Bool
  reportFormat : ReportFormat
  echoTrace : Bool
deriving DecidableEq, Repr

namespace Config

/- The configuration where nothing is set. -/
def default : Config where
  separator := Chain.defaultSeparator
  inputPath := .ofString "Input.txt"
  parametersPath := .ofString "Parameters.txt"
  outputPath := .ofString "Processed.txt"
  markerPath := .ofString "SetupCheck"
  guidePath := .ofString "Instructions.txt"
  trimContent := true
  reportFormat := .text
  echoTrace := true

/-
  A character can separate instructions if it is no letter,
  no number and no blank.
-/
def CanSeparate (c : Char) : Prop :=
  Text.isAlphabetic c = false ∧ Text.isNumeric c = false ∧
    Text.isBlank c = false

instance (c : Char) : Decidable (CanSeparate c) := by
  unfold CanSeparate
  infer_instance

/- The separator where none is set is a valid one. -/
theorem canSeparate_default :
    CanSeparate Chain.defaultSeparator := by
  decide +kernel

/- The five paths of a configuration. -/
def paths (config : Config) : List Path :=
  [config.inputPath, config.parametersPath, config.outputPath,
   config.markerPath, config.guidePath]

/- A configuration whose paths are seen from a directory. -/
def rootedAt (directory : Path) (config : Config) : Config :=
  { config with
    inputPath := Path.under directory config.inputPath
    parametersPath := Path.under directory config.parametersPath
    outputPath := Path.under directory config.outputPath
    markerPath := Path.under directory config.markerPath
    guidePath := Path.under directory config.guidePath }

/-
  Two configurations are the same when they agree on all
  settings, and their paths part by part.
-/
def SameAs (a b : Config) : Prop :=
  a.separator = b.separator ∧
    a.paths.map Path.parts = b.paths.map Path.parts ∧
    a.trimContent = b.trimContent ∧
    a.reportFormat = b.reportFormat ∧
    a.echoTrace = b.echoTrace

instance (a b : Config) : Decidable (SameAs a b) := by
  unfold SameAs
  infer_instance

end Config

end CodecChain

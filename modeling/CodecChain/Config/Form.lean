import CodecChain.Config.Field
import CodecChain.Json.Variant
import CodecChain.Yaml.Reader
import CodecChain.Yaml.Writer

/-
  This file defines the two forms of a configuration file. A
  file whose name says so holds JSON text, all others hold
  YAML text.

  Key definitions include:
    * `Config.Form`
    * `Config.Form.ofPath`
    * `Config.ofJson?`
    * `Config.ofYaml?`
    * `Config.Form.parse?`
    * `Config.Form.print`
-/

namespace CodecChain.Config

------------------------------------------------------------
-- JSON
------------------------------------------------------------

/- What can be had from JSON values. -/
def jsonNotation : Notation Json where
  text?
    | .string s => s
    | _ => none
  bool?
    | .bool b => some b
    | _ => none
  name? := Json.variant?

/- Members whose keys are texts. -/
def textKeys? :
    List (Option Text × Json) → Option (List (Text × Json))
  | [] => some []
  | (key, value) :: members => do
      let key ← key
      let members ← textKeys? members
      pure ((key, value) :: members)

/- The configuration of a JSON value. -/
def ofJson? : Json → Option Config
  | .object members =>
      (textKeys? members).bind (ofMembers? jsonNotation)
  | .array items => ofItems? jsonNotation items
  | _ => none

/- A configuration as a JSON value. -/
def toJson (config : Config) : Json :=
  .record
    [(Field.separator.name, .text [config.separator]),
     (Field.inputPath.name, .text config.inputPath),
     (Field.parametersPath.name, .text config.parametersPath),
     (Field.outputPath.name, .text config.outputPath),
     (Field.markerPath.name, .text config.markerPath),
     (Field.guidePath.name, .text config.guidePath),
     (Field.trimContent.name, .bool config.trimContent),
     (Field.reportFormat.name, .text config.reportFormat.name),
     (Field.echoTrace.name, .bool config.echoTrace)]

------------------------------------------------------------
-- YAML
------------------------------------------------------------

/- What can be had from YAML values, if they are scalars. -/
def yamlNotation : Notation (Option Yaml.Scalar) where
  text? value := value.map Yaml.Scalar.text
  bool? value := value.bind Yaml.Scalar.bool?
  name? value := value.bind Yaml.Scalar.name?

/-
  The configuration of YAML text. A text of blanks alone sets
  nothing.
-/
def ofYaml? (t : Text) : Option Config :=
  if Text.trim t = [] then
    some default
  else
    (Yaml.entries? t).bind (ofMembers? yamlNotation)

/- A truth value as a word. -/
def boolWord : Bool → Text
  | true => ['t', 'r', 'u', 'e']
  | false => ['f', 'a', 'l', 's', 'e']

/- A configuration as YAML text. -/
def toYaml (config : Config) : Text :=
  [(Field.separator, Yaml.writeQuoted [config.separator]),
   (Field.inputPath, Yaml.writeScalar config.inputPath),
   (Field.parametersPath, Yaml.writeScalar config.parametersPath),
   (Field.outputPath, Yaml.writeScalar config.outputPath),
   (Field.markerPath, Yaml.writeScalar config.markerPath),
   (Field.guidePath, Yaml.writeScalar config.guidePath),
   (Field.trimContent, boolWord config.trimContent),
   (Field.reportFormat, config.reportFormat.name),
   (Field.echoTrace, boolWord config.echoTrace)].flatMap
    fun (field, value) => Yaml.writeEntry field.key value

------------------------------------------------------------
-- Forms
------------------------------------------------------------

/- The forms of configuration files. -/
inductive Form where
  | json
  | yaml
deriving DecidableEq, Repr

namespace Form

/- The form of the file that a path names. -/
def ofPath (p : Path) : Form :=
  if Path.isJson p then json else yaml

/- The configuration of a text in a form. -/
def parse? (t : Text) : Form → Option Config
  | json => (Json.parse? t).bind ofJson?
  | yaml => ofYaml? t

/- A configuration as a text in a form. -/
def print (config : Config) : Form → Text
  | json => config.toJson.print
  | yaml => config.toYaml

end Form

end CodecChain.Config

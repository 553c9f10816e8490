import CodecChain.Config.Store
import CodecChain.Proofs.Json.RoundTrip
import CodecChain.Proofs.Text.Trimmed
import CodecChain.Proofs.Yaml.Entries

/-
  Printed configurations are read back. A file of all fields
  sets them one after the other, so nothing is left of what
  was there before; and in either form the values that are
  written for the fields of a configuration set the fields of
  that configuration.

  Key definitions include:
    * `Config.Field.copy`
    * `Config.Field.json`
    * `Config.Field.entry`

  Main statements:
    * `Config.ofMembers?_map`
    * `Config.ofJson?_toJson`
    * `Config.ofYaml?_toYaml`
    * `Config.read_print`
-/

------------------------------------------------------------
-- Fields
------------------------------------------------------------

namespace CodecChain

namespace Config

variable {V : Type} {n : Notation V} {config : Config}

/- A configuration with a field as it is in another one. -/
def Field.copy (source config : Config) : Field → Config
  | separator => { config with separator := source.separator }
  | inputPath => { config with inputPath := source.inputPath }
  | parametersPath =>
      { config with parametersPath := source.parametersPath }
  | outputPath => { config with outputPath := source.outputPath }
  | markerPath => { config with markerPath := source.markerPath }
  | guidePath => { config with guidePath := source.guidePath }
  | trimContent =>
      { config with trimContent := source.trimContent }
  | reportFormat =>
      { config with reportFormat := source.reportFormat }
  | echoTrace => { config with echoTrace := source.echoTrace }

/- Nothing is left of a configuration when all is copied. -/
theorem foldl_copy_all
    (source config : Config) :
    Field.all.foldl (fun c field => field.copy source c) config =
      source := by
  simp only [Field.all, List.foldl_cons, List.foldl_nil,
    Field.copy]

/-
  Values that set the fields of a configuration set those that
  are given, if none of them has been seen.
-/
theorem applyMembers?_map
    {value : Field → V}
    {seen fields : List Field}
    (before : Config)
    (hValue :
      ∀ (field : Field) (c : Config),
        field.change? n (value field) c =
          some (field.copy config c))
    (hNew : ∀ field ∈ fields, field ∉ seen)
    (hNodup : fields.Nodup) :
    applyMembers? n seen before
        (fields.map fun field => (field.key, value field)) =
      some (fields.foldl (fun c field => field.copy config c)
        before) := by
  -- A field that has been set is among those seen afterwards,
  -- so the induction is over any that have been seen.
  induction fields generalizing seen before with
  | nil => rfl
  | cons field fields ih =>
      rw [List.forall_mem_cons] at hNew
      rw [List.nodup_cons] at hNodup
      have hLater :
          ∀ other ∈ fields, other ∉ field :: seen := by
        intro other hOther hMem
        rcases List.mem_cons.mp hMem with rfl | hSeen
        · exact hNodup.1 hOther
        · exact hNew.2 other hOther hSeen
      rw [List.map_cons, List.foldl_cons, applyMembers?,
        Field.ofKey?_key]
      dsimp only
      rw [if_neg hNew.1, hValue]
      exact ih _ hLater hNodup.2

/- Such values for all fields give the configuration. -/
theorem ofMembers?_map
    {value : Field → V}
    (hValue :
      ∀ (field : Field) (c : Config),
        field.change? n (value field) c =
          some (field.copy config c)) :
    ofMembers? n
        (Field.all.map fun field => (field.key, value field)) =
      some config := by
  have hNodup : Field.all.Nodup := by decide
  rw [ofMembers?, applyMembers?_map default hValue
    (fun _ _ => List.not_mem_nil) hNodup, foldl_copy_all]

theorem ofName?_name (format : ReportFormat) :
    ReportFormat.ofName? format.name = some format := by
  cases format <;> rfl

------------------------------------------------------------
-- JSON
------------------------------------------------------------

/- What is written for a field in JSON text. -/
def Field.json (config : Config) : Field → Json
  | separator => .text [config.separator]
  | inputPath => .text config.inputPath
  | parametersPath => .text config.parametersPath
  | outputPath => .text config.outputPath
  | markerPath => .text config.markerPath
  | guidePath => .text config.guidePath
  | trimContent => .bool config.trimContent
  | reportFormat => .text config.reportFormat.name
  | echoTrace => .bool config.echoTrace

theorem toJson_eq (config : Config) :
    config.toJson =
      .object (Field.all.map fun field =>
        (some field.key, field.json config)) := by
  simp only [toJson, Json.record, Field.all, List.map_cons,
    List.map_nil, Field.json, Field.key]

theorem change?_json
    (config : Config)
    (field : Field)
    (c : Config) :
    field.change? jsonNotation (field.json config) c =
      some (field.copy config c) := by
  cases field with
  | reportFormat =>
      rw [Field.change?, Field.json]
      exact congrArg (Option.map _)
        (ofName?_name config.reportFormat)
  | _ => rfl

theorem textKeys?_map
    (value : Field → Json)
    (fields : List Field) :
    textKeys?
        (fields.map fun field => (some field.key, value field)) =
      some (fields.map fun field => (field.key, value field)) := by
  induction fields with
  | nil => rfl
  | cons field fields ih =>
      rw [List.map_cons, textKeys?, ih]
      rfl

/- The data of a configuration is read as the configuration. -/
theorem ofJson?_toJson (config : Config) :
    ofJson? config.toJson = some config := by
  rw [toJson_eq, ofJson?, textKeys?_map, Option.bind_some]
  exact ofMembers?_map (change?_json config)

theorem isProper_toJson (config : Config) :
    config.toJson.IsProper := by
  rw [toJson_eq]
  apply Json.IsProper.object
  rw [List.forall_mem_map]
  intro field _
  cases field with
  | trimContent => exact .bool config.trimContent
  | echoTrace => exact .bool config.echoTrace
  | _ => exact Json.isProper_text _

------------------------------------------------------------
-- YAML
------------------------------------------------------------

/- A field with a word that is written as it is. -/
def Field.wordEntry (field : Field) (word : Text) : Yaml.Entry where
  key := field.key
  written := word
  style := .plain
  text := word

/- A field with a path. -/
def Field.pathEntry (field : Field) (p : Path) : Yaml.Entry where
  key := field.key
  written := Yaml.writeScalar p
  style := Yaml.possibleStyle p (Yaml.preferredStyle p)
  text := p

/- A field with a text in quotes. -/
def Field.quotedEntry (field : Field) (t : Text) : Yaml.Entry where
  key := field.key
  written := Yaml.writeQuoted t
  style := Yaml.possibleStyle t .single
  text := t

/- What is written for a field in YAML text. -/
def Field.entry (config : Config) (field : Field) : Yaml.Entry :=
  match field with
  | separator => field.quotedEntry [config.separator]
  | inputPath => field.pathEntry config.inputPath
  | parametersPath => field.pathEntry config.parametersPath
  | outputPath => field.pathEntry config.outputPath
  | markerPath => field.pathEntry config.markerPath
  | guidePath => field.pathEntry config.guidePath
  | trimContent => field.wordEntry (boolWord config.trimContent)
  | reportFormat => field.wordEntry config.reportFormat.name
  | echoTrace => field.wordEntry (boolWord config.echoTrace)

theorem toYaml_eq (config : Config) :
    config.toYaml =
      (Field.all.map (Field.entry config)).flatMap
        Yaml.Entry.print := by
  simp only [toYaml, Field.all, List.map_cons, List.map_nil,
    List.flatMap_cons, List.flatMap_nil, Field.entry,
    Field.quotedEntry, Field.pathEntry, Field.wordEntry,
    Yaml.Entry.print]

/- The key of a field is a word, and a short one. -/
theorem isKey_key (field : Field) : Yaml.IsKey field.key where
  content := by
    cases field <;> decide +kernel
  word := by
    apply List.all_eq_true.mp
    cases field <;> decide +kernel
  short := by
    cases field <;> decide +kernel

theorem key_entry
    (config : Config)
    (field : Field) :
    (field.entry config).key = field.key := by
  cases field <;> rfl

/- A character between instructions does not end a line. -/
theorem not_mem_of_canSeparate
    {c : Char}
    (h : CanSeparate c) :
    '\n' ∉ [c] := by
  rw [List.mem_singleton]
  rintro rfl
  exact absurd h.2.2 (by decide)

theorem isSound_entry
    (h : CanSeparate config.separator)
    (field : Field) :
    (field.entry config).IsSound := by
  have hBool (b : Bool) :
      Yaml.Writes (boolWord b) .plain (boolWord b) := by
    apply Yaml.writes_plain
    cases b <;> decide +kernel
  have hFormat (format : ReportFormat) :
      Yaml.Writes format.name .plain format.name := by
    apply Yaml.writes_plain
    cases format <;> decide +kernel
  constructor
  · rw [key_entry]
    exact isKey_key field
  · cases field with
    | separator =>
        exact Yaml.writes_writeQuoted (not_mem_of_canSeparate h)
    | trimContent => exact hBool config.trimContent
    | reportFormat => exact hFormat config.reportFormat
    | echoTrace => exact hBool config.echoTrace
    | _ => exact Yaml.writes_writeScalar _

theorem change?_entry
    (config : Config)
    (field : Field)
    (c : Config) :
    field.change? yamlNotation
        (some
          { tag := none
            style := (field.entry config).style
            text := (field.entry config).text }) c =
      some (field.copy config c) := by
  have hBool (b : Bool) :
      Yaml.Scalar.bool?
        { tag := none, style := .plain, text := boolWord b } =
          some b := by
    cases b <;> rfl
  cases field with
  | trimContent =>
      exact congrArg (Option.map _) (hBool config.trimContent)
  | reportFormat =>
      exact congrArg (Option.map _)
        (ofName?_name config.reportFormat)
  | echoTrace =>
      exact congrArg (Option.map _) (hBool config.echoTrace)
  | _ => rfl

/- The text of a configuration holds more than blanks. -/
theorem trim_toYaml_ne_nil (config : Config) :
    Text.trim config.toYaml ≠ [] := by
  have hKey : 's' ∈ (Field.entry config .separator).key := by
    rw [key_entry]
    decide +kernel
  have hPrint : 's' ∈ (Field.entry config .separator).print := by
    rw [Yaml.Entry.print_eq]
    exact List.mem_append_left _ hKey
  have hMem : 's' ∈ config.toYaml := by
    rw [toYaml_eq, Field.all, List.map_cons, List.flatMap_cons]
    exact List.mem_append_left _ hPrint
  exact Text.trim_ne_nil_of_mem hMem (by decide)

/- The lines of a configuration are read as the configuration. -/
theorem ofYaml?_toYaml
    (h : CanSeparate config.separator) :
    ofYaml? config.toYaml = some config := by
  have hSound :
      ∀ e ∈ Field.all.map (Field.entry config), e.IsSound := by
    rw [List.forall_mem_map]
    exact fun field _ => isSound_entry h field
  have hSome : Field.all.map (Field.entry config) ≠ [] :=
    List.cons_ne_nil _ _
  have hEntries := Yaml.entries?_flatMap_print hSome hSound
  simp only [List.map_map, Function.comp_def, key_entry]
    at hEntries
  rw [ofYaml?, if_neg (trim_toYaml_ne_nil config), toYaml_eq,
    hEntries, Option.bind_some]
  exact ofMembers?_map (change?_entry config)

------------------------------------------------------------
-- Forms
------------------------------------------------------------

/- A printed configuration is read back in its form. -/
theorem parse?_print
    (form : Form)
    (h : CanSeparate config.separator) :
    form.parse? (form.print config) = some config := by
  cases form with
  | json =>
      rw [Form.parse?, Form.print,
        (isProper_toJson config).parse?_print]
      exact ofJson?_toJson config
  | yaml => exact ofYaml?_toYaml h

theorem check_eq_ok_iff :
    config.check = .ok config ↔ CanSeparate config.separator := by
  unfold check
  by_cases h : CanSeparate config.separator
  · simp [h]
  · simp [h]

/- A valid configuration is read back from its printed form. -/
theorem read_print
    (form : Form)
    (h : config.check = .ok config) :
    read form (form.print config) = .ok config := by
  rw [read, parse?_print form (check_eq_ok_iff.mp h)]
  exact h

end Config

end CodecChain

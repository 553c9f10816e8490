import CodecChain.Proofs.Config.Saving
import CodecChain.Proofs.Config.Settings
import CodecChain.Proofs.Json.Grammar

/-
  What JSON text makes of the default configuration. A file
  with an object changes those fields that its members give,
  whichever way the object is written and in any order, and
  the separator that there is in the end must be a valid one.

  Key definitions include:
    * `Config.Field.IsSetBy`
    * `Config.AreSettings`
    * `Config.Overrides`

  Main statements:
    * `Config.Field.exists_foldl_step`
    * `Config.Overrides.eq`
    * `Config.AreSettings.exists_overrides`
    * `Config.ofJson?_perm`
    * `Config.overrides_default`
-/

------------------------------------------------------------
-- Values
------------------------------------------------------------

namespace CodecChain

namespace Config

open Config.Field

/-
  The values that set a field to what it is in a
  configuration. A format may also be given as an object whose
  only key is the name of the format.
-/
def Field.IsSetBy
    (config : Config)
    (field : Field)
    (value : Json) : Prop :=
  value = field.json config ∨
    field = .reportFormat ∧
      value =
        .object [(some config.reportFormat.name, .null)]

namespace Field

variable {config : Config} {field other : Field} {value : Json}

theorem json_copy_self
    (source config : Config)
    (field : Field) :
    field.json (field.copy source config) =
      field.json source := by
  cases field <;> rfl

theorem json_copy_of_ne
    (source config : Config)
    (h : other ≠ field) :
    other.json (field.copy source config) =
      other.json config := by
  cases field <;> cases other <;>
    first
    | rfl
    | exact absurd rfl h

/- A field is set by what is written for it. -/
theorem IsSetBy.of_json_eq
    {config' : Config}
    (h : field.IsSetBy config value)
    (hSame : field.json config' = field.json config) :
    field.IsSetBy config' value := by
  rcases h with rfl | ⟨rfl, rfl⟩
  · exact Or.inl hSame.symm
  · have hName :
        config'.reportFormat.name = config.reportFormat.name := by
      simpa [json, Json.text] using hSame
    exact Or.inr ⟨rfl, by rw [hName]⟩

theorem IsSetBy.change?_eq
    (h : field.IsSetBy config value)
    (c : Config) :
    field.change? jsonNotation value c =
      some (field.copy config c) := by
  rcases h with rfl | ⟨rfl, rfl⟩
  · exact change?_json config field c
  · exact congrArg (Option.map _)
      (ofName?_name config.reportFormat)

/-
  Settings of different fields give a configuration in which
  these fields are set and all others are as before.
-/
theorem exists_foldl_step
    {settings : List (Field × Json)}
    (base : Config)
    (hNodup : (settings.map Prod.fst).Nodup)
    (hTyped :
      ∀ setting ∈ settings, ∃ source,
        setting.1.IsSetBy source setting.2) :
    ∃ config,
      settings.foldl (step jsonNotation) (some base) =
        some config ∧
      (∀ setting ∈ settings,
        setting.1.IsSetBy config setting.2) ∧
      ∀ field ∉ settings.map Prod.fst,
        field.json config = field.json base := by
  -- A field that has been set is not set again by the later
  -- settings, so it stays as it is after the first of them.
  induction settings generalizing base with
  | nil =>
      exact ⟨base, rfl, List.forall_mem_nil _, fun _ _ => rfl⟩
  | cons setting settings ih =>
      rcases setting with ⟨field, value⟩
      rw [List.map_cons, List.nodup_cons] at hNodup
      rw [List.forall_mem_cons] at hTyped
      rcases hTyped with ⟨⟨source, hSource⟩, hLater⟩
      rcases ih (field.copy source base) hNodup.2 hLater with
        ⟨config, hConfig, hSet, hKept⟩
      refine ⟨config, ?_, ?_, ?_⟩
      · have hStep :
            step jsonNotation (some base) (field, value) =
              some (field.copy source base) :=
          hSource.change?_eq base
        rw [List.foldl_cons, hStep, hConfig]
      · rw [List.forall_mem_cons]
        refine ⟨hSource.of_json_eq ?_, hSet⟩
        rw [hKept field hNodup.1, json_copy_self]
      · intro other hOther
        rw [List.map_cons, List.mem_cons, not_or] at hOther
        rw [hKept other hOther.2,
          json_copy_of_ne source base hOther.1]

end Field

------------------------------------------------------------
-- Members
------------------------------------------------------------

/- A member whose key is a text. -/
def textMember?
    (member : Option Text × Json) : Option (Text × Json) :=
  member.1.map fun key => (key, member.2)

variable {members members' : List (Option Text × Json)}

theorem textKeys?_of_none_mem
    (h : none ∈ members.map Prod.fst) :
    textKeys? members = none := by
  induction members with
  | nil => cases h
  | cons member members ih =>
      rcases member with ⟨_ | key, value⟩
      · rfl
      · have hLater : none ∈ members.map Prod.fst := by
          simpa using h
        rw [textKeys?, ih hLater]
        rfl

theorem textKeys?_of_none_not_mem
    (h : none ∉ members.map Prod.fst) :
    textKeys? members = some (members.filterMap textMember?) := by
  induction members with
  | nil => rfl
  | cons member members ih =>
      rcases member with ⟨_ | key, value⟩
      · simp at h
      · have hLater : none ∉ members.map Prod.fst := by
          simpa using h
        rw [textKeys?, ih hLater]
        rfl

theorem mem_settings_iff
    {field : Field}
    {value : Json} :
    (field, value) ∈ settings (members.filterMap textMember?) ↔
      (some field.key, value) ∈ members := by
  simp only [settings, textMember?, List.mem_filterMap,
    Option.map_eq_some_iff, ofKey?_eq_some_iff, Prod.exists,
    Prod.mk.injEq]
  constructor
  · rintro ⟨_, _, ⟨_, _, hMem, _, rfl, rfl, rfl⟩,
      ⟨_, rfl, rfl, rfl⟩⟩
    exact hMem
  · intro hMem
    exact ⟨_, _, ⟨_, _, hMem, _, rfl, rfl, rfl⟩,
      ⟨_, rfl, rfl, rfl⟩⟩

/- How often a field is set is how often its key comes. -/
theorem count_given
    (members : List (Option Text × Json))
    (field : Field) :
    (given (members.filterMap textMember?)).count field =
      (members.map Prod.fst).count (some field.key) := by
  induction members with
  | nil => rfl
  | cons member members ih =>
      rcases member with ⟨_ | key, value⟩
      · rw [List.map_cons, List.count_cons_of_ne (by simp)]
        exact ih
      · have hText :
            ((some key, value) :: members).filterMap textMember? =
              (key, value) :: members.filterMap textMember? :=
          rfl
        rw [hText, List.map_cons]
        cases hKey : ofKey? key with
        | none =>
            have hOther : some key ≠ some field.key := by
              rw [Ne, Option.some_inj, ← ofKey?_eq_some_iff, hKey]
              exact nofun
            rw [List.count_cons_of_ne hOther, ← ih, given,
              settings_cons_of_none value _ hKey]
            rfl
        | some other =>
            have hName := ofKey?_eq_some_iff.mp hKey
            have hSame :
                other = field ↔ some key = some field.key := by
              rw [Option.some_inj, ← ofKey?_eq_some_iff, hKey,
                Option.some_inj]
            rw [given, settings_cons_of_some value _ hKey,
              List.map_cons, ← given, List.count_cons,
              List.count_cons, ih]
            simp [hSame]

------------------------------------------------------------
-- Overrides
------------------------------------------------------------

/-
  Members that set fields: their keys are texts, none gives a
  field that another one gives, and the value of a field is
  one that sets it.
-/
structure AreSettings
    (members : List (Option Text × Json)) : Prop where
  texts : none ∉ members.map Prod.fst
  once :
    ∀ field : Field,
      (members.map Prod.fst).count (some field.key) ≤ 1
  typed :
    ∀ (field : Field) (value : Json),
      (some field.key, value) ∈ members →
        ∃ source, field.IsSetBy source value

/-
  A configuration where the fields that members give are as
  they say, and all others are as in the default.
-/
structure Overrides
    (config : Config)
    (members : List (Option Text × Json)) : Prop where
  given :
    ∀ (field : Field) (value : Json),
      (some field.key, value) ∈ members →
        field.IsSetBy config value
  kept :
    ∀ field : Field,
      some field.key ∉ members.map Prod.fst →
        field.json config = field.json default

/- A configuration is known by what is written for it. -/
theorem eq_of_json_eq
    {config config' : Config}
    (h : ∀ field : Field, field.json config = field.json config') :
    config = config' := by
  have hCopy (field : Field) (c : Config) :
      field.copy config c = field.copy config' c := by
    apply Option.some_inj.mp
    rw [← change?_json, ← change?_json, h]
  calc
    config =
        all.foldl (fun c field => field.copy config c) config :=
      (foldl_copy_all config config).symm
    _ = all.foldl (fun c field => field.copy config' c) config := by
      simp only [hCopy]
    _ = config' := foldl_copy_all config' config

theorem Field.IsSetBy.json_eq
    {config config' : Config}
    {field : Field}
    {value : Json}
    (h : field.IsSetBy config value)
    (h' : field.IsSetBy config' value) :
    field.json config = field.json config' := by
  have hCopy :
      field.copy config default = field.copy config' default := by
    apply Option.some_inj.mp
    rw [← h.change?_eq, ← h'.change?_eq]
  rw [← json_copy_self config default, hCopy, json_copy_self]

/- Members say what all fields are. -/
theorem Overrides.eq
    {config config' : Config}
    (h : config.Overrides members)
    (h' : config'.Overrides members) :
    config = config' := by
  apply eq_of_json_eq
  intro field
  by_cases hGiven : some field.key ∈ members.map Prod.fst
  · rcases List.mem_map.mp hGiven with ⟨⟨_, value⟩, hMem, rfl⟩
    exact (h.given field value hMem).json_eq
      (h'.given field value hMem)
  · rw [h.kept field hGiven, h'.kept field hGiven]

theorem nodup_given_iff :
    (given (members.filterMap textMember?)).Nodup ↔
      ∀ field : Field,
        (members.map Prod.fst).count (some field.key) ≤ 1 := by
  simp only [List.nodup_iff_count_le_one, count_given]

theorem mem_given_iff
    {field : Field} :
    field ∈ given (members.filterMap textMember?) ↔
      some field.key ∈ members.map Prod.fst := by
  rw [← List.count_pos_iff, ← List.count_pos_iff, count_given]

/- Settings give a configuration that overrides the default. -/
theorem AreSettings.exists_overrides
    (h : AreSettings members) :
    ∃ config,
      ofJson? (.object members) = some config ∧
        config.Overrides members := by
  have hNodup := nodup_given_iff.mpr h.once
  have hTyped :
      ∀ setting ∈ settings (members.filterMap textMember?),
        ∃ source, setting.1.IsSetBy source setting.2 :=
    fun setting hMem =>
      h.typed setting.1 setting.2 (mem_settings_iff.mp hMem)
  rcases exists_foldl_step default hNodup hTyped with
    ⟨config, hConfig, hGiven, hKept⟩
  refine ⟨config, ?_, ?_⟩
  · rw [ofJson?, textKeys?_of_none_not_mem h.texts,
      Option.bind_some, ofMembers?, applyMembers?_eq_some_iff]
    exact ⟨⟨hNodup, fun _ _ => List.not_mem_nil⟩, hConfig⟩
  · constructor
    · intro field value hMem
      exact hGiven (field, value) (mem_settings_iff.mpr hMem)
    · intro field hMissing
      exact hKept field (mt mem_given_iff.mp hMissing)

theorem ofJson?_of_none_mem
    (h : none ∈ members.map Prod.fst) :
    ofJson? (.object members) = none := by
  rw [ofJson?, textKeys?_of_none_mem h, Option.bind_none]

/- A field that is given again gives no configuration. -/
theorem ofJson?_of_one_lt_count
    {field : Field}
    (h : 1 < (members.map Prod.fst).count (some field.key)) :
    ofJson? (.object members) = none := by
  by_cases hTexts : none ∈ members.map Prod.fst
  · exact ofJson?_of_none_mem hTexts
  · rw [ofJson?, textKeys?_of_none_not_mem hTexts,
      Option.bind_some, Option.eq_none_iff_forall_ne_some]
    intro config hConfig
    rw [ofMembers?, applyMembers?_eq_some_iff] at hConfig
    have hOnce := nodup_given_iff.mp hConfig.1.1 field
    omega

/- The order of the members of an object does not count. -/
theorem ofJson?_perm
    (h : members.Perm members') :
    ofJson? (.object members) = ofJson? (.object members') := by
  have hKeys := (h.map Prod.fst).mem_iff (a := none)
  by_cases hTexts : none ∈ members.map Prod.fst
  · rw [ofJson?_of_none_mem hTexts,
      ofJson?_of_none_mem (hKeys.mp hTexts)]
  · rw [ofJson?, ofJson?, textKeys?_of_none_not_mem hTexts,
      textKeys?_of_none_not_mem (mt hKeys.mpr hTexts)]
    exact ofMembers?_perm (h.filterMap _)

------------------------------------------------------------
-- Files
------------------------------------------------------------

variable {machine : Machine} {p : Path} {t : Text}

/- A file with a text of a value is read as the value. -/
theorem on_ofFile_of_spells
    {value : Json}
    (hPath : Path.isJson p = true)
    (hFile : machine.files.read p = .ok (Utf8.encode t))
    (hText : value.Spells t) :
    (ofFile p : Simulated _).on machine =
      ((ofJson? value).elim (.error (.malformed .json)) check,
        machine) := by
  rw [on_ofFile hFile, read, Form.ofPath, if_pos hPath,
    Form.parse?, hText.parse?_eq, Option.bind_some]
  cases ofJson? value <;> rfl

/-
  A file with an object whose members set fields overrides the
  default, in any order and with any other members. It must
  not give a field again, and every key must be a text.
-/
theorem overrides_default
    (hPath : Path.isJson p = true)
    (hFile : machine.files.read p = .ok (Utf8.encode t))
    (hText : (Json.object members).Spells t) :
    (AreSettings members →
      ∃ config,
        (∀ other : Config,
          other.Overrides members ↔ other = config) ∧
        (ofFile p : Simulated _).on machine =
          (if CanSeparate config.separator then
            .ok config
          else
            .error (.invalidSeparator config.separator),
          machine)) ∧
    ((∃ field : Field,
        1 < (members.map Prod.fst).count (some field.key)) →
      (ofFile p : Simulated _).on machine =
        (.error (.malformed .json), machine)) ∧
    (none ∈ members.map Prod.fst →
      (ofFile p : Simulated _).on machine =
        (.error (.malformed .json), machine)) ∧
    ∀ (members' : List (Option Text × Json))
      (t' : Text) (p' : Path) (machine' : Machine),
      members'.Perm members →
      Path.isJson p' = true →
      machine'.files.read p' = .ok (Utf8.encode t') →
      (Json.object members').Spells t' →
        ((ofFile p' : Simulated _).on machine').1 =
          ((ofFile p : Simulated _).on machine).1 := by
  rw [on_ofFile_of_spells hPath hFile hText]
  refine ⟨?_, ?_, ?_, ?_⟩
  · intro hSettings
    rcases hSettings.exists_overrides with
      ⟨config, hConfig, hOverrides⟩
    refine ⟨config, fun other => ⟨(·.eq hOverrides), ?_⟩, ?_⟩
    · rintro rfl
      exact hOverrides
    · rw [hConfig]
      rfl
  · rintro ⟨field, hTwice⟩
    rw [ofJson?_of_one_lt_count hTwice]
    rfl
  · intro hNone
    rw [ofJson?_of_none_mem hNone]
    rfl
  · intro members' t' p' machine' hPerm hPath' hFile' hText'
    rw [on_ofFile_of_spells hPath' hFile' hText',
      ofJson?_perm hPerm]

/-
  Members with escapes in their strings, with white space
  between them, and with a key that is unknown.
-/
theorem overrides_default_of_escapes :
    let members : List (Option Text × Json) :=
      [(some ['x'], .array [.string none]),
        (some Field.separator.key, .text ['/'])]
    let t : Text :=
      .ofString "\x7b\"x\":[\"\\ud800\"],\n\"\\u0073eparator\": \"\\/\"\t\x7d"
    let p : Path := .ofString "chain.json"
    let machine : Machine :=
      { files := .put (.empty []) [p] (.file (Utf8.encode t))
        input := []
        output := []
        warnings := []
        time := []
        configDirectory := none }
    Path.isJson p = true ∧
      machine.files.read p = .ok (Utf8.encode t) ∧
      (Json.object members).Spells t ∧
      AreSettings members ∧
      (ofFile p : Simulated _).on machine =
        (.ok { default with separator := '/' }, machine) := by
  intro members t p machine
  have hPath : Path.isJson p = true := by decide +kernel
  have hFile : machine.files.read p = .ok (Utf8.encode t) := by
    rfl
  have hText : (Json.object members).Spells t := by
    have hHalf := Json.Lexeme.Spells.of_spellAll
      (.cons (.escape Json.isEscape_half) .nil)
    have hLetter :
        Json.IsEscape 0x73 ['\\', 'u', '0', '0', '7', '3'] :=
      .digits (k := 0) (l := 0) (m := 7) (o := 3)
        (by decide) (by decide) (by decide) (by decide) rfl
    have hPlain := Json.Part.SpellAll.plain
      (t := .ofString "eparator") (by decide +kernel)
    have hKey := Json.Lexeme.Spells.of_spellAll
      (.cons (.escape hLetter) hPlain)
    have hName :
        Json.joinParts
            (.unit 0x73 ::
              (Text.ofString "eparator").map .char) =
          some Field.separator.key := by
      decide +kernel
    rw [hName] at hKey
    have hSlash : Json.Part.Spells (.char '/') ['\\', '/'] :=
      .letter (by decide)
    have hValue := Json.Lexeme.Spells.of_spellAll
      (.cons hSlash .nil)
    have hLexemes :
        Json.Lexeme.SpellAll
          (Json.lexemesOf (.object members)) _ :=
      .tight .openObject <|
      .tight (.plain (t := ['x']) rfl) <|
      .tight .colon <|
      .tight .openArray <|
      .tight hHalf <|
      .tight .closeArray <|
      .tight .comma <|
      .spaced '\n' (by decide) hKey <|
      .tight .colon <|
      .spaced ' ' (by decide) hValue <|
      .spaced '\t' (by decide) .closeObject <|
      .nil (List.forall_mem_nil _)
    unfold Json.Spells
    convert hLexemes using 1
    decide +kernel
  let config : Config := { default with separator := '/' }
  have hGiven :
      ∀ (field : Field) (value : Json),
        (some field.key, value) ∈ members →
          field.IsSetBy config value := by
    intro field value hMem
    simp only [members, List.mem_cons, Prod.mk.injEq,
      Option.some_inj, List.not_mem_nil, or_false] at hMem
    rcases hMem with ⟨hKey, -⟩ | ⟨hKey, rfl⟩
    · have hUnknown : ofKey? ['x'] = none := by decide +kernel
      rw [← hKey, ofKey?_key] at hUnknown
      cases hUnknown
    · rw [key_injective hKey]
      exact Or.inl rfl
  have hSettings : AreSettings members := by
    refine ⟨by simp [members], ?_, ?_⟩
    · intro field
      cases field <;> decide +kernel
    · intro field value hMem
      exact ⟨config, hGiven field value hMem⟩
  have hConfig : config.Overrides members := by
    refine ⟨hGiven, ?_⟩
    intro field hMissing
    cases field with
    | separator => simp [members] at hMissing
    | _ => rfl
  rcases (overrides_default hPath hFile hText).1 hSettings with
    ⟨other, hOnly, hRead⟩
  have hSame := (hOnly config).mp hConfig
  subst hSame
  rw [if_pos (by decide +kernel)] at hRead
  exact ⟨hPath, hFile, hText, hSettings, hRead⟩

/-
  Half a character may be escaped in a key that is unknown by
  the grammar, but such a key is refused.
-/
theorem refuses_half_as_key :
    let members : List (Option Text × Json) :=
      [(none, .number ['0'])]
    let t : Text := .ofString "\x7b\"\\ud800\":0\x7d"
    let p : Path := .ofString "c.json"
    let machine : Machine :=
      { files := .put (.empty []) [p] (.file (Utf8.encode t))
        input := []
        output := []
        warnings := []
        time := []
        configDirectory := none }
    Path.isJson p = true ∧
      machine.files.read p = .ok (Utf8.encode t) ∧
      (Json.object members).Spells t ∧
      (∀ field : Field, some field.key ∉ members.map Prod.fst) ∧
      default.Overrides members ∧
      CanSeparate default.separator ∧
      (ofFile p : Simulated _).on machine =
        (.error (.malformed .json), machine) ∧
      (ofFile p : Simulated _).on machine ≠
        (.ok default, machine) := by
  intro members t p machine
  have hPath : Path.isJson p = true := by decide +kernel
  have hFile : machine.files.read p = .ok (Utf8.encode t) := by
    rfl
  have hText : (Json.object members).Spells t := by
    have hHalf := Json.Lexeme.Spells.of_spellAll
      (.cons (.escape Json.isEscape_half) .nil)
    have hZero : Json.IsNumeral ['0'] :=
      .parts List.mem_cons_self .zero .none .none
    have hLexemes :
        Json.Lexeme.SpellAll
          (Json.lexemesOf (.object members)) _ :=
      .tight .openObject <|
      .tight hHalf <|
      .tight .colon <|
      .tight (.number hZero) <|
      .tight .closeObject <|
      .nil (List.forall_mem_nil _)
    unfold Json.Spells
    convert hLexemes using 1
    decide +kernel
  have hUnknown :
      ∀ field : Field, some field.key ∉ members.map Prod.fst := by
    simp [members]
  have hRefused :
      (ofFile p : Simulated _).on machine =
        (.error (.malformed .json), machine) := by
    rw [on_ofFile_of_spells hPath hFile hText,
      ofJson?_of_none_mem List.mem_cons_self]
    rfl
  refine ⟨hPath, hFile, hText, hUnknown,
    ⟨?_, fun _ _ => rfl⟩, canSeparate_default, hRefused, ?_⟩
  · intro field value hMem
    exact absurd (List.mem_map_of_mem hMem) (hUnknown field)
  · rw [hRefused]
    simp

end Config

end CodecChain

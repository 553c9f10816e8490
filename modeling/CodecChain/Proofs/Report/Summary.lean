import Mathlib.Data.List.Forall2
import CodecChain.Report.Summary
import CodecChain.Run.Engine
import CodecChain.Proofs.Deflate.Searching
import CodecChain.Proofs.Json.Printing

/-
  Summaries lose nothing. The text of a summary is JSON text,
  and whoever looks its keys up finds the report, and every
  entry of the trace and of the diagnostics in its place. What
  the entries tell of a run is spelled out apart from how they
  are composed; so runs that differ in what is told of them
  have different summaries.

  Key definitions include:
    * `Json.get?`
    * `Summary.ofJson?`
    * `StepEntry.Tells`
    * `NoteEntry.Tells`
    * `Summary.Tells`

  Main statements:
    * `Summary.spells_print`
    * `Summary.parse?_print`
    * `Summary.ofJson?_toJson`
    * `Summary.print_compose_inj`
    * `Summary.tells_compose`
    * `Summary.Tells.unique`
    * `Summary.print_lossless`
-/

------------------------------------------------------------
-- Looking Up
------------------------------------------------------------

namespace CodecChain

theorem Text.ofString_inj
    {s t : String} :
    Text.ofString s = Text.ofString t ↔ s = t :=
  String.toList_inj

namespace Json

/- The value that an object has at a key. -/
def get? (key : String) : Json → Option Json
  | object members =>
      (members.find? fun member =>
        member.1 = some (Text.ofString key)).map Prod.snd
  | _ => none

/- The text that a string is. -/
def text? : Json → Option Text
  | string s => s
  | _ => none

/- The text that a string is, or that there is none. -/
def textOrNull? : Json → Option (Option Text)
  | null => some none
  | string s => s.map some
  | _ => none

/- The natural number that a number is. -/
def nat? : Json → Option Nat
  | number literal =>
      if literal.all isDigit then
        some (Nat.ofDigitChars 10 literal 0)
      else
        none
  | _ => none

/- What the items of an array are, one by one. -/
def items?
    {α : Type}
    (item? : Json → Option α) : Json → Option (List α)
  | array items => items.mapM item?
  | _ => none

@[simp]
theorem get?_record_cons
    (key name : String)
    (value : Json)
    (members : List (String × Json)) :
    get? key (record ((name, value) :: members)) =
      if name = key then some value
      else get? key (record members) := by
  by_cases hSame : name = key
  · simp [get?, record, hSame]
  · simp [get?, record, hSame, Text.ofString_inj]

@[simp]
theorem text?_text (t : Text) : text? (text t) = some t :=
  rfl

@[simp]
theorem textOrNull?_ofText? (t : Option Text) :
    textOrNull? (ofText? t) = some t := by
  cases t <;> rfl

theorem all_isDigit_toDigits (n : Nat) :
    (Nat.toDigits 10 n).all isDigit = true := by
  rcases Nat.eq_zero_or_pos n with rfl | hPos
  · rfl
  · rcases exists_cons_of_toDigits hPos with
      ⟨c, rest, hDigits, hFirst, -, hRest⟩
    rw [hDigits, List.all_eq_true, List.forall_mem_cons]
    exact ⟨hFirst, hRest⟩

@[simp]
theorem nat?_ofNat (n : Nat) : nat? (ofNat n) = some n := by
  rw [ofNat, nat?, if_pos (all_isDigit_toDigits n),
    Nat.ofDigitChars_ten_toDigits]

/- Items that are read one by one are read in order. -/
theorem items?_map
    {α : Type}
    {toJson : α → Json}
    {item? : Json → Option α}
    (items : List α)
    (h : ∀ item, item? (toJson item) = some item) :
    items? item? (array (items.map toJson)) = some items := by
  rw [items?]
  induction items with
  | nil => rfl
  | cons item items ih =>
      rw [List.map_cons, List.mapM_cons, h, ih]
      rfl

end Json

------------------------------------------------------------
-- Reading
------------------------------------------------------------

/- The report that data holds under its keys. -/
def Report.ofJson? (value : Json) : Option Report := do
  let initial ← value.get? "original_content" >>= Json.text?
  let instructions ← value.get? "instructions" >>= Json.text?
  let inverted ←
    value.get? "inverted_instructions" >>= Json.text?
  let final ← value.get? "final_content" >>= Json.text?
  pure { initial, instructions, inverted, final }

/- The entry for a completed step that data holds. -/
def StepEntry.ofJson? (value : Json) : Option StepEntry := do
  let step ← value.get? "step" >>= Json.nat?
  let token ← value.get? "token" >>= Json.text?
  let action ← value.get? "action" >>= Json.text?
  let codec ← value.get? "codec" >>= Json.textOrNull?
  let content ← value.get? "content" >>= Json.text?
  pure { step, token, action, codec, content }

/- The entry for a skipped step that data holds. -/
def NoteEntry.ofJson? (value : Json) : Option NoteEntry := do
  let step ← value.get? "step" >>= Json.nat?
  let token ← value.get? "token" >>= Json.text?
  let kind ← value.get? "kind" >>= Json.text?
  let message ← value.get? "message" >>= Json.text?
  pure { step, token, kind, message }

/- The summary that data holds under its keys. -/
def Summary.ofJson? (value : Json) : Option Summary := do
  let report ← value.get? "report" >>= Report.ofJson?
  let trace ←
    value.get? "trace" >>= Json.items? StepEntry.ofJson?
  let diagnostics ←
    value.get? "diagnostics" >>= Json.items? NoteEntry.ofJson?
  pure { report, trace, diagnostics }

theorem Report.ofJson?_toJson (r : Report) :
    Report.ofJson? r.toJson = some r := by
  simp [Report.ofJson?, Report.toJson]

theorem StepEntry.ofJson?_toJson (e : StepEntry) :
    StepEntry.ofJson? e.toJson = some e := by
  simp [StepEntry.ofJson?, StepEntry.toJson]

theorem NoteEntry.ofJson?_toJson (e : NoteEntry) :
    NoteEntry.ofJson? e.toJson = some e := by
  simp [NoteEntry.ofJson?, NoteEntry.toJson]

/- The data of a summary holds the summary. -/
theorem Summary.ofJson?_toJson (s : Summary) :
    Summary.ofJson? s.toJson = some s := by
  have hTrace :=
    Json.items?_map s.trace StepEntry.ofJson?_toJson
  have hNotes :=
    Json.items?_map s.diagnostics NoteEntry.ofJson?_toJson
  simp [Summary.ofJson?, Summary.toJson, hTrace, hNotes,
    Report.ofJson?_toJson]

------------------------------------------------------------
-- Printing
------------------------------------------------------------

theorem Report.isProper_toJson (r : Report) :
    r.toJson.IsProper := by
  apply Json.isProper_record
  simp [Json.isProper_text]

theorem StepEntry.isProper_toJson (e : StepEntry) :
    e.toJson.IsProper := by
  apply Json.isProper_record
  simp [Json.isProper_text, Json.isProper_ofNat,
    Json.isProper_ofText?]

theorem NoteEntry.isProper_toJson (e : NoteEntry) :
    e.toJson.IsProper := by
  apply Json.isProper_record
  simp [Json.isProper_text, Json.isProper_ofNat]

theorem Summary.isProper_toJson (s : Summary) :
    s.toJson.IsProper := by
  have hTrace :=
    Json.isProper_map s.trace StepEntry.isProper_toJson
  have hNotes :=
    Json.isProper_map s.diagnostics NoteEntry.isProper_toJson
  apply Json.isProper_record
  simp [Report.isProper_toJson, hTrace, hNotes]

/- The text of a summary is JSON text of its data. -/
theorem Summary.spells_print (s : Summary) :
    s.toJson.Spells s.print :=
  s.isProper_toJson.spells_print

/- The text of a summary is read as its data. -/
theorem Summary.parse?_print (s : Summary) :
    Json.parse? s.print = some s.toJson :=
  s.isProper_toJson.parse?_print

/- Summaries that differ are printed differently. -/
theorem Summary.print_inj
    {s t : Summary} :
    s.print = t.print ↔ s = t := by
  constructor
  · intro hSame
    have hRead :
        some s.toJson = some t.toJson := by
      rw [← s.parse?_print, ← t.parse?_print, hSame]
    have hHeld : some s = some t := by
      rw [← s.ofJson?_toJson, ← t.ofJson?_toJson,
        Option.some.inj hRead]
    exact Option.some.inj hHeld
  · exact congrArg Summary.print

------------------------------------------------------------
-- Runs
------------------------------------------------------------

theorem Codec.tag_injective : Function.Injective Codec.tag := by
  intro a b hSame
  have hFound := congrArg Codec.ofTag? hSame
  rw [Codec.ofTag?_tag, Codec.ofTag?_tag] at hFound
  exact Option.some.inj hFound

/- An action is known by its key and its codec. -/
theorem Action.eq_of_key_eq
    {a b : Action}
    (hKey : a.key = b.key)
    (hCodec : a.codec? = b.codec?) :
    a = b := by
  cases a <;> cases b <;> simp_all [Action.key, Action.codec?]

theorem Record.toEntry_injective :
    Function.Injective Record.toEntry := by
  rintro ⟨step, token, a, content⟩ ⟨step', token', b, content'⟩
    hSame
  simp only [Record.toEntry, StepEntry.mk.injEq,
    Text.ofString_inj] at hSame
  rcases hSame with ⟨rfl, rfl, hKey, hTag, rfl⟩
  have hCodec : a.codec? = b.codec? :=
    Option.map_injective Codec.tag_injective hTag
  rw [Action.eq_of_key_eq hKey hCodec]

theorem Text.asString_injective :
    Function.Injective Text.asString := by
  intro s t hSame
  have hText := congrArg Text.ofString hSame
  rwa [Text.ofString_asString, Text.ofString_asString] at hText

theorem toString_eq_self (s : String) : toString s = s :=
  rfl

theorem toString_eq_singleton
    (c : Char) :
    toString c = String.singleton c :=
  rfl

/- What is said about a tag tells which tag it is. -/
theorem Codec.unknownMessage_injective :
    Function.Injective Codec.unknownMessage := by
  intro s t hSame
  apply Text.asString_injective
  unfold Codec.unknownMessage at hSame
  generalize ", ".intercalate _ = known at hSame
  simp only [String.append_left_inj, String.append_right_inj,
    toString_eq_self] at hSame
  exact hSame

theorem Operation.selector_injective :
    Function.Injective Operation.selector := by
  intro a b hSame
  have hSelected := Operation.ofSelector?_eq_some_iff.mpr hSame
  have hOther :=
    Operation.ofSelector?_eq_some_iff.mpr (Eq.refl b.selector)
  exact Option.some.inj (hSelected.symm.trans hOther)

/- The letter with which the words of a rejection begin. -/
def Rejection.initial : Rejection → Char
  | emptyToken => 'e'
  | unknownOperation _ => 'i'
  | missingCodec _ => 'o'

theorem Rejection.head?_message
    (cause : Rejection) :
    cause.message.toList.head? = some cause.initial := by
  unfold message
  cases cause with
  | emptyToken => simp [initial]
  | unknownOperation c =>
      simp only [String.toList_append, toString_eq_self]
      simp [initial]
  | missingCodec operation =>
      simp only [String.toList_append, toString_eq_self]
      simp [initial]

/- The words of a rejection tell which rejection it is. -/
theorem Rejection.message_injective :
    Function.Injective Rejection.message := by
  intro a b hSame
  have hInitial : some a.initial = some b.initial := by
    rw [← a.head?_message, ← b.head?_message, hSame]
  unfold message at hSame
  cases a with
  | emptyToken =>
      cases b with
      | emptyToken => rfl
      | _ => simp [initial] at hInitial
  | unknownOperation c =>
      cases b with
      | unknownOperation d =>
          simp only [String.append_left_inj,
            String.append_right_inj, toString_eq_singleton,
            String.singleton_inj] at hSame
          rw [hSame]
      | _ => simp [initial] at hInitial
  | missingCodec operation =>
      cases b with
      | missingCodec other =>
          simp only [String.append_left_inj,
            String.append_right_inj, toString_eq_singleton,
            String.singleton_inj] at hSame
          rw [Operation.selector_injective hSame]
      | _ => simp [initial] at hInitial

theorem Diagnostic.toEntry_injective :
    Function.Injective Diagnostic.toEntry := by
  rintro ⟨step, token, a⟩ ⟨step', token', b⟩ hSame
  simp only [Diagnostic.toEntry, NoteEntry.mk.injEq,
    Text.ofString_inj] at hSame
  rcases hSame with ⟨rfl, rfl, hKey, hMessage⟩
  cases a with
  | rejected a =>
      cases b with
      | rejected b => rw [Rejection.message_injective hMessage]
      | unknownCodec t => simp [Diagnostic.key] at hKey
  | unknownCodec s =>
      cases b with
      | rejected b => simp [Diagnostic.key] at hKey
      | unknownCodec t =>
          rw [Codec.unknownMessage_injective hMessage]

/- The summaries of runs that differ are printed differently. -/
theorem Summary.print_compose_inj
    {r r' : Report}
    {e e' : Execution} :
    (compose r e).print = (compose r' e').print ↔
      r = r' ∧ e.trace = e'.trace ∧
        e.diagnostics = e'.diagnostics := by
  rw [Summary.print_inj, compose, compose, Summary.mk.injEq,
    List.map_inj_right fun _ _ h => Record.toEntry_injective h,
    List.map_inj_right fun _ _ h => Diagnostic.toEntry_injective h]

------------------------------------------------------------
-- What Is Told
------------------------------------------------------------

/-
  What is told of an action: its key, and the tag of the codec
  where the step used one.
-/
inductive Action.Told : Action → Text → Option Text → Prop where
  | encoded (codec : Codec) :
      Told (.encoded codec) (.ofString "encoded")
        (some codec.tag)
  | decoded (codec : Codec) :
      Told (.decoded codec) (.ofString "decoded")
        (some codec.tag)
  | replaced :
      Told .replaced (.ofString "protected") none
  | skipped :
      Told .skipped (.ofString "skipped") none

/-
  What is told of the cause for which a step was skipped: its
  kind, and a message.
-/
inductive SkipCause.Told : SkipCause → Text → Text → Prop where
  | emptyToken :
      Told (.rejected .emptyToken) (.ofString "syntax")
        (.ofString "empty instruction token")
  | unknownOperation (c : Char) :
      Told (.rejected (.unknownOperation c))
        (.ofString "syntax")
        (.ofString "invalid operation '" ++ [c] ++
          .ofString "' (expected E, D or P)")
  | missingCodec (operation : Operation) :
      Told (.rejected (.missingCodec operation))
        (.ofString "syntax")
        (.ofString "operation '" ++ [operation.selector] ++
          .ofString "' needs a codec id")
  | unknownCodec (tag : Text) :
      Told (.unknownCodec tag) (.ofString "unknown_codec")
        (.ofString "invalid codec '" ++ tag ++
          .ofString "' (known: H, 64, Z, DF, RL)")

/- An entry that tells of a completed step. -/
structure StepEntry.Tells (entry : StepEntry) (r : Record) :
    Prop where
  step : entry.step = r.step
  token : entry.token = r.token
  action : r.action.Told entry.action entry.codec
  content : entry.content = r.content

/- An entry that tells of a diagnostic. -/
structure NoteEntry.Tells (entry : NoteEntry) (d : Diagnostic) :
    Prop where
  step : entry.step = d.step
  token : entry.token = d.token
  cause : d.cause.Told entry.kind entry.message

/-
  A summary that tells of a run: the report on it, and in order
  every completed step and every diagnostic.
-/
structure Summary.Tells
    (s : Summary)
    (r : Report)
    (e : Execution) : Prop where
  report : s.report = r
  trace : List.Forall₂ StepEntry.Tells s.trace e.trace
  diagnostics :
    List.Forall₂ NoteEntry.Tells s.diagnostics e.diagnostics

theorem Action.told_key (a : Action) :
    a.Told (.ofString a.key) (a.codec?.map Codec.tag) := by
  cases a with
  | encoded codec => exact Told.encoded codec
  | decoded codec => exact Told.decoded codec
  | replaced => exact Told.replaced
  | skipped => exact Told.skipped

theorem Record.tells_toEntry (r : Record) :
    r.toEntry.Tells r where
  step := rfl
  token := rfl
  action := r.action.told_key
  content := rfl

theorem Text.ofString_append (s t : String) :
    ofString (s ++ t) = ofString s ++ ofString t :=
  String.toList_append

theorem Text.ofString_singleton (c : Char) :
    ofString (String.singleton c) = [c] :=
  String.toList_singleton c

/- The tags that a message on an unknown one lists. -/
theorem Codec.intercalate_tags :
    ", ".intercalate (all.map fun c => c.tag.asString) =
      "H, 64, Z, DF, RL" := by
  decide +kernel

theorem Codec.ofString_unknownMessage (t : Text) :
    Text.ofString (unknownMessage t) =
      .ofString "invalid codec '" ++ t ++
        .ofString "' (known: H, 64, Z, DF, RL)" := by
  have hKnown :
      Text.ofString "' (known: H, 64, Z, DF, RL)" =
        .ofString "' (known: " ++ .ofString "H, 64, Z, DF, RL" ++
          .ofString ")" := by
    decide +kernel
  unfold unknownMessage
  rw [intercalate_tags, hKnown]
  simp only [toString_eq_self, Text.ofString_append,
    Text.ofString_asString, List.append_assoc]

theorem Rejection.told_message (cause : Rejection) :
    (SkipCause.rejected cause).Told (.ofString "syntax")
      (.ofString cause.message) := by
  unfold message
  cases cause with
  | emptyToken => exact SkipCause.Told.emptyToken
  | unknownOperation c =>
      simp only [toString_eq_self, toString_eq_singleton,
        Text.ofString_append, Text.ofString_singleton]
      exact SkipCause.Told.unknownOperation c
  | missingCodec operation =>
      simp only [toString_eq_self, toString_eq_singleton,
        Text.ofString_append, Text.ofString_singleton]
      exact SkipCause.Told.missingCodec operation

theorem Diagnostic.told_cause
    (step : Nat)
    (token : Text)
    (cause : SkipCause) :
    cause.Told (.ofString (mk step token cause).key)
      (.ofString cause.message) := by
  cases cause with
  | rejected cause => exact cause.told_message
  | unknownCodec tag =>
      rw [SkipCause.message, Codec.ofString_unknownMessage]
      exact SkipCause.Told.unknownCodec tag

theorem Diagnostic.tells_toEntry (d : Diagnostic) :
    d.toEntry.Tells d where
  step := rfl
  token := rfl
  cause := told_cause d.step d.token d.cause

theorem Summary.tells_compose (r : Report) (e : Execution) :
    (compose r e).Tells r e where
  report := rfl
  trace := by
    rw [compose, List.forall₂_map_left_iff, List.forall₂_same]
    exact fun record _ => record.tells_toEntry
  diagnostics := by
    rw [compose, List.forall₂_map_left_iff, List.forall₂_same]
    exact fun d _ => d.tells_toEntry

theorem Action.Told.unique
    {a : Action}
    {key key' : Text}
    {codec codec' : Option Text}
    (h : a.Told key codec)
    (h' : a.Told key' codec') :
    key = key' ∧ codec = codec' := by
  cases h <;> cases h' <;> exact ⟨rfl, rfl⟩

theorem SkipCause.Told.unique
    {cause : SkipCause}
    {kind kind' message message' : Text}
    (h : cause.Told kind message)
    (h' : cause.Told kind' message') :
    kind = kind' ∧ message = message' := by
  cases h <;> cases h' <;> exact ⟨rfl, rfl⟩

theorem StepEntry.leftUnique_tells :
    Relator.LeftUnique StepEntry.Tells := by
  intro entry entry' r h h'
  rcases h.action.unique h'.action with ⟨hAction, hCodec⟩
  rw [StepEntry.mk.injEq]
  exact ⟨h.step.trans h'.step.symm, h.token.trans h'.token.symm,
    hAction, hCodec, h.content.trans h'.content.symm⟩

theorem NoteEntry.leftUnique_tells :
    Relator.LeftUnique NoteEntry.Tells := by
  intro entry entry' d h h'
  rcases h.cause.unique h'.cause with ⟨hKind, hMessage⟩
  rw [NoteEntry.mk.injEq]
  exact ⟨h.step.trans h'.step.symm, h.token.trans h'.token.symm,
    hKind, hMessage⟩

/- There is only one summary that tells of a run. -/
theorem Summary.Tells.unique
    {s s' : Summary}
    {r : Report}
    {e : Execution}
    (h : s.Tells r e)
    (h' : s'.Tells r e) :
    s = s' := by
  have hTrace : s.trace = s'.trace :=
    StepEntry.leftUnique_tells.forall₂ h.trace h'.trace
  have hNotes : s.diagnostics = s'.diagnostics :=
    NoteEntry.leftUnique_tells.forall₂
      h.diagnostics h'.diagnostics
  rw [Summary.mk.injEq]
  exact ⟨h.report.trans h'.report.symm, hTrace, hNotes⟩

/-
  The text of a summary is JSON text, by the grammar, and it is
  read as an object that holds the report, the trace and the
  diagnostics. That of the summary of a run tells of its report,
  of every completed step and of every diagnostic. The texts of
  two summaries, or of the summaries of two runs, are the same
  only if these are.
-/
theorem Summary.print_lossless :
    (∀ s : Summary,
      s.toJson.Spells s.print ∧
        Json.parse? s.print = some s.toJson ∧
        Summary.ofJson? s.toJson = some s ∧
        ∀ t : Summary, t.print = s.print ↔ t = s) ∧
      ∀ (r : Report) (e : Execution),
        (∃ value held,
          value.Spells (compose r e).print ∧
            Json.parse? (compose r e).print = some value ∧
            Summary.ofJson? value = some held ∧
            held.Tells r e) ∧
          ∀ (r' : Report) (e' : Execution),
            (compose r e).print = (compose r' e').print ↔
              r = r' ∧ e.trace = e'.trace ∧
                e.diagnostics = e'.diagnostics := by
  constructor
  · intro s
    exact ⟨s.spells_print, s.parse?_print, s.ofJson?_toJson,
      fun _ => Summary.print_inj⟩
  · intro r e
    let s := compose r e
    exact ⟨⟨s.toJson, s, s.spells_print, s.parse?_print,
        s.ofJson?_toJson, Summary.tells_compose r e⟩,
      fun _ _ => Summary.print_compose_inj⟩

end CodecChain

------------------------------------------------------------
-- A Run With a Skipped Step
------------------------------------------------------------

namespace CodecChain

namespace Summary

/-
  A token that is no instruction, and one that is: the first
  step is told as skipped, without a codec and with a
  diagnostic, and the second one with the tag of its codec.
-/
theorem print_lossless_of_skipped_step :
    ∃ chain e value,
      Chain.parse '-' (.ofString "X1-E64") = .ok chain ∧
      Id.run (chain.run (.fixed ['v']) (.ofString "hi")) =
        .completed e ∧
      Json.parse? (compose
        (.compose (.ofString "hi") chain e.content) e).print =
          some value ∧
      ofJson? value = some
        { report :=
            { initial := .ofString "hi"
              instructions := .ofString "X1-E64"
              inverted := .ofString "D64-X1"
              final := .ofString "aGk=" }
          trace :=
            [⟨1, .ofString "X1", .ofString "skipped", none,
              .ofString "hi"⟩,
             ⟨2, .ofString "E64", .ofString "encoded",
              some (.ofString "64"), .ofString "aGk="⟩]
          diagnostics :=
            [⟨1, .ofString "X1", .ofString "syntax", .ofString
              "invalid operation 'X' (expected E, D or P)"⟩] } := by
  let chain : Chain :=
    { separator := '-'
      source := .ofString "X1-E64"
      tokens :=
        [Token.read 1 (.ofString "X1"),
          Token.read 2 (.ofString "E64")] }
  let e : Execution :=
    { content := .ofString "aGk="
      trace :=
        [⟨1, .ofString "X1", .skipped, .ofString "hi"⟩,
          ⟨2, .ofString "E64", .encoded .base64,
            .ofString "aGk="⟩]
      diagnostics :=
        [⟨1, .ofString "X1", .rejected (.unknownOperation 'X')⟩] }
  have hRun :
      Id.run (chain.run (.fixed ['v']) (.ofString "hi")) =
        .completed e := by
    decide +kernel
  let report : Report := .compose (.ofString "hi") chain e.content
  rcases (print_lossless.2 report e).1 with
    ⟨value, held, -, hParse, hHeld, hTells⟩
  refine ⟨chain, e, value, rfl, hRun, hParse, ?_⟩
  rw [hHeld]
  apply congrArg some
  apply hTells.unique
  have hMessage :
      Text.ofString "invalid operation 'X' (expected E, D or P)" =
        .ofString "invalid operation '" ++ ['X'] ++
          .ofString "' (expected E, D or P)" := by
    decide +kernel
  rw [hMessage]
  exact
    { report := by decide +kernel
      trace :=
        .cons ⟨rfl, rfl, .skipped, rfl⟩
          (.cons ⟨rfl, rfl, .encoded .base64, rfl⟩ .nil)
      diagnostics :=
        .cons ⟨rfl, rfl, .unknownOperation 'X'⟩ .nil }

end Summary

end CodecChain

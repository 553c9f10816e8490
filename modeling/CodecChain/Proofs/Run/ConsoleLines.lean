import CodecChain.Proofs.Host.Attempt
import CodecChain.Proofs.Run.Asking
import CodecChain.Proofs.Text.Lines
import CodecChain.Workspace.Basic

/-
  Values from the console. A run that asks at the console goes
  as one that is given the lines of the input as a list: each
  protection receives the next line, and the first one for
  which there is none stops the run. A line is entered as it
  would be read from a file, except for a carriage return at
  the end of an input without a line feed, which is lost.

  Key definitions include:
    * `Outcome.renamed`
    * `Provider.Follows`
    * `Machine.Offers`

  Main statements:
    * `Chain.runTokensIn_follows`
    * `Provider.console_follows`
    * `Chain.receives_lines`
-/

------------------------------------------------------------
-- Renamed Refusals
------------------------------------------------------------

namespace CodecChain

variable {rename : ProviderError → ProviderError}

/- The same fault with a refusal renamed. -/
def StepFault.renamed
    (rename : ProviderError → ProviderError) :
    StepFault → StepFault
  | decode e => decode e
  | provider e => provider (rename e)

/- The same outcome with a refusal renamed. -/
def Outcome.renamed
    (rename : ProviderError → ProviderError) :
    Outcome → Outcome
  | completed e => completed e
  | interrupted error reached =>
      interrupted ⟨error.step, error.fault.renamed rename⟩
        reached

theorem Outcome.renamed_afterStep
    (record : Record)
    (diagnostic : Option Diagnostic)
    (outcome : Outcome) :
    (outcome.afterStep record diagnostic).renamed rename =
      (outcome.renamed rename).afterStep record diagnostic := by
  cases outcome <;> rfl

theorem Outcome.received_renamed (outcome : Outcome) :
    (outcome.renamed rename).received = outcome.received := by
  cases outcome <;> rfl

theorem Outcome.renamed_eq_completed_iff
    {outcome : Outcome}
    {e : Execution} :
    outcome.renamed rename = completed e ↔
      outcome = completed e := by
  cases outcome <;> simp [renamed]

/- An outcome is renamed to a refusal only from a refusal. -/
theorem Outcome.renamed_eq_refused_iff
    {outcome : Outcome}
    {k : Nat}
    {refusal : ProviderError}
    {reached : Execution} :
    outcome.renamed rename =
        interrupted ⟨k, .provider refusal⟩ reached ↔
      ∃ other,
        outcome = interrupted ⟨k, .provider other⟩ reached ∧
          rename other = refusal := by
  cases outcome with
  | completed e => simp [renamed]
  | interrupted error before =>
      rcases error with ⟨step, fault⟩
      cases fault with
      | decode e => simp [renamed, StepFault.renamed]
      | provider e =>
          simp only [renamed, StepFault.renamed,
            interrupted.injEq, StepError.mk.injEq,
            StepFault.provider.injEq]
          constructor
          · rintro ⟨⟨rfl, rfl⟩, rfl⟩
            exact ⟨e, ⟨⟨rfl, rfl⟩, rfl⟩, rfl⟩
          · rintro ⟨_, ⟨⟨rfl, rfl⟩, rfl⟩, rfl⟩
            exact ⟨⟨rfl, rfl⟩, rfl⟩

end CodecChain

------------------------------------------------------------
-- Providers That Follow Others
------------------------------------------------------------

namespace CodecChain

variable {σ τ : Type} {R : σ → τ → Prop} {s : σ} {s' : τ}
variable {rename : ProviderError → ProviderError}
variable {provider : Provider (StateM σ)}
variable {model : Provider (StateM τ)}

/-
  A provider follows another one if, from states that belong
  together, both give the same answer up to the name of a
  refusal, and states that belong together again.
-/
def Provider.Follows
    (rename : ProviderError → ProviderError)
    (R : σ → τ → Prop)
    (provider : Provider (StateM σ))
    (model : Provider (StateM τ)) : Prop :=
  ∀ step s s', R s s' →
    (provider.ask step s).1 =
        (model.ask step s').1.mapError rename ∧
      R (provider.ask step s).2 (model.ask step s').2

section

variable [Compressor]

theorem Plan.performIn_follows
    (h : provider.Follows rename R model)
    (step : Nat)
    (content : Text)
    (plan : Plan)
    (hStart : R s s') :
    (plan.performIn provider step content s).1 =
        (plan.performIn model step content s').1.mapError
          (.renamed rename) ∧
      R (plan.performIn provider step content s).2
        (plan.performIn model step content s').2 := by
  cases plan with
  | skip cause => exact ⟨rfl, hStart⟩
  | encode codec => exact ⟨rfl, hStart⟩
  | decode codec =>
      rw [performIn_decode, performIn_decode]
      refine ⟨?_, hStart⟩
      cases codec.decode content <;> rfl
  | replace =>
      rcases h step s s' hStart with ⟨hAnswer, hAfter⟩
      rw [performIn_replace, performIn_replace, hAnswer]
      refine ⟨?_, hAfter⟩
      cases (model.ask step s').1 <;> rfl

/- Runs go alike, and leave states that belong together. -/
theorem Chain.runTokensIn_follows
    (h : provider.Follows rename R model)
    (tokens : List Token)
    (content : Text)
    (hStart : R s s') :
    (runTokensIn provider tokens content s).1 =
        (runTokensIn model tokens content s').1.renamed
          rename ∧
      R (runTokensIn provider tokens content s).2
        (runTokensIn model tokens content s').2 := by
  induction tokens generalizing content s s' with
  | nil => exact ⟨rfl, hStart⟩
  | cons token tokens ih =>
      have hBoth :
          (token.performIn provider content s).1 =
              (token.performIn model content s').1.mapError
                (.renamed rename) ∧
            R (token.performIn provider content s).2
              (token.performIn model content s').2 :=
        token.plan.performIn_follows h token.position content
          hStart
      rcases hBoth with ⟨hResult, hAfter⟩
      rcases hModel : token.performIn model content s' with
        ⟨fault | next, after⟩
      · rw [hModel] at hResult hAfter
        rw [runTokensIn_cons_of_error hModel,
          runTokensIn_cons_of_error (Prod.ext hResult rfl)]
        exact ⟨rfl, hAfter⟩
      · rw [hModel] at hResult hAfter
        rcases ih next hAfter with ⟨hLater, hEnd⟩
        rw [runTokensIn_cons_of_ok hModel,
          runTokensIn_cons_of_ok (Prod.ext hResult rfl), hLater]
        exact ⟨(Outcome.renamed_afterStep _ _ _).symm, hEnd⟩

end

end CodecChain

------------------------------------------------------------
-- Lines as Values
------------------------------------------------------------

namespace CodecChain

variable {t : Text} {machine : Machine} {values : List Text}

/- At the console, a list that is used up is closed input. -/
def ProviderError.atConsole : ProviderError → ProviderError
  | noneLeft step => inputClosed step
  | inputClosed step => inputClosed step
  | unreadable => unreadable
  | refused reason => refused reason

/-
  A machine offers values if its input is the last lines of a
  text and the values are these lines as they are entered.
-/
def Machine.Offers
    (t : Text)
    (machine : Machine)
    (values : List Text) : Prop :=
  ∃ ls, ls <:+ Text.lines t ∧
    machine.input = Utf8.encode ls.flatten ∧
    values = ls.map Text.entered

namespace Provider

theorem ofLine_encode
    {line : Text}
    (step : Nat)
    (h : line ≠ []) :
    ofLine step (Utf8.encode line) = .ok line.entered := by
  have hSome : (Utf8.encode line).isEmpty = false := by
    rw [List.isEmpty_eq_false_iff]
    intro hNone
    have hSame : Utf8.encode line = Utf8.encode [] := hNone
    exact h (Utf8.encode_injective hSame)
  rw [ofLine, hSome, if_neg Bool.false_ne_true,
    Utf8.decode_encode]
  rfl

theorem ask_console
    (step : Nat)
    (machine : Machine) :
    (console : Provider Simulated).ask step machine =
      (ofLine step (Machine.takeLine machine.input).1,
        { machine with
          input := (Machine.takeLine machine.input).2
          output := machine.output ++
            .ofString "Enter the new content:\n" }) :=
  rfl

/- The console hands out lines as a list hands out values. -/
theorem console_follows (t : Text) :
    (console : Provider Simulated).Follows .atConsole
      (Machine.Offers t) scripted := by
  intro step machine values h
  rcases h with ⟨ls, hLeft, hInput, rfl⟩
  rw [ask_console, hInput]
  cases ls with
  | nil => exact ⟨rfl, [], hLeft, rfl, rfl⟩
  | cons line rest =>
      have hLines : Text.AreLines (line :: rest) := by
        rcases hLeft with ⟨front, hAll⟩
        have hWhole := Text.areLines_lines t
        rw [← hAll] at hWhole
        exact hWhole.of_append
      rw [Machine.takeLine_encode_flatten hLines,
        ofLine_encode step hLines.ne_nil]
      refine ⟨rfl, rest, ?_, rfl, rfl⟩
      exact (List.suffix_cons line rest).trans hLeft

end Provider

end CodecChain

------------------------------------------------------------
-- Runs at the Console
------------------------------------------------------------

namespace CodecChain

/- A file is read as its text without the line ending. -/
theorem Workspace.on_readFile_of_read
    {p : Path}
    {t : Text}
    {machine : Machine}
    (h : machine.files.read p = .ok (Utf8.encode t)) :
    Attempt.on (Workspace.readFile p true) machine =
      (.ok t.dropLineEnding, machine) := by
  have hText :
      Attempt.on
          (Failure.attempt (.reading p)
            (Host.readText p : Simulated _)) machine =
        (.ok t, machine) := by
    rw [Attempt.on_attempt, Simulated.on_readText h]
    rfl
  exact Attempt.on_bind_of_ok _ hText

namespace Chain

/-
  A line of an input is entered as it is read from a file that
  holds it, unless it ends with a carriage return: then it is
  the last one, has no line ending, and is entered without its
  last character.
-/
theorem entered_of_mem_lines
    {t line : Text}
    (hLine : line ∈ t.lines) :
    (line.getLast? ≠ some '\r' →
      line.entered = line.dropLineEnding) ∧
    (line.getLast? = some '\r' →
      t.lines.getLast? = some line ∧
      line.dropLineEnding = line ∧
      line.entered = line.dropLast) := by
  refine ⟨Text.entered_eq_dropLineEnding_iff.mpr, ?_⟩
  intro hReturn
  have hFeed : line.getLast? ≠ some '\n' := by
    rw [hReturn]
    decide
  refine ⟨(Text.areLines_lines t).getLast?_eq hLine hFeed, ?_⟩
  rcases List.getLast?_eq_some_iff.mp hReturn with ⟨body, rfl⟩
  rw [List.dropLast_concat]
  exact (Text.entered_append_return body).symm

variable [Compressor]
variable {chain : Chain} {content : Text}

/- A list of values refuses only where it is used up. -/
theorem eq_noneLeft_of_scripted
    {k : Nat}
    {refusal : ProviderError}
    {reached : Execution}
    {values left : List Text}
    (h : chain.runIn Provider.scripted content values =
      (.interrupted ⟨k, .provider refusal⟩ reached, left)) :
    refusal = .noneLeft k := by
  rcases runTokensIn_eq_interrupted_iff.mp h with
    ⟨front, token, back, after, -, -, hStep, hFails⟩
  rcases Plan.performIn_eq_error_iff.mp hFails with
    ⟨_, _, -, -, hFault, -⟩ | ⟨e, -, hAsk, hFault⟩
  · cases hFault
  · cases hFault
    rw [← hStep] at hAsk
    exact (Provider.ask_scripted_eq_error_iff.mp hAsk).1

/-
  At the console, a run is that on the list of the lines of
  the input.
-/
theorem runIn_console
    (t : Text)
    (machine : Machine)
    (chain : Chain)
    (content : Text)
    (hInput : machine.input = Utf8.encode t) :
    (chain.runIn (Provider.console : Provider Simulated) content
          machine).1 =
        (chain.runIn Provider.scripted content
          (t.lines.map Text.entered)).1.renamed .atConsole ∧
      Machine.Offers t
        (chain.runIn (Provider.console : Provider Simulated)
          content machine).2
        (chain.runIn Provider.scripted content
          (t.lines.map Text.entered)).2 := by
  apply runTokensIn_follows (Provider.console_follows t)
  refine ⟨t.lines, List.suffix_rfl, ?_, rfl⟩
  rw [hInput, Text.flatten_lines]

/- What has been received are the first lines of the input. -/
theorem received_of_offers
    {t : Text}
    {machine : Machine}
    {outcome : Outcome}
    {left : List Text}
    (hRun : chain.runIn Provider.scripted content
      (t.lines.map Text.entered) = (outcome, left))
    (hOffers : machine.Offers t left) :
    outcome.received =
        (t.lines.take outcome.received.length).map
          Text.entered ∧
      machine.input =
        Utf8.encode
          (t.lines.drop outcome.received.length).flatten := by
  have hAll := received_append_left hRun
  rcases hOffers with ⟨ls, hSuffix, hInput, rfl⟩
  constructor
  · rw [List.map_take, ← hAll, List.take_left]
  · have hCount := congrArg List.length hAll
    rw [List.length_append, List.length_map,
      List.length_map] at hCount
    have hDone :
        t.lines.length - ls.length =
          outcome.received.length := by
      omega
    rw [hInput, ← hDone, ← List.suffix_iff_eq_drop.mp hSuffix]

/- The only refusal at the console is that of closed input. -/
theorem eq_inputClosed_of_console
    {t : Text}
    {machine : Machine}
    {k : Nat}
    {refusal : ProviderError}
    {reached : Execution}
    (hInput : machine.input = Utf8.encode t)
    (h : (chain.runIn (Provider.console : Provider Simulated)
        content machine).1 =
      .interrupted ⟨k, .provider refusal⟩ reached) :
    refusal = .inputClosed k := by
  rw [(runIn_console t machine chain content hInput).1,
    Outcome.renamed_eq_refused_iff] at h
  rcases h with ⟨other, hRun, rfl⟩
  rw [eq_noneLeft_of_scripted (Prod.ext hRun rfl)]
  rfl

/-
  A run stops at the console exactly at a protection that it
  reaches when all lines have been received.
-/
theorem stops_at_console_iff
    {t : Text}
    {machine : Machine}
    {k : Nat}
    (hInput : machine.input = Utf8.encode t) :
    (∃ refusal reached,
      (chain.runIn (Provider.console : Provider Simulated)
          content machine).1 =
        .interrupted ⟨k, .provider refusal⟩ reached) ↔
      (∃ raw, .accepted k raw .protect ∈ chain.tokens) ∧
        ∃ before,
          ((chain.upTo (k - 1)).runIn
              (Provider.console : Provider Simulated) content
              machine).1 = .completed before ∧
          (Outcome.completed before).received.length =
            t.lines.length := by
  rw [(runIn_console t machine chain content hInput).1,
    (runIn_console t machine (chain.upTo (k - 1)) content
      hInput).1]
  simp only [Outcome.renamed_eq_refused_iff,
    Outcome.renamed_eq_completed_iff]
  constructor
  · rintro ⟨_, reached, other, hRun, rfl⟩
    rcases stops_for_value_iff.mp
        ⟨other, reached, _, Prod.ext hRun rfl⟩ with
      ⟨hToken, before, after, hBefore, hAll⟩
    refine ⟨hToken, before, by rw [hBefore], ?_⟩
    rw [hAll, List.length_map]
  · rintro ⟨hToken, before, hBefore, hCount⟩
    rcases hRun :
        (chain.upTo (k - 1)).runIn Provider.scripted content
          (t.lines.map Text.entered) with ⟨outcome, left⟩
    rw [hRun] at hBefore
    dsimp only at hBefore
    subst hBefore
    have hReceived := received_append_left hRun
    have hNone : left = [] := by
      rw [← List.length_eq_zero_iff]
      have hLength := congrArg List.length hReceived
      rw [List.length_append, List.length_map] at hLength
      omega
    rw [hNone, List.append_nil] at hReceived
    rcases stops_for_value_iff.mpr
        ⟨hToken, before, _, hRun, hReceived⟩ with
      ⟨refusal, reached, after, hStops⟩
    exact ⟨_, reached, refusal, by rw [hStops], rfl⟩

/-
  The values that a run receives at the console are the lines
  of the input, one for each protection that it reaches, and
  the others are left. The run stops for want of a value
  exactly at a protection that it reaches when no line is left,
  because the input is closed. A line is entered as it is read
  from a file that holds it, without its line ending; but an
  input that ends with a carriage return loses this one, which
  is no line ending.
-/
theorem receives_lines
    (t : Text)
    (machine : Machine)
    (chain : Chain)
    (content : Text)
    (hInput : machine.input = Utf8.encode t) :
    let run :=
      chain.runIn (Provider.console : Provider Simulated)
        content machine
    (run.1.received =
        (t.lines.take run.1.received.length).map
          Text.entered ∧
      run.2.input =
        Utf8.encode
          (t.lines.drop run.1.received.length).flatten) ∧
    (∀ k,
      (∃ refusal reached,
        run.1 =
          .interrupted ⟨k, .provider refusal⟩ reached) ↔
      (∃ raw, .accepted k raw .protect ∈ chain.tokens) ∧
        ∃ before,
          ((chain.upTo (k - 1)).runIn
              (Provider.console : Provider Simulated) content
              machine).1 = .completed before ∧
          (Outcome.completed before).received.length =
            t.lines.length) ∧
    (∀ k refusal reached,
      run.1 = .interrupted ⟨k, .provider refusal⟩ reached →
      refusal = .inputClosed k) ∧
    (Text.AreLines t.lines ∧ t.lines.flatten = t) ∧
    (∀ line ∈ t.lines,
      (∀ p (other : Machine),
        other.files.read p = .ok (Utf8.encode line) →
        Attempt.on (Workspace.readFile p true) other =
          (.ok line.dropLineEnding, other)) ∧
      (line.getLast? ≠ some '\r' →
        line.entered = line.dropLineEnding) ∧
      (line.getLast? = some '\r' →
        t.lines.getLast? = some line ∧
        line.dropLineEnding = line ∧
        line.entered = line.dropLast)) := by
  dsimp only
  rcases runIn_console t machine chain content hInput with
    ⟨hOutcome, hOffers⟩
  refine ⟨?_, fun _ => stops_at_console_iff hInput,
    fun _ _ _ h => eq_inputClosed_of_console hInput h,
    ⟨Text.areLines_lines t, Text.flatten_lines t⟩, ?_⟩
  · rw [hOutcome, Outcome.received_renamed]
    exact received_of_offers (Prod.ext rfl rfl) hOffers
  · intro line hLine
    exact ⟨fun _ _ h => Workspace.on_readFile_of_read h,
      entered_of_mem_lines hLine⟩

end Chain

end CodecChain

------------------------------------------------------------
-- Two Lines and a Final Return
------------------------------------------------------------

namespace CodecChain

namespace Chain

/-
  Three protections for two lines, of which the second has no
  line feed: the third protection finds the input closed.
-/
theorem receives_lines_of_two_lines :
    ∃ (chain : Chain) (machine : Machine) (reached : Execution),
      parse '-' (.ofString "P-EH-P-P") = .ok chain ∧
      machine.input = Utf8.encode (.ofString "a b\r\nc") ∧
      (chain.runIn (Provider.console : Provider Simulated) []
          machine).1 =
        .interrupted ⟨4, .provider (.inputClosed 4)⟩ reached ∧
      (chain.runIn (Provider.console : Provider Simulated) []
          machine).1.received =
        (Text.lines (.ofString "a b\r\nc")).map
          Text.entered := by
  let chain : Chain :=
    { separator := '-'
      source := .ofString "P-EH-P-P"
      tokens :=
        [Token.read 1 ['P'], Token.read 2 ['E', 'H'],
          Token.read 3 ['P'], Token.read 4 ['P']] }
  let machine : Machine :=
    { files := .empty []
      input := Utf8.encode (.ofString "a b\r\nc")
      output := []
      warnings := []
      time := []
      configDirectory := none }
  let before : Execution :=
    { content := ['c']
      trace :=
        [⟨1, ['P'], .replaced, .ofString "a b"⟩,
          ⟨2, ['E', 'H'], .encoded .hex, .ofString "612062"⟩,
          ⟨3, ['P'], .replaced, ['c']⟩]
      diagnostics := [] }
  have hParse :
      parse '-' (.ofString "P-EH-P-P") = .ok chain := by
    rfl
  have hBefore :
      ((chain.upTo 3).runIn
          (Provider.console : Provider Simulated) []
          machine).1 = .completed before := by
    decide +kernel
  have hToken :
      ∃ raw, .accepted 4 raw .protect ∈ chain.tokens :=
    ⟨['P'], by decide⟩
  rcases receives_lines (.ofString "a b\r\nc") machine chain []
    rfl with ⟨⟨hReceived, -⟩, hStops, hClosed, -⟩
  rcases (hStops 4).mpr ⟨hToken, before, hBefore, rfl⟩ with
    ⟨refusal, reached, hRun⟩
  cases hClosed _ _ _ hRun
  refine ⟨chain, machine, reached, hParse, rfl, hRun, ?_⟩
  have hCount :
      (chain.runIn (Provider.console : Provider Simulated) []
        machine).1.received.length = 2 := by
    decide +kernel
  rw [hReceived, hCount]
  rfl

/-
  A carriage return at the end of an input is received by no
  protection, though a file that ends with it keeps it.
-/
theorem loses_final_return :
    ∃ (chain : Chain) (machine : Machine),
      parse '-' ['P'] = .ok chain ∧
      machine.input = Utf8.encode ['a', '\r'] ∧
      Text.lines ['a', '\r'] = [['a', '\r']] ∧
      machine.files.read ['f'] =
        .ok (Utf8.encode ['a', '\r']) ∧
      (Attempt.on (Workspace.readFile ['f'] true) machine).1 =
        .ok ['a', '\r'] ∧
      (chain.runIn (Provider.console : Provider Simulated) []
          machine).1 =
        .completed
          ⟨['a'], [⟨1, ['P'], .replaced, ['a']⟩], []⟩ ∧
      ['a'] ≠ ['a', '\r'] := by
  let chain : Chain :=
    { separator := '-'
      source := ['P']
      tokens := [Token.read 1 ['P']] }
  let machine : Machine :=
    { files :=
        .put (.empty []) [['f']] (.file (Utf8.encode ['a', '\r']))
      input := Utf8.encode ['a', '\r']
      output := []
      warnings := []
      time := []
      configDirectory := none }
  have hFile :
      machine.files.read ['f'] =
        .ok (Utf8.encode ['a', '\r']) :=
    rfl
  refine ⟨chain, machine, rfl, rfl, rfl, hFile, ?_, ?_,
    by decide⟩
  · rw [Workspace.on_readFile_of_read hFile]
    rfl
  · decide +kernel

end Chain

end CodecChain

import CodecChain.Proofs.Run.Interruption

/-
  What a run reports about its steps. The numbers, texts and
  actions in a trace and the notes on skipped steps do not
  depend on any content or on the provider: they are those of
  the chain, as far as the run has come.

  Key definitions include:
    * `Chain.Entry`
    * `Chain.outline`
    * `Chain.notes`

  Main statements:
    * `Chain.exists_completed_take`
    * `Chain.reports_of_completed`
    * `Chain.reports_are_fixed`
-/

namespace CodecChain

------------------------------------------------------------
-- Entries
------------------------------------------------------------

/-
  What is reported of a step besides the content it has left.
  The action of a step that uses a codec names the codec.
-/
structure Chain.Entry where
  step : Nat
  token : Text
  action : Action
deriving DecidableEq, Repr

/- A record without its content. -/
def Record.entry (record : Record) : Chain.Entry :=
  ⟨record.step, record.token, record.action⟩

/- The entry of a token. -/
def Token.entry (token : Token) : Chain.Entry :=
  ⟨token.position, token.raw, token.plan.action⟩

/- A step is noted exactly if it is skipped. -/
theorem Token.map_diagnostic? (token : Token) :
    token.diagnostic?.map (fun d => (d.step, d.token)) =
      if token.plan.action = .skipped then
        some (token.position, token.raw)
      else
        none := by
  unfold diagnostic? Plan.diagnostic?
  cases token.plan <;> rfl

/- What is noted, and on which tokens. -/
theorem Token.diagnostic?_eq_some_iff
    {token : Token}
    {d : Diagnostic} :
    token.diagnostic? = some d ↔
      token.plan = .skip d.cause ∧ d.step = token.position ∧
        d.token = token.raw := by
  rcases d with ⟨i, raw, cause⟩
  unfold diagnostic? Plan.diagnostic?
  cases token.plan with
  | skip other =>
      simp only [Option.some.injEq, Diagnostic.mk.injEq,
        Plan.skip.injEq]
      constructor
      · rintro ⟨rfl, rfl, rfl⟩
        exact ⟨rfl, rfl, rfl⟩
      · rintro ⟨rfl, rfl, rfl⟩
        exact ⟨rfl, rfl, rfl⟩
  | encode codec => simp
  | decode codec => simp
  | replace => simp

theorem Plan.action_eq_skipped_iff {plan : Plan} :
    plan.action = .skipped ↔ ∃ cause, plan = .skip cause := by
  cases plan <;> simp [action]

theorem Codec.ofTag?_eq_none_iff {tag : Text} :
    ofTag? tag = none ↔ ∀ codec : Codec, codec.tag ≠ tag := by
  rw [ofTag?, List.find?_eq_none]
  constructor
  · intro h codec hTag
    exact h codec (mem_all codec) (decide_eq_true hTag)
  · intro h codec _
    rw [decide_eq_true_iff]
    exact h codec

namespace Chain

/- The entries of all steps of a chain. -/
def outline (chain : Chain) : List Entry :=
  chain.tokens.map Token.entry

/- The notes on all steps of a chain that are skipped. -/
def notes (chain : Chain) : List Diagnostic :=
  chain.tokens.filterMap Token.diagnostic?

theorem mem_filterMap_diagnostic?_iff
    {tokens : List Token}
    {d : Diagnostic} :
    d ∈ tokens.filterMap Token.diagnostic? ↔
      ∃ token ∈ tokens, token.plan = .skip d.cause ∧
        d.step = token.position ∧ d.token = token.raw := by
  simp only [List.mem_filterMap, Token.diagnostic?_eq_some_iff]

/- There is a note for each skipped entry, in order. -/
theorem map_notes (chain : Chain) :
    chain.notes.map (fun d => (d.step, d.token)) =
      (chain.outline.filter (·.action = .skipped)).map
        (fun entry => (entry.step, entry.token)) := by
  rw [notes, outline, List.map_filterMap, List.filter_map,
    List.map_map, ← List.filterMap_eq_map,
    List.filterMap_filter]
  congr 1
  funext token
  rw [Token.map_diagnostic?]
  by_cases hSkipped : token.plan.action = .skipped
  · simp [Token.entry, hSkipped]
  · simp [Token.entry, hSkipped]

variable {chain : Chain}

/- The notes on the steps before one are the first notes. -/
theorem filter_notes_of_append_cons
    {front back : List Token}
    {token : Token}
    (hTokens : chain.tokens = front ++ token :: back) :
    chain.notes.filter (·.step < token.position) =
      front.filterMap Token.diagnostic? := by
  have hPosition := position_of_append_cons hTokens
  have hBefore :
      ∀ d ∈ front.filterMap Token.diagnostic?,
        decide (d.step < token.position) = true := by
    intro d hMem
    rcases mem_filterMap_diagnostic?_iff.mp hMem with
      ⟨other, hOther, -, hStep, -⟩
    have hEarly := position_le_of_mem_front hTokens hOther
    rw [decide_eq_true_iff]
    omega
  have hAfter :
      ∀ d ∈ (token :: back).filterMap Token.diagnostic?,
        ¬decide (d.step < token.position) = true := by
    intro d hMem
    rcases mem_filterMap_diagnostic?_iff.mp hMem with
      ⟨other, hOther, -, hStep, -⟩
    have hLate := lt_position_of_mem_back hTokens hOther
    rw [decide_eq_true_iff]
    omega
  rw [notes, hTokens, List.filterMap_append, List.filter_append,
    List.filter_eq_self.mpr hBefore,
    List.filter_eq_nil_iff.mpr hAfter, List.append_nil]

/- Rejected tokens are noted, each with its cause. -/
theorem mem_notes_rejected_iff
    {i : Nat}
    {raw : Text}
    {cause : Rejection} :
    ⟨i, raw, .rejected cause⟩ ∈ chain.notes ↔
      .rejected i raw cause ∈ chain.tokens := by
  rw [notes, mem_filterMap_diagnostic?_iff]
  constructor
  · rintro ⟨token, hMem, hPlan, hStep, hRaw⟩
    rw [← Token.asks_iff] at hPlan
    cases hPlan with
    | rejected =>
        cases hStep
        cases hRaw
        exact hMem
  · intro h
    exact ⟨_, h, rfl, rfl, rfl⟩

/- Tags without a codec are noted, where one is needed. -/
theorem mem_notes_unknownCodec_iff
    {i : Nat}
    {raw tag : Text} :
    ⟨i, raw, .unknownCodec tag⟩ ∈ chain.notes ↔
      ∃ instruction,
        .accepted i raw instruction ∈ chain.tokens ∧
        (instruction = .encode tag ∨
          instruction = .decode tag) ∧
        ∀ codec : Codec, codec.tag ≠ tag := by
  rw [notes, mem_filterMap_diagnostic?_iff]
  constructor
  · rintro ⟨token, hMem, hPlan, hStep, hRaw⟩
    rw [← Token.asks_iff] at hPlan
    cases hPlan with
    | @unknown position other tag instruction hInstruction hTag =>
        cases hStep
        cases hRaw
        refine ⟨instruction, hMem, ?_, ?_⟩
        · cases instruction <;>
            simp_all [Instruction.tag?]
        · exact Codec.ofTag?_eq_none_iff.mp hTag
  · rintro ⟨instruction, hMem, hInstruction, hTag⟩
    have hNone := Codec.ofTag?_eq_none_iff.mpr hTag
    refine ⟨_, hMem, ?_, rfl, rfl⟩
    rcases hInstruction with rfl | rfl
    · exact (Token.Asks.unknown rfl hNone).plan_eq
    · exact (Token.Asks.unknown rfl hNone).plan_eq

------------------------------------------------------------
-- Steps That Were Completed
------------------------------------------------------------

variable [Compressor]
variable {σ : Type} {provider : Provider (StateM σ)}
variable {tokens : List Token} {content : Text} {s s' : σ}

/-
  What a run has left behind is the whole result of as many
  of its first tokens as there are records.
-/
theorem exists_completed_take
    {outcome : Outcome}
    (h : runTokensIn provider tokens content s =
      (outcome, s')) :
    ∃ s₁,
      runTokensIn provider
          (tokens.take outcome.execution.trace.length) content s =
        (.completed outcome.execution, s₁) := by
  cases outcome with
  | completed e =>
      have hLength := length_trace_of_completed h
      refine ⟨s', ?_⟩
      rw [Outcome.execution, hLength, List.take_length]
      exact h
  | interrupted error reached =>
      rcases runTokensIn_eq_interrupted_iff.mp h with
        ⟨front, token, back, s₁, rfl, hFront, -, -⟩
      have hLength := length_trace_of_completed hFront
      refine ⟨s₁, ?_⟩
      rw [Outcome.execution, hLength, List.take_left]
      exact hFront

/- A completed run reports what its tokens say. -/
theorem reports_of_completed
    {e : Execution}
    (h : runTokensIn provider tokens content s =
      (.completed e, s')) :
    e.trace.map Record.entry = tokens.map Token.entry ∧
      e.diagnostics = tokens.filterMap Token.diagnostic? := by
  induction tokens generalizing content s e with
  | nil =>
      rw [runTokensIn_nil, Prod.mk.injEq,
        Outcome.completed.injEq] at h
      rw [← h.1]
      exact ⟨rfl, rfl⟩
  | cons token tokens ih =>
      rcases runTokensIn_cons_eq_completed_iff.mp h with
        ⟨next, s₁, later, -, hLater, rfl⟩
      rcases ih hLater with ⟨hTrace, hDiagnostics⟩
      constructor
      · rw [Execution.afterStep, List.map_cons, hTrace]
        rfl
      · rw [Execution.afterStep, hDiagnostics,
          List.filterMap_cons]
        cases token.diagnostic? <;> rfl

/- A skipped step leaves the content before it. -/
theorem content_of_skipped
    {e : Execution}
    {i : Nat}
    {record : Record}
    (h : runTokensIn provider tokens content s =
      (.completed e, s'))
    (hRecord : e.trace[i]? = some record)
    (hSkipped : record.action = .skipped) :
    (e.contentsFrom content)[i]? = some record.content := by
  have hIndex := (List.getElem?_eq_some_iff.mp hRecord).1
  have hToken : i < tokens.length := by
    rw [← length_trace_of_completed h]
    exact hIndex
  rcases exists_stage_of_completed h
      (List.getElem?_eq_getElem hToken) with
    ⟨before, s₀, next, s₁, hBefore, hTrace, hPerform, hStage⟩
  rw [hRecord, Option.some.injEq] at hStage
  subst hStage
  rcases Plan.action_eq_skipped_iff.mp hSkipped with
    ⟨cause, hPlan⟩
  rw [Token.performIn, hPlan, Plan.performIn_skip,
    Prod.mk.injEq, Except.ok.injEq] at hPerform
  have hBack := Execution.getElem?_contentsFrom_of_take
    (Nat.le_of_lt hIndex) hTrace
    (getLast?_contentsFrom_of_completed hBefore)
  rw [hPerform.1] at hBack
  exact hBack

------------------------------------------------------------
-- Whole Chains
------------------------------------------------------------

/- An interrupted run reports what the tokens before say. -/
theorem reports_of_interrupted
    {error : StepError}
    {reached : Execution}
    (h : chain.runIn provider content s =
      (.interrupted error reached, s')) :
    reached.trace.map Record.entry =
        chain.outline.take (error.step - 1) ∧
      reached.diagnostics <+: chain.notes ∧
      reached.diagnostics =
        chain.notes.filter (·.step < error.step) := by
  rcases runTokensIn_eq_interrupted_iff.mp h with
    ⟨front, token, back, s₁, hTokens, hFront, hStep, -⟩
  rcases reports_of_completed hFront with
    ⟨hTrace, hDiagnostics⟩
  have hPosition := position_of_append_cons hTokens
  have hCount : error.step - 1 = front.length := by omega
  refine ⟨?_, ?_, ?_⟩
  · rw [hTrace, outline, hTokens, ← List.map_take, hCount,
      List.take_left]
  · rw [hDiagnostics, notes, hTokens, List.filterMap_append]
    exact List.prefix_append _ _
  · rw [hDiagnostics, hStep,
      filter_notes_of_append_cons hTokens]

/-
  What a run reports about its steps is fixed by the chain. A
  completed run has the entries and the notes of the chain,
  whatever the content and the provider are; an interrupted
  one has those of the steps before the failing one. The notes
  go with the skipped entries, one for each and in order, and
  are on rejected tokens and on tags without a codec, and on
  nothing else. A skipped step leaves the content alone.
-/
theorem reports_are_fixed
    (provider : Provider (StateM σ))
    (chain : Chain)
    (content : Text)
    (s : σ) :
    (∀ e final,
      chain.runIn provider content s = (.completed e, final) →
      e.trace.map Record.entry = chain.outline ∧
      e.diagnostics = chain.notes) ∧
    (∀ error reached final,
      chain.runIn provider content s =
        (.interrupted error reached, final) →
      reached.trace.map Record.entry =
        chain.outline.take (error.step - 1) ∧
      reached.diagnostics <+: chain.notes ∧
      reached.diagnostics =
        chain.notes.filter (·.step < error.step)) ∧
    chain.notes.map (fun d => (d.step, d.token)) =
      (chain.outline.filter (·.action = .skipped)).map
        (fun entry => (entry.step, entry.token)) ∧
    (∀ i raw cause,
      ⟨i, raw, .rejected cause⟩ ∈ chain.notes ↔
        .rejected i raw cause ∈ chain.tokens) ∧
    (∀ i raw tag,
      ⟨i, raw, .unknownCodec tag⟩ ∈ chain.notes ↔
        ∃ instruction,
          .accepted i raw instruction ∈ chain.tokens ∧
          (instruction = .encode tag ∨
            instruction = .decode tag) ∧
          ∀ codec : Codec, codec.tag ≠ tag) ∧
    (∀ outcome final (i : Nat) (record : Record),
      chain.runIn provider content s = (outcome, final) →
      outcome.execution.trace[i]? = some record →
      record.action = .skipped →
      (outcome.execution.contentsFrom content)[i]? =
        some record.content) := by
  refine ⟨?_, ?_, map_notes chain, ?_, ?_, ?_⟩
  · intro e final h
    exact reports_of_completed h
  · intro error reached final h
    exact reports_of_interrupted h
  · intro i raw cause
    exact mem_notes_rejected_iff
  · intro i raw tag
    exact mem_notes_unknownCodec_iff
  · intro outcome final i record h hRecord hSkipped
    rcases exists_completed_take h with ⟨s₁, hDone⟩
    exact content_of_skipped hDone hRecord hSkipped

end Chain

end CodecChain

------------------------------------------------------------
-- One Chain on Two Contents
------------------------------------------------------------

namespace CodecChain

namespace Chain

/-
  One chain on two contents: with the one it completes, with
  the other its decoding fails. What both report of the first
  steps is the same.
-/
theorem reports_are_fixed_of_bad_digit :
    ∃ chain e reached,
      parse '-' (.ofString "EQ--DH-PX-D") = .ok chain ∧
      chain.runIn (Provider.fixed ['v']) (.ofString "61") () =
        (.completed e, ()) ∧
      chain.runIn (Provider.fixed ['v']) (.ofString "6x") () =
        (.interrupted
          ⟨3, .decode ⟨.hex, .hex (.badDigit 'x' 1)⟩⟩ reached,
          ()) ∧
      e.diagnostics =
        [⟨1, ['E', 'Q'], .unknownCodec ['Q']⟩,
          ⟨2, [], .rejected .emptyToken⟩,
          ⟨5, ['D'], .rejected (.missingCodec .decode)⟩] ∧
      reached.diagnostics =
        e.diagnostics.filter (·.step < 3) ∧
      reached.trace.map Record.entry =
        (e.trace.map Record.entry).take 2 := by
  let chain : Chain :=
    { separator := '-'
      source := .ofString "EQ--DH-PX-D"
      tokens :=
        [Token.read 1 ['E', 'Q'], Token.read 2 [],
          Token.read 3 ['D', 'H'], Token.read 4 ['P', 'X'],
          Token.read 5 ['D']] }
  have hParse :
      parse '-' (.ofString "EQ--DH-PX-D") = .ok chain := by
    rfl
  let reached : Execution :=
    { content := .ofString "6x"
      trace :=
        [⟨1, ['E', 'Q'], .skipped, .ofString "6x"⟩,
          ⟨2, [], .skipped, .ofString "6x"⟩]
      diagnostics :=
        [⟨1, ['E', 'Q'], .unknownCodec ['Q']⟩,
          ⟨2, [], .rejected .emptyToken⟩] }
  let e : Execution :=
    { content := ['v']
      trace :=
        [⟨1, ['E', 'Q'], .skipped, .ofString "61"⟩,
          ⟨2, [], .skipped, .ofString "61"⟩,
          ⟨3, ['D', 'H'], .decoded .hex, ['a']⟩,
          ⟨4, ['P', 'X'], .replaced, ['v']⟩,
          ⟨5, ['D'], .skipped, ['v']⟩]
      diagnostics :=
        [⟨1, ['E', 'Q'], .unknownCodec ['Q']⟩,
          ⟨2, [], .rejected .emptyToken⟩,
          ⟨5, ['D'], .rejected (.missingCodec .decode)⟩] }
  have hCompleted :
      chain.runIn (Provider.fixed ['v']) (.ofString "61") () =
        (.completed e, ()) := by
    decide +kernel
  have hInterrupted :
      chain.runIn (Provider.fixed ['v']) (.ofString "6x") () =
        (.interrupted
          ⟨3, .decode ⟨.hex, .hex (.badDigit 'x' 1)⟩⟩ reached,
          ()) := by
    decide +kernel
  rcases (reports_are_fixed (Provider.fixed ['v']) chain _ _).1
    _ _ hCompleted with ⟨hTrace, hNotes⟩
  rcases (reports_are_fixed (Provider.fixed ['v']) chain _ _).2.1
    _ _ _ hInterrupted with ⟨hFirst, -, hFirstNotes⟩
  refine ⟨chain, e, reached, hParse, hCompleted, hInterrupted,
    rfl, ?_, ?_⟩
  · rw [hNotes]
    exact hFirstNotes
  · rw [hTrace]
    exact hFirst

end Chain

end CodecChain

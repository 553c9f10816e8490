import CodecChain.Proofs.Run.Outline

/-
  Runs of one chain over two contents. A provider is asked by
  the chain and not by the content, so that it is in the same
  state wherever both runs have come; a protection step that
  both complete gives both the same value, and from there on
  nothing tells the runs apart.

  Key definitions include:
    * `Outcome.EndsLike`

  Main statements:
    * `Chain.state_eq_of_completed`
    * `Chain.exists_runTokensIn_eq_after`
    * `Chain.forgets_before_protection`
-/

------------------------------------------------------------
-- Outcomes That End Alike
------------------------------------------------------------

namespace CodecChain

namespace Outcome

/-
  Outcomes that end alike: both complete with one content, or
  one error interrupts both and leaves them with one content.
-/
inductive EndsLike : Outcome → Outcome → Prop where
  | completed
      {e₁ e₂ : Execution}
      (hContent : e₁.content = e₂.content) :
      EndsLike (.completed e₁) (.completed e₂)
  | interrupted
      {error : StepError}
      {reached₁ reached₂ : Execution}
      (hContent : reached₁.content = reached₂.content) :
      EndsLike (.interrupted error reached₁)
        (.interrupted error reached₂)

/- What was done before does not change how a run ends. -/
theorem endsLike_after
    (first second : Execution)
    (outcome : Outcome) :
    (outcome.after first).EndsLike (outcome.after second) := by
  cases outcome with
  | completed e => exact EndsLike.completed rfl
  | interrupted error reached => exact EndsLike.interrupted rfl

end Outcome

/- The records from a step on are those of what comes later. -/
theorem Execution.drop_trace_andThen
    {before later : Execution}
    {k : Nat}
    (hLength : before.trace.length = k) :
    (before.andThen later).trace.drop k = later.trace := by
  rw [andThen, ← hLength, List.drop_left]

end CodecChain

------------------------------------------------------------
-- States of the Provider
------------------------------------------------------------

namespace CodecChain

variable [Compressor]
variable {σ : Type} {provider : Provider (StateM σ)}
variable {step : Nat} {content : Text} {c₁ c₂ : Text}
variable {s s' s₁ s₂ : σ}

/-
  A plan leaves the provider in a state that does not depend
  on the content, provided that it succeeds.
-/
theorem Plan.state_eq_of_performIn
    {plan : Plan}
    {next₁ next₂ : Text}
    (h₁ : plan.performIn provider step c₁ s = (.ok next₁, s₁))
    (h₂ : plan.performIn provider step c₂ s = (.ok next₂, s₂)) :
    s₁ = s₂ := by
  cases plan with
  | skip cause =>
      rw [performIn_skip, Prod.mk.injEq] at h₁ h₂
      exact h₁.2.symm.trans h₂.2
  | encode codec =>
      rw [performIn_encode, Prod.mk.injEq] at h₁ h₂
      exact h₁.2.symm.trans h₂.2
  | decode codec =>
      rw [performIn_decode, Prod.mk.injEq] at h₁ h₂
      exact h₁.2.symm.trans h₂.2
  | replace =>
      rw [performIn_replace, Prod.mk.injEq] at h₁ h₂
      exact h₁.2.symm.trans h₂.2

namespace Chain

variable {tokens front back : List Token} {token : Token}
variable {outcome : Outcome}

theorem state_eq_of_completed
    {e₁ e₂ : Execution}
    (h₁ : runTokensIn provider tokens c₁ s =
      (.completed e₁, s₁))
    (h₂ : runTokensIn provider tokens c₂ s =
      (.completed e₂, s₂)) :
    s₁ = s₂ := by
  induction tokens generalizing c₁ c₂ s e₁ e₂ with
  | nil =>
      rw [runTokensIn_nil, Prod.mk.injEq] at h₁ h₂
      exact h₁.2.symm.trans h₂.2
  | cons token tokens ih =>
      rcases runTokensIn_cons_eq_completed_iff.mp h₁ with
        ⟨next₁, t₁, later₁, hPerform₁, hLater₁, -⟩
      rcases runTokensIn_cons_eq_completed_iff.mp h₂ with
        ⟨next₂, t₂, later₂, hPerform₂, hLater₂, -⟩
      have hState :=
        Plan.state_eq_of_performIn hPerform₁ hPerform₂
      subst hState
      exact ih hLater₁ hLater₂

------------------------------------------------------------
-- Runs Beyond a Token
------------------------------------------------------------

/- An interrupted run has not completed all of its tokens. -/
theorem length_trace_lt_of_interrupted
    {error : StepError}
    {reached : Execution}
    (h : runTokensIn provider tokens content s =
      (.interrupted error reached, s')) :
    reached.trace.length < tokens.length := by
  rcases runTokensIn_eq_interrupted_iff.mp h with
    ⟨front, token, back, s₁, rfl, hFront, -⟩
  rw [length_trace_of_completed hFront, List.length_append,
    List.length_cons]
  omega

/-
  A run that completes a token is the run of the tokens before
  it, the step of the token, and the run of those after it.
-/
theorem exists_runTokensIn_eq_after
    (h : runTokensIn provider (front ++ token :: back)
      content s = (outcome, s'))
    (hDone : front.length < outcome.execution.trace.length) :
    ∃ before t next t',
      runTokensIn provider front content s =
        (.completed before, t) ∧
      token.performIn provider before.content t =
        (.ok next, t') ∧
      let later := runTokensIn provider back next t'
      outcome =
        (later.1.afterStep (token.record next)
          token.diagnostic?).after before ∧
      s' = later.2 := by
  rw [runTokensIn_append] at h
  rcases hFront : runTokensIn provider front content s with
    ⟨before | ⟨error, reached⟩, t⟩
  · rw [hFront] at h
    dsimp only at h
    have hLength := length_trace_of_completed hFront
    rcases hToken :
        token.performIn provider before.content t with
      ⟨fault | next, t'⟩
    · rw [runTokensIn_cons_of_error hToken, Prod.mk.injEq] at h
      rw [← h.1, Outcome.execution_after, Outcome.execution,
        Execution.andThen_start, hLength] at hDone
      omega
    · rw [runTokensIn_cons_of_ok hToken, Prod.mk.injEq] at h
      exact ⟨before, t, next, t', rfl, hToken, h.1.symm,
        h.2.symm⟩
  · rw [hFront, Prod.mk.injEq] at h
    have hLength := length_trace_lt_of_interrupted hFront
    rw [← h.1, Outcome.execution] at hDone
    omega

------------------------------------------------------------
-- Runs That a Protection Joins
------------------------------------------------------------

/-
  A protection erases the past. If two runs of a chain over
  any two contents, with the provider in the same state, both
  complete a protection step, then from that step on they
  have the same records and end alike, with the provider in
  the same state; and they have the same notes altogether.
-/
theorem forgets_before_protection
    {chain : Chain}
    {outcome₁ outcome₂ : Outcome}
    {k : Nat}
    {raw : Text}
    (hProtect : .accepted k raw .protect ∈ chain.tokens)
    (h₁ : chain.runIn provider c₁ s = (outcome₁, s₁))
    (h₂ : chain.runIn provider c₂ s = (outcome₂, s₂))
    (hDone₁ : k ≤ outcome₁.execution.trace.length)
    (hDone₂ : k ≤ outcome₂.execution.trace.length) :
    outcome₁.execution.trace.drop (k - 1) =
        outcome₂.execution.trace.drop (k - 1) ∧
      outcome₁.EndsLike outcome₂ ∧
      outcome₁.execution.diagnostics =
        outcome₂.execution.diagnostics ∧
      s₁ = s₂ := by
  rcases exists_append_of_mem hProtect with
    ⟨front, back, hTokens, hPosition⟩
  rw [Token.position] at hPosition
  rw [runIn_eq, hTokens] at h₁ h₂
  rcases exists_runTokensIn_eq_after h₁ (by omega) with
    ⟨before₁, t₁, next₁, t₁', hBefore₁, hStep₁, hOutcome₁,
      hState₁⟩
  rcases exists_runTokensIn_eq_after h₂ (by omega) with
    ⟨before₂, t₂, next₂, t₂', hBefore₂, hStep₂, hOutcome₂,
      hState₂⟩
  -- The provider is asked in the same state, so it gives both
  -- runs the same value.
  have hAsked : t₁ = t₂ :=
    state_eq_of_completed hBefore₁ hBefore₂
  subst hAsked
  have hPlan :
      (Token.accepted k raw .protect).plan = .replace := rfl
  have hSame : next₁ = next₂ ∧ t₁' = t₂' := by
    rw [Token.performIn, hPlan, Plan.performIn_replace]
      at hStep₁ hStep₂
    have hAnswer := hStep₁.symm.trans hStep₂
    rw [Prod.mk.injEq, Except.ok.injEq] at hAnswer
    exact hAnswer
  rcases hSame with ⟨rfl, rfl⟩
  have hLength₁ := length_trace_of_completed hBefore₁
  have hLength₂ := length_trace_of_completed hBefore₂
  rw [hOutcome₁, hOutcome₂, hPosition]
  refine ⟨?_, Outcome.endsLike_after _ _ _, ?_,
    hState₁.trans hState₂.symm⟩
  · rw [Outcome.execution_after, Outcome.execution_after,
      Nat.add_sub_cancel, Execution.drop_trace_andThen hLength₁,
      Execution.drop_trace_andThen hLength₂]
  · rw [Outcome.execution_after, Outcome.execution_after,
      Execution.andThen, Execution.andThen,
      (reports_of_completed hBefore₁).2,
      (reports_of_completed hBefore₂).2]

end Chain

end CodecChain

------------------------------------------------------------
-- A Chain With Two Protections
------------------------------------------------------------

namespace CodecChain

namespace Chain

/-
  Two contents, two values and two protections, with a decoding
  between them that fails: from the first protection on, both
  runs are the same.
-/
theorem forgets_before_protection_of_failing_chain :
    ∃ chain outcome₁ outcome₂,
      parse '-' (.ofString "ERL-P-E64-DH-P") = .ok chain ∧
      chain.runIn Provider.scripted (.ofString "aaab")
          [['v'], ['w']] = (outcome₁, [['w']]) ∧
      chain.runIn Provider.scripted [] [['v'], ['w']] =
        (outcome₂, [['w']]) ∧
      outcome₁ ≠ outcome₂ ∧
      outcome₁.execution.trace.length = 3 ∧
      outcome₁.execution.trace.drop 1 =
        outcome₂.execution.trace.drop 1 ∧
      outcome₁.EndsLike outcome₂ := by
  let chain : Chain :=
    { separator := '-'
      source := .ofString "ERL-P-E64-DH-P"
      tokens :=
        [Token.read 1 (.ofString "ERL"), Token.read 2 ['P'],
          Token.read 3 (.ofString "E64"),
          Token.read 4 (.ofString "DH"), Token.read 5 ['P']] }
  have hParse :
      parse '-' (.ofString "ERL-P-E64-DH-P") = .ok chain := by
    rfl
  let outcome (encoded : Text) : Outcome :=
    .interrupted ⟨4, .decode ⟨.hex, .hex (.badDigit 'g' 1)⟩⟩
      ⟨.ofString "dg==",
        [⟨1, .ofString "ERL", .encoded .runLength, encoded⟩,
          ⟨2, ['P'], .replaced, ['v']⟩,
          ⟨3, .ofString "E64", .encoded .base64,
            .ofString "dg=="⟩], []⟩
  have hFirst :
      chain.runIn Provider.scripted (.ofString "aaab")
          [['v'], ['w']] =
        (outcome (.ofString "3a1b"), [['w']]) := by
    decide +kernel
  have hSecond :
      chain.runIn Provider.scripted [] [['v'], ['w']] =
        (outcome [], [['w']]) := by
    decide +kernel
  have hProtect :
      .accepted 2 ['P'] .protect ∈ chain.tokens := by
    decide
  rcases forgets_before_protection hProtect hFirst hSecond
      (by decide) (by decide) with ⟨hTrace, hEnds, -, -⟩
  exact ⟨chain, _, _, hParse, hFirst, hSecond, by decide, rfl,
    hTrace, hEnds⟩

end Chain

end CodecChain

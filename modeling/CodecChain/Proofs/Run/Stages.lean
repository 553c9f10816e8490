import CodecChain.Proofs.Chain.Positions
import CodecChain.Proofs.Run.Plan

/-
  Runs in stages. A run over tokens is the run over the first
  of them and, if that completes, the run over the others on
  what it has left behind; a run is interrupted exactly where
  the run up to a token completes and that token fails.

  Key definitions include:
    * `Chain.runIn`
    * `Execution.andThen`

  Main statements:
    * `Chain.runTokensIn_append`
    * `Chain.runTokensIn_append_eq_completed_iff`
    * `Chain.runTokensIn_eq_interrupted_iff`
-/

------------------------------------------------------------
-- Successive Executions
------------------------------------------------------------

namespace CodecChain

namespace Execution

/- What is left behind by steps and by the steps after them. -/
def andThen (first later : Execution) : Execution where
  content := later.content
  trace := first.trace ++ later.trace
  diagnostics := first.diagnostics ++ later.diagnostics

@[simp] theorem content_start (content : Text) :
    (start content).content = content :=
  rfl

theorem start_andThen
    (content : Text)
    (e : Execution) :
    (start content).andThen e = e := by
  simp [andThen, start]

theorem andThen_start (e : Execution) :
    e.andThen (start e.content) = e := by
  simp [andThen, start]

theorem afterStep_andThen
    (record : Record)
    (diagnostic : Option Diagnostic)
    (first later : Execution) :
    (first.afterStep record diagnostic).andThen later =
      (first.andThen later).afterStep record diagnostic := by
  simp [andThen, afterStep]

end Execution

namespace Outcome

/- The outcome of a run with completed steps in front. -/
def after (first : Execution) : Outcome → Outcome
  | completed e => completed (first.andThen e)
  | interrupted error reached =>
      interrupted error (first.andThen reached)

theorem after_start
    (content : Text)
    (outcome : Outcome) :
    outcome.after (.start content) = outcome := by
  cases outcome <;> simp [after, Execution.start_andThen]

theorem after_afterStep
    (record : Record)
    (diagnostic : Option Diagnostic)
    (first : Execution)
    (outcome : Outcome) :
    outcome.after (first.afterStep record diagnostic) =
      (outcome.after first).afterStep record diagnostic := by
  cases outcome <;>
    simp [after, afterStep, Execution.afterStep_andThen]

theorem execution_after
    (first : Execution)
    (outcome : Outcome) :
    (outcome.after first).execution =
      first.andThen outcome.execution := by
  cases outcome <;> rfl

theorem execution_afterStep
    (record : Record)
    (diagnostic : Option Diagnostic)
    (outcome : Outcome) :
    (outcome.afterStep record diagnostic).execution =
      outcome.execution.afterStep record diagnostic := by
  cases outcome <;> rfl

theorem after_eq_completed_iff
    {first e : Execution}
    {outcome : Outcome} :
    outcome.after first = completed e ↔
      ∃ later,
        outcome = completed later ∧ e = first.andThen later := by
  cases outcome <;> simp [after, eq_comm]

theorem afterStep_eq_completed_iff
    {record : Record}
    {diagnostic : Option Diagnostic}
    {e : Execution}
    {outcome : Outcome} :
    outcome.afterStep record diagnostic = completed e ↔
      ∃ later,
        outcome = completed later ∧
          e = later.afterStep record diagnostic := by
  cases outcome <;> simp [afterStep, eq_comm]

theorem afterStep_eq_interrupted_iff
    {record : Record}
    {diagnostic : Option Diagnostic}
    {error : StepError}
    {reached : Execution}
    {outcome : Outcome} :
    outcome.afterStep record diagnostic =
        interrupted error reached ↔
      ∃ before,
        outcome = interrupted error before ∧
          reached = before.afterStep record diagnostic := by
  cases outcome with
  | completed later => simp [afterStep]
  | interrupted fault before =>
      simp only [afterStep, interrupted.injEq]
      constructor
      · rintro ⟨rfl, rfl⟩
        exact ⟨before, ⟨rfl, rfl⟩, rfl⟩
      · rintro ⟨_, ⟨rfl, rfl⟩, rfl⟩
        exact ⟨rfl, rfl⟩

end Outcome

end CodecChain

------------------------------------------------------------
-- First Steps
------------------------------------------------------------

namespace CodecChain

namespace Token

/- The record that a completed step leaves. -/
def record
    (token : Token)
    (next : Text) : Record :=
  ⟨token.position, token.raw, token.plan.action, next⟩

/- The note that a skipped step leaves. -/
def diagnostic? (token : Token) : Option Diagnostic :=
  token.plan.diagnostic? token.position token.raw

theorem record_placed
    (position : Nat)
    (token : Token)
    (next : Text) :
    (token.placed position).record next =
      { token.record next with step := position } := by
  cases token <;> rfl

/- What a token does from a state of the provider. -/
def performIn
    [Compressor]
    {σ : Type}
    (provider : Provider (StateM σ))
    (token : Token)
    (content : Text)
    (s : σ) : Except StepFault Text × σ :=
  token.plan.performIn provider token.position content s

end Token

namespace Chain

variable [Compressor]
variable {σ : Type}

/- How tokens run from a state of the provider. -/
def runTokensIn
    (provider : Provider (StateM σ))
    (tokens : List Token)
    (content : Text)
    (s : σ) : Outcome × σ :=
  runTokens provider tokens content s

/- How a chain runs from a state of the provider. -/
def runIn
    (provider : Provider (StateM σ))
    (chain : Chain)
    (content : Text)
    (s : σ) : Outcome × σ :=
  chain.run provider content s

variable {provider : Provider (StateM σ)}
variable {token : Token} {tokens : List Token}
variable {content next : Text} {s s₁ s' : σ}

theorem runIn_eq
    (provider : Provider (StateM σ))
    (chain : Chain)
    (content : Text)
    (s : σ) :
    chain.runIn provider content s =
      runTokensIn provider chain.tokens content s :=
  rfl

theorem runTokensIn_nil
    (provider : Provider (StateM σ))
    (content : Text)
    (s : σ) :
    runTokensIn provider [] content s =
      (.completed (.start content), s) :=
  rfl

/- A run whose first step fails has done nothing. -/
theorem runTokensIn_cons_of_error
    {fault : StepFault}
    (h : token.performIn provider content s =
      (.error fault, s')) :
    runTokensIn provider (token :: tokens) content s =
      (.interrupted ⟨token.position, fault⟩ (.start content),
        s') := by
  have hPerform :
      token.plan.perform provider token.position content s =
        (.error fault, s') := h
  simp only [runTokensIn, runTokens, bind, StateT.bind,
    hPerform]
  rfl

/- A run whose first step succeeds goes on from there. -/
theorem runTokensIn_cons_of_ok
    (h : token.performIn provider content s =
      (.ok next, s₁)) :
    runTokensIn provider (token :: tokens) content s =
      ((runTokensIn provider tokens next s₁).1.afterStep
          (token.record next) token.diagnostic?,
        (runTokensIn provider tokens next s₁).2) := by
  have hPerform :
      token.plan.perform provider token.position content s =
        (.ok next, s₁) := h
  simp only [runTokensIn, runTokens, bind, StateT.bind,
    hPerform]
  rfl

/- A run completes if its first step and the others do. -/
theorem runTokensIn_cons_eq_completed_iff {e : Execution} :
    runTokensIn provider (token :: tokens) content s =
        (.completed e, s') ↔
      ∃ next s₁ later,
        token.performIn provider content s =
          (.ok next, s₁) ∧
        runTokensIn provider tokens next s₁ =
          (.completed later, s') ∧
        e = later.afterStep (token.record next)
          token.diagnostic? := by
  constructor
  · intro h
    rcases hFirst : token.performIn provider content s with
      ⟨fault | next, s₁⟩
    · rw [runTokensIn_cons_of_error hFirst] at h
      simp at h
    · rw [runTokensIn_cons_of_ok hFirst, Prod.mk.injEq,
        Outcome.afterStep_eq_completed_iff] at h
      rcases h with ⟨⟨later, hLater, rfl⟩, rfl⟩
      exact ⟨next, s₁, later, rfl, Prod.ext hLater rfl, rfl⟩
  · rintro ⟨next, s₁, later, hFirst, hLater, rfl⟩
    rw [runTokensIn_cons_of_ok hFirst, hLater]
    rfl

------------------------------------------------------------
-- Runs One After the Other
------------------------------------------------------------

/- A run goes on with the other tokens if the first complete. -/
theorem runTokensIn_append
    (provider : Provider (StateM σ))
    (front back : List Token)
    (content : Text)
    (s : σ) :
    runTokensIn provider (front ++ back) content s =
      match runTokensIn provider front content s with
      | (.completed e, s₁) =>
          ((runTokensIn provider back e.content s₁).1.after e,
            (runTokensIn provider back e.content s₁).2)
      | (.interrupted error reached, s₁) =>
          (.interrupted error reached, s₁) := by
  induction front generalizing content s with
  | nil =>
      simp only [List.nil_append, runTokensIn_nil,
        Outcome.after_start, Execution.content_start]
  | cons token front ih =>
      rw [List.cons_append]
      rcases hFirst : token.performIn provider content s with
        ⟨fault | next, s₁⟩
      · rw [runTokensIn_cons_of_error hFirst,
          runTokensIn_cons_of_error hFirst]
      · rw [runTokensIn_cons_of_ok hFirst,
          runTokensIn_cons_of_ok hFirst, ih]
        rcases runTokensIn provider front next s₁ with
          ⟨e | ⟨error, reached⟩, s₂⟩
        · simp only [Outcome.afterStep]
          rw [Outcome.after_afterStep]
          rfl
        · rfl

theorem runTokensIn_append_eq_completed_iff
    {front back : List Token}
    {e : Execution} :
    runTokensIn provider (front ++ back) content s =
        (.completed e, s') ↔
      ∃ first s₁ later,
        runTokensIn provider front content s =
          (.completed first, s₁) ∧
        runTokensIn provider back first.content s₁ =
          (.completed later, s') ∧
        e = first.andThen later := by
  rw [runTokensIn_append]
  rcases runTokensIn provider front content s with
    ⟨first | ⟨error, reached⟩, s₁⟩
  · simp only [Prod.mk.injEq, Outcome.after_eq_completed_iff]
    constructor
    · rintro ⟨⟨later, hLater, rfl⟩, hState⟩
      exact ⟨first, s₁, later, ⟨rfl, rfl⟩,
        Prod.ext hLater hState, rfl⟩
    · rintro ⟨_, _, later, ⟨⟨⟩, rfl⟩, hLater, rfl⟩
      rw [hLater]
      exact ⟨⟨later, rfl, rfl⟩, rfl⟩
  · simp

------------------------------------------------------------
-- Interruptions
------------------------------------------------------------

/-
  A run is interrupted exactly where the run over the tokens
  before some token completes and that token fails. What has
  been reached is what those tokens have left behind.
-/
theorem runTokensIn_eq_interrupted_iff
    {error : StepError}
    {reached : Execution} :
    runTokensIn provider tokens content s =
        (.interrupted error reached, s') ↔
      ∃ front token back s₁,
        tokens = front ++ token :: back ∧
        runTokensIn provider front content s =
          (.completed reached, s₁) ∧
        error.step = token.position ∧
        token.performIn provider reached.content s₁ =
          (.error error.fault, s') := by
  constructor
  · intro h
    induction tokens generalizing content s reached with
    | nil => simp [runTokensIn_nil] at h
    | cons token tokens ih =>
        rcases hFirst : token.performIn provider content s with
          ⟨fault | next, s₁⟩
        · rw [runTokensIn_cons_of_error hFirst, Prod.mk.injEq,
            Outcome.interrupted.injEq] at h
          rcases h with ⟨⟨rfl, rfl⟩, rfl⟩
          exact ⟨[], token, tokens, s, rfl, rfl, rfl, hFirst⟩
        · rw [runTokensIn_cons_of_ok hFirst, Prod.mk.injEq,
            Outcome.afterStep_eq_interrupted_iff] at h
          rcases h with ⟨⟨before, hBefore, rfl⟩, rfl⟩
          rcases ih (Prod.ext hBefore rfl) with
            ⟨front, failing, back, s₂, rfl, hFront, hStep,
              hFails⟩
          refine ⟨token :: front, failing, back, s₂, rfl, ?_,
            hStep, hFails⟩
          rw [runTokensIn_cons_of_ok hFirst, hFront]
          rfl
  · rintro ⟨front, token, back, s₁, rfl, hFront, hStep, hFails⟩
    rw [runTokensIn_append, hFront]
    simp only [runTokensIn_cons_of_error hFails, Outcome.after,
      Execution.andThen_start]
    rw [← hStep]

end Chain

end CodecChain

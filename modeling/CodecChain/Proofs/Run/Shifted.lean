import CodecChain.Proofs.Run.Stages

/-
  Runs whose steps are counted from further on. A provider
  that uses the number of a step only in its errors makes a
  run from a later step the run from the first one, with the
  later numbers in its records, its notes and its error.

  Key definitions include:
    * `Outcome.shifted`
    * `Provider.IsUniform`
    * `Chain.runInTurn`

  Main statements:
    * `Provider.isUniform_fixed`
    * `Provider.isUniform_scripted`
    * `Chain.runTokensIn_shifted`
    * `Chain.runIn_eq_runInTurn`
-/

------------------------------------------------------------
-- Shifted Outcomes
------------------------------------------------------------

namespace CodecChain

/- The same refusal some steps later. -/
def ProviderError.shifted
    (count : Nat) : ProviderError → ProviderError
  | noneLeft step => noneLeft (step + count)
  | inputClosed step => inputClosed (step + count)
  | unreadable => unreadable
  | refused reason => refused reason

/- The same fault some steps later. -/
def StepFault.shifted
    (count : Nat) : StepFault → StepFault
  | decode e => decode e
  | provider e => provider (e.shifted count)

/- The same error some steps later. -/
def StepError.shifted
    (count : Nat)
    (error : StepError) : StepError where
  step := error.step + count
  fault := error.fault.shifted count

/- The same record some steps later. -/
def Record.shifted
    (count : Nat)
    (record : Record) : Record :=
  { record with step := record.step + count }

/- The same note some steps later. -/
def Diagnostic.shifted
    (count : Nat)
    (diagnostic : Diagnostic) : Diagnostic :=
  { diagnostic with step := diagnostic.step + count }

/- The same execution some steps later. -/
def Execution.shifted
    (count : Nat)
    (e : Execution) : Execution where
  content := e.content
  trace := e.trace.map (Record.shifted count)
  diagnostics := e.diagnostics.map (Diagnostic.shifted count)

/- The same outcome some steps later. -/
def Outcome.shifted
    (count : Nat) : Outcome → Outcome
  | completed e => completed (e.shifted count)
  | interrupted error reached =>
      interrupted (error.shifted count) (reached.shifted count)

theorem Execution.shifted_afterStep
    (count : Nat)
    (record : Record)
    (diagnostic : Option Diagnostic)
    (e : Execution) :
    (e.afterStep record diagnostic).shifted count =
      (e.shifted count).afterStep (record.shifted count)
        (diagnostic.map (Diagnostic.shifted count)) := by
  cases diagnostic <;> simp [afterStep, shifted]

theorem Outcome.shifted_afterStep
    (count : Nat)
    (record : Record)
    (diagnostic : Option Diagnostic)
    (outcome : Outcome) :
    (outcome.afterStep record diagnostic).shifted count =
      (outcome.shifted count).afterStep (record.shifted count)
        (diagnostic.map (Diagnostic.shifted count)) := by
  cases outcome <;>
    simp [afterStep, shifted, Execution.shifted_afterStep]

theorem Token.record_shifted
    (token : Token)
    (count : Nat)
    (next : Text) :
    (token.shifted count).record next =
      (token.record next).shifted count := by
  cases token <;> rfl

theorem Token.diagnostic?_shifted
    (token : Token)
    (count : Nat) :
    (token.shifted count).diagnostic? =
      token.diagnostic?.map (Diagnostic.shifted count) := by
  rw [diagnostic?, diagnostic?, position_shifted, shifted,
    plan_placed, raw_placed]
  unfold Plan.diagnostic?
  cases token.plan <;> rfl

end CodecChain

------------------------------------------------------------
-- Uniform Providers
------------------------------------------------------------

namespace CodecChain

variable {σ : Type} {provider : Provider (StateM σ)}

namespace Provider

/-
  A provider that answers alike at every step, and uses the
  number of the step at most to say where it refused.
-/
def IsUniform (provider : Provider (StateM σ)) : Prop :=
  ∀ step count s,
    provider.ask (step + count) s =
      ((provider.ask step s).1.mapError (.shifted count),
        (provider.ask step s).2)

theorem isUniform_fixed (value : Text) :
    IsUniform (fixed value : Provider (StateM σ)) := by
  intro step count s
  rfl

theorem isUniform_scripted : IsUniform scripted := by
  intro step count values
  cases values <;> rfl

end Provider

variable [Compressor]

/- A plan does the same at a later step. -/
theorem Plan.performIn_shifted
    (hProvider : provider.IsUniform)
    (plan : Plan)
    (step count : Nat)
    (content : Text)
    (s : σ) :
    plan.performIn provider (step + count) content s =
      ((plan.performIn provider step content s).1.mapError
          (.shifted count),
        (plan.performIn provider step content s).2) := by
  cases plan with
  | skip cause => rfl
  | encode codec => rfl
  | decode codec =>
      rw [performIn_decode, performIn_decode]
      cases codec.decode content <;> rfl
  | replace =>
      rw [performIn_replace, performIn_replace, hProvider]
      cases (provider.ask step s).1 <;> rfl

namespace Token

variable {token : Token} {count : Nat} {content : Text}
variable {s s' : σ}

/- A token does the same further on in a chain. -/
theorem performIn_shifted
    (hProvider : provider.IsUniform)
    (token : Token)
    (count : Nat)
    (content : Text)
    (s : σ) :
    (token.shifted count).performIn provider content s =
      ((token.performIn provider content s).1.mapError
          (.shifted count),
        (token.performIn provider content s).2) := by
  rw [performIn, position_shifted, shifted, plan_placed,
    Plan.performIn_shifted hProvider, performIn]

theorem performIn_eq_ok_of_shifted
    {next : Text}
    (hProvider : provider.IsUniform)
    (h : (token.shifted count).performIn provider content s =
      (.ok next, s')) :
    token.performIn provider content s = (.ok next, s') := by
  rw [performIn_shifted hProvider, Prod.mk.injEq,
    Except.mapError_eq_ok_iff] at h
  exact Prod.ext h.1 h.2

/- A token that fails further on fails alike before. -/
theorem exists_performIn_eq_error_of_shifted
    {fault : StepFault}
    (hProvider : provider.IsUniform)
    (h : (token.shifted count).performIn provider content s =
      (.error fault, s')) :
    ∃ earlier,
      token.performIn provider content s =
        (.error earlier, s') ∧
      fault = earlier.shifted count := by
  rw [performIn_shifted hProvider, Prod.mk.injEq] at h
  rcases hToken : token.performIn provider content s with
    ⟨earlier | next, after⟩
  · simp only [hToken, Except.mapError_error,
      Except.error.injEq] at h
    exact ⟨earlier, by rw [h.2], h.1.symm⟩
  · simp [hToken] at h

end Token

------------------------------------------------------------
-- Shifted Runs
------------------------------------------------------------

namespace Chain

/- Tokens run further on in a chain as they do before. -/
theorem runTokensIn_shifted
    (hProvider : provider.IsUniform)
    (count : Nat)
    (tokens : List Token)
    (content : Text)
    (s : σ) :
    runTokensIn provider (tokens.map (Token.shifted count))
        content s =
      ((runTokensIn provider tokens content s).1.shifted count,
        (runTokensIn provider tokens content s).2) := by
  induction tokens generalizing content s with
  | nil => rfl
  | cons token tokens ih =>
      have hShifted := token.performIn_shifted hProvider
        count content s
      rw [List.map_cons]
      rcases hFirst : token.performIn provider content s with
        ⟨fault | next, s₁⟩
      · rw [hFirst] at hShifted
        rw [runTokensIn_cons_of_error hShifted,
          runTokensIn_cons_of_error hFirst,
          Token.position_shifted]
        rfl
      · rw [hFirst] at hShifted
        rw [runTokensIn_cons_of_ok hShifted,
          runTokensIn_cons_of_ok hFirst, ih,
          token.record_shifted, token.diagnostic?_shifted,
          ← Outcome.shifted_afterStep]

/-
  How two chains run in turn: the second on what the first
  has made and with the provider as the first has left it,
  but only if the first completes. Its steps are counted on
  from those of the first.
-/
def runInTurn
    (provider : Provider (StateM σ))
    (first second : Chain)
    (content : Text)
    (s : σ) : Outcome × σ :=
  match first.runIn provider content s with
  | (.completed e, s₁) =>
      let (outcome, s₂) := second.runIn provider e.content s₁
      ((outcome.shifted first.tokens.length).after e, s₂)
  | (.interrupted error reached, s₁) =>
      (.interrupted error reached, s₁)

/- A chain of the tokens of two chains runs them in turn. -/
theorem runIn_eq_runInTurn
    {whole first second : Chain}
    (hProvider : provider.IsUniform)
    (hTokens : whole.tokens = first.tokens ++
      second.tokens.map (Token.shifted first.tokens.length))
    (content : Text)
    (s : σ) :
    whole.runIn provider content s =
      runInTurn provider first second content s := by
  rw [runIn_eq, hTokens, runTokensIn_append, runInTurn, runIn_eq]
  rcases runTokensIn provider first.tokens content s with
    ⟨e | ⟨error, reached⟩, s₁⟩
  · simp only [runIn_eq]
    rw [runTokensIn_shifted hProvider]
  · rfl

end Chain

end CodecChain

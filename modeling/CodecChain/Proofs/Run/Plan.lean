import CodecChain.Run.Engine
import CodecChain.Proofs.Chain.Positions
import CodecChain.Proofs.Result

/-
  What single tokens ask for, and what a plan does with a
  provider that has a state of its own. A plan fails only
  where a decoding or the provider fails.

  Key definitions include:
    * `Token.Asks`
    * `Plan.performIn`

  Main statements:
    * `Token.asks_iff`
    * `Plan.performIn_eq_error_iff`
-/

------------------------------------------------------------
-- Plans of Tokens
------------------------------------------------------------

namespace CodecChain

namespace Token

/-
  What a token asks for, case by case. Tags without a codec
  and rejected tokens ask for nothing.
-/
inductive Asks : Token → Plan → Prop where
  | encode
      {position : Nat}
      {raw tag : Text}
      {codec : Codec}
      (hTag : Codec.ofTag? tag = some codec) :
      Asks (accepted position raw (.encode tag)) (.encode codec)
  | decode
      {position : Nat}
      {raw tag : Text}
      {codec : Codec}
      (hTag : Codec.ofTag? tag = some codec) :
      Asks (accepted position raw (.decode tag)) (.decode codec)
  | protect
      {position : Nat}
      {raw : Text} :
      Asks (accepted position raw .protect) .replace
  | unknown
      {position : Nat}
      {raw tag : Text}
      {instruction : Instruction}
      (hInstruction : instruction.tag? = some tag)
      (hTag : Codec.ofTag? tag = none) :
      Asks (accepted position raw instruction)
        (.skip (.unknownCodec tag))
  | rejected
      {position : Nat}
      {raw : Text}
      {cause : Rejection} :
      Asks (rejected position raw cause)
        (.skip (.rejected cause))

theorem Asks.plan_eq
    {token : Token}
    {plan : Plan}
    (h : token.Asks plan) :
    token.plan = plan := by
  cases h with
  | encode hTag =>
      simp [Token.plan, Plan.ofInstruction, Plan.withCodec,
        hTag]
  | decode hTag =>
      simp [Token.plan, Plan.ofInstruction, Plan.withCodec,
        hTag]
  | protect => rfl
  | @unknown position raw tag instruction hInstruction hTag =>
      cases instruction with
      | protect => cases hInstruction
      | encode t =>
          cases hInstruction
          simp [Token.plan, Plan.ofInstruction,
            Plan.withCodec, hTag]
      | decode t =>
          cases hInstruction
          simp [Token.plan, Plan.ofInstruction,
            Plan.withCodec, hTag]
  | rejected => rfl

theorem exists_asks (token : Token) :
    ∃ plan, token.Asks plan := by
  cases token with
  | rejected position raw cause => exact ⟨_, Asks.rejected⟩
  | accepted position raw instruction =>
      cases instruction with
      | protect => exact ⟨_, Asks.protect⟩
      | encode tag =>
          cases hTag : Codec.ofTag? tag with
          | none => exact ⟨_, Asks.unknown rfl hTag⟩
          | some codec => exact ⟨_, Asks.encode hTag⟩
      | decode tag =>
          cases hTag : Codec.ofTag? tag with
          | none => exact ⟨_, Asks.unknown rfl hTag⟩
          | some codec => exact ⟨_, Asks.decode hTag⟩

/- What a token asks for does not depend on its position. -/
@[simp]
theorem plan_placed
    (position : Nat)
    (token : Token) :
    (token.placed position).plan = token.plan := by
  cases token <;> rfl

/- A token asks for its plan, and for nothing else. -/
theorem asks_iff
    {token : Token}
    {plan : Plan} :
    token.Asks plan ↔ token.plan = plan := by
  constructor
  · exact Asks.plan_eq
  · rintro rfl
    rcases exists_asks token with ⟨plan, hPlan⟩
    rw [hPlan.plan_eq]
    exact hPlan

end Token

end CodecChain

------------------------------------------------------------
-- Performing Plans
------------------------------------------------------------

namespace CodecChain

variable {σ : Type}

/-
  The answer of a provider that has a state of its own, and
  its state after that.
-/
def Provider.ask
    (provider : Provider (StateM σ))
    (step : Nat)
    (s : σ) : Except ProviderError Text × σ :=
  provider step s

namespace Plan

variable [Compressor]

/- What a plan does from a state of the provider. -/
def performIn
    (provider : Provider (StateM σ))
    (step : Nat)
    (plan : Plan)
    (content : Text)
    (s : σ) : Except StepFault Text × σ :=
  plan.perform provider step content s

variable (provider : Provider (StateM σ))
variable (step : Nat) (content : Text) (s : σ)

theorem performIn_skip (cause : SkipCause) :
    performIn provider step (skip cause) content s =
      (.ok content, s) :=
  rfl

theorem performIn_encode (codec : Codec) :
    performIn provider step (encode codec) content s =
      (.ok (codec.encode content), s) :=
  rfl

theorem performIn_decode (codec : Codec) :
    performIn provider step (decode codec) content s =
      ((codec.decode content).mapError .decode, s) :=
  rfl

theorem performIn_replace :
    performIn provider step replace content s =
      ((provider.ask step s).1.mapError .provider,
        (provider.ask step s).2) :=
  rfl

variable {provider step content s}
variable {s' : σ} {plan : Plan}

/- A plan fails only where a decoding or the provider fails. -/
theorem performIn_eq_error_iff {fault : StepFault} :
    plan.performIn provider step content s =
        (.error fault, s') ↔
      (∃ codec e, plan = decode codec ∧
        codec.decode content = .error e ∧
        fault = .decode e ∧ s' = s) ∨
      (∃ e, plan = replace ∧
        provider.ask step s = (.error e, s') ∧
        fault = .provider e) := by
  cases plan with
  | skip cause => simp [performIn_skip]
  | encode codec => simp [performIn_encode]
  | decode codec =>
      rw [performIn_decode]
      cases hDecode : codec.decode content with
      | ok t => simp [hDecode]
      | error e =>
          simp only [Except.mapError_error, Prod.mk.injEq,
            Except.error.injEq, decode.injEq, reduceCtorEq,
            false_and, exists_false, or_false]
          constructor
          · rintro ⟨rfl, rfl⟩
            exact ⟨codec, e, rfl, hDecode, rfl, rfl⟩
          · rintro ⟨_, e', rfl, hError, rfl, rfl⟩
            rw [hDecode, Except.error.injEq] at hError
            exact ⟨by rw [hError], rfl⟩
  | replace =>
      rw [performIn_replace]
      rcases provider.ask step s with ⟨answer, after⟩
      cases answer with
      | ok t => simp
      | error e =>
          simp only [Except.mapError_error, Prod.mk.injEq,
            Except.error.injEq, reduceCtorEq, false_and,
            exists_false, false_or, true_and]
          constructor
          · rintro ⟨rfl, rfl⟩
            exact ⟨e, ⟨rfl, rfl⟩, rfl⟩
          · rintro ⟨e', ⟨rfl, rfl⟩, rfl⟩
            exact ⟨rfl, rfl⟩

end Plan

end CodecChain

import CodecChain.Run.Execution

/-
  This file defines the running of a chain over a content.
  The tokens are taken in order, each with the content that
  the one before has left; the first that fails ends the run.

  Key definitions include:
    * `Plan.perform`
    * `Chain.runTokens`
    * `Chain.run`
-/

namespace CodecChain

variable {m : Type → Type} [Monad m] [Compressor]

------------------------------------------------------------
-- Steps
------------------------------------------------------------

/- The content that a plan makes of a content. -/
def Plan.perform
    (provider : Provider m)
    (step : Nat)
    (content : Text) : Plan → m (Except StepFault Text)
  | skip _ => pure (.ok content)
  | encode codec => pure (.ok (codec.encode content))
  | decode codec =>
      pure ((codec.decode content).mapError .decode)
  | replace => do
      let answer ← provider step
      pure (answer.mapError .provider)

------------------------------------------------------------
-- Runs
------------------------------------------------------------

namespace Chain

/-
  Run tokens in order. The position of a token in its chain is
  the number of its step.
-/
def runTokens
    (provider : Provider m) :
    List Token → Text → m Outcome
  | [], content => pure (.completed (.start content))
  | token :: tokens, content => do
      let step := token.position
      match ← token.plan.perform provider step content with
      | .error fault =>
          pure (.interrupted ⟨step, fault⟩ (.start content))
      | .ok next =>
          let later ← runTokens provider tokens next
          pure (later.afterStep
            ⟨step, token.raw, token.plan.action, next⟩
            (token.plan.diagnostic? step token.raw))

/- Run a chain over a content. -/
def run
    (provider : Provider m)
    (chain : Chain)
    (content : Text) : m Outcome :=
  runTokens provider chain.tokens content

end Chain

end CodecChain

import CodecChain.Chain.Basic
import CodecChain.Codec.Coding
import CodecChain.Run.Provider

/-
  This file defines the execution of a chain: what each token
  asks for, what a step leaves behind, and how a run ends.

  Key definitions include:
    * `Plan`
    * `Token.plan`
    * `Record`
    * `Diagnostic`
    * `Execution`
    * `StepError`
    * `Outcome`
-/

namespace CodecChain

------------------------------------------------------------
-- Plans
------------------------------------------------------------

/- Why a step leaves the content alone. -/
inductive SkipCause where
  | rejected (cause : Rejection)
  | unknownCodec (tag : Text)
deriving DecidableEq, Repr

/- The cause in words. -/
def SkipCause.message : SkipCause → String
  | rejected cause => cause.message
  | unknownCodec tag => Codec.unknownMessage tag

/- What a token asks for, whatever the content is. -/
inductive Plan where
  | skip (cause : SkipCause)
  | encode (codec : Codec)
  | decode (codec : Codec)
  | replace
deriving DecidableEq, Repr

namespace Plan

/- Use the codec of a tag, or skip the step without one. -/
def withCodec
    (use : Codec → Plan)
    (tag : Text) : Plan :=
  match Codec.ofTag? tag with
  | some codec => use codec
  | none => skip (.unknownCodec tag)

/- What an instruction asks for. -/
def ofInstruction : Instruction → Plan
  | .encode tag => withCodec encode tag
  | .decode tag => withCodec decode tag
  | .protect => replace

end Plan

/- What a token asks for. -/
def Token.plan : Token → Plan
  | .accepted _ _ instruction => .ofInstruction instruction
  | .rejected _ _ cause => .skip (.rejected cause)

------------------------------------------------------------
-- Trace
------------------------------------------------------------

/- What a completed step did. -/
inductive Action where
  | encoded (codec : Codec)
  | decoded (codec : Codec)
  | replaced
  | skipped
deriving DecidableEq, Repr

namespace Action

/- The codec that a step used. -/
def codec? : Action → Option Codec
  | encoded codec => some codec
  | decoded codec => some codec
  | replaced => none
  | skipped => none

/- The action as a word for people. -/
def label : Action → String
  | encoded _ => "Encoded"
  | decoded _ => "Decoded"
  | replaced => "Protection Layer"
  | skipped => "Skipped"

/- The action as a key in data. -/
def key : Action → String
  | encoded _ => "encoded"
  | decoded _ => "decoded"
  | replaced => "protected"
  | skipped => "skipped"

end Action

/- What a plan does when it succeeds. -/
def Plan.action : Plan → Action
  | skip _ => .skipped
  | encode codec => .encoded codec
  | decode codec => .decoded codec
  | replace => .replaced

/- A completed step, with the content it left behind. -/
structure Record where
  step : Nat
  token : Text
  action : Action
  content : Text
deriving DecidableEq, Repr

/- The heading under which a step is shown. -/
def Record.heading (r : Record) : String :=
  match r.action.codec? with
  | some codec =>
      s!"[{r.action.label}] Operation {codec.tag.asString}"
  | none => s!"[{r.action.label}] Operation"

/- A note on a skipped step. -/
structure Diagnostic where
  step : Nat
  token : Text
  cause : SkipCause
deriving DecidableEq, Repr

namespace Diagnostic

/- The kind of a diagnostic as a key in data. -/
def key (d : Diagnostic) : String :=
  match d.cause with
  | .rejected _ => "syntax"
  | .unknownCodec _ => "unknown_codec"

/- The diagnostic on one line. -/
def display (d : Diagnostic) : String :=
  let token := (Quoted.text d.token).asString
  s!"step {d.step} ({token}): {d.cause.message}"

end Diagnostic

/- The diagnostic of a plan, if it is to skip the step. -/
def Plan.diagnostic?
    (plan : Plan)
    (step : Nat)
    (token : Text) : Option Diagnostic :=
  match plan with
  | skip cause => some ⟨step, token, cause⟩
  | _ => none

------------------------------------------------------------
-- Executions
------------------------------------------------------------

/- What the completed steps of a run have left behind. -/
structure Execution where
  content : Text
  trace : List Record
  diagnostics : List Diagnostic
deriving DecidableEq, Repr

namespace Execution

/- An execution before its first step. -/
def start (content : Text) : Execution :=
  ⟨content, [], []⟩

/- An execution with one more step in front. -/
def afterStep
    (record : Record)
    (diagnostic : Option Diagnostic)
    (e : Execution) : Execution where
  content := e.content
  trace := record :: e.trace
  diagnostics := diagnostic.toList ++ e.diagnostics

end Execution

/- Why a step could not be completed. -/
inductive StepFault where
  | decode (e : Codec.DecodeError)
  | provider (e : ProviderError)
deriving DecidableEq, Repr

/- The cause of a fault in words. -/
def StepFault.cause : StepFault → String
  | decode e => e.message
  | provider e => e.message

/- A step that could not be completed. -/
structure StepError where
  step : Nat
  fault : StepFault
deriving DecidableEq, Repr

/- The error in words, without its cause. -/
def StepError.message (e : StepError) : String :=
  match e.fault with
  | .decode _ => s!"step {e.step}: decode failed"
  | .provider _ => s!"step {e.step}: protection value unavailable"

/-
  A run completes, or it is interrupted by an error and keeps
  what the steps before have left behind.
-/
inductive Outcome where
  | completed (e : Execution)
  | interrupted (error : StepError) (reached : Execution)
deriving DecidableEq, Repr

namespace Outcome

/- What the completed steps have left behind. -/
def execution : Outcome → Execution
  | completed e => e
  | interrupted _ reached => reached

/- The outcome of a run with one more step in front. -/
def afterStep
    (record : Record)
    (diagnostic : Option Diagnostic) : Outcome → Outcome
  | completed e =>
      completed (e.afterStep record diagnostic)
  | interrupted error reached =>
      interrupted error (reached.afterStep record diagnostic)

end Outcome

end CodecChain

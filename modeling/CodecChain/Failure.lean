import CodecChain.Config.Store
import CodecChain.Run.Execution

/-
  This file defines the failures of commands and the way they
  are shown: what went wrong, and below it what that comes
  from.

  Key definitions include:
    * `Failure`
    * `Failure.message`
    * `Failure.causes`
    * `Failure.display`
    * `Failure.attempt`
-/

namespace CodecChain

------------------------------------------------------------
-- Failures
------------------------------------------------------------

/- Why a command could not do what it was asked for. -/
inductive Failure where
  | loading (fault : Config.Fault)
  | saving (fault : Config.Fault)
  | reading (path : Path) (fault : IoFault)
  | writing (path : Path) (fault : IoFault)
  | creating (path : Path) (fault : IoFault)
  | noChain (fault : Chain.Fault)
  | noInstructions (fault : Chain.Fault)
  | unknownCodec (tag : Text)
  | decoding (error : Codec.DecodeError)
  | stopped (error : StepError)
deriving DecidableEq, Repr

namespace Failure

/- The failure in words, without its causes. -/
def message : Failure → String
  | loading _ => "failed to load config"
  | saving fault => fault.message
  | reading path _ => s!"failed to read {path.asString}"
  | writing path _ => s!"failed to write {path.asString}"
  | creating path _ => s!"failed to create {path.asString}"
  | noChain fault => fault.message
  | noInstructions _ => "invalid instruction string"
  | unknownCodec tag => Codec.unknownMessage tag
  | decoding error => error.message
  | stopped error =>
      s!"instruction chain stopped at step {error.step}"

/- What the failure comes from, each cause before its own. -/
def causes : Failure → List String
  | loading fault => fault.message :: fault.causes
  | saving fault => fault.causes
  | reading _ fault => [fault.message]
  | writing _ fault => [fault.message]
  | creating _ fault => [fault.message]
  | noChain _ => []
  | noInstructions fault => [fault.message]
  | unknownCodec _ => []
  | decoding _ => []
  | stopped error => [error.message, error.fault.cause]

------------------------------------------------------------
-- Display
------------------------------------------------------------

/- A text below a margin, the first line of which is marked. -/
def indent (mark margin : String) (t : Text) : Text :=
  match Text.split '\n' t with
  | [] => .ofString mark
  | line :: lines =>
      .ofString mark ++ line ++
        lines.flatMap fun l => '\n' :: Text.ofString margin ++ l

/- Causes one below the other; several of them are numbered. -/
def listCauses : List String → Text
  | [] => []
  | [cause] => indent "    " "    " (.ofString cause) ++ ['\n']
  | causes =>
      causes.zipIdx.flatMap fun (cause, i) =>
        indent s!"    {i}: " "       " (.ofString cause) ++ ['\n']

/- The failure as it is shown, on lines of its own. -/
def display (f : Failure) : Text :=
  Text.ofString s!"Error: {f.message}\n" ++
    if f.causes.isEmpty then
      []
    else
      Text.ofString "\nCaused by:\n" ++ listCauses f.causes

------------------------------------------------------------
-- Attempts
------------------------------------------------------------

/- Do what may go wrong, and say what failure that is. -/
def attempt
    {m : Type → Type} [Monad m]
    {ε α : Type}
    (failure : ε → Failure)
    (action : m (Except ε α)) : ExceptT Failure m α :=
  ExceptT.mk do
    let result ← action
    pure (result.mapError failure)

end Failure

end CodecChain

import CodecChain.Text.Basic

/-
  This file defines the sources of protection values. A
  provider is asked with the number of the step that needs a
  value, and answers in a monad of its own, which holds what
  the provider remembers or does.

  Key definitions include:
    * `Provider`
    * `Provider.fixed`
    * `Provider.scripted`
    * `Provider.failing`
    * `Provider.recorded`
-/

namespace CodecChain

------------------------------------------------------------
-- Providers
------------------------------------------------------------

/- Why there is no value for a step. -/
inductive ProviderError where
  | noneLeft (step : Nat)
  | inputClosed (step : Nat)
  | unreadable
  | refused (reason : Text)
deriving DecidableEq, Repr

/- The cause in words. -/
def ProviderError.message : ProviderError → String
  | noneLeft step =>
      s!"no protection value left for step {step}"
  | inputClosed step =>
      s!"input closed before a value for step {step} was entered"
  | unreadable => "stream did not contain valid UTF-8"
  | refused reason => reason.asString

/- A source of values, asked with the number of a step. -/
abbrev Provider (m : Type → Type) :=
  Nat → m (Except ProviderError Text)

namespace Provider

variable {m : Type → Type} [Monad m]

/- A provider that computes its answers. -/
def ofFunction
    (f : Nat → Except ProviderError Text) : Provider m :=
  fun step => pure (f step)

/- A provider that always gives the same value. -/
def fixed (value : Text) : Provider m :=
  ofFunction fun _ => .ok value

/- A provider that always refuses for the same reason. -/
def failing (reason : Text) : Provider m :=
  ofFunction fun _ => .error (.refused reason)

/- A provider that gives the values of a list in turn. -/
def scripted : Provider (StateM (List Text)) :=
  fun step values =>
    match values with
    | [] => (.error (.noneLeft step), [])
    | value :: rest => (.ok value, rest)

/- A provider that notes every step it is asked for. -/
def recorded
    (provider : Provider m) : Provider (StateT (List Nat) m) :=
  fun step => do
    modify (· ++ [step])
    provider step

end Provider

end CodecChain

import CodecChain.Host.Basic
import CodecChain.Run.Provider

/-
  This file defines the provider that asks at the console,
  one line of input for each value.

  Key definitions include:
    * `Provider.ofLine`
    * `Provider.console`
-/

namespace CodecChain.Provider

/-
  The value of a line: the line without the line feed at its
  end and without a carriage return before that. No line at
  all means that there is no more input.
-/
def ofLine
    (step : Nat)
    (line : List UInt8) : Except ProviderError Text :=
  if line.isEmpty then
    .error (.inputClosed step)
  else
    match Utf8.decode line with
    | .error _ => .error .unreadable
    | .ok t => .ok (Text.dropFinal '\r' (Text.dropFinal '\n' t))

/- A provider that asks for each value and reads a line. -/
def console
    {m : Type → Type} [Monad m] [Host m] : Provider m :=
  fun step => do
    Host.printLine (.ofString "Enter the new content:")
    let line ← Host.readLine
    pure (ofLine step line)

end CodecChain.Provider

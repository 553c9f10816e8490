import Std.Time.DateTime.Timestamp
import CodecChain.Command.Perform
import CodecChain.Host.Clock
import CodecChain.Proofs.Deflate.Searching

/-
  This file connects the commands to the machine that the
  program runs on, and holds the entry point of the program.
-/

namespace CodecChain

------------------------------------------------------------
-- Faults
------------------------------------------------------------

/- The fault with a number and a description. -/
def IoFault.ofCode
    (code : UInt32)
    (details : String) : IoFault :=
  if code = 2 then
    .notFound
  else if code = 17 then
    .alreadyExists
  else if code = 20 then
    .notDirectory
  else if code = 21 then
    .isDirectory
  else
    .other s!"{details} (os error {code})"

/- The fault that the machine reports. -/
def IoFault.ofError : IO.Error → IoFault
  | .alreadyExists _ code details => ofCode code details
  | .otherError code details => ofCode code details
  | .resourceBusy code details => ofCode code details
  | .resourceVanished code details => ofCode code details
  | .unsupportedOperation code details => ofCode code details
  | .hardwareFault code details => ofCode code details
  | .unsatisfiedConstraints code details => ofCode code details
  | .illegalOperation code details => ofCode code details
  | .protocolError code details => ofCode code details
  | .timeExpired code details => ofCode code details
  | .interrupted _ code details => ofCode code details
  | .noFileOrDirectory _ code details => ofCode code details
  | .invalidArgument _ code details => ofCode code details
  | .permissionDenied _ code details => ofCode code details
  | .resourceExhausted _ code details => ofCode code details
  | .inappropriateType _ code details => ofCode code details
  | .noSuchThing _ code details => ofCode code details
  | .unexpectedEof => .other "unexpected end of file"
  | .userError message => .other message

/- The result of an action, or the fault it ran into. -/
def catchFault
    {α : Type}
    (action : IO α) : IO (Except IoFault α) := do
  try
    let result ← action
    pure (.ok result)
  catch e =>
    pure (.error (.ofError e))

------------------------------------------------------------
-- The Machine
------------------------------------------------------------

/- Whether an action goes well. -/
def succeeds
    {α : Type}
    (action : IO α) : IO Bool := do
  match ← catchFault action with
  | .ok _ => pure true
  | .error _ => pure false

/- The bytes of a stream up to the first line feed. -/
partial def readLineFrom
    (stream : IO.FS.Stream)
    (before : List UInt8) : IO (List UInt8) := do
  let bytes ← stream.read 1
  match bytes.toList with
  | [] => pure before.reverse
  | b :: _ =>
      if b = 0x0a then
        pure (b :: before).reverse
      else
        readLineFrom stream (b :: before)

/- Write a text to a stream at once. -/
def writeTo
    (stream : IO.FS.Stream)
    (t : Text) : IO Unit := do
  stream.putStr t.asString
  stream.flush

/- The time in the world. -/
def worldTime : IO Text := do
  let now ← Std.Time.Timestamp.now
  let wall :=
    Std.Time.WallTime.ofNanoseconds now.toNanosecondsSinceUnixEpoch
  pure (Clock.display (.ofWallTime wall))

/- The directory of a user's configuration files. -/
def userConfigDirectory : IO (Option Path) := do
  let chosen := (← IO.getEnv "XDG_CONFIG_HOME").map Text.ofString
  let home := (← IO.getEnv "HOME").map Text.ofString
  match chosen.filter Path.isAbsolute with
  | some directory => pure (some directory)
  | none =>
      pure ((home.filter (· ≠ [])).map fun directory =>
        Path.under directory (.ofString ".config"))

/- A path that leads into what it names. -/
def inside (p : Path) : Path :=
  p ++ [Path.slash] ++ Path.here

instance : Host IO where
  read p := catchFault do
    let bytes ← IO.FS.readBinFile p.asString
    pure bytes.toList
  write p bytes :=
    catchFault (IO.FS.writeBinFile p.asString ⟨bytes.toArray⟩)
  createDirectory p := catchFault (IO.FS.createDir p.asString)
  contains p := succeeds (IO.FS.realPath p.asString)
  isDirectory p := succeeds (IO.FS.realPath (inside p).asString)
  readLine := do readLineFrom (← IO.getStdin) []
  print t := do writeTo (← IO.getStdout) t
  warn t := do writeTo (← IO.getStderr) t
  time := worldTime
  configDirectory := userConfigDirectory

end CodecChain

/- Do what the words of the command line ask for. -/
def main (words : List String) : IO UInt32 :=
  CodecChain.Program.execute
    (words.map CodecChain.Text.ofString)

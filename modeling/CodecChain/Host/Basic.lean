import CodecChain.Files.System
import CodecChain.Text.Utf8

/-
  This file defines what commands need of the machine they
  run on, and what can be done with that everywhere.

  Key definitions include:
    * `Host`
    * `Host.createDirectories`
    * `Host.writeText`
    * `Host.readText`
-/

namespace CodecChain

------------------------------------------------------------
-- Hosts
------------------------------------------------------------

/-
  A machine on which commands run, in the monad of what they
  do to it: its files, its input and output, and its clock.
-/
class Host (m : Type → Type) where
  read : Path → m (Except IoFault (List UInt8))
  write : Path → List UInt8 → m (Except IoFault Unit)
  createDirectory : Path → m (Except IoFault Unit)
  contains : Path → m Bool
  isDirectory : Path → m Bool
  readLine : m (List UInt8)
  print : Text → m Unit
  warn : Text → m Unit
  time : m Text
  configDirectory : m (Option Path)

namespace Host

variable {m : Type → Type} [Monad m] [Host m]

------------------------------------------------------------
-- Directories
------------------------------------------------------------

/-
  A directory that could not be created does no harm if it is
  there all the same.
-/
def forgive
    (p : Path)
    (fault : IoFault) : m (Except IoFault Unit) := do
  if ← isDirectory p then
    pure (.ok ())
  else
    pure (.error fault)

/- Create a directory within one that should be there. -/
def ensureDirectory (p : Path) : m (Except IoFault Unit) := do
  match ← createDirectory p with
  | .ok () => pure (.ok ())
  | .error fault => forgive p fault

/- Create a directory with all that lead to it. -/
def createDirectories (p : Path) : m (Except IoFault Unit) := do
  if p = [] then
    pure (.ok ())
  else
    match ← createDirectory p with
    | .ok () => pure (.ok ())
    | .error .notFound =>
        match _h : Path.parent? p with
        | none => pure (.error .notFound)
        | some parent =>
            match ← createDirectories parent with
            | .ok () => ensureDirectory p
            | .error fault => pure (.error fault)
    | .error fault => forgive p fault
termination_by p.length
decreasing_by exact Path.parent?_length_lt _h

------------------------------------------------------------
-- Texts
------------------------------------------------------------

/- The text of the file that a path names. -/
def readText (p : Path) : m (Except IoFault Text) := do
  match ← read p with
  | .error fault => pure (.error fault)
  | .ok bytes =>
      match Utf8.decode bytes with
      | .ok t => pure (.ok t)
      | .error _ => pure (.error .notUtf8)

/- Write a text to the file that a path names. -/
def writeText
    (p : Path)
    (t : Text) : m (Except IoFault Unit) :=
  write p (Utf8.encode t)

/- Print a text on a line of its own. -/
def printLine (t : Text) : m Unit :=
  print (t ++ ['\n'])

/- Print a warning on a line of its own. -/
def warnLine (t : Text) : m Unit :=
  warn (t ++ ['\n'])

end Host

end CodecChain

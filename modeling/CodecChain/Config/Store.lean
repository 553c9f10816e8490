import CodecChain.Config.Form
import CodecChain.Host.Basic
import CodecChain.Program
import CodecChain.Text.Quoted

/-
  This file defines the finding, loading and saving of
  configuration files.

  Key definitions include:
    * `Config.Fault`
    * `Config.check`
    * `Config.ofFile`
    * `Config.load`
    * `Config.save`
-/

namespace CodecChain.Config

------------------------------------------------------------
-- Faults
------------------------------------------------------------

/- What can be wrong with a configuration file. -/
inductive Fault where
  | io (path : Path) (fault : IoFault)
  | malformed (form : Form)
  | invalidSeparator (c : Char)
deriving DecidableEq, Repr

namespace Fault

/- The fault in words. -/
def message : Fault → String
  | io path fault =>
      s!"cannot access {path.asString}: {fault.message}"
  | malformed .yaml => "invalid YAML config"
  | malformed .json => "invalid JSON config"
  | invalidSeparator c =>
      s!"separator {(Quoted.char c).asString} cannot be a letter, digit or whitespace"

/- What the fault comes from, in words. -/
def causes : Fault → List String
  | io _ fault => [fault.message]
  | _ => []

end Fault

/- What is said about a word that asks for no format. -/
def unknownFormat (word : Text) : String :=
  s!"unknown report format '{word.asString}' (expected text or json)"

------------------------------------------------------------
-- Reading
------------------------------------------------------------

/- A configuration whose separator is a valid one. -/
def check (config : Config) : Except Fault Config :=
  if CanSeparate config.separator then
    .ok config
  else
    .error (.invalidSeparator config.separator)

/- The configuration of a text in a form. -/
def read (form : Form) (t : Text) : Except Fault Config :=
  match form.parse? t with
  | some config => check config
  | none => .error (.malformed form)

variable {m : Type → Type} [Monad m] [Host m]

/- The configuration of the file that a path names. -/
def ofFile (p : Path) : m (Except Fault Config) := do
  match ← Host.readText p with
  | .error fault => pure (.error (.io p fault))
  | .ok t => pure (read (.ofPath p) t)

/- The name of a configuration file in its directory. -/
def localName : Path :=
  Program.name ++ .ofString ".yaml"

/- The configuration file of a user, if there is a place. -/
def userFile : m (Option Path) := do
  let directory ← Host.configDirectory
  pure (directory.map fun d =>
    Path.under (Path.under d Program.name)
      (.ofString "config.yaml"))

/- The configuration of the file of a user, if there is one. -/
def loadUserFile : m (Except Fault Config) := do
  match ← userFile with
  | none => pure (.ok default)
  | some p =>
      if ← Host.contains p then
        ofFile p
      else
        pure (.ok default)

/-
  The configuration that is in force: that of the file asked
  for, else that of the file in the working directory, else
  that of the file of the user.
-/
def load (explicit : Option Path) : m (Except Fault Config) := do
  match explicit with
  | some p => ofFile p
  | none =>
      if ← Host.contains localName then
        ofFile localName
      else
        loadUserFile

------------------------------------------------------------
-- Writing
------------------------------------------------------------

/- Create the directory that a file is to be in. -/
def makeParent (p : Path) : m (Except Fault Unit) := do
  match Path.parent? p with
  | none => pure (.ok ())
  | some parent =>
      let made ← Host.createDirectories parent
      pure (made.mapError (.io parent))

/- Save a configuration in the form that the path asks for. -/
def save
    (config : Config)
    (p : Path) : m (Except Fault Unit) := do
  match ← makeParent p with
  | .error fault => pure (.error fault)
  | .ok () =>
      let written ←
        Host.writeText p ((Form.ofPath p).print config)
      pure (written.mapError (.io p))

end CodecChain.Config

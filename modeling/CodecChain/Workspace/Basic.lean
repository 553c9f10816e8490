import CodecChain.Failure
import CodecChain.Workspace.Guide

/-
  This file defines the setting up of a workspace: the files
  that a configuration names, and how they come to be there.

  Key definitions include:
    * `Workspace.writeFile`
    * `Workspace.readFile`
    * `Workspace.provision`
    * `Workspace.ensureInputs`
-/

namespace CodecChain.Workspace

variable {m : Type → Type} [Monad m] [Host m]

------------------------------------------------------------
-- Files
------------------------------------------------------------

/- Create the directory that a file is to be in. -/
def makeParent (p : Path) : ExceptT Failure m Unit :=
  match Path.parent? p with
  | none => pure ()
  | some parent =>
      Failure.attempt (.creating parent)
        (Host.createDirectories parent : m _)

/- Write a file, in a directory that may have to be created. -/
def writeFile
    (p : Path)
    (content : Text) : ExceptT Failure m Unit := do
  makeParent p
  Failure.attempt (.writing p) (Host.writeText p content : m _)

/- Read a file, with or without the line ending it closes with. -/
def readFile
    (p : Path)
    (trimmed : Bool) : ExceptT Failure m Text := do
  let t ← Failure.attempt (.reading p) (Host.readText p : m _)
  pure (if trimmed then Text.dropLineEnding t else t)

------------------------------------------------------------
-- Provisioning
------------------------------------------------------------

/- What the setting up of a workspace did. -/
inductive Provisioning where
  | alreadyDone
  | provisioned (created : List Path)
deriving DecidableEq, Repr

/- The content of the marker in a workspace that is set up. -/
def stamp (time : Text) : Text :=
  Program.title ++ .ofString " provisioned at " ++ time ++ ['\n']

/- Write the guide, unless it is there and may stay. -/
def provideGuide
    (config : Config)
    (force : Bool) : ExceptT Failure m (List Path) := do
  let present ← (Host.contains config.guidePath : m Bool)
  if force || !present then
    writeFile config.guidePath (guide config.separator)
    pure [config.guidePath]
  else
    pure []

/- Write the marker. -/
def provideMarker
    (config : Config) : ExceptT Failure m (List Path) := do
  let time ← (Host.time : m Text)
  writeFile config.markerPath (stamp time)
  pure [config.markerPath]

/-
  Set up a workspace. A marker says that this has been done,
  and then nothing is touched unless that is forced.
-/
def provision
    (config : Config)
    (force : Bool) : ExceptT Failure m Provisioning := do
  let marked ← (Host.contains config.markerPath : m Bool)
  if marked && !force then
    pure .alreadyDone
  else
    let guides ← provideGuide config force
    let markers ← provideMarker config
    pure (.provisioned (guides ++ markers))

------------------------------------------------------------
-- Inputs
------------------------------------------------------------

/- Create an empty file where there is nothing. -/
def ensureFile (p : Path) : ExceptT Failure m (List Path) := do
  if ← (Host.contains p : m Bool) then
    pure []
  else
    writeFile p []
    pure [p]

/- Create empty files where there is nothing, in order. -/
def ensureFiles :
    List Path → ExceptT Failure m (List Path)
  | [] => pure []
  | p :: ps => do
      let created ← ensureFile p
      let others ← ensureFiles ps
      pure (created ++ others)

/- The files that a run reads. -/
def inputs
    (config : Config)
    (needParameters : Bool) : List Path :=
  if needParameters then
    [config.inputPath, config.parametersPath]
  else
    [config.inputPath]

/- Create the files that a run reads where they are missing. -/
def ensureInputs
    (config : Config)
    (needParameters : Bool) : ExceptT Failure m (List Path) :=
  ensureFiles (inputs config needParameters)

end CodecChain.Workspace

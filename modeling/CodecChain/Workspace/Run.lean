import CodecChain.Report.Summary
import CodecChain.Run.Engine
import CodecChain.Workspace.Basic

/-
  This file defines the run of a chain in a workspace: from
  the files that hold its content and its instructions to the
  file that holds its report.

  Key definitions include:
    * `Workspace.Outcome`
    * `Workspace.reportText`
    * `Workspace.run`
-/

namespace CodecChain.Workspace

------------------------------------------------------------
-- Outcomes
------------------------------------------------------------

/-
  How a run in a workspace ends: with files created that have
  yet to be filled, with a report written, or at a step that
  could not be completed.
-/
inductive Outcome where
  | needsInput (created : List Path)
  | completed (report : Report) (execution : Execution)
  | interrupted (error : StepError) (reached : Execution)
deriving DecidableEq, Repr

/- A report in the form that is asked for. -/
def reportText
    (format : ReportFormat)
    (report : Report)
    (e : Execution) : Text :=
  match format with
  | .text => report.render
  | .json => (Summary.compose report e).print

------------------------------------------------------------
-- Runs
------------------------------------------------------------

variable {m n : Type → Type} [Monad m] [Host m] [Monad n]
variable [Compressor]

/- The instructions that are given, else those of the file. -/
def readInstructions
    (config : Config) :
    Option Text → ExceptT Failure m Text
  | some instructions => pure instructions
  | none => readFile config.parametersPath true

/- Write the report on a completed run. -/
def writeReport
    (config : Config)
    (chain : Chain)
    (content : Text)
    (e : Execution) : ExceptT Failure m Outcome := do
  let report := Report.compose content chain e.content
  writeFile config.outputPath
    (reportText config.reportFormat report e)
  pure (.completed report e)

/-
  Run the chain of a workspace whose files are all there. The
  provider has a monad of its own, and what it does there is
  carried out on the host.
-/
def runReady
    (config : Config)
    (instructions : Option Text)
    (provider : Provider n)
    (carryOut : n CodecChain.Outcome → m CodecChain.Outcome) :
    ExceptT Failure m Outcome := do
  let content ← readFile config.inputPath config.trimContent
  let source ← readInstructions config instructions
  let chain ← Failure.attempt .noInstructions
    (pure (Chain.parse config.separator source) : m _)
  match ← (carryOut (chain.run provider content) : m _) with
  | .completed e => writeReport config chain content e
  | .interrupted error reached =>
      pure (.interrupted error reached)

/-
  Run the chain of a workspace. It is set up first; if files
  that the run reads had to be created, nothing is run.
-/
def run
    (config : Config)
    (instructions : Option Text)
    (provider : Provider n)
    (carryOut : n CodecChain.Outcome → m CodecChain.Outcome) :
    ExceptT Failure m Outcome := do
  let _ ← provision config false
  match ← ensureInputs config instructions.isNone with
  | [] => runReady config instructions provider carryOut
  | created => pure (.needsInput created)

end CodecChain.Workspace

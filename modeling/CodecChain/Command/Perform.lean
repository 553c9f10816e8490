import CodecChain.Command.Invocation
import CodecChain.Command.Usage
import CodecChain.Run.Console
import CodecChain.Workspace.Run

/-
  This file defines what the commands do on a host, and what
  they show to the one who asked for them.

  Key definitions include:
    * `Command.runChain`
    * `Command.initialise`
    * `Command.perform`
    * `Program.execute`
-/

namespace CodecChain

variable {m : Type → Type} [Monad m] [Host m] [Compressor]

------------------------------------------------------------
-- Showing Runs
------------------------------------------------------------

namespace Command

/- The line between the parts of a step that is shown. -/
def rule : Text :=
  List.replicate 45 '-'

/- A completed step as it is shown, with an empty line after. -/
def block (r : Record) : Text :=
  Text.join '\n'
    [rule, .ofString r.heading, .ofString "Result:", rule,
     r.content, [], []]

/- Show completed steps among the results. -/
def showTrace (trace : List Record) : m Unit :=
  Host.print (trace.flatMap block)

/- Show completed steps among the warnings. -/
def warnTrace (trace : List Record) : m Unit :=
  Host.warn (trace.flatMap block)

/- Show the notes on skipped steps among the warnings. -/
def warnDiagnostics (diagnostics : List Diagnostic) : m Unit :=
  Host.warn <| diagnostics.flatMap fun d =>
    Text.ofString s!"warning: {d.display}\n"

/- Show the end of a run. An interrupted run is a failure. -/
def showOutcome
    (config : Config) :
    Workspace.Outcome → ExceptT Failure m Unit
  | .needsInput created =>
      (Host.print <| created.flatMap fun p =>
        p ++ Text.ofString " created. Please add content to it and run the program again.\n" :
        m Unit)
  | .interrupted error reached => do
      (warnTrace reached.trace : m Unit)
      (Host.warnLine (.ofString "Content before the failing step:") :
        m Unit)
      (Host.warnLine reached.content : m Unit)
      throw (.stopped error)
  | .completed _ e => do
      if config.echoTrace then
        (showTrace e.trace : m Unit)
      (warnDiagnostics e.diagnostics : m Unit)
      (Host.printLine (.ofString "Processing complete. Please check " ++
        config.outputPath ++ .ofString " for the result.") : m Unit)

------------------------------------------------------------
-- Runs
------------------------------------------------------------

/-
  Run the chain of a workspace with the given values, or with
  values from the console if none are given.
-/
def runWorkspace
    (config : Config)
    (instructions : Option Text) :
    List Text → ExceptT Failure m Workspace.Outcome
  | [] =>
      Workspace.run config instructions
        (Provider.console : Provider m) id
  | values =>
      Workspace.run config instructions Provider.scripted
        fun execution => pure (execution.run values).1

/- Run the chain of a workspace and show how that ends. -/
def runChain
    (config : Config)
    (options : RunOptions) : ExceptT Failure m Unit := do
  let config := options.applyTo config
  let outcome ←
    runWorkspace config options.instructions options.values
  showOutcome config outcome

------------------------------------------------------------
-- Codecs and Chains
------------------------------------------------------------

/- What is said about a token that cannot be inverted. -/
def rejectionWarning (token : Token) : Text :=
  .ofString s!"warning: step {token.position} '" ++ token.raw ++
    .ofString "' is not a valid instruction and is kept as is\n"

/- Show the instructions that undo a chain. -/
def invertChain
    (config : Config)
    (instructions : Text) : ExceptT Failure m Unit := do
  let chain ← Failure.attempt .noChain
    (pure (Chain.parse config.separator instructions) : m _)
  (Host.warn <| chain.rejected.flatMap rejectionWarning : m Unit)
  (Host.printLine chain.inverted : m Unit)

/- The codec of a tag that is given. -/
def findCodec (tag : Text) : ExceptT Failure m Codec :=
  match Codec.ofTag? tag with
  | some codec => pure codec
  | none => throw (.unknownCodec tag)

/- Show a text encoded. -/
def encodeText (tag text : Text) : ExceptT Failure m Unit := do
  let codec ← findCodec tag
  (Host.printLine (codec.encode text) : m Unit)

/- Show a text decoded. -/
def decodeText (tag text : Text) : ExceptT Failure m Unit := do
  let codec ← findCodec tag
  let decoded ← Failure.attempt .decoding
    (pure (codec.decode text) : m _)
  (Host.printLine decoded : m Unit)

/- Show the list of codecs. -/
def listCodecs : ExceptT Failure m Unit :=
  (Host.print <| ("Codecs:" :: Codec.all.map Codec.listing).flatMap
    fun line => Text.ofString line ++ ['\n'] : m Unit)

------------------------------------------------------------
-- Initialisation
------------------------------------------------------------

/- Show the files that have been created. -/
def showCreated (created : List Path) : m Unit :=
  Host.print <| created.flatMap fun p =>
    Text.ofString "  ✓ " ++ p ++ ['\n']

/- Show what the setting up of a workspace did. -/
def showProvisioning
    (config : Config) : Workspace.Provisioning → m Unit
  | .alreadyDone =>
      Host.printLine (.ofString "Workspace already provisioned (" ++
        config.markerPath ++ .ofString " exists).")
  | .provisioned created => showCreated created

/- Save the configuration where there is none yet. -/
def ensureConfigFile
    (config : Config) : ExceptT Failure m (List Path) := do
  if ← (Host.contains Config.localName : m Bool) then
    pure []
  else
    Failure.attempt .saving (config.save Config.localName : m _)
    pure [Config.localName]

/-
  Set up the workspace, with the files that a run reads and
  the configuration file, and show what has been created.
-/
def initialise
    (config : Config)
    (force : Bool) : ExceptT Failure m Unit := do
  let provisioning ← Workspace.provision config force
  (showProvisioning config provisioning : m Unit)
  let inputs ← Workspace.ensureInputs config true
  (showCreated inputs : m Unit)
  let settings ← ensureConfigFile config
  (showCreated settings : m Unit)

------------------------------------------------------------
-- Commands
------------------------------------------------------------

/- Do what a command asks for. -/
def perform
    (config : Config) : Command → ExceptT Failure m Unit
  | run options => runChain config options
  | invert instructions => invertChain config instructions
  | encode tag text => encodeText tag text
  | decode tag text => decodeText tag text
  | codecs => listCodecs
  | init force => initialise config force

end Command

------------------------------------------------------------
-- The Program
------------------------------------------------------------

/- Do what is asked for, with the configuration in force. -/
def Invocation.perform
    (invocation : Invocation) : ExceptT Failure m Unit := do
  let config ← Failure.attempt .loading
    (Config.load invocation.configFile : m _)
  invocation.command.perform config

namespace Program

/- How the program ends, as a number. -/
def success : UInt32 := 0

/- How the program ends if it failed. -/
def failure : UInt32 := 1

/- How the program ends if it could not be understood. -/
def misuse : UInt32 := 2

/- Answer what is asked for in place of a command. -/
def answerHalt (halt : Halt) : m UInt32 := do
  match halt with
  | .help =>
      Host.print usage
      pure success
  | .version =>
      Host.printLine title
      pure success
  | .misuse cause =>
      Host.warnLine (.ofString cause.message)
      pure misuse

/- Do what the words of a command line ask for. -/
def execute (words : List Text) : m UInt32 := do
  match Invocation.read words with
  | .error halt => answerHalt halt
  | .ok invocation =>
      match ← invocation.perform.run with
      | .ok () => pure success
      | .error f =>
          Host.warn f.display
          pure failure

end Program

end CodecChain

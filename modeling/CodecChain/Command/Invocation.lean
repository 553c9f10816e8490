import CodecChain.Command.Switch
import CodecChain.Config.Basic

/-
  This file defines what can be asked for on the command line
  and how that is read.

  Key definitions include:
    * `RunOptions`
    * `RunOptions.applyTo`
    * `Command`
    * `Invocation`
    * `Invocation.read`
-/

namespace CodecChain

------------------------------------------------------------
-- Commands
------------------------------------------------------------

/- What can be set for one run. -/
structure RunOptions where
  input : Option Path
  parameters : Option Path
  instructions : Option Text
  output : Option Path
  values : List Text
  format : Option ReportFormat
  quiet : Bool
deriving DecidableEq, Repr

namespace RunOptions

/- A run for which nothing is set. -/
def none : RunOptions where
  input := .none
  parameters := .none
  instructions := .none
  output := .none
  values := []
  format := .none
  quiet := false

/- A configuration in which what is set for a run wins. -/
def applyTo
    (options : RunOptions)
    (config : Config) : Config :=
  { config with
    inputPath := options.input.getD config.inputPath
    parametersPath :=
      options.parameters.getD config.parametersPath
    outputPath := options.output.getD config.outputPath
    reportFormat := options.format.getD config.reportFormat
    echoTrace := !options.quiet && config.echoTrace }

end RunOptions

/- What the program can be asked to do. -/
inductive Command where
  | run (options : RunOptions)
  | invert (instructions : Text)
  | encode (tag text : Text)
  | decode (tag text : Text)
  | codecs
  | init (force : Bool)
deriving DecidableEq, Repr

/- A command with the configuration file it is to use. -/
structure Invocation where
  configFile : Option Path
  command : Command
deriving DecidableEq, Repr

------------------------------------------------------------
-- Settings
------------------------------------------------------------

/- What the switches of a command line have set so far. -/
structure Settings where
  configFile : Option Path
  verbose : Bool
  force : Bool
  options : RunOptions

namespace Settings

/- The settings before the first switch. -/
def initial : Settings :=
  ⟨none, false, false, .none⟩

/- Set what must not be set twice. -/
def once
    {α σ : Type}
    (current : Option α)
    (result : σ) : Option σ :=
  if current.isSome then none else some result

/- Raise a flag that must not be raised twice. -/
def raise
    {σ : Type}
    (current : Bool)
    (result : σ) : Option σ :=
  if current then none else some result

/- Set a path, which must not be empty. -/
def oncePath
    {σ : Type}
    (current : Option Path)
    (p : Path)
    (result : σ) : Option σ :=
  if p.isEmpty then none else once current result

/- Change the settings that are for one run. -/
def withOptions
    (s : Settings)
    (options : RunOptions) : Settings :=
  { s with options := options }

/- Choose the configuration file. -/
def setConfigFile (p : Path) (s : Settings) : Option Settings :=
  oncePath s.configFile p { s with configFile := some p }

/- Ask for messages on what happens. -/
def setVerbose (s : Settings) : Option Settings :=
  raise s.verbose { s with verbose := true }

/- Ask for a second provisioning. -/
def setForce (s : Settings) : Option Settings :=
  raise s.force { s with force := true }

/- Choose the file of the content. -/
def setInput (p : Path) (s : Settings) : Option Settings :=
  oncePath s.options.input p
    (s.withOptions { s.options with input := some p })

/- Choose the file of the instructions. -/
def setParameters (p : Path) (s : Settings) : Option Settings :=
  oncePath s.options.parameters p
    (s.withOptions { s.options with parameters := some p })

/- Give the instructions. -/
def setInstructions (t : Text) (s : Settings) : Option Settings :=
  once s.options.instructions
    (s.withOptions { s.options with instructions := some t })

/- Choose the file of the report. -/
def setOutput (p : Path) (s : Settings) : Option Settings :=
  oncePath s.options.output p
    (s.withOptions { s.options with output := some p })

/- Give one more value for the protection steps. -/
def addValue (t : Text) (s : Settings) : Option Settings :=
  some (s.withOptions
    { s.options with values := s.options.values ++ [t] })

/- Choose the format of the report. -/
def setFormat (t : Text) (s : Settings) : Option Settings :=
  match ReportFormat.ofWord t with
  | .error _ => none
  | .ok format =>
      once s.options.format
        (s.withOptions { s.options with format := some format })

/- Ask for no results of single steps. -/
def setQuiet (s : Settings) : Option Settings :=
  raise s.options.quiet
    (s.withOptions { s.options with quiet := true })

------------------------------------------------------------
-- Switches
------------------------------------------------------------

/- A switch that takes no value. -/
def flagSwitch
    (name : String)
    (letter : Char)
    (set : Settings → Option Settings) : Switch Settings :=
  ⟨.ofString name, some letter, .flag set⟩

/- A switch that takes a value. -/
def valueSwitch
    (name : String)
    (letter : Option Char)
    (set : Text → Settings → Option Settings) :
    Switch Settings :=
  ⟨.ofString name, letter, .value set⟩

/- The switches that all commands have. -/
def sharedSwitches : List (Switch Settings) :=
  [valueSwitch "config" 'c' setConfigFile,
   flagSwitch "verbose" 'v' setVerbose,
   ⟨.ofString "help", 'h', .halt .help⟩]

/- The switches before the name of a command. -/
def leadingSwitches : List (Switch Settings) :=
  ⟨.ofString "version", 'V', .halt .version⟩ :: sharedSwitches

/- The switches of a run. -/
def runSwitches : List (Switch Settings) :=
  [valueSwitch "input" 'i' setInput,
   valueSwitch "parameters" 'p' setParameters,
   valueSwitch "instructions" 'x' setInstructions,
   valueSwitch "output" 'o' setOutput,
   valueSwitch "protect-value" none addValue,
   valueSwitch "format" 'f' setFormat,
   flagSwitch "quiet" 'q' setQuiet] ++ sharedSwitches

/- The switches of an initialisation. -/
def initSwitches : List (Switch Settings) :=
  flagSwitch "force" 'f' setForce :: sharedSwitches

end Settings

------------------------------------------------------------
-- Reading
------------------------------------------------------------

/- The commands by their names. -/
inductive CommandName where
  | run
  | invert
  | encode
  | decode
  | codecs
  | init
deriving DecidableEq, Repr

namespace CommandName

/- All names of commands. -/
def all : List CommandName :=
  [run, invert, encode, decode, codecs, init]

/- The name as it is typed. -/
def text : CommandName → Text
  | run => .ofString "run"
  | invert => .ofString "invert"
  | encode => .ofString "encode"
  | decode => .ofString "decode"
  | codecs => .ofString "codecs"
  | init => .ofString "init"

/- The name that a word is. -/
def ofText? (t : Text) : Option CommandName :=
  all.find? fun name => name.text = t

/- The switches that a command has. -/
def switches : CommandName → List (Switch Settings)
  | run => Settings.runSwitches
  | init => Settings.initSwitches
  | _ => Settings.sharedSwitches

/- The number of operands that a command needs. -/
def operandCount : CommandName → Nat
  | run => 0
  | invert => 1
  | encode => 2
  | decode => 2
  | codecs => 0
  | init => 0

/- The command of a name with its settings and operands. -/
def command
    (name : CommandName)
    (settings : Settings)
    (operands : List Text) : Except Halt Command :=
  match name, operands with
  | run, [] => .ok (.run settings.options)
  | invert, [instructions] => .ok (.invert instructions)
  | encode, [tag, text] => .ok (.encode tag text)
  | decode, [tag, text] => .ok (.decode tag text)
  | codecs, [] => .ok .codecs
  | init, [] => .ok (.init settings.force)
  | _, _ => .error (.incomplete name.text)

end CommandName

namespace Invocation

/- The word that asks for help like a command. -/
def helpWord : Text :=
  .ofString "help"

/-
  Help can be asked for on the program, on one command, or on
  asking for help.
-/
def readHelp : List Text → Halt
  | [] => .help
  | [word] =>
      if word = helpWord ∨ (CommandName.ofText? word).isSome then
        .help
      else
        .unexpected word
  | _ :: word :: _ => .unexpected word

/- Read what follows the name of a command. -/
def readCommand
    (outer : Settings)
    (name : CommandName)
    (words : List Text) : Except Halt Invocation := do
  let (settings, operands) ←
    Switch.readAll name.switches name.operandCount
      (Switch.settled Settings.initial) words
  let command ← name.command settings operands
  pure ⟨settings.configFile.or outer.configFile, command⟩

/-
  Read a command line. Without the name of a command it asks
  for a run. A configuration file that is chosen after the
  name of the command wins over one chosen before it.
-/
def read (words : List Text) : Except Halt Invocation := do
  let (settings, rest) ←
    Switch.readLeading Settings.leadingSwitches
      (Switch.settled Settings.initial) words
  match rest with
  | [] => pure ⟨settings.configFile, .run .none⟩
  | word :: rest =>
      if word = Switch.separator then
        let _ ← Switch.readOperands 0 rest
        pure ⟨settings.configFile, .run .none⟩
      else if word = helpWord then
        throw (readHelp rest)
      else
        match CommandName.ofText? word with
        | some name => readCommand settings name rest
        | none => throw (.unexpected word)

end Invocation

end CodecChain

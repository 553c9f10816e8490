import CodecChain.Command.Switch
import CodecChain.Program

/-
  This file defines what the program says about its own use.

  Key definitions include:
    * `Program.usage`
    * `Misuse.message`
-/

namespace CodecChain

/- How the program is used. -/
def Program.usage : Text :=
  .ofString <| "\n".intercalate
    ["Reversible encoding chains with protection layers",
     "",
     s!"Usage: {Program.name.asString} [OPTIONS] [COMMAND]",
     "",
     "Commands:",
     "  run                    Apply the instruction chain to the input file (default)",
     "  invert <INSTRUCTIONS>  Print the inverse of an instruction chain",
     "  encode <CODEC> <TEXT>  Encode text with a single codec",
     "  decode <CODEC> <TEXT>  Decode text with a single codec",
     "  codecs                 List the available codecs",
     "  init                   Provision the workspace and write a default config",
     "  help [COMMAND]         Print this help",
     "",
     "Options:",
     "  -c, --config <FILE>    Config file",
     "  -v, --verbose          Debug logging",
     "  -h, --help             Print help",
     "  -V, --version          Print version",
     "",
     "Options of run:",
     "  -i, --input <FILE>          Input file",
     "  -p, --parameters <FILE>     Parameters file",
     "  -x, --instructions <CHAIN>  Instruction string",
     "  -o, --output <FILE>         Report file",
     "      --protect-value <TEXT>  Value for a P step, in order",
     "  -f, --format <FORMAT>       Report format (text or json)",
     "  -q, --quiet                 Do not print per-step results",
     "",
     "Options of init:",
     "  -f, --force            Provision again",
     ""]

/- What is wrong with a command line, in words. -/
def Misuse.message : Misuse → String
  | unexpected word =>
      s!"error: unexpected argument '{word.asString}'"
  | incomplete [] => "error: a required argument is missing"
  | incomplete word =>
      s!"error: a required argument is missing before '{word.asString}'"

end CodecChain

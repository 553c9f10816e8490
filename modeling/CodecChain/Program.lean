import CodecChain.Text.Basic

/-
  This file defines what the program is called.

  Key definitions include:
    * `Program.name`
    * `Program.title`
-/

namespace CodecChain.Program

/- The name of the program, as people type it. -/
def name : Text :=
  .ofString "protektor"

/- The version of the program. -/
def version : Text :=
  .ofString "1.0.0"

/- The name of the program with its version. -/
def title : Text :=
  name ++ [' '] ++ version

end CodecChain.Program

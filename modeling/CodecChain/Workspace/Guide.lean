import CodecChain.Codec.Basic

/-
  This file defines the guide that is put into a workspace.

  Key definitions include:
    * `Workspace.guide`
-/

namespace CodecChain.Workspace

/- The lines of the guide before the list of codecs. -/
def guideOpening (separator : Char) : List String :=
  ["PROTEKTOR INSTRUCTIONS",
   "======================",
   "",
   "Put the text to transform in the input file and a chain of",
   s!"instructions in the parameters file, separated by '{separator}'.",
   "",
   "  E<codec>   encode with codec",
   "  D<codec>   decode with codec",
   "  P          replace the content with a value you type in",
   "",
   "Codecs:"]

/- The lines of the guide after the list of codecs. -/
def guideClosing (separator : Char) : List String :=
  ["",
   s!"Example: E64{separator}EZ{separator}EH",
   s!"Undo:    DH{separator}DZ{separator}D64",
   "",
   "The report lists the inverted chain. A P step cannot be undone:",
   "its inverse is shown as a bare P and needs the value you replaced."]

/- How to write instructions with a separator. -/
def guide (separator : Char) : Text :=
  (guideOpening separator ++ Codec.all.map Codec.listing ++
    guideClosing separator).flatMap fun line =>
      Text.ofString line ++ ['\n']

end CodecChain.Workspace

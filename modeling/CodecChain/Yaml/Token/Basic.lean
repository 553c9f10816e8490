import CodecChain.Yaml.Character

/-
  This file defines the tokens of YAML text, in which the
  structure that indentation gives is spelled out.

  Key definitions include:
    * `Yaml.Style`
    * `Yaml.Token`
-/

namespace CodecChain.Yaml

------------------------------------------------------------
-- Tokens
------------------------------------------------------------

/- The ways in which a scalar is written. -/
inductive Style where
  | plain
  | single
  | double
  | literal
  | folded
deriving DecidableEq, Repr

/-
  A token. An item is the mark before one item of a sequence
  on lines, a comma that between two within brackets. A tag
  is given by a handle, which stands for the beginning of its
  name, and the rest of the name.
-/
inductive Token where
  | version (major minor : Nat)
  | handle (handle address : Text)
  | documentStart
  | documentEnd
  | sequenceBlock
  | mappingBlock
  | blockEnd
  | sequenceOpen
  | sequenceClose
  | mappingOpen
  | mappingClose
  | item
  | comma
  | key
  | value
  | alias (name : Text)
  | anchor (name : Text)
  | tag (handle suffix : Text)
  | scalar (style : Style) (text : Text)
deriving DecidableEq, Repr

end CodecChain.Yaml

import CodecChain.Yaml.Node.Builder
import CodecChain.Yaml.Token.Lexer

/-
  This file defines the reading of YAML text.

  Key definitions include:
    * `Yaml.Document.parse?`
    * `Yaml.entries?`
-/

namespace CodecChain.Yaml

------------------------------------------------------------
-- Documents
------------------------------------------------------------

/- The only document of a text. -/
def Document.parse? (t : Text) : Option Document :=
  (tokens? t).bind ofTokens?

/- The entries of the mapping that a text holds. -/
def entries? (t : Text) : Option (List (Text × Option Scalar)) :=
  (Document.parse? t).bind Document.entries?

end CodecChain.Yaml

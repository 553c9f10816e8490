import CodecChain.Json.Reader

/-
  This file defines how JSON values name one of a number of
  alternatives: by a string, or by an object whose only key
  is the name and whose value there is null.

  Key definitions include:
    * `Json.variant?`
-/

namespace CodecChain.Json

/- The name of an alternative. -/
def variant? : Json → Option Text
  | string s => s
  | object [(key, null)] => key
  | _ => none

end CodecChain.Json

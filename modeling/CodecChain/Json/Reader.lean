import CodecChain.Json.Lexeme

/-
  This file defines the reading of JSON text. The arrays and
  objects that have been begun wait on a stack, so that the
  lexemes are gone through once from the first to the last.

  Key definitions include:
    * `Json.Open`
    * `Json.readValue`
    * `Json.parse?`
-/

namespace CodecChain.Json

/-
  An array or an object that has been begun, with what it
  holds so far, the last one first. An object also waits for
  the value of a key.
-/
inductive Open where
  | array (items : List Json)
  | object (members : List (Option Text × Json)) (key : Option Text)

mutual

/- Read lexemes that have to go on with a value. -/
def readValue (stack : List Open) : List Lexeme → Option Json
  | .null :: rest => afterValue stack .null rest
  | .bool b :: rest => afterValue stack (.bool b) rest
  | .number literal :: rest =>
      afterValue stack (.number literal) rest
  | .string s :: rest => afterValue stack (.string s) rest
  | .openArray :: .closeArray :: rest =>
      afterValue stack (.array []) rest
  | .openArray :: rest => readValue (.array [] :: stack) rest
  | .openObject :: .closeObject :: rest =>
      afterValue stack (.object []) rest
  | .openObject :: .string key :: .colon :: rest =>
      readValue (.object [] key :: stack) rest
  | _ => none

/- Read lexemes that follow a value. -/
def afterValue
    (stack : List Open)
    (value : Json) : List Lexeme → Option Json
  | [] =>
      match stack with
      | [] => some value
      | _ :: _ => none
  | .comma :: .string key :: .colon :: rest =>
      match stack with
      | .object members last :: stack =>
          readValue
            (.object ((last, value) :: members) key :: stack) rest
      | _ => none
  | .comma :: rest =>
      match stack with
      | .array items :: stack =>
          readValue (.array (value :: items) :: stack) rest
      | _ => none
  | .closeArray :: rest =>
      match stack with
      | .array items :: stack =>
          afterValue stack (.array (value :: items).reverse) rest
      | _ => none
  | .closeObject :: rest =>
      match stack with
      | .object members last :: stack =>
          afterValue stack
            (.object ((last, value) :: members).reverse) rest
      | _ => none
  | _ => none

end

/- The value of a text, if it is JSON text. -/
def parse? (t : Text) : Option Json := do
  let lexemes ← lexemes? t
  readValue [] lexemes

end CodecChain.Json

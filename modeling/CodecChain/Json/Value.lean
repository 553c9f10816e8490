import CodecChain.Text.Basic

/-
  This file defines JSON values and their printed form, with
  two blanks of indentation a level.

  Key definitions include:
    * `Json`
    * `Json.text`
    * `Json.quote`
    * `Json.print`
-/

namespace CodecChain

------------------------------------------------------------
-- Values
------------------------------------------------------------

/-
  A JSON value. A number is kept as it is written. A string
  that holds an escape for half a character is no text, as a
  value and as a key.
-/
inductive Json where
  | null
  | bool (b : Bool)
  | number (literal : Text)
  | string (s : Option Text)
  | array (items : List Json)
  | object (members : List (Option Text × Json))

namespace Json

/- The value of a text. -/
def text (t : Text) : Json :=
  string (some t)

/- The value of a natural number. -/
def ofNat (n : Nat) : Json :=
  number (Nat.toDigits 10 n)

/- The value of a text that may be missing. -/
def ofText? : Option Text → Json
  | some t => text t
  | none => null

/- An object with the given texts as keys. -/
def record (members : List (String × Json)) : Json :=
  object (members.map fun (key, value) =>
    (some (.ofString key), value))

------------------------------------------------------------
-- Strings
------------------------------------------------------------

/- The four hexadecimal digits of a control character. -/
def controlDigits (n : Nat) : Text :=
  ['0', '0', Nat.digitChar (n / 16), Nat.digitChar (n % 16)]

/- A character within a string. -/
def escape (c : Char) : Text :=
  if c = '"' then ['\\', '"']
  else if c = '\\' then ['\\', '\\']
  else if c = '\x08' then ['\\', 'b']
  else if c = '\x0c' then ['\\', 'f']
  else if c = '\n' then ['\\', 'n']
  else if c = '\r' then ['\\', 'r']
  else if c = '\t' then ['\\', 't']
  else if c.toNat < 0x20 then
    ['\\', 'u'] ++ controlDigits c.toNat
  else [c]

/- The escape for half a character. -/
def half : Text :=
  ['\\', 'u', 'd', '8', '0', '0']

/- The content of a string between its quotes. -/
def quoted : Option Text → Text
  | some t => t.flatMap escape
  | none => half

/- A string between its quotes. -/
def quote (s : Option Text) : Text :=
  ['"'] ++ quoted s ++ ['"']

------------------------------------------------------------
-- Printing
------------------------------------------------------------

/- A new line of the given level. -/
def newLine (level : Nat) : Text :=
  '\n' :: List.replicate (2 * level) ' '

mutual

/- A value, the first line of which is already indented. -/
def printAt (level : Nat) : Json → Text
  | null => ['n', 'u', 'l', 'l']
  | bool true => ['t', 'r', 'u', 'e']
  | bool false => ['f', 'a', 'l', 's', 'e']
  | number literal => literal
  | string s => quote s
  | array [] => ['[', ']']
  | array (item :: items) =>
      ['['] ++ newLine (level + 1) ++ printAt (level + 1) item ++
        printItems (level + 1) items ++ newLine level ++ [']']
  | object [] => ['{', '}']
  | object ((key, value) :: members) =>
      ['{'] ++ newLine (level + 1) ++ quote key ++ [':', ' '] ++
        printAt (level + 1) value ++
        printMembers (level + 1) members ++ newLine level ++ ['}']

/- The items of an array after the first one. -/
def printItems (level : Nat) : List Json → Text
  | [] => []
  | item :: items =>
      [','] ++ newLine level ++ printAt level item ++
        printItems level items

/- The members of an object after the first one. -/
def printMembers
    (level : Nat) : List (Option Text × Json) → Text
  | [] => []
  | (key, value) :: members =>
      [','] ++ newLine level ++ quote key ++ [':', ' '] ++
        printAt level value ++ printMembers level members

end

/- The printed form of a value. -/
def print (value : Json) : Text :=
  printAt 0 value

end Json

end CodecChain

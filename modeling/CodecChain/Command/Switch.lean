import CodecChain.Text.Basic

/-
  This file defines the reading of command lines: switches,
  which are written short or long and may take a value, and
  the operands between them.

  A switch is given as `-x`, `--name`, or with a value as
  `-x V`, `-xV`, `-x=V`, `--name V` or `--name=V`; short
  switches without values can share a dash. A word that is a
  dash alone is an operand, and two dashes alone say that all
  words after them are operands.

  Key definitions include:
    * `Halt`
    * `Switch`
    * `Reading`
    * `Switch.readWord`
    * `Switch.readLeading`
    * `Switch.readAll`
-/

namespace CodecChain

------------------------------------------------------------
-- Switches
------------------------------------------------------------

/-
  What is wrong with a command line: a word that does not
  belong there, or something missing before a word, which is
  empty at the end.
-/
inductive Misuse where
  | unexpected (word : Text)
  | incomplete (word : Text)
deriving DecidableEq, Repr

/-
  Why a command line does not lead to a command: it asks for
  something else, or it is wrong.
-/
inductive Halt where
  | help
  | version
  | misuse (cause : Misuse)
deriving DecidableEq, Repr

/- A word does not belong where it is. -/
def Halt.unexpected (word : Text) : Halt :=
  .misuse (.unexpected word)

/- Something is missing before a word. -/
def Halt.incomplete (word : Text) : Halt :=
  .misuse (.incomplete word)

/-
  What a switch does to the settings read so far. A flag or a
  value that cannot be used there leads to no settings.
-/
inductive Effect (σ : Type) where
  | flag (set : σ → Option σ)
  | value (set : Text → σ → Option σ)
  | halt (cause : Halt)

/- A switch with its long name, its letter and its effect. -/
structure Switch (σ : Type) where
  name : Text
  letter : Option Char
  effect : Effect σ

/-
  Settings, with the switch that still waits for its value.
-/
structure Reading (σ : Type) where
  settings : σ
  waiting : Option (Text → σ → Option σ)

namespace Switch

variable {σ : Type}

/- A reading in which nothing waits for a value. -/
def settled (settings : σ) : Reading σ :=
  ⟨settings, none⟩

/- Settings that a word has led to. -/
def accept
    (word : Text)
    (settings : Option σ) : Except Halt (Reading σ) :=
  match settings with
  | some settings => .ok (settled settings)
  | none => .error (.unexpected word)

------------------------------------------------------------
-- Words
------------------------------------------------------------

/- The dash before letters and names. -/
def dash : Char :=
  '-'

/- The word that ends the switches. -/
def separator : Text :=
  [dash, dash]

/- A word that cannot be the value of a switch before it. -/
def isDashed (word : Text) : Bool :=
  word.head? = some dash && word ≠ [dash]

/- The value that follows a letter in its word, if any. -/
def attached? : Text → Option Text
  | [] => none
  | '=' :: v => some v
  | v => some v

/- Read the letters of a word in order. -/
def readLetters
    (switches : List (Switch σ))
    (word : Text) : Text → σ → Except Halt (Reading σ)
  | [], settings => .ok (settled settings)
  | c :: cs, settings =>
      match switches.find? fun s => s.letter = some c with
      | none => .error (.unexpected word)
      | some s =>
          match s.effect with
          | .halt cause => .error cause
          | .flag set =>
              match set settings with
              | none => .error (.unexpected word)
              | some settings =>
                  readLetters switches word cs settings
          | .value set =>
              match attached? cs with
              | none => .ok ⟨settings, some set⟩
              | some v => accept word (set v settings)

/- A name, with the value that is written after it, if any. -/
def splitName (word : Text) : Text × Option Text :=
  match word.dropWhile (· ≠ '=') with
  | [] => (word, none)
  | _ :: v => (word.takeWhile (· ≠ '='), some v)

/- Read a switch by its name. -/
def readName
    (switches : List (Switch σ))
    (word rest : Text)
    (settings : σ) : Except Halt (Reading σ) :=
  let (name, value) := splitName rest
  match switches.find? fun s => s.name = name with
  | none => .error (.unexpected word)
  | some s =>
      match s.effect, value with
      | .halt cause, none => .error cause
      | .flag set, none => accept word (set settings)
      | .value set, none => .ok ⟨settings, some set⟩
      | .value set, some v => accept word (set v settings)
      | _, some _ => .error (.unexpected word)

/- Read a word that starts with a dash. -/
def readWord
    (switches : List (Switch σ))
    (word : Text)
    (settings : σ) : Except Halt (Reading σ) :=
  match word with
  | '-' :: '-' :: rest => readName switches word rest settings
  | '-' :: letters => readLetters switches word letters settings
  | _ => .error (.unexpected word)

/- Read the value that a switch waits for. -/
def readValue
    (set : Text → σ → Option σ)
    (word : Text)
    (settings : σ) : Except Halt (Reading σ) :=
  if isDashed word then
    .error (.incomplete word)
  else
    accept word (set word settings)

------------------------------------------------------------
-- Command Lines
------------------------------------------------------------

/-
  Read the switches at the beginning of a command line. The
  words from the first operand on are left as they are.
-/
def readLeading
    (switches : List (Switch σ)) :
    Reading σ → List Text → Except Halt (σ × List Text)
  | ⟨settings, none⟩, [] => .ok (settings, [])
  | ⟨_, some _⟩, [] => .error (.incomplete [])
  | ⟨settings, some set⟩, word :: words => do
      let reading ← readValue set word settings
      readLeading switches reading words
  | ⟨settings, none⟩, word :: words =>
      if isDashed word ∧ word ≠ separator then do
        let reading ← readWord switches word settings
        readLeading switches reading words
      else
        .ok (settings, word :: words)

/- The given number of operands, and no others. -/
def readOperands
    (count : Nat)
    (words : List Text) : Except Halt (List Text) :=
  match words.drop count with
  | word :: _ => .error (.unexpected word)
  | [] =>
      if words.length = count then
        .ok words
      else
        .error (.incomplete [])

/-
  Read a command line with switches and the given number of
  operands in any order.
-/
def readAll
    (switches : List (Switch σ)) :
    Nat → Reading σ → List Text → Except Halt (σ × List Text)
  | _, ⟨_, some _⟩, [] => .error (.incomplete [])
  | count, ⟨settings, none⟩, [] => do
      let operands ← readOperands count []
      pure (settings, operands)
  | count, ⟨settings, some set⟩, word :: words => do
      let reading ← readValue set word settings
      readAll switches count reading words
  | count, ⟨settings, none⟩, word :: words =>
      if word = separator then do
        let operands ← readOperands count words
        pure (settings, operands)
      else if isDashed word then do
        let reading ← readWord switches word settings
        readAll switches count reading words
      else
        match count with
        | 0 => .error (.unexpected word)
        | more + 1 => do
            let (settings, operands) ←
              readAll switches more (settled settings) words
            pure (settings, word :: operands)

end Switch

end CodecChain

import CodecChain.Text.Basic

/-
  This file defines the operations of instructions and the
  letters that select them.

  Key definitions include:
    * `Operation`
    * `Operation.selector`
    * `Operation.ofSelector?`
    * `Operation.inverse`

  Main statements:
    * `Operation.ofSelector?_eq_some_iff`: a selector selects
      its operation, and nothing else does.
    * `Operation.inverse_inverse`: inversion undoes itself.
-/

namespace CodecChain

/- What an instruction does to the content. -/
inductive Operation where
  | encode
  | decode
  | protect
deriving DecidableEq, Repr

namespace Operation

/- All operations. -/
def all : List Operation :=
  [encode, decode, protect]

/- The letter that selects an operation. -/
def selector : Operation → Char
  | encode => 'E'
  | decode => 'D'
  | protect => 'P'

/- The operation that a character selects. -/
def ofSelector? (c : Char) : Option Operation :=
  all.find? fun operation => operation.selector = c

/- The operation that undoes an operation. -/
def inverse : Operation → Operation
  | encode => decode
  | decode => encode
  | protect => protect

/- The name of an operation. -/
def name : Operation → String
  | encode => "Encode"
  | decode => "Decode"
  | protect => "Protect"

/- The operation with the given name. -/
def ofName? (t : Text) : Option Operation :=
  all.find? fun operation => Text.ofString operation.name = t

/- A selector selects its operation, and nothing else does. -/
theorem ofSelector?_eq_some_iff
    {c : Char}
    {operation : Operation} :
    ofSelector? c = some operation ↔
      operation.selector = c := by
  constructor
  · intro h
    simpa using List.find?_some h
  · intro h
    subst h
    cases operation <;> decide

/- Inversion undoes itself. -/
theorem inverse_inverse (operation : Operation) :
    operation.inverse.inverse = operation := by
  cases operation <;> rfl

end Operation

end CodecChain

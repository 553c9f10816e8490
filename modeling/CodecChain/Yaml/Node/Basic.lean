import CodecChain.Yaml.Scalar.Meaning
import CodecChain.Yaml.Token.Basic

/-
  This file defines the nodes of YAML text: scalars and the
  collections of them. A node may also be another one, which
  is known by a number.

  Key definitions include:
    * `Yaml.Scalar`
    * `Yaml.Scalar.bool?`
    * `Yaml.Scalar.name?`
    * `Yaml.Node`
    * `Yaml.Document`
    * `Yaml.Document.scalar?`
    * `Yaml.Document.entries?`
-/

namespace CodecChain.Yaml

------------------------------------------------------------
-- Scalars
------------------------------------------------------------

/- A scalar: its tag, if it has one, its style and its text. -/
structure Scalar where
  tag : Option Text
  style : Style
  text : Text
deriving DecidableEq, Repr

namespace Scalar

/- The scalar where there is none. -/
def empty : Scalar where
  tag := none
  style := .plain
  text := []

/- The tag of truth values. -/
def boolTag : Text :=
  .ofString "tag:yaml.org,2002:bool"

/-
  The truth value of a scalar, which is plain, or literal with
  the tag of truth values.
-/
def bool? (s : Scalar) : Option Bool :=
  if s.style = .plain ∨
      (s.style = .literal ∧ s.tag = some boolTag) then
    Yaml.bool? s.text
  else
    none

/-
  The name that a scalar gives: a tag of its own on a scalar
  that stands for nothing, or, without such a tag, its text.
-/
def name? (s : Scalar) : Option Text :=
  match s.tag with
  | some ('!' :: name) =>
      if s.style = .plain ∧ isNull s.text then some name else none
  | _ => some s.text

end Scalar

------------------------------------------------------------
-- Nodes
------------------------------------------------------------

/- A node. -/
inductive Node where
  | scalar (s : Scalar)
  | alias (number : Nat)
  | sequence (tag : Option Text) (items : List Node)
  | mapping (tag : Option Text) (entries : List (Node × Node))

/- The node where there is none. -/
def Node.empty : Node :=
  .scalar .empty

/-
  A document: the node that is all of it, and what the numbers
  of other nodes stand for, if these are scalars. The last
  entry for a number comes first.
-/
structure Document where
  root : Node
  anchored : List (Nat × Option Scalar)

namespace Document

/- The scalar that a node is. -/
def scalar? (d : Document) : Node → Option Scalar
  | .scalar s => some s
  | .alias number =>
      (d.anchored.find? fun entry => entry.1 = number).bind
        (·.2)
  | _ => none

/-
  The entries of a document that is a mapping whose keys are
  scalars, with the values that are scalars. The scalar where
  there is none stands for a mapping without entries.
-/
def entries? (d : Document) :
    Option (List (Text × Option Scalar)) :=
  match d.root with
  | .mapping _ entries =>
      entries.mapM fun (key, value) =>
        (d.scalar? key).map fun key =>
          (key.text, d.scalar? value)
  | .scalar s =>
      if s.style = .plain ∧ s.text = [] then some [] else none
  | _ => none

end Document

end CodecChain.Yaml

import CodecChain.Text.Basic

/-
  This file defines paths of files. A path is its text; the
  parts between its slashes say which file it names, and two
  paths with the same parts name the same file.

  Key definitions include:
    * `Path`
    * `Path.parts`
    * `Path.parent?`
    * `Path.fileName?`
    * `Path.isJson`
    * `Path.under`

  Main statements:
    * `Path.parent?_length_lt`: a parent is a shorter path.
-/

namespace CodecChain

------------------------------------------------------------
-- Paths
------------------------------------------------------------

/- The text of a path. -/
abbrev Path :=
  Text

namespace Path

/- The mark between the parts of a path. -/
def slash : Char :=
  '/'

/- A path that starts at the root. -/
def isAbsolute (p : Path) : Bool :=
  p.head? = some slash

/- The part that stands for the directory it is in. -/
def here : Text :=
  ['.']

/- The part that stands for the directory above. -/
def above : Text :=
  ['.', '.']

/-
  The parts of a path. Empty parts do not count, and neither
  does a part that stays where it is, except as the first one
  of a relative path. The root is a part of its own.
-/
def parts (p : Path) : List Text :=
  match Text.split slash p with
  | [] => []
  | first :: rest =>
      let rest := rest.filter fun part => part ≠ [] ∧ part ≠ here
      if isAbsolute p then
        [slash] :: rest
      else if first = [] then
        rest
      else
        first :: rest

------------------------------------------------------------
-- Parents and Names
------------------------------------------------------------

/-
  A path without slashes and dots at its end that do not
  change what it names, read from its end.
-/
def stripBack : Text → Text
  | '/' :: c :: rest => stripBack (c :: rest)
  | '.' :: '/' :: rest => stripBack ('/' :: rest)
  | t => t

/- The same, read from the beginning. -/
def strip (p : Path) : Path :=
  (stripBack p.reverse).reverse

/-
  The path of the directory that holds what a path names. It
  is empty for a single name; the root and the empty path
  have none.
-/
def parent? (p : Path) : Option Path :=
  let p := strip p
  if p = [] ∨ p = [slash] then
    none
  else
    some (strip (p.reverse.dropWhile (· ≠ slash)).reverse)

/- The last part of a path, if it is the name of a file. -/
def fileName? (p : Path) : Option Text :=
  match p.parts.getLast? with
  | none => none
  | some part =>
      if part = [slash] ∨ part = here ∨ part = above then
        none
      else
        some part

/-
  What follows the last dot of a name. A dot at the very
  beginning does not count.
-/
def extension? (name : Text) : Option Text :=
  match name.reverse.dropWhile (· ≠ '.') with
  | [] => none
  | [_] => none
  | _ :: _ => some (name.reverse.takeWhile (· ≠ '.')).reverse

/- A path of a file with the extension for JSON text. -/
def isJson (p : Path) : Bool :=
  match p.fileName?.bind extension? with
  | none => false
  | some extension =>
      extension.map Char.toLower = ['j', 's', 'o', 'n']

------------------------------------------------------------
-- Joining
------------------------------------------------------------

/-
  A path as seen from below a directory. An absolute path
  stays as it is.
-/
def under (directory p : Path) : Path :=
  if isAbsolute p then
    p
  else if directory = [] ∨ directory.getLast? = some slash then
    directory ++ p
  else
    directory ++ [slash] ++ p

------------------------------------------------------------
-- Lengths
------------------------------------------------------------

theorem stripBack_length_le (t : Text) :
    (stripBack t).length ≤ t.length := by
  fun_induction stripBack t with
  | case1 c rest ih =>
      simp only [List.length_cons] at ih ⊢
      omega
  | case2 rest ih =>
      simp only [List.length_cons] at ih ⊢
      omega
  | case3 => exact Nat.le_refl _

theorem strip_length_le (p : Path) :
    (strip p).length ≤ p.length := by
  simpa [strip] using stripBack_length_le p.reverse

/- A path does not end in a slash once it is stripped. -/
theorem stripBack_head
    {t rest : Text}
    (h : stripBack t = slash :: rest) :
    rest = [] := by
  fun_induction stripBack t with
  | case1 c t ih => exact ih h
  | case2 t ih => exact ih h
  | case3 t hSlash _ =>
      subst h
      cases rest with
      | nil => rfl
      | cons c r => exact absurd rfl (hSlash c r)

/- A parent is a shorter path. -/
theorem parent?_length_lt
    {p q : Path}
    (h : parent? p = some q) :
    q.length < p.length := by
  unfold parent? at h
  dsimp only at h
  split at h
  · simp at h
  · rename_i hNot
    simp only [Option.some.injEq] at h
    have hStrip := strip_length_le p
    have hOuter := strip_length_le
      ((strip p).reverse.dropWhile (· ≠ slash)).reverse
    rw [h] at hOuter
    simp only [List.length_reverse] at hOuter
    have hBack : (strip p).reverse = stripBack p.reverse := by
      simp [strip]
    have hDrop :
        ((strip p).reverse.dropWhile (· ≠ slash)).length <
          (strip p).reverse.length := by
      cases hRev : (strip p).reverse with
      | nil =>
          have hNil : strip p = [] := by simpa using hRev
          exact absurd (Or.inl hNil) hNot
      | cons c r =>
          by_cases hc : c = slash
          · subst hc
            have hr : r = [] :=
              stripBack_head (hBack ▸ hRev)
            subst hr
            have hRoot : strip p = [slash] := by
              simpa using congrArg List.reverse hRev
            exact absurd (Or.inr hRoot) hNot
          · have hSub :=
              (List.dropWhile_sublist (l := r)
                (fun d : Char => decide (d ≠ slash))).length_le
            simp only [ne_eq, hc, not_false_eq_true, decide_true,
              List.dropWhile_cons_of_pos, List.length_cons]
            simp only [ne_eq] at hSub
            omega
    simp only [List.length_reverse] at hDrop
    omega

end Path

end CodecChain

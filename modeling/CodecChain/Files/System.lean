import CodecChain.Files.Path

/-
  This file defines a system of files as a map from places to
  files and directories, and what programs can do with it. A
  place is a list of names from the root on. The working
  directory has a place of its own, and relative paths are
  followed from there.

  Key definitions include:
    * `IoFault`
    * `Entry`
    * `FileSystem`
    * `FileSystem.resolve`
    * `FileSystem.read`
    * `FileSystem.write`
    * `FileSystem.createDirectory`

  Main statements:
    * `FileSystem.get?_put`: what is put at a place is there,
      and all other places are as before.
-/

namespace CodecChain

------------------------------------------------------------
-- Faults
------------------------------------------------------------

/- Why files cannot be read or written. -/
inductive IoFault where
  | notFound
  | alreadyExists
  | notDirectory
  | isDirectory
  | notUtf8
  | other (message : String)
deriving DecidableEq, Repr

/- The cause in words. -/
def IoFault.message : IoFault → String
  | notFound => "No such file or directory (os error 2)"
  | alreadyExists => "File exists (os error 17)"
  | notDirectory => "Not a directory (os error 20)"
  | isDirectory => "Is a directory (os error 21)"
  | notUtf8 => "stream did not contain valid UTF-8"
  | other message => message

------------------------------------------------------------
-- File Systems
------------------------------------------------------------

/- The names that lead from the root to a file or directory. -/
abbrev Place :=
  List Text

/- What can be at a place. -/
inductive Entry where
  | file (bytes : List UInt8)
  | directory
deriving DecidableEq, Repr

/-
  A system of files: the place of the working directory, and
  what is at other places.
-/
structure FileSystem where
  directory : Place
  entries : List (Place × Entry)

namespace FileSystem

/- The system with nothing but a working directory. -/
def empty (directory : Place) : FileSystem :=
  ⟨directory, []⟩

/-
  A place that is always a directory: the working directory,
  and those that lead from the root to it.
-/
def isBase (fs : FileSystem) (place : Place) : Bool :=
  place.isPrefixOf fs.directory

/- What is at a place. -/
def get? (fs : FileSystem) (place : Place) : Option Entry :=
  if fs.isBase place then
    some .directory
  else
    fs.entries.lookup place

/- Put a file or a directory at a place. -/
def put
    (fs : FileSystem)
    (place : Place)
    (entry : Entry) : FileSystem where
  directory := fs.directory
  entries :=
    (place, entry) ::
      fs.entries.filter fun other => other.1 ≠ place

/- Take away what is at a place and below it. -/
def remove (fs : FileSystem) (place : Place) : FileSystem where
  directory := fs.directory
  entries :=
    fs.entries.filter fun other => !place.isPrefixOf other.1

theorem lookup_filter_ne
    {place other : Place}
    (entries : List (Place × Entry))
    (h : other ≠ place) :
    (entries.filter fun e => e.1 ≠ place).lookup other =
      entries.lookup other := by
  induction entries with
  | nil => rfl
  | cons e es ih =>
      obtain ⟨p, v⟩ := e
      by_cases hp : p = place
      · subst hp
        have hOther : (other == p) = false := by simpa using h
        simpa [List.lookup_cons, hOther] using ih
      · have hFilter :
            ((p, v) :: es).filter (fun e => e.1 ≠ place) =
              (p, v) :: es.filter (fun e => e.1 ≠ place) := by
          simp [hp]
        rw [hFilter]
        simp only [List.lookup_cons]
        split
        · rfl
        · exact ih

theorem directory_put
    (fs : FileSystem)
    (place : Place)
    (entry : Entry) :
    (fs.put place entry).directory = fs.directory :=
  rfl

@[simp]
theorem isBase_put
    (fs : FileSystem)
    (place other : Place)
    (entry : Entry) :
    (fs.put place entry).isBase other = fs.isBase other :=
  rfl

theorem entries_put
    (fs : FileSystem)
    (place : Place)
    (entry : Entry) :
    (fs.put place entry).entries =
      (place, entry) ::
        fs.entries.filter fun other => other.1 ≠ place :=
  rfl

/-
  What is put at a place is there, and all other places are
  as before.
-/
theorem get?_put
    (fs : FileSystem)
    (place other : Place)
    (entry : Entry)
    (hPlace : fs.isBase place = false) :
    (fs.put place entry).get? other =
      if other = place then some entry else fs.get? other := by
  rw [get?, isBase_put, entries_put, List.lookup_cons]
  by_cases hSame : other = place
  · subst hSame
    simp [hPlace]
  · have hBeq : (other == place) = false := by
      simpa using hSame
    rw [if_neg hSame, hBeq, get?,
      lookup_filter_ne fs.entries hSame]

------------------------------------------------------------
-- Places of Paths
------------------------------------------------------------

/-
  The place that a name leads to from a directory. Above the
  root is the root itself.
-/
def step (place : Place) (name : Text) : Place :=
  if name = [] ∨ name = Path.here then
    place
  else if name = Path.above then
    place.dropLast
  else
    place ++ [name]

/-
  Follow names from a place. All places on the way have to be
  directories, but not the last one.
-/
def walk
    (fs : FileSystem) : Place → List Text → Except IoFault Place
  | place, [] => .ok place
  | place, name :: names =>
      match fs.get? place with
      | some .directory => walk fs (step place name) names
      | some (.file _) => .error .notDirectory
      | none => .error .notFound

/- The place that a path names. -/
def resolve (fs : FileSystem) (p : Path) : Except IoFault Place :=
  if p = [] then
    .error .notFound
  else if Path.isAbsolute p then
    walk fs [] (Text.split Path.slash p)
  else
    walk fs fs.directory (Text.split Path.slash p)

/- What a path names, if anything. -/
def lookup? (fs : FileSystem) (p : Path) : Option Entry :=
  match fs.resolve p with
  | .ok place => fs.get? place
  | .error _ => none

/- A path that names something. -/
def contains (fs : FileSystem) (p : Path) : Bool :=
  (fs.lookup? p).isSome

/- A path that names a directory. -/
def isDirectory (fs : FileSystem) (p : Path) : Bool :=
  fs.lookup? p = some .directory

------------------------------------------------------------
-- Reading and Writing
------------------------------------------------------------

/- The bytes of the file that a path names. -/
def read (fs : FileSystem) (p : Path) : Except IoFault (List UInt8) := do
  let place ← fs.resolve p
  match fs.get? place with
  | some (.file bytes) => .ok bytes
  | some .directory => .error .isDirectory
  | none => .error .notFound

/-
  A path without the slashes at its end. Slashes alone name
  the root, and one of them is left.
-/
def withoutSlashes (p : Path) : Path :=
  match p.reverse.dropWhile (· = Path.slash) with
  | [] => p.take 1
  | c :: front => (c :: front).reverse

/-
  Write a file. One that is there is replaced, and a missing
  one is created, but not where a slash asks for a directory.
-/
def write
    (fs : FileSystem)
    (p : Path)
    (bytes : List UInt8) : Except IoFault FileSystem := do
  let place ← fs.resolve (withoutSlashes p)
  if withoutSlashes p ≠ p ∨ fs.get? place = some .directory then
    .error .isDirectory
  else
    .ok (fs.put place (.file bytes))

/- Create a directory within one that is there. -/
def createDirectory
    (fs : FileSystem)
    (p : Path) : Except IoFault FileSystem := do
  let place ← fs.resolve (withoutSlashes p)
  match fs.get? place with
  | some _ => .error .alreadyExists
  | none => .ok (fs.put place .directory)

end FileSystem

end CodecChain

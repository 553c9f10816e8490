import CodecChain.Host.Basic

/-
  This file defines a machine that is a value, so that what a
  command does can be computed and compared.

  Key definitions include:
    * `Machine`
    * `Simulated`
    * `Machine.takeLine`

  Main statements:
    * `Machine.takeLine_append`: taking a line loses nothing.
-/

namespace CodecChain

------------------------------------------------------------
-- Machines
------------------------------------------------------------

/-
  A machine: its files, the input not read yet, what has been
  printed so far, and what it answers to questions.
-/
structure Machine where
  files : FileSystem
  input : List UInt8
  output : Text
  warnings : Text
  time : Text
  configDirectory : Option Path

/- What commands do on such a machine. -/
abbrev Simulated :=
  StateM Machine

namespace Machine

/-
  The first line of an input with the line feed that ends it,
  and the input after it.
-/
def takeLine : List UInt8 → List UInt8 × List UInt8
  | [] => ([], [])
  | b :: bytes =>
      if b = 0x0a then
        ([b], bytes)
      else
        (b :: (takeLine bytes).1, (takeLine bytes).2)

/- A line and the input after it are the input before it. -/
theorem takeLine_append (bytes : List UInt8) :
    (takeLine bytes).1 ++ (takeLine bytes).2 = bytes := by
  induction bytes with
  | nil => rfl
  | cons b bytes ih =>
      unfold takeLine
      by_cases hFeed : b = 0x0a
      · simp [hFeed]
      · simp [hFeed, ih]

/- Change the files of a machine, if that succeeds. -/
def changeFiles
    (change : FileSystem → Except IoFault FileSystem) :
    Simulated (Except IoFault Unit) :=
  fun machine =>
    match change machine.files with
    | .ok files => (.ok (), { machine with files := files })
    | .error fault => (.error fault, machine)

end Machine

instance : Host Simulated where
  read p := fun machine => (machine.files.read p, machine)
  write p bytes := Machine.changeFiles (·.write p bytes)
  createDirectory p := Machine.changeFiles (·.createDirectory p)
  contains p := fun machine => (machine.files.contains p, machine)
  isDirectory p := fun machine =>
    (machine.files.isDirectory p, machine)
  readLine := fun machine =>
    let (line, rest) := Machine.takeLine machine.input
    (line, { machine with input := rest })
  print t := fun machine =>
    ((), { machine with output := machine.output ++ t })
  warn t := fun machine =>
    ((), { machine with warnings := machine.warnings ++ t })
  time := fun machine => (machine.time, machine)
  configDirectory := fun machine =>
    (machine.configDirectory, machine)

end CodecChain

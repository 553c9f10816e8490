import CodecChain.Config.Basic
import CodecChain.Proofs.Chain.Concatenation

/-
  Chains as they are written. Reading sees of a text only its
  trimmed pieces, so that blanks around the pieces change
  neither tokens nor inversion; and it gives instructions back
  as they were printed, if no tag holds the separator, is
  empty or ends in a blank.

  Key definitions include:
    * `Instruction.IsPrintable`
    * `Chain.printedTokens`

  Main statements:
    * `Chain.map_parse_of_pieces`
    * `Chain.exists_parse_printed`
    * `Chain.exists_parse_padded`
-/

------------------------------------------------------------
-- Printable Instructions
------------------------------------------------------------

namespace CodecChain

namespace Instruction

variable {sep : Char} {instruction : Instruction}

/-
  An instruction that can be printed between separators: its
  tag, if it takes one, is not empty, does not hold the
  separator and does not end in a blank.
-/
def IsPrintable
    (sep : Char)
    (instruction : Instruction) : Prop :=
  ∀ tag, instruction.tag? = some tag →
    tag ≠ [] ∧ sep ∉ tag ∧
      ∀ c, tag.getLast? = some c → Text.isBlank c = false

theorem text_eq (instruction : Instruction) :
    instruction.text =
      instruction.operation.selector ::
        instruction.tag?.getD [] := by
  cases instruction <;> simp [text, operation, tag?]

theorem text_ne_nil (instruction : Instruction) :
    instruction.text ≠ [] := by
  simp [text_eq]

theorem IsPrintable.spelled
    (h : instruction.IsPrintable sep) :
    instruction.Spelled instruction.text := by
  cases instruction with
  | encode tag => exact ⟨(h tag rfl).1, rfl⟩
  | decode tag => exact ⟨(h tag rfl).1, rfl⟩
  | protect => exact ⟨[], rfl⟩

/- A printed instruction begins with its selector. -/
theorem IsPrintable.isTrimmed_text
    (h : instruction.IsPrintable sep) :
    Text.IsTrimmed instruction.text := by
  have hSelector :=
    Token.isBlank_selector instruction.operation
  rw [text_eq]
  cases hTag : instruction.tag? with
  | none => exact Text.isTrimmed_singleton hSelector
  | some tag =>
      rcases h tag hTag with ⟨hNonempty, -, hLast⟩
      refine (Text.isTrimmed_cons_iff hNonempty).mpr
        ⟨hSelector, ?_⟩
      intro c hc
      rw [List.head?_reverse] at hc
      exact hLast c hc

/- Selectors are letters, and letters do not separate. -/
theorem selector_ne_of_canSeparate
    (hSep : Config.CanSeparate sep)
    (operation : Operation) :
    sep ≠ operation.selector := by
  intro hSame
  have hLetter :
      Text.isAlphabetic operation.selector = true := by
    cases operation <;> decide +kernel
  have hNone := hSep.1
  rw [hSame, hLetter] at hNone
  contradiction

theorem IsPrintable.notMem_text
    (hSep : Config.CanSeparate sep)
    (h : instruction.IsPrintable sep) :
    sep ∉ instruction.text := by
  have hSelector :=
    selector_ne_of_canSeparate hSep instruction.operation
  cases hTag : instruction.tag? with
  | none => simp [text_eq, hTag, hSelector]
  | some tag => simp [text_eq, hTag, hSelector, (h tag hTag).2.1]

end Instruction

end CodecChain

------------------------------------------------------------
-- Reading What Is Written
------------------------------------------------------------

namespace CodecChain

namespace Chain

variable {sep : Char} {s t input : Text}
variable {pieces paddedPieces : List Text}
variable {instructions : List Instruction}

/- A text that is not blank is read from its trimmed pieces. -/
theorem exists_parse_of_trim_ne_nil
    (hSep : Text.isBlank sep = false)
    (hText : Text.trim s ≠ []) :
    ∃ chain,
      parse sep s = .ok chain ∧ chain.separator = sep ∧
      chain.tokens =
        tokensOf 1 ((Text.split sep s).map Text.trim) := by
  have hParse : parse sep s = .ok _ :=
    parse_eq_ok_iff.mpr ⟨hText, rfl⟩
  refine ⟨_, hParse, rfl, ?_⟩
  rw [tokensOf_map_trim, tokens_eq_of_parse hSep hParse]

/-
  What reading says of the tokens and the inversion of a text
  depends on the trimmed pieces of the text only.
-/
theorem map_parse_of_pieces
    (hSep : Text.isBlank sep = false)
    (hPieces :
      (Text.split sep s).map Text.trim =
        (Text.split sep t).map Text.trim) :
    (parse sep s).map (fun c => (c.tokens, c.inverted)) =
      (parse sep t).map (fun c => (c.tokens, c.inverted)) := by
  have hEmpty :
      Text.trim s = [] ↔ Text.trim t = [] := by
    rw [Text.trim_eq_nil_iff_pieces hSep,
      Text.trim_eq_nil_iff_pieces hSep, hPieces]
  by_cases hNil : Text.trim t = []
  · simp [parse, hNil, hEmpty.mpr hNil]
  · have hSource : Text.trim s ≠ [] := mt hEmpty.mp hNil
    rcases exists_parse_of_trim_ne_nil hSep hSource with
      ⟨first, hFirst, hFirstSep, hFirstTokens⟩
    rcases exists_parse_of_trim_ne_nil hSep hNil with
      ⟨second, hSecond, hSecondSep, hSecondTokens⟩
    rw [← hPieces, ← hFirstTokens] at hSecondTokens
    simp only [hFirst, hSecond, Except.map, inverted,
      hSecondTokens, hFirstSep, hSecondSep]

/- The tokens of instructions that are printed one by one. -/
def printedTokens
    (instructions : List Instruction) : List Token :=
  (instructions.zipIdx 1).map fun (instruction, position) =>
    .accepted position instruction.text instruction

theorem map_printedTokens
    {α : Type}
    {f : Token → α}
    {g : Instruction → α}
    (h : ∀ position instruction,
      f (.accepted position (Instruction.text instruction)
        instruction) = g instruction)
    (instructions : List Instruction) :
    (printedTokens instructions).map f = instructions.map g := by
  rw [printedTokens, List.map_map]
  conv_rhs =>
    rw [← List.zipIdx_map_fst 1 instructions, List.map_map]
  apply List.map_congr_left
  intro entry _
  exact h entry.2 entry.1

theorem tokensOf_printed
    (hPrintable :
      ∀ instruction ∈ instructions,
        instruction.IsPrintable sep) :
    tokensOf 1 (instructions.map Instruction.text) =
      printedTokens instructions := by
  rw [tokensOf, List.zipIdx_map, List.map_map, printedTokens]
  apply List.map_congr_left
  rintro ⟨instruction, position⟩ hMem
  have hInstruction :=
    hPrintable instruction (List.fst_mem_of_mem_zipIdx hMem)
  dsimp only [Function.comp, Prod.map, id]
  rw [Text.trim_of_isTrimmed hInstruction.isTrimmed_text]
  exact Token.read_of_spelled position hInstruction.spelled

/- Printed instructions are read as these instructions. -/
theorem exists_parse_printed
    (hSep : Config.CanSeparate sep)
    (hSome : instructions ≠ [])
    (hPrintable :
      ∀ instruction ∈ instructions,
        instruction.IsPrintable sep) :
    ∃ chain,
      parse sep
          (Text.join sep (instructions.map Instruction.text)) =
        .ok chain ∧
      chain.tokens = printedTokens instructions := by
  refine ⟨_, parse_join ?_ ?_ ?_ ?_ ?_,
    tokensOf_printed hPrintable⟩
  · simpa using hSome
  · intro hSingle
    rcases List.map_eq_singleton_iff.mp hSingle with
      ⟨instruction, -, hNil⟩
    exact instruction.text_ne_nil hNil
  · simp only [List.forall_mem_map]
    intro instruction hMem
    exact (hPrintable instruction hMem).notMem_text hSep
  · simp only [List.forall_mem_map]
    intro instruction hMem
    exact (hPrintable instruction hMem).isTrimmed_text
  · intro hBlank
    rw [hSep.2.2] at hBlank
    contradiction

/- Printed tokens give their instructions and no rejection. -/
theorem instructions_of_printed
    {chain : Chain}
    (h : chain.tokens = printedTokens instructions) :
    chain.instructions = instructions ∧
      chain.rejected = [] := by
  constructor
  · calc chain.instructions
        = (chain.tokens.map Token.instruction?).filterMap id := by
          rw [List.filterMap_map]
          rfl
      _ = (instructions.map some).filterMap id := by
          rw [h]
          exact congrArg (List.filterMap id)
            (map_printedTokens (fun _ _ => rfl) instructions)
      _ = instructions := by
          rw [List.filterMap_map]
          exact List.filterMap_some
  · rw [rejected, h, List.filter_eq_nil_iff]
    intro token hMem
    rcases List.mem_map.mp hMem with ⟨entry, -, rfl⟩
    simp [Token.isRejected]

/-
  Reading undoes printing and does not see padding. Printed
  instructions, with blanks around each of them and around the
  whole text, are read as exactly these instructions, in order
  and with nothing rejected. And whatever the pieces of a text
  are, blanks around them and around the text change neither
  its tokens nor its inversion, nor whether it is a chain.
-/
theorem exists_parse_padded
    (hSep : Config.CanSeparate sep) :
    (∀ instructions paddedPieces input,
      instructions ≠ [] →
      (∀ instruction ∈ instructions,
        instruction.IsPrintable sep) →
      List.Forall₂ Text.PadsTo
        (instructions.map Instruction.text) paddedPieces →
      Text.PadsTo (Text.join sep paddedPieces) input →
      ∃ chain,
        parse sep input = .ok chain ∧
        chain.rejected = [] ∧
        chain.instructions = instructions ∧
        chain.tokens.map Token.raw =
          instructions.map Instruction.text ∧
        chain.tokens.map Token.position =
          List.range' 1 instructions.length) ∧
    ∀ pieces paddedPieces input,
      (∀ p ∈ pieces, sep ∉ p) →
      List.Forall₂ Text.PadsTo pieces paddedPieces →
      Text.PadsTo (Text.join sep paddedPieces) input →
      (parse sep input).map (fun c => (c.tokens, c.inverted)) =
        (parse sep (Text.join sep pieces)).map
          (fun c => (c.tokens, c.inverted)) := by
  have hPadding :
      ∀ pieces paddedPieces input,
        (∀ p ∈ pieces, sep ∉ p) →
        List.Forall₂ Text.PadsTo pieces paddedPieces →
        Text.PadsTo (Text.join sep paddedPieces) input →
        (parse sep input).map
            (fun c => (c.tokens, c.inverted)) =
          (parse sep (Text.join sep pieces)).map
            (fun c => (c.tokens, c.inverted)) := by
    intro pieces paddedPieces input hFree hPieces hText
    exact map_parse_of_pieces hSep.2.2
      (Text.map_trim_split_of_padded hSep.2.2 hFree hPieces
        hText)
  refine ⟨?_, hPadding⟩
  intro instructions paddedPieces input hSome hPrintable
    hPieces hText
  have hFree :
      ∀ p ∈ instructions.map Instruction.text, sep ∉ p := by
    simp only [List.forall_mem_map]
    intro instruction hMem
    exact (hPrintable instruction hMem).notMem_text hSep
  have hSame := hPadding _ _ _ hFree hPieces hText
  rcases exists_parse_printed hSep hSome hPrintable with
    ⟨printed, hPrinted, hTokens⟩
  rw [hPrinted] at hSame
  cases hParse : parse sep input with
  | error fault => simp [hParse, Except.map] at hSame
  | ok chain =>
      simp only [hParse, Except.map, Except.ok.injEq,
        Prod.mk.injEq] at hSame
      rw [hTokens] at hSame
      rcases instructions_of_printed hSame.1 with
        ⟨hInstructions, hRejected⟩
      refine ⟨chain, rfl, hRejected, hInstructions, ?_, ?_⟩
      · rw [hSame.1]
        exact map_printedTokens (fun _ _ => rfl) instructions
      · rw [chain.positions, hSame.1, printedTokens,
          List.length_map, List.length_zipIdx]

/-
  A tag that begins with a blank and is no codec's, and a
  protection, with blanks of several kinds around them.
-/
theorem exists_parse_padded_of_wide_blanks :
    ∃ chain,
      parse '-' (.ofString "\n E 6\u3000-\tP\r\n") =
        .ok chain ∧
      chain.rejected = [] ∧
      chain.instructions =
        [.encode (.ofString " 6"), .protect] := by
  let instructions : List Instruction :=
    [.encode [' ', '6'], .protect]
  have hEncode :
      (Instruction.encode [' ', '6']).IsPrintable '-' := by
    intro tag hTag
    cases hTag
    refine ⟨by decide, by decide, ?_⟩
    intro c hLast
    cases hLast
    rfl
  have hProtect : Instruction.protect.IsPrintable '-' := by
    intro tag hTag
    contradiction
  have hPrintable :
      ∀ instruction ∈ instructions,
        instruction.IsPrintable '-' :=
    List.forall_mem_cons.mpr
      ⟨hEncode, List.forall_mem_singleton.mpr hProtect⟩
  have hFirst :
      Text.PadsTo (.ofString "E 6") (.ofString " E 6\u3000") :=
    ⟨[' '], ['\u3000'], rfl, List.all_eq_true.mp rfl,
      List.all_eq_true.mp rfl⟩
  have hSecond : Text.PadsTo ['P'] (.ofString "\tP\r") :=
    ⟨['\t'], ['\r'], rfl, List.all_eq_true.mp rfl,
      List.all_eq_true.mp rfl⟩
  have hWhole :
      Text.PadsTo
        (Text.join '-'
          [.ofString " E 6\u3000", .ofString "\tP\r"])
        (.ofString "\n E 6\u3000-\tP\r\n") :=
    ⟨['\n'], ['\n'], rfl, List.all_eq_true.mp rfl,
      List.all_eq_true.mp rfl⟩
  rcases (exists_parse_padded Config.canSeparate_default).1
      instructions _ _ (List.cons_ne_nil _ _) hPrintable
      (.cons hFirst (.cons hSecond .nil)) hWhole with
    ⟨chain, hParse, hRejected, hInstructions, -⟩
  exact ⟨chain, hParse, hRejected, hInstructions⟩

end Chain

end CodecChain

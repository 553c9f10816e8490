import CodecChain.Proofs.Chain.Inversion
import CodecChain.Proofs.Deflate.Searching
import CodecChain.Proofs.Run.Shifted
import CodecChain.Proofs.Text.Padding

/-
  Chains written one after the other. Two texts of chains with
  a separator between them are the text of a chain that has
  the tokens of both, is undone from its end, and runs as the
  two chains run in turn. The separator must be no blank:
  blanks at the seam would else be cut off with it.

  Main statements:
    * `Chain.parse_append`
    * `Chain.inverted_append`
    * `Chain.exists_parse_append`
-/

namespace CodecChain

namespace Chain

variable {sep : Char} {s₁ s₂ input : Text}
variable {whole first second chain : Chain}

------------------------------------------------------------
-- Reading Chains
------------------------------------------------------------

/-
  The tokens of a text are read from its pieces, whether or
  not the blanks around it are removed before.
-/
theorem tokens_eq_of_parse
    (hSep : Text.isBlank sep = false)
    (h : parse sep input = .ok chain) :
    chain.tokens = tokensOf 1 (Text.split sep input) := by
  rw [← tokensOf_map_trim, ← Text.map_trim_split_trim hSep,
    tokensOf_map_trim, (parse_eq_ok_iff.mp h).2]
  rfl

/-
  With a separator between them, texts of chains are one: the
  tokens of the second follow those of the first.
-/
theorem parse_append
    (hSep : Text.isBlank sep = false)
    (hFirst : parse sep s₁ = .ok first)
    (hSecond : parse sep s₂ = .ok second) :
    ∃ whole,
      parse sep (s₁ ++ sep :: s₂) = .ok whole ∧
      whole.tokens = first.tokens ++
        second.tokens.map (Token.shifted first.tokens.length) := by
  have hMem : sep ∈ s₁ ++ sep :: s₂ := by simp
  have hWhole : parse sep (s₁ ++ sep :: s₂) = .ok _ :=
    parse_eq_ok_iff.mpr ⟨Text.trim_ne_nil_of_mem hMem hSep, rfl⟩
  have hTokens := tokens_eq_of_parse hSep hFirst
  refine ⟨_, hWhole, ?_⟩
  rw [tokens_eq_of_parse hSep hWhole, Text.split_append,
    tokensOf_append, hTokens, length_tokensOf,
    tokens_eq_of_parse hSep hSecond, tokensOf_eq_renumbered _
      (Text.split sep s₂), renumbered_add,
    ← tokensOf_eq_renumbered]

------------------------------------------------------------
-- Inversion
------------------------------------------------------------

/- Tokens are undone from the end, so the second come first. -/
theorem inverted_append
    (hTokens : whole.tokens = first.tokens ++
      second.tokens.map (Token.shifted first.tokens.length))
    (hFirst : first.tokens ≠ [])
    (hSecond : second.tokens ≠ [])
    (hSeparator : whole.separator = first.separator)
    (hSeparators : second.separator = first.separator) :
    whole.inverted =
      second.inverted ++ first.separator :: first.inverted := by
  have hShifted :
      (second.tokens.map
          (Token.shifted first.tokens.length)).map invertedToken =
        second.tokens.map invertedToken := by
    rw [List.map_map]
    apply List.map_congr_left
    intro token _
    exact token.invertedToken_placed _
  rw [inverted, hTokens, List.reverse_append, List.map_append,
    List.map_reverse, hShifted, ← List.map_reverse,
    Text.join_append (by simpa using hSecond)
      (by simpa using hFirst),
    hSeparator, inverted, hSeparators, inverted]

------------------------------------------------------------
-- Chains in Turn
------------------------------------------------------------

variable [Compressor]

/-
  Writing chains one after the other is running them in turn,
  with a fixed value and with a list of values alike.
-/
theorem exists_parse_append
    (hSep : Text.isBlank sep = false)
    (hFirst : parse sep s₁ = .ok first)
    (hSecond : parse sep s₂ = .ok second) :
    ∃ whole,
      parse sep (s₁ ++ sep :: s₂) = .ok whole ∧
      whole.tokens = first.tokens ++
        second.tokens.map (Token.shifted first.tokens.length) ∧
      whole.inverted =
        second.inverted ++ sep :: first.inverted ∧
      (∀ value content,
        whole.runIn (Provider.fixed value) content () =
          runInTurn (Provider.fixed value) first second
            content ()) ∧
      ∀ values content,
        whole.runIn Provider.scripted content values =
          runInTurn Provider.scripted first second
            content values := by
  rcases parse_append hSep hFirst hSecond with
    ⟨whole, hWhole, hTokens⟩
  have hSeparator := (isParsed_of_parse hWhole).1
  have hSeparators := (isParsed_of_parse hSecond).1
  rcases isParsed_of_parse hFirst with ⟨rfl, -⟩
  refine ⟨whole, hWhole, hTokens, ?_, ?_, ?_⟩
  · exact inverted_append hTokens
      (tokens_ne_nil_of_parse hFirst)
      (tokens_ne_nil_of_parse hSecond) hSeparator hSeparators
  · intro value content
    exact runIn_eq_runInTurn (Provider.isUniform_fixed value)
      hTokens content ()
  · intro values content
    exact runIn_eq_runInTurn Provider.isUniform_scripted
      hTokens content values

end Chain

end CodecChain

------------------------------------------------------------
-- A Concrete Seam
------------------------------------------------------------

namespace CodecChain

namespace Chain

/-
  Empty tokens at the seam, and one value for the protections
  on its two sides: the second fails, as the third step.
-/
theorem exists_parse_append_of_one_value :
    ∃ first second whole,
      parse '-' (.ofString " P- ") = .ok first ∧
      parse '-' (.ofString "P-E64") = .ok second ∧
      parse '-' (.ofString " P- -P-E64") = .ok whole ∧
      whole.tokens.length = 4 ∧
      second.runIn Provider.scripted (.ofString "value") [] =
        (.interrupted ⟨1, .provider (.noneLeft 1)⟩
          (.start (.ofString "value")), []) ∧
      whole.runIn Provider.scripted (.ofString "AA")
          [.ofString "value"] =
        (.interrupted ⟨3, .provider (.noneLeft 3)⟩
          ⟨.ofString "value",
            [⟨1, ['P'], .replaced, .ofString "value"⟩,
              ⟨2, [], .skipped, .ofString "value"⟩],
            [⟨2, [], .rejected .emptyToken⟩]⟩, []) := by
  let first : Chain :=
    { separator := '-'
      source := .ofString "P-"
      tokens := [Token.read 1 ['P'], Token.read 2 []] }
  let second : Chain :=
    { separator := '-'
      source := .ofString "P-E64"
      tokens := [Token.read 1 ['P'],
        Token.read 2 (.ofString "E64")] }
  have hFirst : parse '-' (.ofString " P- ") = .ok first := by
    rfl
  have hSecond :
      parse '-' (.ofString "P-E64") = .ok second := by
    rfl
  rcases exists_parse_append (by decide) hFirst hSecond with
    ⟨whole, hWhole, hTokens, -, -, hRun⟩
  refine ⟨first, second, whole, hFirst, hSecond, hWhole, ?_,
    by decide +kernel, ?_⟩
  · rw [hTokens]
    rfl
  · rw [hRun]
    decide +kernel

end Chain

end CodecChain

import CodecChain.Proofs.Chain.Spelling

/-
  Inversion as an operation on chains. The inverted text of a
  chain is read as the chain of undone tokens in reverse, for
  every separator but the two selectors that inversion
  exchanges. A blank separator does no harm: the pieces at
  the two ends of a trimmed text are never empty.

  Key definitions include:
    * `Chain.undone`

  Main statements:
    * `Chain.parse_join`
    * `Chain.parse_inverted`
    * `Chain.exists_parse_inverted`
-/

namespace CodecChain

namespace Chain

variable {sep : Char} {input : Text} {chain : Chain}

------------------------------------------------------------
-- Reading Chains
------------------------------------------------------------

/- The chain of a text, piece by piece. -/
theorem parse_eq_ok_iff :
    parse sep input = .ok chain ↔
      Text.trim input ≠ [] ∧
        chain =
          ofPieces sep (Text.trim input)
            (Text.split sep (Text.trim input)) := by
  cases hTrim : Text.trim input with
  | nil => simp [parse, hTrim]
  | cons c cs =>
      simp only [parse, hTrim, List.isEmpty_cons,
        Bool.false_eq_true, if_false, Except.ok.injEq, ne_eq,
        reduceCtorEq, not_false_eq_true, true_and]
      exact eq_comm

/-
  Joined pieces are read piece by piece, if trimming leaves
  them and their text alone.
-/
theorem parse_join
    {pieces : List Text}
    (hPieces : pieces ≠ [])
    (hText : pieces ≠ [[]])
    (hFree : ∀ p ∈ pieces, sep ∉ p)
    (hTrimmed : ∀ p ∈ pieces, Text.IsTrimmed p)
    (hEnds :
      Text.isBlank sep = true → Text.EndsNonempty pieces) :
    parse sep (Text.join sep pieces) =
      .ok (ofPieces sep (Text.join sep pieces) pieces) := by
  have hWhole :
      Text.trim (Text.join sep pieces) =
        Text.join sep pieces :=
    Text.trim_of_isTrimmed (Text.isTrimmed_join hTrimmed hEnds)
  rw [parse_eq_ok_iff, hWhole,
    Text.split_join hPieces hFree]
  refine ⟨?_, rfl⟩
  intro hNil
  exact hText
    (Text.eq_singleton_nil_of_join_eq_nil hPieces hNil)

------------------------------------------------------------
-- Pieces of a Chain
------------------------------------------------------------

/- Reading goes by the trimmed pieces. -/
theorem tokensOf_map_trim
    (first : Nat)
    (pieces : List Text) :
    tokensOf first (pieces.map Text.trim) =
      tokensOf first pieces := by
  rw [tokensOf_eq_renumbered, tokensOf_eq_renumbered,
    List.map_map]
  congr 2
  funext piece
  exact congrArg (Token.read 0)
    (Text.trim_of_isTrimmed (Text.isTrimmed_trim piece))

/- The trimmed pieces that the tokens are read from. -/
def pieces (chain : Chain) : List Text :=
  (Text.split chain.separator chain.source).map Text.trim

/- A chain that was read from some text. -/
def IsParsed (chain : Chain) : Prop :=
  ∃ input, parse chain.separator input = .ok chain

theorem isParsed_of_parse
    (h : parse sep input = .ok chain) :
    chain.separator = sep ∧ chain.IsParsed := by
  have hSep : chain.separator = sep := by
    rw [(parse_eq_ok_iff.mp h).2]
    rfl
  exact ⟨hSep, input, by rw [hSep]; exact h⟩

namespace IsParsed

theorem tokens_eq
    (h : chain.IsParsed) :
    chain.tokens = tokensOf 1 chain.pieces := by
  rcases h with ⟨input, hParse⟩
  rw [tokens_of_parse hParse, pieces, tokensOf_map_trim]

/- A token is read from one of the pieces. -/
theorem exists_piece_of_mem
    {token : Token}
    (h : chain.IsParsed)
    (hToken : token ∈ chain.tokens) :
    ∃ piece ∈ chain.pieces,
      token = Token.read token.position piece := by
  rw [h.tokens_eq] at hToken
  rcases List.mem_map.mp hToken with ⟨⟨piece, i⟩, hMem, rfl⟩
  have hPiece := List.fst_mem_of_mem_zipIdx hMem
  rcases List.mem_map.mp hPiece with ⟨whole, -, rfl⟩
  refine ⟨_, hPiece, ?_⟩
  dsimp only
  rw [Token.position_read,
    Text.trim_of_isTrimmed (Text.isTrimmed_trim whole)]

theorem source_ne_nil
    (h : chain.IsParsed) :
    chain.source ≠ [] := by
  rcases h with ⟨input, hParse⟩
  rcases parse_eq_ok_iff.mp hParse with ⟨hNe, hChain⟩
  rw [hChain]
  exact hNe

theorem isTrimmed_source
    (h : chain.IsParsed) :
    Text.IsTrimmed chain.source := by
  rcases h with ⟨input, hParse⟩
  rw [(parse_eq_ok_iff.mp hParse).2]
  exact Text.isTrimmed_trim input

theorem pieces_ne_nil
    (_h : chain.IsParsed) :
    chain.pieces ≠ [] := by
  simpa [pieces] using
    Text.split_ne_nil chain.separator chain.source

theorem isTrimmed_of_mem
    {p : Text}
    (hp : p ∈ chain.pieces) :
    Text.IsTrimmed p := by
  rcases List.mem_map.mp hp with ⟨piece, -, rfl⟩
  exact Text.isTrimmed_trim piece

theorem notMem_of_mem
    {p : Text}
    (hp : p ∈ chain.pieces) :
    chain.separator ∉ p := by
  rcases List.mem_map.mp hp with ⟨piece, hPiece, rfl⟩
  intro hSep
  exact Text.notMem_of_mem_split hPiece
    (Text.mem_of_mem_trim hSep)

theorem endsNonempty_pieces
    (h : chain.IsParsed)
    (hBlank : Text.isBlank chain.separator = true) :
    Text.EndsNonempty chain.pieces := by
  have hJoin := Text.join_split chain.separator chain.source
  apply Text.endsNonempty_map_trim hBlank
  · rw [hJoin]
    exact h.source_ne_nil
  · rw [hJoin]
    exact h.isTrimmed_source

/- A text of one empty piece is no chain. -/
theorem pieces_ne_singleton_nil
    (h : chain.IsParsed) :
    chain.pieces ≠ [[]] := by
  intro hPieces
  have hJoin := Text.join_split chain.separator chain.source
  cases hSplit : Text.split chain.separator chain.source with
  | nil => exact Text.split_ne_nil _ _ hSplit
  | cons p ps =>
      rw [pieces, hSplit, List.map_cons, List.cons.injEq,
        List.map_eq_nil_iff] at hPieces
      rcases hPieces with ⟨hTrim, rfl⟩
      rw [hSplit, Text.join_singleton] at hJoin
      rw [hJoin] at hTrim
      exact h.source_ne_nil
        (Text.eq_nil_of_trim_eq_nil h.isTrimmed_source.first
          hTrim)

end IsParsed

------------------------------------------------------------
-- Inverted Chains
------------------------------------------------------------

/- The chain of the tokens that undo a chain, from its end. -/
def undone (chain : Chain) : Chain where
  separator := chain.separator
  source := chain.inverted
  tokens := renumbered 1 (chain.tokens.reverse.map Token.undone)
  positions := positions_renumbered 1 _

/- The text that undoes a piece, read as a token. -/
def invertedPiece (piece : Text) : Text :=
  invertedToken (Token.read 0 piece)

/- The texts that undo the pieces of a chain, from its end. -/
theorem inverted_eq_join
    (h : chain.IsParsed) :
    chain.inverted =
      Text.join chain.separator
        (chain.pieces.map invertedPiece).reverse := by
  have hTexts :
      chain.tokens.map invertedToken =
        chain.pieces.map invertedPiece := by
    rw [h.tokens_eq, tokensOf_eq_renumbered,
      map_renumbered Token.invertedToken_placed, List.map_map]
    apply List.map_congr_left
    intro piece hPiece
    have hTrim := Text.trim_of_isTrimmed
      (IsParsed.isTrimmed_of_mem hPiece)
    rw [Function.comp, hTrim, invertedPiece]
  rw [inverted, List.map_reverse, hTexts]

/- What undoes pieces is read as the tokens that undo them. -/
theorem tokensOf_invertedPieces
    (h : chain.IsParsed) :
    tokensOf 1 (chain.pieces.map invertedPiece).reverse =
      chain.undone.tokens := by
  have hPlaced (position : Nat) (token : Token) :
      (token.placed position).undone.placed 0 =
        token.undone.placed 0 := by
    rw [Token.undone_placed, Token.placed_placed]
  have hTokens :
      chain.tokens.map (fun token => token.undone.placed 0) =
        chain.pieces.map
          fun piece => Token.read 0 (Text.trim (invertedPiece piece)) := by
    rw [h.tokens_eq, tokensOf_eq_renumbered,
      map_renumbered hPlaced, List.map_map]
    apply List.map_congr_left
    intro piece hPiece
    have hTrimmed := IsParsed.isTrimmed_of_mem hPiece
    rw [Function.comp, Text.trim_of_isTrimmed hTrimmed,
      ← Token.undone_placed, Token.placed_read, invertedPiece,
      Text.trim_of_isTrimmed
        (Token.isTrimmed_invertedToken 0 hTrimmed),
      Token.read_invertedToken]
  calc tokensOf 1 (chain.pieces.map invertedPiece).reverse
      = renumbered 1
          (chain.tokens.reverse.map
            fun token => token.undone.placed 0) := by
        rw [tokensOf_eq_renumbered, List.map_reverse,
          List.map_map, List.map_reverse, hTokens]
        rfl
    _ = renumbered 1
          ((chain.tokens.reverse.map Token.undone).map
            (Token.placed 0)) := by
        rw [List.map_map]
        rfl
    _ = chain.undone.tokens :=
        renumbered_map_placed 1 0 _

/-
  The inverted text is read as the chain of undone tokens,
  and trimming removes nothing from it.
-/
theorem parse_inverted
    (h : chain.IsParsed)
    (hEncode : chain.separator ≠ Operation.encode.selector)
    (hDecode : chain.separator ≠ Operation.decode.selector) :
    parse chain.separator chain.inverted = .ok chain.undone := by
  have hNil (p : Text) (hp : invertedPiece p = []) : p = [] :=
    Token.eq_nil_of_invertedToken_eq_nil hp
  rw [inverted_eq_join h, parse_join]
  · congr 1
    exact Chain.ext rfl (inverted_eq_join h).symm
      (tokensOf_invertedPieces h)
  · simpa using h.pieces_ne_nil
  · intro hSingle
    apply h.pieces_ne_singleton_nil
    rw [List.reverse_eq_iff, List.reverse_singleton,
      List.map_eq_singleton_iff] at hSingle
    rcases hSingle with ⟨p, hPieces, hp⟩
    rw [hPieces, hNil p hp]
  · intro p hp
    rw [List.mem_reverse, List.mem_map] at hp
    rcases hp with ⟨q, hq, rfl⟩
    intro hSep
    exact IsParsed.notMem_of_mem hq
      (Token.mem_of_mem_invertedToken hSep hEncode hDecode)
  · intro p hp
    rw [List.mem_reverse, List.mem_map] at hp
    rcases hp with ⟨q, hq, rfl⟩
    exact Token.isTrimmed_invertedToken 0
      (IsParsed.isTrimmed_of_mem hq)
  · intro hBlank
    exact ((h.endsNonempty_pieces hBlank).map
      (fun p _ => hNil p) (fun p _ => hNil p)).reverse

------------------------------------------------------------
-- Undone Tokens in Place
------------------------------------------------------------

theorem tokens_undone (chain : Chain) :
    chain.undone.tokens =
      renumbered 1 (chain.tokens.reverse.map Token.undone) :=
  rfl

theorem length_tokens_undone (chain : Chain) :
    chain.undone.tokens.length = chain.tokens.length := by
  rw [tokens_undone, length_renumbered, List.length_map,
    List.length_reverse]

/- A token is undone at the position counted from the end. -/
theorem mem_tokens_undone
    {token : Token}
    {i : Nat}
    (h : token ∈ chain.tokens)
    (hSum : i + token.position = chain.tokens.length + 1) :
    token.undone.placed i ∈ chain.undone.tokens := by
  rcases List.mem_iff_getElem?.mp h with ⟨k, hToken⟩
  have hk := (List.getElem?_eq_some_iff.mp hToken).1
  rw [position_of_getElem? hToken] at hSum
  have hReverse :
      chain.tokens.reverse[i - 1]? = some token := by
    have hIndex : chain.tokens.length - 1 - (i - 1) = k := by
      omega
    rw [List.getElem?_reverse (by omega), hIndex, hToken]
  have hPlace : 1 + (i - 1) = i := by
    omega
  apply List.mem_of_getElem?
  rw [tokens_undone, getElem?_renumbered, List.getElem?_map,
    hReverse, hPlace]
  rfl

/- Inverting twice spells the tokens canonically, in order. -/
theorem inverted_undone (chain : Chain) :
    chain.undone.inverted =
      Text.join chain.separator
        (chain.tokens.map Token.canonical) := by
  apply congrArg (Text.join chain.separator)
  rw [tokens_undone, List.map_reverse,
    map_renumbered Token.invertedToken_placed,
    ← List.map_reverse, ← List.map_reverse,
    List.reverse_reverse, List.map_map]
  apply List.map_congr_left
  intro token _
  exact Token.invertedToken_undone token

theorem inverted_undone_undone (chain : Chain) :
    chain.undone.undone.inverted = chain.inverted := by
  rw [inverted_undone]
  apply congrArg (Text.join chain.separator)
  rw [tokens_undone, map_renumbered Token.canonical_placed,
    List.map_map]
  apply List.map_congr_left
  intro token _
  exact Token.canonical_undone token

theorem isParsed_undone
    (h : chain.IsParsed)
    (hEncode : chain.separator ≠ Operation.encode.selector)
    (hDecode : chain.separator ≠ Operation.decode.selector) :
    chain.undone.IsParsed :=
  ⟨chain.inverted, parse_inverted h hEncode hDecode⟩

------------------------------------------------------------
-- Reading Inverted Chains
------------------------------------------------------------

/-
  Inversion survives reading. An inverted chain is read with
  its separator, whole and in as many tokens: instructions
  with the inverse operation and the same tag, and rejected
  tokens as they were, at the positions counted from the end.
  A second inversion spells the tokens of the first chain
  canonically, and a third one repeats the first.
-/
theorem exists_parse_inverted
    (hEncode : sep ≠ 'E')
    (hDecode : sep ≠ 'D')
    (hParse : parse sep input = .ok chain) :
    ∃ inverse,
      parse sep chain.inverted = .ok inverse ∧
      inverse.source = chain.inverted ∧
      inverse.tokens.length = chain.tokens.length ∧
      inverse.tokens.map Token.position =
        List.range' 1 chain.tokens.length ∧
      (∀ i j raw instruction,
        i + j = chain.tokens.length + 1 →
        .accepted j raw instruction ∈ chain.tokens →
        ∃ undoing : Instruction,
          undoing.operation = instruction.operation.inverse ∧
          undoing.tag? = instruction.tag? ∧
          .accepted i undoing.text undoing ∈ inverse.tokens) ∧
      (∀ i j raw cause,
        i + j = chain.tokens.length + 1 →
        .rejected j raw cause ∈ chain.tokens →
        .rejected i raw cause ∈ inverse.tokens) ∧
      inverse.inverted =
        Text.join sep (chain.tokens.map Token.canonical) ∧
      ∃ again,
        parse sep inverse.inverted = .ok again ∧
        again.inverted = chain.inverted := by
  rcases isParsed_of_parse hParse with ⟨rfl, hChain⟩
  have hUndone := parse_inverted hChain hEncode hDecode
  have hAgain := parse_inverted
    (isParsed_undone hChain hEncode hDecode) hEncode hDecode
  have hLength := length_tokens_undone chain
  refine ⟨chain.undone, hUndone, rfl, hLength, ?_, ?_, ?_,
    inverted_undone chain, chain.undone.undone, hAgain,
    inverted_undone_undone chain⟩
  · rw [chain.undone.positions, hLength]
  · intro i j raw instruction hSum hMem
    refine ⟨instruction.inverse, ?_, ?_,
      mem_tokens_undone hMem hSum⟩
    · cases instruction <;> rfl
    · cases instruction <;> rfl
  · intro i j raw cause hSum hMem
    exact mem_tokens_undone hMem hSum

/- Blanks, a blank separator, junk and rejected tokens. -/
theorem exists_parse_inverted_of_blanks :
    parse ' ' (.ofString " EZ  Pjunk\tX1 D64\n") =
        .ok ⟨' ', .ofString "EZ  Pjunk\tX1 D64",
          [.accepted 1 ['E', 'Z'] (.encode ['Z']),
            .rejected 2 [] .emptyToken,
            .accepted 3 (.ofString "Pjunk\tX1") .protect,
            .accepted 4 ['D', '6', '4'] (.decode ['6', '4'])], rfl⟩ ∧
      ∃ inverse,
        parse ' ' (.ofString "E64 P  DZ") = .ok inverse ∧
        inverse.inverted = .ofString "EZ  P D64" := by
  have hParse :
      parse ' ' (.ofString " EZ  Pjunk\tX1 D64\n") =
        .ok ⟨' ', .ofString "EZ  Pjunk\tX1 D64",
          [.accepted 1 ['E', 'Z'] (.encode ['Z']),
            .rejected 2 [] .emptyToken,
            .accepted 3 (.ofString "Pjunk\tX1") .protect,
            .accepted 4 ['D', '6', '4'] (.decode ['6', '4'])], rfl⟩ := by
    rfl
  rcases exists_parse_inverted (by decide) (by decide) hParse
    with ⟨inverse, hInverse, -, -, -, -, -, hTwice, -⟩
  exact ⟨hParse, inverse, hInverse, hTwice⟩

end Chain

end CodecChain

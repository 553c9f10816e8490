import CodecChain.Chain.Basic

/-
  Positions of tokens. A token can be put at another position,
  and tokens can be numbered anew; what is read from pieces of
  a text, and what a chain holds, is numbered as it should be.

  Key definitions include:
    * `Token.placed`
    * `Token.shifted`
    * `Chain.renumbered`
    * `Chain.upTo`

  Main statements:
    * `Chain.exists_append_of_mem`
    * `Chain.pairwise_position`
    * `Chain.positions_renumbered`
    * `Chain.renumbered_eq_self`
    * `Chain.map_renumbered`
    * `Chain.tokensOf_eq_renumbered`
-/

------------------------------------------------------------
-- Tokens at Other Positions
------------------------------------------------------------

namespace CodecChain

namespace Token

/- The same token at another position. -/
def placed (position : Nat) : Token → Token
  | accepted _ raw instruction =>
      accepted position raw instruction
  | rejected _ raw cause => rejected position raw cause

/- The same token some positions later. -/
def shifted
    (count : Nat)
    (token : Token) : Token :=
  token.placed (token.position + count)

@[simp]
theorem position_placed
    (position : Nat)
    (token : Token) :
    (token.placed position).position = position := by
  cases token <;> rfl

@[simp]
theorem raw_placed
    (position : Nat)
    (token : Token) :
    (token.placed position).raw = token.raw := by
  cases token <;> rfl

@[simp]
theorem placed_placed
    (first position : Nat)
    (token : Token) :
    (token.placed first).placed position = token.placed position := by
  cases token <;> rfl

@[simp]
theorem placed_position (token : Token) :
    token.placed token.position = token := by
  cases token <;> rfl

@[simp]
theorem position_shifted
    (count : Nat)
    (token : Token) :
    (token.shifted count).position = token.position + count :=
  position_placed _ _

theorem shifted_placed
    (position count : Nat)
    (token : Token) :
    (token.placed position).shifted count =
      token.placed (position + count) := by
  rw [shifted, position_placed, placed_placed]

@[simp]
theorem placed_read
    (first position : Nat)
    (t : Text) :
    (read first t).placed position = read position t := by
  unfold read
  repeat' split
  all_goals rfl

end Token

namespace Chain

------------------------------------------------------------
-- Positions in a Chain
------------------------------------------------------------

/- The first tokens of a chain keep their positions. -/
theorem positions_take
    (chain : Chain)
    (count : Nat) :
    (chain.tokens.take count).map Token.position =
      List.range' 1 (chain.tokens.take count).length := by
  rw [List.map_take, chain.positions]
  apply List.ext_getElem
  · simp
  · simp

/- The chain of the first tokens of a chain. -/
def upTo
    (chain : Chain)
    (count : Nat) : Chain :=
  { chain with
    tokens := chain.tokens.take count
    positions := chain.positions_take count }

/- Positions count from one. -/
theorem position_of_getElem?
    {chain : Chain}
    {i : Nat}
    {token : Token}
    (h : chain.tokens[i]? = some token) :
    token.position = i + 1 := by
  rcases List.getElem?_eq_some_iff.mp h with ⟨hi, -⟩
  have hSame := congrArg (·[i]?) chain.positions
  simp only [List.getElem?_map, h, Option.map_some,
    List.getElem?_range' hi, Option.some.injEq] at hSame
  omega

theorem position_of_append_cons
    {chain : Chain}
    {front back : List Token}
    {token : Token}
    (h : chain.tokens = front ++ token :: back) :
    token.position = front.length + 1 := by
  apply position_of_getElem?
  rw [h, List.getElem?_append_right (Nat.le_refl _),
    Nat.sub_self]
  rfl

/- A token splits a chain where its position says. -/
theorem exists_append_of_mem
    {chain : Chain}
    {token : Token}
    (h : token ∈ chain.tokens) :
    ∃ front back,
      chain.tokens = front ++ token :: back ∧
        token.position = front.length + 1 := by
  rcases List.append_of_mem h with ⟨front, back, hTokens⟩
  exact ⟨front, back, hTokens, position_of_append_cons hTokens⟩

/- Positions grow from token to token. -/
theorem pairwise_position (chain : Chain) :
    chain.tokens.Pairwise fun a b => a.position < b.position := by
  rw [← List.pairwise_map, chain.positions]
  exact List.pairwise_lt_range'

/- The first tokens of a chain have its first positions. -/
theorem position_le_of_mem_front
    {chain : Chain}
    {front back : List Token}
    {token : Token}
    (hTokens : chain.tokens = front ++ back)
    (h : token ∈ front) :
    token.position ≤ front.length := by
  rcases List.mem_iff_getElem?.mp h with ⟨i, hToken⟩
  have hi := (List.getElem?_eq_some_iff.mp hToken).1
  have hWhole : chain.tokens[i]? = some token := by
    rw [hTokens, List.getElem?_append_left hi, hToken]
  rw [position_of_getElem? hWhole]
  exact hi

/- The tokens after the first ones have later positions. -/
theorem lt_position_of_mem_back
    {chain : Chain}
    {front back : List Token}
    {token : Token}
    (hTokens : chain.tokens = front ++ back)
    (h : token ∈ back) :
    front.length < token.position := by
  rcases List.mem_iff_getElem?.mp h with ⟨i, hToken⟩
  have hWhole :
      chain.tokens[front.length + i]? = some token := by
    rw [hTokens, List.getElem?_append_right (by omega),
      Nat.add_sub_cancel_left, hToken]
  rw [position_of_getElem? hWhole]
  omega

------------------------------------------------------------
-- Renumbered Tokens
------------------------------------------------------------

/- Tokens with positions that count from the given one. -/
def renumbered : Nat → List Token → List Token
  | _, [] => []
  | first, token :: tokens =>
      token.placed first :: renumbered (first + 1) tokens

theorem length_renumbered
    (first : Nat)
    (tokens : List Token) :
    (renumbered first tokens).length = tokens.length := by
  induction tokens generalizing first with
  | nil => rfl
  | cons token tokens ih =>
      rw [renumbered, List.length_cons, ih, List.length_cons]

theorem positions_renumbered
    (first : Nat)
    (tokens : List Token) :
    (renumbered first tokens).map Token.position =
      List.range' first (renumbered first tokens).length := by
  induction tokens generalizing first with
  | nil => rfl
  | cons token tokens ih =>
      rw [renumbered, List.map_cons, Token.position_placed, ih]
      rfl

theorem renumbered_append
    (first : Nat)
    (front back : List Token) :
    renumbered first (front ++ back) =
      renumbered first front ++
        renumbered (first + front.length) back := by
  induction front generalizing first with
  | nil => rfl
  | cons token front ih =>
      have hNext :
          first + 1 + front.length =
            first + (token :: front).length := by
        rw [List.length_cons]
        omega
      rw [List.cons_append, renumbered, renumbered, ih, hNext]
      rfl

/- Tokens that are numbered so already stay as they are. -/
theorem renumbered_eq_self
    {first : Nat}
    {tokens : List Token}
    (h : tokens.map Token.position =
      List.range' first tokens.length) :
    renumbered first tokens = tokens := by
  induction tokens generalizing first with
  | nil => rfl
  | cons token tokens ih =>
      rw [List.map_cons, List.length_cons, List.range'_succ,
        List.cons.injEq] at h
      rw [renumbered, ih h.2, ← h.1, Token.placed_position]

/- The first tokens of a chain are numbered from one. -/
theorem renumbered_front
    {chain : Chain}
    {front back : List Token}
    (hTokens : chain.tokens = front ++ back) :
    renumbered 1 front = front := by
  have hFront := chain.positions_take front.length
  rw [hTokens, List.take_left] at hFront
  exact renumbered_eq_self hFront

theorem getElem?_renumbered
    (first i : Nat)
    (tokens : List Token) :
    (renumbered first tokens)[i]? =
      tokens[i]?.map (Token.placed (first + i)) := by
  induction tokens generalizing first i with
  | nil => rfl
  | cons token tokens ih =>
      cases i with
      | zero => rfl
      | succ i =>
          have hNext : first + 1 + i = first + (i + 1) := by
            omega
          rw [renumbered, List.getElem?_cons_succ, ih, hNext,
            List.getElem?_cons_succ]

/- What does not depend on positions stays as it is. -/
theorem map_renumbered
    {α : Type}
    {f : Token → α}
    (h : ∀ position token, f (Token.placed position token) = f token)
    (first : Nat)
    (tokens : List Token) :
    (renumbered first tokens).map f = tokens.map f := by
  induction tokens generalizing first with
  | nil => rfl
  | cons token tokens ih =>
      rw [renumbered, List.map_cons, List.map_cons, ih, h]

/- Numbering tokens anew does not see their old positions. -/
theorem renumbered_map_placed
    (first position : Nat)
    (tokens : List Token) :
    renumbered first (tokens.map (Token.placed position)) =
      renumbered first tokens := by
  induction tokens generalizing first with
  | nil => rfl
  | cons token tokens ih =>
      rw [List.map_cons, renumbered, ih, Token.placed_placed, renumbered]

/- Counting from further on is counting on. -/
theorem renumbered_add
    (first count : Nat)
    (tokens : List Token) :
    renumbered (first + count) tokens =
      (renumbered first tokens).map (Token.shifted count) := by
  induction tokens generalizing first with
  | nil => rfl
  | cons token tokens ih =>
      have hNext : first + count + 1 = first + 1 + count := by
        omega
      rw [renumbered, renumbered, List.map_cons, hNext, ih,
        Token.shifted_placed]

------------------------------------------------------------
-- Tokens of Pieces
------------------------------------------------------------

/- Tokens are read piece by piece and numbered. -/
theorem tokensOf_eq_renumbered
    (first : Nat)
    (pieces : List Text) :
    tokensOf first pieces =
      renumbered first
        (pieces.map fun piece => Token.read 0 (Text.trim piece)) := by
  induction pieces generalizing first with
  | nil => rfl
  | cons piece pieces ih =>
      rw [List.map_cons, renumbered, Token.placed_read, ← ih]
      rfl

theorem tokensOf_append
    (first : Nat)
    (front back : List Text) :
    tokensOf first (front ++ back) =
      tokensOf first front ++
        tokensOf (first + front.length) back := by
  rw [tokensOf, List.zipIdx_append, List.map_append]
  rfl

end Chain

end CodecChain

import CodecChain.Proofs.Chain.Inversion
import CodecChain.Proofs.Run.Outline
import CodecChain.Proofs.Run.Shifted

/-
  Tokens that no run acts on. Rejected tokens and tags without
  a codec can be taken out of a chain: what is left runs as
  the chain does, without the skipped steps, with the others
  counted anew, and with nothing to note.

  Key definitions include:
    * `Token.isIdle`
    * `Execution.activeFrom`
    * `Chain.active`
    * `Chain.ErasesTo`

  Main statements:
    * `Chain.parse_active`
    * `Chain.runTokensIn_active_of_completed`
    * `Chain.erases_idle_tokens`
-/

------------------------------------------------------------
-- Idle Tokens
------------------------------------------------------------

namespace CodecChain

namespace Token

variable {token : Token}

/-
  A token that leaves every content alone: a rejected one, or
  an instruction with a tag that is no codec's.
-/
def isIdle : Token → Bool
  | rejected _ _ _ => true
  | accepted _ _ instruction =>
      instruction.tag?.any fun tag => (Codec.ofTag? tag).isNone

@[simp]
theorem isIdle_placed
    (position : Nat)
    (token : Token) :
    (token.placed position).isIdle = token.isIdle := by
  cases token <;> rfl

/- The tokens that are not idle, in order. -/
def active (tokens : List Token) : List Token :=
  tokens.filter fun token => !token.isIdle

theorem active_append (front back : List Token) :
    active (front ++ back) = active front ++ active back := by
  simp [active]

theorem active_cons_of_isIdle
    (tokens : List Token)
    (h : token.isIdle = true) :
    active (token :: tokens) = active tokens := by
  simp [active, h]

theorem active_cons_of_not_isIdle
    (tokens : List Token)
    (h : token.isIdle = false) :
    active (token :: tokens) = token :: active tokens := by
  simp [active, h]

/- Idle tokens are those that ask for nothing. -/
theorem isIdle_iff :
    token.isIdle = true ↔ ∃ cause, token.plan = .skip cause := by
  rcases exists_asks token with ⟨plan, hAsks⟩
  rw [hAsks.plan_eq]
  cases hAsks with
  | encode hTag => simp [isIdle, Instruction.tag?, hTag]
  | decode hTag => simp [isIdle, Instruction.tag?, hTag]
  | protect => simp [isIdle, Instruction.tag?]
  | unknown hInstruction hTag => simp [isIdle, hInstruction, hTag]
  | rejected => simp [isIdle]

theorem action_eq_skipped_iff_isIdle :
    token.plan.action = .skipped ↔ token.isIdle = true := by
  rw [isIdle_iff, Plan.action_eq_skipped_iff]

theorem diagnostic?_of_not_isIdle
    (h : token.isIdle = false) :
    token.diagnostic? = none := by
  rw [Option.eq_none_iff_forall_ne_some]
  intro d hNote
  have hPlan := (diagnostic?_eq_some_iff.mp hNote).1
  have hIdle := isIdle_iff.mpr ⟨d.cause, hPlan⟩
  rw [h] at hIdle
  contradiction

end Token

end CodecChain

------------------------------------------------------------
-- Executions Without Skipped Steps
------------------------------------------------------------

namespace CodecChain

namespace Execution

/-
  What is left behind apart from skipped steps: the records of
  the other steps, which are counted anew from a step.
-/
def activeFrom
    (step : Nat)
    (e : Execution) : Execution where
  content := e.content
  trace :=
    ((e.trace.filter (·.action ≠ .skipped)).zipIdx step).map
      fun (record, i) => { record with step := i }
  diagnostics := []

/- The number of steps that were skipped. -/
def skips (e : Execution) : Nat :=
  e.trace.countP (·.action = .skipped)

variable {record : Record} {e : Execution}

theorem activeFrom_afterStep_of_skipped
    (step : Nat)
    (diagnostic : Option Diagnostic)
    (h : record.action = .skipped) :
    (e.afterStep record diagnostic).activeFrom step =
      e.activeFrom step := by
  simp [activeFrom, afterStep, h]

theorem activeFrom_afterStep_of_not_skipped
    (step : Nat)
    (diagnostic : Option Diagnostic)
    (h : record.action ≠ .skipped) :
    (e.afterStep record diagnostic).activeFrom step =
      (e.activeFrom (step + 1)).afterStep
        { record with step := step } none := by
  simp [activeFrom, afterStep, h]

/- Every step is skipped or left. -/
theorem length_activeFrom_add_skips
    (step : Nat)
    (e : Execution) :
    (e.activeFrom step).trace.length + e.skips =
      e.trace.length := by
  have hCount :
      e.trace.length =
        e.trace.countP (·.action = .skipped) +
          e.trace.countP (·.action ≠ .skipped) := by
    simpa using List.length_eq_countP_add_countP
      (fun record : Record => record.action = .skipped)
  rw [activeFrom, skips, hCount, List.length_map,
    List.length_zipIdx, ← List.countP_eq_length_filter]
  omega

end Execution

end CodecChain

------------------------------------------------------------
-- Runs Without Idle Tokens
------------------------------------------------------------

namespace CodecChain

namespace Chain

/-
  The chain of the tokens of a chain that are not idle, which
  are counted anew, with the text that spells them.
-/
def active (chain : Chain) : Chain where
  separator := chain.separator
  source :=
    Text.join chain.separator
      ((Token.active chain.tokens).map Token.raw)
  tokens := renumbered 1 (Token.active chain.tokens)
  positions := positions_renumbered 1 _

theorem tokens_active (chain : Chain) :
    chain.active.tokens =
      renumbered 1 (Token.active chain.tokens) :=
  rfl

/-
  How a chain and a chain without its idle tokens end. They
  complete with the same content, or the same token is
  interrupted in both for the same reason: in the second one
  at an earlier step, by the number of skipped steps.
-/
inductive ErasesTo (chain reduced : Chain) :
    Outcome → Outcome → Prop where
  | completed
      (e : Execution) :
      ErasesTo chain reduced (.completed e)
        (.completed (e.activeFrom 1))
  | undecodable
      {i j : Nat}
      {token : Token}
      {refusal : Codec.DecodeError}
      {reached : Execution}
      (hToken : token.placed i ∈ chain.tokens)
      (hSame : token.placed j ∈ reduced.tokens)
      (hCount : i = j + reached.skips) :
      ErasesTo chain reduced
        (.interrupted ⟨i, .decode refusal⟩ reached)
        (.interrupted ⟨j, .decode refusal⟩
          (reached.activeFrom 1))
  | unprovided
      {i j : Nat}
      {token : Token}
      {refusal : ProviderError}
      {reached : Execution}
      (hToken : token.placed i ∈ chain.tokens)
      (hSame : token.placed j ∈ reduced.tokens)
      (hCount : i = j + reached.skips) :
      ErasesTo chain reduced
        (.interrupted
          ⟨i, .provider (refusal.shifted reached.skips)⟩ reached)
        (.interrupted ⟨j, .provider refusal⟩
          (reached.activeFrom 1))

variable {chain : Chain} {sep : Char} {input : Text}

/- What spells a token is a piece, and is read as the token. -/
theorem IsParsed.read_raw
    {token : Token}
    (hChain : chain.IsParsed)
    (hToken : token ∈ chain.tokens) :
    token.raw ∈ chain.pieces ∧
      Token.read 0 token.raw = token.placed 0 := by
  rcases hChain.exists_piece_of_mem hToken with
    ⟨piece, hPiece, hSame⟩
  rw [hSame, Token.raw_read, Token.placed_read]
  exact ⟨hPiece, rfl⟩

theorem IsParsed.raw_ne_nil
    {token : Token}
    (hChain : chain.IsParsed)
    (hToken : token ∈ chain.tokens)
    (hKept : token.isIdle = false) :
    token.raw ≠ [] := by
  intro hNil
  have hIdle := congrArg Token.isIdle (hChain.read_raw hToken).2
  rw [Token.isIdle_placed, hNil, hKept] at hIdle
  cases hIdle

/- The texts of the tokens that are left are read as those. -/
theorem IsParsed.tokensOf_active (hChain : chain.IsParsed) :
    tokensOf 1 ((Token.active chain.tokens).map Token.raw) =
      chain.active.tokens := by
  have hPlaced :
      ((Token.active chain.tokens).map Token.raw).map
          (fun p => Token.read 0 (Text.trim p)) =
        (Token.active chain.tokens).map (Token.placed 0) := by
    rw [List.map_map]
    apply List.map_congr_left
    intro token hToken
    have hWhole :=
      hChain.read_raw (List.mem_filter.mp hToken).1
    rw [Function.comp, Text.trim_of_isTrimmed
      (IsParsed.isTrimmed_of_mem hWhole.1), hWhole.2]
  rw [tokensOf_eq_renumbered, hPlaced, renumbered_map_placed]
  rfl

/- The tokens that are not idle are a chain, if there are any. -/
theorem parse_active
    (hChain : chain.IsParsed)
    (hActive : ∃ token ∈ chain.tokens, token.isIdle = false) :
    parse chain.separator chain.active.source =
      .ok chain.active := by
  let kept : List Text :=
    (Token.active chain.tokens).map Token.raw
  have hPiece (p : Text) (hp : p ∈ kept) : p ∈ chain.pieces := by
    rcases List.mem_map.mp hp with ⟨token, hToken, rfl⟩
    exact (hChain.read_raw (List.mem_filter.mp hToken).1).1
  have hNonempty : [] ∉ kept := by
    intro hMem
    rcases List.mem_map.mp hMem with ⟨token, hToken, hNil⟩
    rcases List.mem_filter.mp hToken with ⟨hWhole, hKept⟩
    exact hChain.raw_ne_nil hWhole (by simpa using hKept) hNil
  have hSome : kept ≠ [] := by
    rcases hActive with ⟨token, hMem, hIdle⟩
    apply List.ne_nil_of_mem
    exact List.mem_map_of_mem
      (List.mem_filter.mpr ⟨hMem, by rw [hIdle]; rfl⟩)
  have hParse :
      parse chain.separator
          (Text.join chain.separator kept) = .ok _ :=
    parse_join hSome
      (fun hNil => hNonempty (by simp [hNil]))
      (fun p hp => IsParsed.notMem_of_mem (hPiece p hp))
      (fun p hp => IsParsed.isTrimmed_of_mem (hPiece p hp))
      (fun _ =>
        { first := fun hHead =>
            hNonempty (List.mem_of_mem_head? hHead)
          last := fun hLast =>
            hNonempty (List.mem_of_getLast? hLast) })
  rw [show chain.active.source =
    Text.join chain.separator kept from rfl, hParse]
  exact congrArg Except.ok
    (Chain.ext rfl rfl hChain.tokensOf_active)

/- A token that is left stands among those that are. -/
theorem tokens_active_of_append
    {front back : List Token}
    {token : Token}
    (hTokens : chain.tokens = front ++ token :: back)
    (hIdle : token.isIdle = false) :
    chain.active.tokens =
      renumbered 1 (Token.active front) ++
        token.placed (1 + (Token.active front).length) ::
          renumbered (1 + (Token.active front).length + 1)
            (Token.active back) := by
  rw [tokens_active, hTokens, Token.active_append,
    Token.active_cons_of_not_isIdle _ hIdle, renumbered_append]
  rfl

------------------------------------------------------------
-- Runs of the Tokens That Are Left
------------------------------------------------------------

variable [Compressor]
variable {σ : Type} {provider : Provider (StateM σ)}
variable {token : Token} {tokens : List Token}
variable {content : Text} {s s' : σ}

/- A token that fails is not idle. -/
theorem isIdle_eq_false_of_performIn
    {fault : StepFault}
    (h : token.performIn provider content s =
      (.error fault, s')) :
    token.isIdle = false := by
  cases hIdle : token.isIdle with
  | false => rfl
  | true =>
      rcases Token.isIdle_iff.mp hIdle with ⟨cause, hPlan⟩
      simp [Token.performIn, hPlan, Plan.performIn_skip] at h

/-
  The other tokens complete whenever all of them do, counted
  from an earlier position as well.
-/
theorem runTokensIn_active_of_completed
    {e : Execution}
    (hProvider : provider.IsUniform)
    (first count : Nat)
    (h : runTokensIn provider
      (renumbered (first + count) tokens) content s =
        (.completed e, s')) :
    runTokensIn provider
        (renumbered first (Token.active tokens)) content s =
      (.completed (e.activeFrom first), s') := by
  induction tokens generalizing first count content s e with
  | nil =>
      rw [renumbered, runTokensIn_nil, Prod.mk.injEq,
        Outcome.completed.injEq] at h
      rw [← h.1, ← h.2]
      rfl
  | cons token tokens ih =>
      rw [renumbered] at h
      rcases runTokensIn_cons_eq_completed_iff.mp h with
        ⟨next, s₁, later, hFirst, hLater, rfl⟩
      have hPlaced := token.isIdle_placed (first + count)
      cases hIdle : token.isIdle with
      | true =>
          rw [hIdle] at hPlaced
          have hSkipped :
              ((token.placed (first + count)).record
                next).action = .skipped :=
            Token.action_eq_skipped_iff_isIdle.mpr hPlaced
          rcases Token.isIdle_iff.mp hPlaced with ⟨cause, hPlan⟩
          rw [Token.performIn, hPlan, Plan.performIn_skip,
            Prod.mk.injEq, Except.ok.injEq] at hFirst
          rcases hFirst with ⟨rfl, rfl⟩
          rw [Token.active_cons_of_isIdle _ hIdle,
            Execution.activeFrom_afterStep_of_skipped _ _
              hSkipped]
          exact ih first (count + 1) hLater
      | false =>
          rw [hIdle] at hPlaced
          have hKept :
              ((token.placed (first + count)).record
                next).action ≠ .skipped := by
            intro hSkipped
            have hTrue :=
              Token.action_eq_skipped_iff_isIdle.mp hSkipped
            rw [hPlaced] at hTrue
            cases hTrue
          have hNext :
              first + count + 1 = first + 1 + count := by
            omega
          rw [hNext] at hLater
          rw [← Token.shifted_placed] at hFirst
          rw [Token.active_cons_of_not_isIdle _ hIdle,
            renumbered, runTokensIn_cons_eq_completed_iff]
          refine ⟨next, s₁, later.activeFrom (first + 1),
            Token.performIn_eq_ok_of_shifted hProvider hFirst,
            ih (first + 1) count hLater, ?_⟩
          rw [Execution.activeFrom_afterStep_of_not_skipped _ _
              hKept,
            Token.diagnostic?_of_not_isIdle
              ((token.isIdle_placed first).trans hIdle),
            Token.record_placed, Token.record_placed]

/-
  With a uniform provider, the tokens that are not idle run as
  the whole chain does.
-/
theorem erasesTo_active
    (hProvider : provider.IsUniform)
    (chain : Chain)
    (content : Text)
    (s : σ) :
    ErasesTo chain chain.active
        (chain.runIn provider content s).1
        (chain.active.runIn provider content s).1 ∧
      (chain.active.runIn provider content s).2 =
        (chain.runIn provider content s).2 := by
  have hNumbered := renumbered_eq_self chain.positions
  rw [runIn_eq, runIn_eq]
  rcases hRun : runTokensIn provider chain.tokens content s with
    ⟨e | ⟨error, reached⟩, s'⟩
  · rw [← hNumbered] at hRun
    have hActive :=
      runTokensIn_active_of_completed hProvider 1 0 hRun
    rw [tokens_active, hActive]
    exact ⟨.completed e, rfl⟩
  · rcases runTokensIn_eq_interrupted_iff.mp hRun with
      ⟨front, token, back, s₁, hTokens, hFront, hStep, hFails⟩
    have hPosition := position_of_append_cons hTokens
    have hBefore := runTokensIn_active_of_completed hProvider 1 0
      ((renumbered_front hTokens).symm ▸ hFront)
    -- The steps before the failing token are skipped or left.
    have hLength := length_trace_of_completed hFront
    have hLeft := length_trace_of_completed hBefore
    have hSum := reached.length_activeFrom_add_skips 1
    rw [length_renumbered] at hLeft
    let j := 1 + (Token.active front).length
    have hCount : token.position = j + reached.skips := by
      omega
    have hIdle := isIdle_eq_false_of_performIn hFails
    have hActive := tokens_active_of_append hTokens hIdle
    have hShifted :
        (token.placed j).shifted reached.skips = token := by
      rw [Token.shifted_placed, ← hCount, Token.placed_position]
    rw [← hShifted] at hFails
    rcases Token.exists_performIn_eq_error_of_shifted hProvider
        hFails with ⟨earlier, hEarlier, hFault⟩
    have hReduced :
        runTokensIn provider chain.active.tokens content s =
          (.interrupted ⟨j, earlier⟩ (reached.activeFrom 1),
            s') :=
      runTokensIn_eq_interrupted_iff.mpr
        ⟨_, token.placed j, _, s₁, hActive, hBefore,
          (Token.position_placed j token).symm, hEarlier⟩
    have hToken : token.placed error.step ∈ chain.tokens := by
      rw [hStep, Token.placed_position, hTokens]
      exact List.mem_append_cons_self
    have hSame : token.placed j ∈ chain.active.tokens := by
      rw [hActive]
      exact List.mem_append_cons_self
    rcases error with ⟨i, fault⟩
    rw [hReduced]
    refine ⟨?_, rfl⟩
    dsimp only at hFault hToken hStep
    rw [← hStep] at hCount
    rw [hFault]
    cases earlier with
    | decode refusal => exact .undecodable hToken hSame hCount
    | provider refusal => exact .unprovided hToken hSame hCount

/-
  Idle tokens can be erased. If a chain has a token that is
  not idle, the tokens that are not idle are a chain. With a
  fixed value and with a list of values alike, that chain
  completes exactly if the whole one does, with the records
  of the steps that are not skipped, counted anew, with no
  notes, and with the same values left; or the same token is
  interrupted in both, for the same reason.
-/
theorem erases_idle_tokens
    (hParse : parse sep input = .ok chain)
    (hActive : ∃ token ∈ chain.tokens, token.isIdle = false) :
    parse sep chain.active.source = .ok chain.active ∧
      (∀ value content,
        ErasesTo chain chain.active
          (chain.runIn (Provider.fixed value) content ()).1
          (chain.active.runIn (Provider.fixed value)
            content ()).1) ∧
      ∀ values content,
        ErasesTo chain chain.active
            (chain.runIn Provider.scripted content values).1
            (chain.active.runIn Provider.scripted
              content values).1 ∧
          (chain.active.runIn Provider.scripted
              content values).2 =
            (chain.runIn Provider.scripted content values).2 := by
  rcases isParsed_of_parse hParse with ⟨rfl, hChain⟩
  refine ⟨parse_active hChain hActive, ?_, ?_⟩
  · intro value content
    exact (erasesTo_active (Provider.isUniform_fixed value)
      chain content ()).1
  · intro values content
    exact erasesTo_active Provider.isUniform_scripted chain
      content values

end Chain

end CodecChain

------------------------------------------------------------
-- A Chain With Idle Tokens
------------------------------------------------------------

namespace CodecChain

namespace Chain

/-
  A tag that is no codec's, an empty token, and a decoding
  that fails as the fourth step, or as the second of those
  that are left.
-/
theorem erases_idle_tokens_of_bad_digit :
    ∃ chain,
      parse '-' (.ofString "EQ-P--DH-P") = .ok chain ∧
      parse '-' (.ofString "P-DH-P") = .ok chain.active ∧
      (chain.runIn Provider.scripted [] [['g'], ['v']]).1 =
        .interrupted
          ⟨4, .decode ⟨.hex, .hex (.oddLength 1)⟩⟩
          ⟨['g'],
            [⟨1, ['E', 'Q'], .skipped, []⟩,
              ⟨2, ['P'], .replaced, ['g']⟩,
              ⟨3, [], .skipped, ['g']⟩],
            [⟨1, ['E', 'Q'], .unknownCodec ['Q']⟩,
              ⟨3, [], .rejected .emptyToken⟩]⟩ ∧
      (chain.active.runIn Provider.scripted []
          [['g'], ['v']]).1 =
        .interrupted
          ⟨2, .decode ⟨.hex, .hex (.oddLength 1)⟩⟩
          ⟨['g'], [⟨1, ['P'], .replaced, ['g']⟩], []⟩ ∧
      (chain.active.runIn Provider.scripted []
          [['g'], ['v']]).2 = [['v']] := by
  let chain : Chain :=
    { separator := '-'
      source := .ofString "EQ-P--DH-P"
      tokens :=
        [Token.read 1 ['E', 'Q'], Token.read 2 ['P'],
          Token.read 3 [], Token.read 4 ['D', 'H'],
          Token.read 5 ['P']] }
  have hParse :
      parse '-' (.ofString "EQ-P--DH-P") = .ok chain := by
    rfl
  have hRun :
      (chain.runIn Provider.scripted [] [['g'], ['v']]).1 =
        .interrupted
          ⟨4, .decode ⟨.hex, .hex (.oddLength 1)⟩⟩
          ⟨['g'],
            [⟨1, ['E', 'Q'], .skipped, []⟩,
              ⟨2, ['P'], .replaced, ['g']⟩,
              ⟨3, [], .skipped, ['g']⟩],
            [⟨1, ['E', 'Q'], .unknownCodec ['Q']⟩,
              ⟨3, [], .rejected .emptyToken⟩]⟩ := by
    decide +kernel
  rcases erases_idle_tokens hParse
      ⟨Token.read 2 ['P'], by decide, rfl⟩ with
    ⟨hActive, -, hScripted⟩
  rcases hScripted [['g'], ['v']] [] with ⟨hEnds, hLeft⟩
  refine ⟨chain, hParse, hActive, hRun, ?_, ?_⟩
  · rw [hRun] at hEnds
    generalize
      (chain.active.runIn Provider.scripted []
        [['g'], ['v']]).1 = outcome at hEnds ⊢
    cases hEnds with
    | @undecodable _ j _ _ _ _ _ hCount =>
        have hSkips : 4 = j + 2 := hCount
        have hStep : j = 2 := by omega
        rw [hStep]
        rfl
  · rw [hLeft]
    decide +kernel

end Chain

end CodecChain

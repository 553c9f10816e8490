import CodecChain.Proofs.Chain.Inversion
import CodecChain.Proofs.Codec.Coding
import CodecChain.Proofs.Run.Interruption

/-
  Undoing a run. A chain that neither replaces the content nor
  decodes loosely loses nothing: its inverse takes what the
  chain has made back to the original content, through the
  same contents in reverse order.

  Key definitions include:
    * `Instruction.IsReversible`
    * `Token.IsReversible`

  Main statements:
    * `Token.performIn_undone`
    * `Chain.exists_runTokensIn_undone`
    * `Chain.exists_inverse_run`
-/

------------------------------------------------------------
-- Reversible Steps
------------------------------------------------------------

namespace CodecChain

/-
  An instruction whose work can be undone: it replaces
  nothing, and decodes only with a strict codec, if with any.
-/
def Instruction.IsReversible
    (instruction : Instruction) : Prop :=
  instruction ≠ .protect ∧
    ∀ codec : Codec,
      instruction = .decode codec.tag → codec.IsStrict

instance (instruction : Instruction) :
    Decidable instruction.IsReversible :=
  decidable_of_iff
    (instruction ≠ .protect ∧
      ∀ codec ∈ Codec.all,
        instruction = .decode codec.tag → codec.IsStrict)
    ⟨fun h => ⟨h.1, fun codec => h.2 codec codec.mem_all⟩,
      fun h => ⟨h.1, fun codec _ => h.2 codec⟩⟩

/- A token that is no instruction does nothing to be undone. -/
def Token.IsReversible (token : Token) : Prop :=
  ∀ instruction ∈ token.instruction?, instruction.IsReversible

namespace Token

variable [Compressor]
variable {σ τ : Type}
variable {provider : Provider (StateM σ)}
variable {content next : Text} {s s' : σ}

/- A reversible token is undone by the token that undoes it. -/
theorem performIn_undone
    {token : Token}
    (undoer : Provider (StateM τ))
    (position : Nat)
    (t : τ)
    (hToken : token.IsReversible)
    (h : token.performIn provider content s =
      (.ok next, s')) :
    (token.undone.placed position).performIn undoer next t =
      (.ok content, t) := by
  rcases exists_asks token with ⟨plan, hPlan⟩
  rw [performIn, hPlan.plan_eq] at h
  rw [performIn, plan_placed]
  cases hPlan with
  | @encode place raw tag codec hTag =>
      rw [Plan.performIn_encode, Prod.mk.injEq,
        Except.ok.injEq] at h
      have hUndone : (accepted place raw (.encode tag)).undone.Asks
          (.decode codec) :=
        Asks.decode hTag
      rw [hUndone.plan_eq, Plan.performIn_decode, ← h.1,
        Codec.decode_encode]
      rfl
  | @decode place raw tag codec hTag =>
      rw [Plan.performIn_decode, Prod.mk.injEq,
        Except.mapError_eq_ok_iff] at h
      have hStrict : codec.IsStrict :=
        (hToken _ rfl).2 codec
          (congrArg _ (Codec.tag_of_ofTag? hTag).symm)
      have hUndone : (accepted place raw (.decode tag)).undone.Asks
          (.encode codec) :=
        Asks.encode hTag
      rw [hUndone.plan_eq, Plan.performIn_encode,
        Codec.encode_of_decode hStrict h.1]
  | protect => exact absurd rfl (hToken _ rfl).1
  | @unknown place raw tag instruction hInstruction hTag =>
      rw [Plan.performIn_skip, Prod.mk.injEq,
        Except.ok.injEq] at h
      have hInverse : instruction.inverse.tag? = some tag := by
        rw [← hInstruction]
        cases instruction <;> rfl
      have hUndone : (accepted place raw instruction).undone.Asks
          (.skip (.unknownCodec tag)) :=
        Asks.unknown hInverse hTag
      rw [hUndone.plan_eq, Plan.performIn_skip, ← h.1]
  | @rejected place raw cause =>
      rw [Plan.performIn_skip, Prod.mk.injEq,
        Except.ok.injEq] at h
      have hUndone : (Token.rejected place raw cause).undone.Asks
          (.skip (.rejected cause)) :=
        Asks.rejected
      rw [hUndone.plan_eq, Plan.performIn_skip, ← h.1]

end Token

end CodecChain

------------------------------------------------------------
-- Reversible Runs
------------------------------------------------------------

namespace CodecChain

namespace Execution

theorem contentsFrom_afterStep
    (content : Text)
    (record : Record)
    (diagnostic : Option Diagnostic)
    (later : Execution) :
    (later.afterStep record diagnostic).contentsFrom content =
      content :: later.contentsFrom record.content :=
  rfl

theorem contentsFrom_andThen
    (content : Text)
    (first later : Execution) :
    (first.andThen later).contentsFrom content =
      first.contentsFrom content ++
        later.trace.map Record.content := by
  rw [contentsFrom, contentsFrom, andThen, List.map_append,
    List.cons_append]

end Execution

namespace Chain

variable [Compressor]
variable {σ τ : Type} {provider : Provider (StateM σ)}
variable {content : Text} {s s' : σ} {e : Execution}

/-
  The tokens that undo a completed run complete from what it
  has made, in reverse order and without asking a provider,
  wherever they are counted from.
-/
theorem exists_runTokensIn_undone
    {tokens : List Token}
    (undoer : Provider (StateM τ))
    (first : Nat)
    (t : τ)
    (hTokens : ∀ token ∈ tokens, token.IsReversible)
    (h : runTokensIn provider tokens content s =
      (.completed e, s')) :
    ∃ back,
      runTokensIn undoer
          (renumbered first (tokens.reverse.map Token.undone))
          e.content t = (.completed back, t) ∧
        back.content = content ∧
        back.contentsFrom e.content =
          (e.contentsFrom content).reverse := by
  induction tokens generalizing content s e with
  | nil =>
      rw [runTokensIn_nil, Prod.mk.injEq,
        Outcome.completed.injEq] at h
      rcases h with ⟨rfl, -⟩
      exact ⟨.start content, rfl, rfl, rfl⟩
  | cons token tokens ih =>
      rcases runTokensIn_cons_eq_completed_iff.mp h with
        ⟨next, s₁, later, hFirst, hLater, rfl⟩
      rcases ih
        (fun token' h' =>
          hTokens token' (List.mem_cons_of_mem token h'))
        hLater with ⟨back, hBack, hContent, hContents⟩
      -- The first token is undone last, on what is left then.
      have hUndone := Token.performIn_undone undoer
        (first + (tokens.reverse.map Token.undone).length) t
        (hTokens token List.mem_cons_self) hFirst
      rw [← hContent] at hUndone
      have hLast := runTokensIn_cons_eq_completed_iff.mpr
        ⟨content, t, .start content, hUndone,
          runTokensIn_nil undoer content t, rfl⟩
      have hWhole := runTokensIn_append_eq_completed_iff.mpr
        ⟨back, t, _, hBack, hLast, rfl⟩
      rw [List.reverse_cons, List.map_append, renumbered_append]
      refine ⟨_, hWhole, rfl, ?_⟩
      rw [Execution.contentsFrom_andThen,
        Execution.contentsFrom_afterStep, List.reverse_cons]
      exact congrArg (· ++ [content]) hContents

/-
  Undo law. If no instruction of a chain is a protection or a
  decoding with a codec that is not strict, and a run of the
  chain completes, then the inverted chain is read with the
  same separator, and a run of it over the final content
  completes with the original content, having passed through
  the contents of the run in reverse order.
-/
theorem exists_inverse_run
    {sep : Char}
    {input : Text}
    {chain : Chain}
    (undoer : Provider (StateM τ))
    (t : τ)
    (hEncode : sep ≠ 'E')
    (hDecode : sep ≠ 'D')
    (hParse : parse sep input = .ok chain)
    (hReversible :
      ∀ instruction ∈ chain.instructions,
        instruction.IsReversible)
    (hRun : chain.runIn provider content s =
      (.completed e, s')) :
    ∃ inverse back,
      parse sep chain.inverted = .ok inverse ∧
        inverse.runIn undoer e.content t =
          (.completed back, t) ∧
        back.content = content ∧
        back.contentsFrom e.content =
          (e.contentsFrom content).reverse := by
  rcases isParsed_of_parse hParse with ⟨rfl, hChain⟩
  have hTokens (token) (hToken : token ∈ chain.tokens) :
      token.IsReversible := by
    intro instruction hInstruction
    exact hReversible instruction
      (List.mem_filterMap.mpr ⟨token, hToken, hInstruction⟩)
  rcases exists_runTokensIn_undone undoer 1 t hTokens hRun with
    ⟨back, hBack, hContent, hContents⟩
  exact ⟨chain.undone, back,
    parse_inverted hChain hEncode hDecode, hBack, hContent,
    hContents⟩

end Chain

end CodecChain

------------------------------------------------------------
-- A Chain That Is Undone
------------------------------------------------------------

namespace CodecChain

namespace Chain

/-
  Runs, an unknown tag, an empty token and a strict decoding
  are undone, by a provider that has no value to give.
-/
theorem exists_inverse_run_of_runs :
    ∃ chain e inverse back,
      parse '-' (.ofString "ERL-EQ--DRL-EH") = .ok chain ∧
        chain.runIn Provider.scripted (.ofString "aab") [] =
          (.completed e, []) ∧
        e.content = .ofString "616162" ∧
        parse '-' chain.inverted = .ok inverse ∧
        inverse.runIn Provider.scripted e.content [] =
          (.completed back, []) ∧
        back.content = .ofString "aab" := by
  let chain : Chain :=
    { separator := '-'
      source := .ofString "ERL-EQ--DRL-EH"
      tokens :=
        [Token.read 1 (.ofString "ERL"),
          Token.read 2 (.ofString "EQ"), Token.read 3 [],
          Token.read 4 (.ofString "DRL"),
          Token.read 5 (.ofString "EH")] }
  let e : Execution :=
    { content := .ofString "616162"
      trace :=
        [⟨1, .ofString "ERL", .encoded .runLength,
            .ofString "2a1b"⟩,
          ⟨2, .ofString "EQ", .skipped, .ofString "2a1b"⟩,
          ⟨3, [], .skipped, .ofString "2a1b"⟩,
          ⟨4, .ofString "DRL", .decoded .runLength,
            .ofString "aab"⟩,
          ⟨5, .ofString "EH", .encoded .hex,
            .ofString "616162"⟩]
      diagnostics :=
        [⟨2, .ofString "EQ", .unknownCodec ['Q']⟩,
          ⟨3, [], .rejected .emptyToken⟩] }
  have hParse :
      parse '-' (.ofString "ERL-EQ--DRL-EH") = .ok chain := by
    rfl
  have hRun :
      chain.runIn Provider.scripted (.ofString "aab") [] =
        (.completed e, []) := by
    decide +kernel
  have hReversible :
      ∀ instruction ∈ chain.instructions,
        instruction.IsReversible := by
    decide
  rcases exists_inverse_run Provider.scripted [] (by decide)
    (by decide) hParse hReversible hRun with
    ⟨inverse, back, hInverse, hBack, hContent, -⟩
  exact ⟨chain, e, inverse, back, hParse, hRun, rfl, hInverse,
    hBack, hContent⟩

end Chain

end CodecChain

import CodecChain.Proofs.Deflate.Searching
import CodecChain.Proofs.Run.Stages

/-
  What runs leave behind. A completed run has a record for
  each token, made from the content of the record before; an
  interrupted run has exactly what the tokens before the
  failing one have left, and no token after that one counts.

  Key definitions include:
    * `Execution.contentsFrom`

  Main statements:
    * `Chain.length_trace_of_completed`
    * `Chain.exists_stage_of_completed`
    * `Chain.keeps_finished_steps`
-/

namespace CodecChain

------------------------------------------------------------
-- Contents
------------------------------------------------------------

namespace Execution

/- The contents that steps begin and end with, in order. -/
def contentsFrom
    (content : Text)
    (e : Execution) : List Text :=
  content :: e.trace.map Record.content

/- The content before a step is that of the record before it. -/
theorem getElem?_contentsFrom_of_take
    {content : Text}
    {before e : Execution}
    {i : Nat}
    (hLength : i ≤ e.trace.length)
    (hTrace : before.trace = e.trace.take i)
    (hLast :
      (before.contentsFrom content).getLast? =
        some before.content) :
    (e.contentsFrom content)[i]? = some before.content := by
  have hTake :
      before.contentsFrom content =
        (e.contentsFrom content).take (i + 1) := by
    rw [contentsFrom, contentsFrom, hTrace,
      List.take_succ_cons, List.map_take]
  rw [hTake, List.getLast?_take] at hLast
  have hIndex : i < (e.contentsFrom content).length := by
    simp only [contentsFrom, List.length_cons,
      List.length_map]
    omega
  simpa [hIndex] using hLast

end Execution

namespace Chain

variable [Compressor]
variable {σ : Type} {provider : Provider (StateM σ)}
variable {token : Token} {tokens : List Token}
variable {content : Text} {s s' : σ} {e : Execution}

------------------------------------------------------------
-- Completed Runs
------------------------------------------------------------

/- A completed run has a record for each token. -/
theorem length_trace_of_completed
    (h : runTokensIn provider tokens content s =
      (.completed e, s')) :
    e.trace.length = tokens.length := by
  induction tokens generalizing content s e with
  | nil =>
      rw [runTokensIn_nil, Prod.mk.injEq,
        Outcome.completed.injEq] at h
      rw [← h.1]
      rfl
  | cons token tokens ih =>
      rcases runTokensIn_cons_eq_completed_iff.mp h with
        ⟨next, s₁, later, -, hLater, rfl⟩
      simpa [Execution.afterStep] using ih hLater

/- A completed run ends with the content of its last record. -/
theorem getLast?_contentsFrom_of_completed
    (h : runTokensIn provider tokens content s =
      (.completed e, s')) :
    (e.contentsFrom content).getLast? = some e.content := by
  induction tokens generalizing content s e with
  | nil =>
      rw [runTokensIn_nil, Prod.mk.injEq,
        Outcome.completed.injEq] at h
      rw [← h.1]
      rfl
  | cons token tokens ih =>
      rcases runTokensIn_cons_eq_completed_iff.mp h with
        ⟨next, s₁, later, -, hLater, rfl⟩
      have hLast := ih hLater
      rw [Execution.contentsFrom, Execution.afterStep,
        List.map_cons, List.getLast?_cons_cons]
      exact hLast

/-
  Each step of a completed run is its token, performed on the
  content that the tokens before it have left behind.
-/
theorem exists_stage_of_completed
    {i : Nat}
    (h : runTokensIn provider tokens content s =
      (.completed e, s'))
    (hToken : tokens[i]? = some token) :
    ∃ before s₀ next s₁,
      runTokensIn provider (tokens.take i) content s =
        (.completed before, s₀) ∧
      before.trace = e.trace.take i ∧
      token.performIn provider before.content s₀ =
        (.ok next, s₁) ∧
      e.trace[i]? = some (token.record next) := by
  rcases List.getElem?_eq_some_iff.mp hToken with ⟨hi, hGet⟩
  have hTokens :
      tokens = tokens.take i ++ token :: tokens.drop (i + 1) := by
    rw [← hGet, List.getElem_cons_drop,
      List.take_append_drop]
  have hCount : (tokens.take i).length = i := by
    rw [List.length_take]
    omega
  rw [hTokens] at h
  rcases runTokensIn_append_eq_completed_iff.mp h with
    ⟨before, s₀, later, hBefore, hLater, rfl⟩
  have hTrace := length_trace_of_completed hBefore
  rw [hCount] at hTrace
  rcases runTokensIn_cons_eq_completed_iff.mp hLater with
    ⟨next, s₁, rest, hPerform, -, rfl⟩
  refine ⟨before, s₀, next, s₁, hBefore, ?_, hPerform, ?_⟩
  · rw [Execution.andThen, ← hTrace, List.take_left]
  · rw [Execution.andThen, ← hTrace,
      List.getElem?_append_right (Nat.le_refl _), Nat.sub_self]
    rfl

------------------------------------------------------------
-- Whole Runs
------------------------------------------------------------

theorem runIn_upTo
    (provider : Provider (StateM σ))
    (chain : Chain)
    (count : Nat)
    (content : Text)
    (s : σ) :
    (chain.upTo count).runIn provider content s =
      runTokensIn provider (chain.tokens.take count) content s :=
  rfl

/-
  Why a token fails: it decodes with a codec that refuses the
  content, or it asks a provider that refuses to answer. A
  decoding leaves the provider alone.
-/
theorem performIn_token_eq_error_iff {fault : StepFault} :
    token.performIn provider content s =
        (.error fault, s') ↔
      (∃ raw tag codec refusal,
        token = .accepted token.position raw (.decode tag) ∧
        Codec.ofTag? tag = some codec ∧
        codec.decode content = .error refusal ∧
        fault = .decode refusal ∧ s' = s) ∨
      (∃ raw refusal,
        token = .accepted token.position raw .protect ∧
        provider.ask token.position s = (.error refusal, s') ∧
        fault = .provider refusal) := by
  rw [Token.performIn, Plan.performIn_eq_error_iff]
  constructor
  · rintro (⟨codec, refusal, hPlan, hRefusal⟩ |
      ⟨refusal, hPlan, hRefusal⟩)
    · rw [← Token.asks_iff] at hPlan
      cases hPlan with
      | decode hTag =>
          exact Or.inl ⟨_, _, codec, refusal, rfl, hTag,
            hRefusal⟩
    · rw [← Token.asks_iff] at hPlan
      cases hPlan with
      | protect => exact Or.inr ⟨_, refusal, rfl, hRefusal⟩
  · rintro (⟨raw, tag, codec, refusal, hToken, hTag, hRefusal⟩ |
      ⟨raw, refusal, hToken, hRefusal⟩)
    · have hPlan : token.plan = .decode codec := by
        rw [hToken]
        exact (Token.Asks.decode hTag).plan_eq
      exact Or.inl ⟨codec, refusal, hPlan, hRefusal⟩
    · have hPlan : token.plan = .replace := by
        rw [hToken]
        rfl
      exact Or.inr ⟨refusal, hPlan, hRefusal⟩

/- Tokens after the one that fails do not matter. -/
theorem runIn_eq_interrupted_of_take
    {provider : Provider (StateM σ)}
    {chain other : Chain}
    {content : Text}
    {error : StepError}
    {reached : Execution}
    {s final : σ}
    (h : chain.runIn provider content s =
      (.interrupted error reached, final))
    (hSame :
      other.tokens.take error.step =
        chain.tokens.take error.step) :
    other.runIn provider content s =
      (.interrupted error reached, final) := by
  rcases runTokensIn_eq_interrupted_iff.mp h with
    ⟨front, token, back, s₀, hTokens, hFront, hStep, hFails⟩
  have hPosition := position_of_append_cons hTokens
  have hFirst :
      chain.tokens.take error.step = front ++ [token] := by
    rw [hTokens, hStep, hPosition, List.take_length_add_append]
    rfl
  have hOther :
      other.tokens =
        front ++ token :: other.tokens.drop error.step := by
    have hSplit := List.take_append_drop error.step other.tokens
    rw [hSame, hFirst, List.append_assoc] at hSplit
    exact hSplit.symm
  exact runTokensIn_eq_interrupted_iff.mpr
    ⟨front, token, other.tokens.drop error.step, s₀, hOther,
      hFront, hStep, hFails⟩

/-
  A run keeps exactly the work that is done. If it completes,
  there is one record for each token, with the number and the
  text of the token and the content that the token alone, at
  that point of the run, makes of the content before. If it
  is interrupted, what has been reached is the whole result
  of the tokens before the failing one, the fault is that of
  the failing token on what has been reached, and whatever
  tokens come later change neither the result nor the
  provider.
-/
theorem keeps_finished_steps
    (provider : Provider (StateM σ))
    (chain : Chain)
    (content : Text)
    (s : σ) :
    (∀ e final,
      chain.runIn provider content s = (.completed e, final) →
      e.trace.length = chain.tokens.length ∧
      (e.contentsFrom content).getLast? = some e.content ∧
      ∀ i token, chain.tokens[i]? = some token →
        ∃ record before s₀ s₁,
          e.trace[i]? = some record ∧
          record.step = i + 1 ∧
          token.position = i + 1 ∧
          record.token = token.raw ∧
          (e.contentsFrom content)[i]? = some before.content ∧
          (chain.upTo i).runIn provider content s =
            (.completed before, s₀) ∧
          token.plan.performIn provider (i + 1)
            before.content s₀ = (.ok record.content, s₁)) ∧
    (∀ error reached final,
      chain.runIn provider content s =
        (.interrupted error reached, final) →
      error.step = reached.trace.length + 1 ∧
      1 ≤ error.step ∧
      error.step ≤ chain.tokens.length ∧
      ∃ token s₀,
        chain.tokens[error.step - 1]? = some token ∧
        (chain.upTo (error.step - 1)).runIn provider content s =
          (.completed reached, s₀) ∧
        ((∃ raw tag codec refusal,
            token = .accepted error.step raw (.decode tag) ∧
            Codec.ofTag? tag = some codec ∧
            codec.decode reached.content = .error refusal ∧
            error.fault = .decode refusal ∧ final = s₀) ∨
          (∃ raw refusal,
            token = .accepted error.step raw .protect ∧
            provider.ask error.step s₀ =
              (.error refusal, final) ∧
            error.fault = .provider refusal)) ∧
        ∀ other : Chain,
          other.tokens.take error.step =
            chain.tokens.take error.step →
          other.runIn provider content s =
            (.interrupted error reached, final)) := by
  constructor
  · intro e final h
    rw [runIn_eq] at h
    have hLength := length_trace_of_completed h
    refine ⟨hLength, getLast?_contentsFrom_of_completed h, ?_⟩
    intro i token hToken
    have hIndex := (List.getElem?_eq_some_iff.mp hToken).1
    rcases exists_stage_of_completed h hToken with
      ⟨before, s₀, next, s₁, hBefore, hTrace, hPerform,
        hRecord⟩
    have hContent := Execution.getElem?_contentsFrom_of_take
      (by omega) hTrace
      (getLast?_contentsFrom_of_completed hBefore)
    have hPosition := position_of_getElem? hToken
    rw [Token.performIn, hPosition] at hPerform
    exact ⟨token.record next, before, s₀, s₁, hRecord,
      hPosition, hPosition, rfl, hContent, hBefore, hPerform⟩
  · intro error reached final h
    rcases runTokensIn_eq_interrupted_iff.mp h with
      ⟨front, token, back, s₀, hTokens, hFront, hStep, hFails⟩
    have hTrace := length_trace_of_completed hFront
    have hPosition := position_of_append_cons hTokens
    have hCount : error.step - 1 = front.length := by omega
    have hTake :
        chain.tokens.take (error.step - 1) = front := by
      rw [hTokens, hCount, List.take_left]
    have hHere : chain.tokens[error.step - 1]? = some token := by
      rw [hTokens, hCount,
        List.getElem?_append_right (Nat.le_refl _),
        Nat.sub_self]
      rfl
    have hWhy := performIn_token_eq_error_iff.mp hFails
    rw [← hStep] at hWhy
    refine ⟨by omega, by omega, ?_, token, s₀, hHere, ?_,
      hWhy, fun other => runIn_eq_interrupted_of_take h⟩
    · rw [hTokens, List.length_append, List.length_cons]
      omega
    · rw [runIn_upTo, hTake]
      exact hFront

end Chain

end CodecChain

------------------------------------------------------------
-- A Chain That Fails
------------------------------------------------------------

namespace CodecChain

namespace Chain

/-
  A chain that fails in the middle: base64 text is no text of
  hexadecimal digits, and the value for the protection after
  it is not asked for.
-/
theorem keeps_finished_steps_of_bad_digit :
    ∃ chain reached,
      parse '-' (.ofString "E64-X1-DH-P") = .ok chain ∧
      chain.runIn Provider.scripted (.ofString "AA")
          [.ofString "value"] =
        (.interrupted
          ⟨3, .decode ⟨.hex, .hex (.badDigit 'Q' 0)⟩⟩ reached,
          [.ofString "value"]) ∧
      reached.trace.length = 2 ∧
      (chain.upTo 2).runIn Provider.scripted (.ofString "AA")
          [.ofString "value"] =
        (.completed reached, [.ofString "value"]) := by
  let chain : Chain :=
    { separator := '-'
      source := .ofString "E64-X1-DH-P"
      tokens :=
        [Token.read 1 (.ofString "E64"),
          Token.read 2 (.ofString "X1"),
          Token.read 3 (.ofString "DH"),
          Token.read 4 (.ofString "P")] }
  let reached : Execution :=
    { content := .ofString "QUE="
      trace :=
        [⟨1, .ofString "E64", .encoded .base64,
            .ofString "QUE="⟩,
          ⟨2, .ofString "X1", .skipped, .ofString "QUE="⟩]
      diagnostics :=
        [⟨2, .ofString "X1",
          .rejected (.unknownOperation 'X')⟩] }
  have hParse :
      parse '-' (.ofString "E64-X1-DH-P") = .ok chain := by
    rfl
  have hRun :
      chain.runIn Provider.scripted (.ofString "AA")
          [.ofString "value"] =
        (.interrupted
          ⟨3, .decode ⟨.hex, .hex (.badDigit 'Q' 0)⟩⟩ reached,
          [.ofString "value"]) := by
    decide +kernel
  rcases (keeps_finished_steps Provider.scripted chain _ _).2 _
    _ _ hRun with ⟨hStep, -, -, token, s₀, -, hBefore, hWhy, -⟩
  have hState : s₀ = [.ofString "value"] := by
    rcases hWhy with ⟨_, _, _, _, -, -, -, -, hState⟩ |
      ⟨_, _, -, -, hFault⟩
    · exact hState.symm
    · cases hFault
  subst hState
  exact ⟨chain, reached, hParse, hRun,
    (Nat.succ.inj hStep).symm, hBefore⟩

end Chain

end CodecChain

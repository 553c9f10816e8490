import CodecChain.Proofs.Run.Outline

/-
  What a provider is asked for. A run asks for a value once at
  each protection that it reaches, in order, and at no other
  token; a list of values is handed out in that order over all
  runs of a session, and a protection fails exactly when the
  list is used up.

  Key definitions include:
    * `Chain.session`
    * `Chain.asked`
    * `Outcome.received`

  Main statements:
    * `Chain.session_recorded`
    * `Chain.exists_run_eq_pure`
    * `Chain.received_append_left`
    * `Chain.asks_in_session`
-/

------------------------------------------------------------
-- Sessions
------------------------------------------------------------

namespace CodecChain

namespace Chain

/- Run chains over contents in turn, with one provider. -/
def session
    [Compressor]
    {m : Type → Type} [Monad m]
    (provider : Provider m) :
    List (Chain × Text) → m (List Outcome)
  | [] => pure []
  | (chain, content) :: later => do
      let outcome ← chain.run provider content
      let outcomes ← session provider later
      pure (outcome :: outcomes)

end Chain

------------------------------------------------------------
-- Recorded Questions
------------------------------------------------------------

/- The steps at which a plan asks: its own, or none. -/
def Plan.asked
    (step : Nat) : Plan → List Nat
  | replace => [step]
  | skip _ => []
  | encode _ => []
  | decode _ => []

theorem Plan.mem_asked_iff
    {plan : Plan}
    {step i : Nat} :
    i ∈ plan.asked step ↔ plan = .replace ∧ i = step := by
  cases plan <;> simp [asked]

theorem Plan.pairwise_asked
    (step : Nat)
    (plan : Plan) :
    (plan.asked step).Pairwise (· < ·) := by
  cases plan <;> simp [asked]

/- Only protections ask for a value. -/
theorem Token.plan_eq_replace_iff {token : Token} :
    token.plan = .replace ↔
      ∃ raw, token = .accepted token.position raw .protect := by
  constructor
  · intro h
    rw [← asks_iff] at h
    cases h with
    | protect => exact ⟨_, rfl⟩
  · rintro ⟨raw, hToken⟩
    rw [hToken]
    rfl

namespace Chain

/- The steps at which tokens ask for a value. -/
def askedBy (tokens : List Token) : List Nat :=
  tokens.flatMap fun token => token.plan.asked token.position

/-
  The steps at which a run with the given outcome has asked.
  It has reached the tokens of all records and the next one.
-/
def asked
    (chain : Chain)
    (outcome : Outcome) : List Nat :=
  askedBy
    (chain.tokens.take (outcome.execution.trace.length + 1))

/- The steps at which runs have asked, run after run. -/
def askedInTurn
    (runs : List (Chain × Text))
    (outcomes : List Outcome) : List Nat :=
  (List.zipWith (fun (chain, _) outcome => chain.asked outcome)
    runs outcomes).flatten

theorem askedBy_cons
    (token : Token)
    (tokens : List Token) :
    askedBy (token :: tokens) =
      token.plan.asked token.position ++ askedBy tokens :=
  rfl

theorem mem_askedBy_iff
    {i : Nat}
    {tokens : List Token} :
    i ∈ askedBy tokens ↔
      ∃ raw, .accepted i raw .protect ∈ tokens := by
  rw [askedBy, List.mem_flatMap]
  constructor
  · rintro ⟨token, hMem, hAsked⟩
    rcases Plan.mem_asked_iff.mp hAsked with ⟨hPlan, rfl⟩
    rcases Token.plan_eq_replace_iff.mp hPlan with ⟨raw, hToken⟩
    rw [hToken] at hMem
    exact ⟨raw, hMem⟩
  · rintro ⟨raw, hMem⟩
    exact ⟨_, hMem, Plan.mem_asked_iff.mpr ⟨rfl, rfl⟩⟩

/- Steps are asked for once, in order. -/
theorem pairwise_asked
    (chain : Chain)
    (outcome : Outcome) :
    (chain.asked outcome).Pairwise (· < ·) := by
  rw [asked, askedBy, List.pairwise_flatMap]
  constructor
  · intro token _
    exact Plan.pairwise_asked token.position token.plan
  · apply (chain.pairwise_position.sublist
      (List.take_sublist _ _)).imp
    intro a b hBefore i hFirst j hLater
    rw [(Plan.mem_asked_iff.mp hFirst).2,
      (Plan.mem_asked_iff.mp hLater).2]
    exact hBefore

/-
  The tokens that a run with the outcome has asked for are
  the protections that it has reached.
-/
theorem mem_asked_iff
    {chain : Chain}
    {outcome : Outcome}
    {i : Nat} :
    i ∈ chain.asked outcome ↔
      (∃ raw, .accepted i raw .protect ∈ chain.tokens) ∧
        i ≤ outcome.execution.trace.length + 1 := by
  let count := outcome.execution.trace.length + 1
  have hSplit := List.take_append_drop count chain.tokens
  rw [asked, mem_askedBy_iff]
  constructor
  · rintro ⟨raw, hMem⟩
    have hEarly := position_le_of_mem_front hSplit.symm hMem
    have hTake := List.length_take_le count chain.tokens
    exact ⟨⟨raw, List.mem_of_mem_take hMem⟩,
      Nat.le_trans hEarly hTake⟩
  · rintro ⟨⟨raw, hMem⟩, hReached⟩
    have hLast := position_le_of_mem_front
      (List.append_nil chain.tokens).symm hMem
    refine ⟨raw, ?_⟩
    rw [← hSplit, List.mem_append] at hMem
    rcases hMem with hMem | hMem
    · exact hMem
    · have hLate := lt_position_of_mem_back hSplit.symm hMem
      rw [List.length_take] at hLate
      rw [Token.position] at hLast hLate
      omega

end Chain

section

variable [Compressor]
variable {m : Type → Type} [Monad m]

namespace Chain

theorem runTokens_nil
    (provider : Provider m)
    (content : Text) :
    runTokens provider [] content =
      pure (.completed (.start content)) :=
  rfl

theorem runTokens_cons
    (provider : Provider m)
    (token : Token)
    (tokens : List Token)
    (content : Text) :
    runTokens provider (token :: tokens) content = (do
      match ← token.plan.perform provider token.position
        content with
      | .error fault =>
          pure (.interrupted ⟨token.position, fault⟩
            (.start content))
      | .ok next =>
          let later ← runTokens provider tokens next
          pure (later.afterStep (token.record next)
            token.diagnostic?)) :=
  rfl

end Chain

variable [LawfulMonad m]

/- A plan asks a provider that is recorded as it would else. -/
theorem Plan.perform_recorded
    (provider : Provider m)
    (step : Nat)
    (content : Text)
    (plan : Plan)
    (log : List Nat) :
    (plan.perform provider.recorded step content).run log =
      (fun result => (result, log ++ plan.asked step)) <$>
        plan.perform provider step content := by
  cases plan with
  | skip cause => simp [perform, asked]
  | encode codec => simp [perform, asked]
  | decode codec => simp [perform, asked]
  | replace => simp [perform, asked, Provider.recorded]

namespace Chain

theorem runTokens_recorded
    (provider : Provider m)
    (tokens : List Token)
    (content : Text)
    (log : List Nat) :
    (runTokens provider.recorded tokens content).run log =
      (fun outcome =>
        (outcome,
          log ++ askedBy
            (tokens.take (outcome.execution.trace.length + 1)))) <$>
        runTokens provider tokens content := by
  induction tokens generalizing content log with
  | nil => simp [runTokens_nil, askedBy]
  | cons token tokens ih =>
      rw [runTokens_cons, runTokens_cons, StateT.run_bind,
        Plan.perform_recorded, bind_map_left, map_bind]
      apply bind_congr
      intro result
      cases result with
      | error fault =>
          rw [StateT.run_pure, map_pure, Outcome.execution,
            List.take_succ_cons, askedBy_cons]
          simp [Execution.start, askedBy]
      | ok next =>
          rw [StateT.run_bind, ih, bind_map_left, map_bind]
          apply bind_congr
          intro later
          rw [StateT.run_pure, map_pure,
            Outcome.execution_afterStep, Execution.afterStep,
            List.length_cons, List.take_succ_cons,
            askedBy_cons, List.append_assoc]

/-
  A session that is recorded is the session that would else
  take place, with the steps at which its runs have asked.
-/
theorem session_recorded
    (provider : Provider m)
    (runs : List (Chain × Text))
    (log : List Nat) :
    (session provider.recorded runs).run log =
      (fun outcomes =>
        (outcomes, log ++ askedInTurn runs outcomes)) <$>
        session provider runs := by
  induction runs generalizing log with
  | nil => simp [session, askedInTurn]
  | cons first runs ih =>
      rcases first with ⟨chain, content⟩
      rw [session, session, StateT.run_bind, run,
        runTokens_recorded, bind_map_left, map_bind]
      apply bind_congr
      intro outcome
      rw [StateT.run_bind, ih, bind_map_left, map_bind]
      apply bind_congr
      intro outcomes
      rw [StateT.run_pure, map_pure, List.append_assoc]
      rfl

end Chain

end

------------------------------------------------------------
-- Chains Without Protections
------------------------------------------------------------

/- A chain without protections has no plan to replace. -/
theorem Chain.plan_ne_replace_of_hasProtection
    {chain : Chain}
    {token : Token}
    (h : chain.hasProtection = false)
    (hToken : token ∈ chain.tokens) :
    token.plan ≠ .replace := by
  intro hPlan
  rcases Token.plan_eq_replace_iff.mp hPlan with ⟨raw, hSame⟩
  have hMem : Instruction.protect ∈ chain.instructions := by
    apply List.mem_filterMap.mpr
    exact ⟨token, hToken, by rw [hSame]; rfl⟩
  rw [hasProtection, List.contains_eq_mem,
    decide_eq_false_iff_not] at h
  exact h hMem

section

variable [Compressor]

/- A plan that replaces nothing does without a provider. -/
theorem Plan.exists_perform_eq_pure
    {plan : Plan}
    (step : Nat)
    (content : Text)
    (h : plan ≠ .replace) :
    ∃ result, ∀ (m : Type → Type) [Monad m]
      (provider : Provider m),
      plan.perform provider step content = pure result := by
  cases plan with
  | skip cause => exact ⟨_, fun _ _ _ => rfl⟩
  | encode codec => exact ⟨_, fun _ _ _ => rfl⟩
  | decode codec => exact ⟨_, fun _ _ _ => rfl⟩
  | replace => exact absurd rfl h

namespace Chain

theorem exists_runTokens_eq_pure
    {tokens : List Token}
    (content : Text)
    (h : ∀ token ∈ tokens, token.plan ≠ .replace) :
    ∃ outcome, ∀ (m : Type → Type) [Monad m] [LawfulMonad m]
      (provider : Provider m),
      runTokens provider tokens content = pure outcome := by
  induction tokens generalizing content with
  | nil => exact ⟨_, fun _ _ _ _ => rfl⟩
  | cons token tokens ih =>
      rcases Plan.exists_perform_eq_pure token.position content
          (h token List.mem_cons_self) with ⟨result, hResult⟩
      cases result with
      | error fault =>
          refine ⟨.interrupted ⟨token.position, fault⟩
            (.start content), ?_⟩
          intro m _ _ provider
          rw [runTokens_cons, hResult, pure_bind]
      | ok next =>
          rcases ih next (fun other hOther =>
            h other (List.mem_cons_of_mem token hOther)) with
            ⟨later, hLater⟩
          refine ⟨later.afterStep (token.record next)
            token.diagnostic?, ?_⟩
          intro m _ _ provider
          rw [runTokens_cons, hResult, pure_bind]
          dsimp only
          rw [hLater, pure_bind]

/-
  A chain without protections asks for nothing and does the
  same with every provider.
-/
theorem exists_run_eq_pure
    {chain : Chain}
    (content : Text)
    (h : chain.hasProtection = false) :
    ∃ outcome,
      chain.asked outcome = [] ∧
      ∀ (m : Type → Type) [Monad m] [LawfulMonad m]
        (provider : Provider m),
        chain.run provider content = pure outcome := by
  have hPlans :
      ∀ token ∈ chain.tokens, token.plan ≠ .replace :=
    fun _ => plan_ne_replace_of_hasProtection h
  rcases exists_runTokens_eq_pure content hPlans with
    ⟨outcome, hRun⟩
  refine ⟨outcome, ?_, hRun⟩
  apply List.eq_nil_iff_forall_not_mem.mpr
  intro i hAsked
  rcases (mem_asked_iff.mp hAsked).1 with ⟨raw, hMem⟩
  exact hPlans _ hMem rfl

end Chain

end

------------------------------------------------------------
-- Lists of Values
------------------------------------------------------------

/- The values that the protections of a run have received. -/
def Outcome.received (outcome : Outcome) : List Text :=
  (outcome.execution.trace.filter (·.action = .replaced)).map
    Record.content

/- A protection receives the content that it leaves. -/
theorem Outcome.received_afterStep
    (token : Token)
    (next : Text)
    (diagnostic : Option Diagnostic)
    (outcome : Outcome) :
    (outcome.afterStep (token.record next)
        diagnostic).received =
      (if token.plan.action = .replaced then [next] else []) ++
        outcome.received := by
  rw [received, execution_afterStep, Execution.afterStep,
    List.filter_cons]
  by_cases hReplaced : token.plan.action = .replaced
  · simp [Token.record, hReplaced, received]
  · simp [Token.record, hReplaced, received]

variable {step : Nat} {content : Text}
variable {values left : List Text}

theorem Provider.ask_scripted_eq_error_iff
    {refusal : ProviderError} :
    Provider.scripted.ask step values = (.error refusal, left) ↔
      refusal = .noneLeft step ∧ values = [] ∧ left = [] := by
  cases values with
  | nil =>
      simp [ask, scripted, eq_comm]
  | cons value rest =>
      simp [ask, scripted]

variable [Compressor]

/- A step that completes takes a value only to receive it. -/
theorem Plan.performIn_scripted
    {plan : Plan}
    {next : Text}
    (h : plan.performIn Provider.scripted step content values =
      (.ok next, left)) :
    values =
      (if plan.action = .replaced then [next] else []) ++
        left := by
  cases plan with
  | skip cause =>
      rw [performIn_skip, Prod.mk.injEq] at h
      exact h.2
  | encode codec =>
      rw [performIn_encode, Prod.mk.injEq] at h
      exact h.2
  | decode codec =>
      rw [performIn_decode, Prod.mk.injEq] at h
      exact h.2
  | replace =>
      rw [performIn_replace] at h
      cases values with
      | nil => cases h
      | cons value rest =>
          cases h
          rfl

namespace Chain

/- A list of values is received from its front. -/
theorem received_append_of_completed
    {tokens : List Token}
    {e : Execution}
    (h : runTokensIn Provider.scripted tokens content values =
      (.completed e, left)) :
    (Outcome.completed e).received ++ left = values := by
  induction tokens generalizing content values e with
  | nil =>
      rw [runTokensIn_nil, Prod.mk.injEq,
        Outcome.completed.injEq] at h
      rw [← h.1, ← h.2]
      rfl
  | cons token tokens ih =>
      rcases runTokensIn_cons_eq_completed_iff.mp h with
        ⟨next, after, later, hPerform, hLater, rfl⟩
      have hReceived := Outcome.received_afterStep token next
        token.diagnostic? (.completed later)
      rw [Outcome.afterStep] at hReceived
      rw [hReceived, List.append_assoc, ih hLater]
      exact (Plan.performIn_scripted hPerform).symm

/- A step that fails leaves the values that are left. -/
theorem received_append_left
    {tokens : List Token}
    {outcome : Outcome}
    (h : runTokensIn Provider.scripted tokens content values =
      (outcome, left)) :
    outcome.received ++ left = values := by
  cases outcome with
  | completed e => exact received_append_of_completed h
  | interrupted error reached =>
      rcases runTokensIn_eq_interrupted_iff.mp h with
        ⟨front, token, back, after, -, hFront, -, hFails⟩
      have hAfter : left = after := by
        rcases Plan.performIn_eq_error_iff.mp hFails with
          ⟨codec, e, -, -, -, hSame⟩ | ⟨e, -, hAsk, -⟩
        · exact hSame
        · rcases Provider.ask_scripted_eq_error_iff.mp hAsk with
            ⟨-, hNone, hLeft⟩
          rw [hNone, hLeft]
      rw [hAfter]
      exact received_append_of_completed hFront

/-
  A run stops for want of a value exactly if the tokens before
  a protection complete and have used up the list.
-/
theorem stops_for_value_iff
    {chain : Chain}
    {k : Nat} :
    (∃ refusal reached after,
      chain.runIn Provider.scripted content values =
        (.interrupted ⟨k, .provider refusal⟩ reached, after)) ↔
      (∃ raw, .accepted k raw .protect ∈ chain.tokens) ∧
        ∃ before after,
          (chain.upTo (k - 1)).runIn Provider.scripted content
            values = (.completed before, after) ∧
          (Outcome.completed before).received = values := by
  constructor
  · intro h
    rcases h with ⟨refusal, reached, after, hRun⟩
    rcases runTokensIn_eq_interrupted_iff.mp hRun with
      ⟨front, token, back, values', hTokens, hFront, hStep,
        hFails⟩
    have hPosition := position_of_append_cons hTokens
    dsimp only at hStep hFails
    have hCount : k - 1 = front.length := by omega
    rcases performIn_token_eq_error_iff.mp hFails with
      ⟨_, _, _, _, -, -, -, hFault, -⟩ |
        ⟨raw, refusal', hToken, hAsk, -⟩
    · cases hFault
    rcases Provider.ask_scripted_eq_error_iff.mp hAsk with
      ⟨-, rfl, -⟩
    refine ⟨⟨raw, ?_⟩, reached, [], ?_, ?_⟩
    · rw [hStep, ← hToken, hTokens]
      exact List.mem_append_cons_self
    · rw [runIn_upTo, hTokens, hCount, List.take_left]
      exact hFront
    · have hReceived := received_append_of_completed hFront
      rw [List.append_nil] at hReceived
      exact hReceived
  · rintro ⟨⟨raw, hMem⟩, before, after, hBefore, hAll⟩
    rcases exists_append_of_mem hMem with
      ⟨front, back, hTokens, hPosition⟩
    rw [Token.position] at hPosition
    have hReceived := received_append_of_completed hBefore
    rw [hAll, List.append_right_eq_self] at hReceived
    subst hReceived
    rw [runIn_upTo, hTokens, hPosition, Nat.add_sub_cancel,
      List.take_left] at hBefore
    refine ⟨.noneLeft k, before, [], ?_⟩
    apply runTokensIn_eq_interrupted_iff.mpr
    exact ⟨front, .accepted k raw .protect, back, [], hTokens,
      hBefore, rfl, rfl⟩

------------------------------------------------------------
-- Whole Sessions
------------------------------------------------------------

/- How a session goes from a state of the provider. -/
def sessionIn
    {σ : Type}
    (provider : Provider (StateM σ))
    (runs : List (Chain × Text))
    (s : σ) : List Outcome × σ :=
  session provider runs s

theorem sessionIn_cons
    {σ : Type}
    (provider : Provider (StateM σ))
    (chain : Chain)
    (content : Text)
    (runs : List (Chain × Text))
    (s : σ) :
    sessionIn provider ((chain, content) :: runs) s =
      let first := chain.runIn provider content s
      let later := sessionIn provider runs first.2
      (first.1 :: later.1, later.2) :=
  rfl

/- Over a session, a list of values is received in order. -/
theorem received_session_append_left
    {runs : List (Chain × Text)}
    {outcomes : List Outcome}
    (h : sessionIn Provider.scripted runs values =
      (outcomes, left)) :
    outcomes.flatMap Outcome.received ++ left = values := by
  induction runs generalizing values outcomes with
  | nil =>
      cases h
      rfl
  | cons first runs ih =>
      rcases first with ⟨chain, content⟩
      rw [sessionIn_cons] at h
      rcases hFirst :
          chain.runIn Provider.scripted content values with
        ⟨outcome, after⟩
      rcases hLater :
          sessionIn Provider.scripted runs after with
        ⟨others, left'⟩
      rw [hFirst] at h
      dsimp only at h
      rw [hLater, Prod.mk.injEq] at h
      rcases h with ⟨rfl, rfl⟩
      rw [List.flatMap_cons, List.append_assoc, ih hLater]
      exact received_append_left hFirst

/-
  What a provider is asked for in a session. Recorded or not,
  a session goes the same way; each of its runs asks at the
  protections that it reaches, once and in order, and at
  nothing else. A chain without protections asks for nothing,
  and no provider makes a difference to it. A list of values
  is handed out in order over the whole session; a run stops
  for want of a value exactly at a protection that it reaches
  when all values have been received.
-/
theorem asks_in_session :
    (∀ (m : Type → Type) [Monad m] [LawfulMonad m]
      (provider : Provider m) runs log,
      (session provider.recorded runs).run log =
        (fun outcomes =>
          (outcomes, log ++ askedInTurn runs outcomes)) <$>
          session provider runs) ∧
    (∀ chain outcome,
      (asked chain outcome).Pairwise (· < ·) ∧
      ∀ i, i ∈ asked chain outcome ↔
        (∃ raw, .accepted i raw .protect ∈ chain.tokens) ∧
          i ≤ outcome.execution.trace.length + 1) ∧
    (∀ chain content, hasProtection chain = false →
      ∃ outcome,
        chain.asked outcome = [] ∧
        ∀ (m : Type → Type) [Monad m] [LawfulMonad m]
          (provider : Provider m),
          chain.run provider content = pure outcome) ∧
    (∀ runs values outcomes left,
      sessionIn Provider.scripted runs values =
        (outcomes, left) →
      outcomes.flatMap Outcome.received ++ left = values ∧
      left.length =
        values.length -
          (outcomes.flatMap Outcome.received).length ∧
      ∀ (chain : Chain) content k,
        (∃ refusal reached after,
          chain.runIn Provider.scripted content left =
            (.interrupted ⟨k, .provider refusal⟩ reached,
              after)) ↔
        (∃ raw, .accepted k raw .protect ∈ chain.tokens) ∧
          ∃ before after,
            (chain.upTo (k - 1)).runIn Provider.scripted content
              left = (.completed before, after) ∧
            outcomes.flatMap Outcome.received ++
              (Outcome.completed before).received = values) := by
  refine ⟨?_, ?_, ?_, ?_⟩
  · intro m _ _ provider runs log
    exact session_recorded provider runs log
  · intro chain outcome
    exact ⟨pairwise_asked chain outcome, fun i => mem_asked_iff⟩
  · intro chain content h
    exact exists_run_eq_pure content h
  · intro runs values outcomes left h
    have hReceived := received_session_append_left h
    refine ⟨hReceived, ?_, ?_⟩
    · rw [← hReceived, List.length_append,
        Nat.add_sub_cancel_left]
    · intro chain content k
      rw [stops_for_value_iff, ← hReceived]
      simp only [List.append_cancel_left_eq]

end Chain

end CodecChain

------------------------------------------------------------
-- A Session of Two Runs
------------------------------------------------------------

namespace CodecChain

namespace Chain

/-
  Two values for two runs: the first fails at a decoding with
  one protection done, the second for want of a third value.
-/
theorem asks_in_session_of_two_runs :
    ∃ first second outcomes,
      parse '-' (.ofString "E64-P-DH-P") = .ok first ∧
      parse '-' (.ofString "PX--P-P") = .ok second ∧
      sessionIn Provider.scripted [(first, ['x']), (second, ['y'])]
          [['v'], ['w']] = (outcomes, []) ∧
      outcomes.flatMap Outcome.received = [['v'], ['w']] ∧
      (session Provider.scripted.recorded
          [(first, ['x']), (second, ['y'])]).run []
          [['v'], ['w']] =
        ((outcomes, [2, 1, 3]), []) := by
  let first : Chain :=
    { separator := '-'
      source := .ofString "E64-P-DH-P"
      tokens :=
        [Token.read 1 (.ofString "E64"), Token.read 2 ['P'],
          Token.read 3 ['D', 'H'], Token.read 4 ['P']] }
  let second : Chain :=
    { separator := '-'
      source := .ofString "PX--P-P"
      tokens :=
        [Token.read 1 ['P', 'X'], Token.read 2 [],
          Token.read 3 ['P'], Token.read 4 ['P']] }
  have hFirst :
      parse '-' (.ofString "E64-P-DH-P") = .ok first := by
    rfl
  have hSecond :
      parse '-' (.ofString "PX--P-P") = .ok second := by
    rfl
  let outcomes : List Outcome :=
    [.interrupted ⟨3, .decode ⟨.hex, .hex (.oddLength 1)⟩⟩
        ⟨['v'],
          [⟨1, .ofString "E64", .encoded .base64,
              .ofString "eA=="⟩,
            ⟨2, ['P'], .replaced, ['v']⟩], []⟩,
      .interrupted ⟨3, .provider (.noneLeft 3)⟩
        ⟨['w'],
          [⟨1, ['P', 'X'], .replaced, ['w']⟩,
            ⟨2, [], .skipped, ['w']⟩],
          [⟨2, [], .rejected .emptyToken⟩]⟩]
  have hSession :
      sessionIn Provider.scripted
          [(first, ['x']), (second, ['y'])] [['v'], ['w']] =
        (outcomes, []) := by
    decide +kernel
  have hReceived := (asks_in_session.2.2.2 _ _ _ _ hSession).1
  rw [List.append_nil] at hReceived
  have hLog := congrFun
    (asks_in_session.1 (StateM (List Text)) Provider.scripted
      [(first, ['x']), (second, ['y'])] []) [['v'], ['w']]
  refine ⟨first, second, outcomes, hFirst, hSecond, hSession,
    hReceived, ?_⟩
  rw [hLog]
  have hRun :
      session Provider.scripted
          [(first, ['x']), (second, ['y'])] [['v'], ['w']] =
        (outcomes, []) := hSession
  simp only [Functor.map, StateT.map, hRun]
  rfl

end Chain

end CodecChain

/-
  Results that are values or errors. A sequence of results is
  a value exactly if each of them is one; errors that are only
  renamed leave values alone, and errors in a sequence have
  what the errors of all its parts have. What is found in an
  input may settle what is found with more of the input there.

  Key definitions include:
    * `Except.FailsOnly`
    * `Except.Settles`

  Main statements:
    * `Except.bind_eq_ok_iff`
    * `Except.mapError_eq_ok_iff`
    * `Except.FailsOnly.bind`
    * `Except.Settles.bind`
-/

------------------------------------------------------------
-- Sequences and Errors
------------------------------------------------------------

namespace Except

variable {ε ε' α β : Type}

/- Results in sequence give a value if both of them do. -/
theorem bind_eq_ok_iff
    {x : Except ε α}
    {f : α → Except ε β}
    {b : β} :
    x >>= f = .ok b ↔ ∃ a, x = .ok a ∧ f a = .ok b := by
  cases x with
  | error e =>
      constructor
      · intro h
        cases h
      · rintro ⟨a, ha, -⟩
        cases ha
  | ok a =>
      constructor
      · intro h
        exact ⟨a, rfl, h⟩
      · rintro ⟨_, ⟨⟩, h⟩
        exact h

@[simp] theorem mapError_ok
    (f : ε → ε')
    (a : α) :
    (ok a).mapError f = ok a :=
  rfl

@[simp] theorem mapError_error
    (f : ε → ε')
    (e : ε) :
    (error e : Except ε α).mapError f = error (f e) :=
  rfl

/- Renaming errors leaves the values as they are. -/
theorem mapError_eq_ok_iff
    {x : Except ε α}
    {f : ε → ε'}
    {a : α} :
    x.mapError f = .ok a ↔ x = .ok a := by
  cases x <;> simp

theorem eq_ok_of_toOption
    {x : Except ε α}
    {a : α}
    (h : x.toOption = some a) :
    x = .ok a := by
  cases x with
  | error e => cases h
  | ok b =>
      cases h
      rfl

------------------------------------------------------------
-- Errors with a Property
------------------------------------------------------------

/- A result that is an error only with a property. -/
def FailsOnly
    (p : ε → Prop)
    (x : Except ε α) : Prop :=
  ∀ e, x = .error e → p e

namespace FailsOnly

variable {p : ε → Prop} {q : ε' → Prop} {x : Except ε α}

theorem ok (a : α) : FailsOnly p (.ok a) := by
  intro e h
  cases h

theorem error
    {e : ε}
    (h : p e) :
    FailsOnly p (.error e : Except ε α) := by
  intro e' hError
  cases hError
  exact h

/- Results in sequence fail as one of them does. -/
theorem bind
    {f : α → Except ε β}
    (hFirst : x.FailsOnly p)
    (hNext : ∀ a, x = .ok a → (f a).FailsOnly p) :
    (x >>= f).FailsOnly p := by
  cases hResult : x with
  | error e => exact error (hFirst e hResult)
  | ok a => exact hNext a hResult

theorem mapError
    {f : ε → ε'}
    (h : x.FailsOnly p)
    (hError : ∀ e, p e → q (f e)) :
    (x.mapError f).FailsOnly q := by
  cases hResult : x with
  | error e => exact error (hError e (h e hResult))
  | ok a => exact ok a

end FailsOnly

------------------------------------------------------------
-- Settled Results
------------------------------------------------------------

variable {lacks : ε → Prop} {lacks' : ε' → Prop}
variable {grow : α → α} {grow' : β → β}

/-
  A result settles the result with more input: a value is the
  same but for the input that has grown, and an error is the
  same unless it says that input is lacking.
-/
inductive Settles
    (lacks : ε → Prop)
    (grow : α → α) :
    Except ε α → Except ε α → Prop where
  | value
      (a : α) :
      Settles lacks grow (.ok a) (.ok (grow a))
  | error
      (e : ε) :
      Settles lacks grow (.error e) (.error e)
  | lack
      {e : ε}
      {x : Except ε α}
      (hLacks : lacks e) :
      Settles lacks grow (.error e) x

theorem Settles.eq_ok
    {a : α}
    {x : Except ε α}
    (h : Settles lacks grow (.ok a) x) :
    x = .ok (grow a) := by
  cases h
  rfl

theorem Settles.lacks_or_eq_error
    {e : ε}
    {x : Except ε α}
    (h : Settles lacks grow (.error e) x) :
    lacks e ∨ x = .error e := by
  cases h with
  | error => exact Or.inr rfl
  | lack hLacks => exact Or.inl hLacks

/- Results in sequence are settled one after the other. -/
theorem Settles.bind
    {x x' : Except ε α}
    {f f' : α → Except ε β}
    (hFirst : Settles lacks grow x x')
    (hNext : ∀ a, Settles lacks grow' (f a) (f' (grow a))) :
    Settles lacks grow' (x >>= f) (x' >>= f') := by
  cases hFirst with
  | value a => exact hNext a
  | error e => exact .error e
  | lack hLacks => exact .lack hLacks

theorem Settles.mapError
    {x x' : Except ε α}
    {f : ε → ε'}
    (h : Settles lacks grow x x')
    (hLacks : ∀ e, lacks e → lacks' (f e)) :
    Settles lacks' grow (x.mapError f) (x'.mapError f) := by
  cases h with
  | value a => exact .value a
  | error e => exact .error (f e)
  | lack h => exact .lack (hLacks _ h)

end Except

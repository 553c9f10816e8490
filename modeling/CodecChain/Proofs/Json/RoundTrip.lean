import Mathlib.Data.List.TakeWhile
import CodecChain.Json.Reader
import CodecChain.Proofs.Json.Quoting

/-
  Printed values are read back. The printed form of a value
  has the lexemes of the value, whatever the indentation, and
  these are read as the value; so no two values have the same
  printed form, as long as their numbers are numbers.

  Key definitions include:
    * `Json.IsProper`
    * `Json.lexemesOf`
    * `Json.EndsNumber`
    * `Json.Splits`
    * `Json.Reads`

  Main statements:
    * `Json.IsProper.lexemes?_printAt`
    * `Json.IsProper.readValue_lexemesOf`
    * `Json.IsProper.parse?_print`
-/

------------------------------------------------------------
-- Numbers
------------------------------------------------------------

namespace CodecChain

namespace Json

theorem isNumberChar_of_isDigit
    {c : Char}
    (h : isDigit c = true) :
    isNumberChar c = true := by
  simp [isNumberChar, h]

/- What holds of digits and of all after them holds of all. -/
theorem forall_mem_of_dropWhile
    {t : Text}
    (h :
      ∀ c ∈ t.dropWhile isDigit, isNumberChar c = true) :
    ∀ c ∈ t, isNumberChar c = true := by
  intro c hc
  rw [← List.takeWhile_append_dropWhile (p := isDigit) (l := t),
    List.mem_append] at hc
  rcases hc with hDigit | hLater
  · exact isNumberChar_of_isDigit
      (List.mem_takeWhile_imp hDigit)
  · exact h c hLater

theorem isNumberChar_of_isExponent
    {t : Text}
    (h : isExponent t = true) :
    ∀ c ∈ t, isNumberChar c = true := by
  cases t with
  | nil => exact nofun
  | cons e t =>
      simp only [isExponent, Bool.and_eq_true, Bool.or_eq_true,
        decide_eq_true_eq] at h
      rcases h with ⟨⟨hMark, -⟩, hDigits⟩
      rw [List.forall_mem_cons]
      constructor
      · rcases hMark with rfl | rfl
        · rfl
        · rfl
      · split at hDigits
        · rw [List.forall_mem_cons]
          exact ⟨rfl, fun c hc => isNumberChar_of_isDigit
            (List.all_eq_true.mp hDigits c hc)⟩
        · rw [List.forall_mem_cons]
          exact ⟨rfl, fun c hc => isNumberChar_of_isDigit
            (List.all_eq_true.mp hDigits c hc)⟩
        · exact fun c hc => isNumberChar_of_isDigit
            (List.all_eq_true.mp hDigits c hc)

theorem isNumberChar_of_isFraction
    {t : Text}
    (h : isFraction t = true) :
    ∀ c ∈ t, isNumberChar c = true := by
  unfold isFraction at h
  split at h
  · rw [Bool.and_eq_true] at h
    rw [List.forall_mem_cons]
    exact ⟨rfl, forall_mem_of_dropWhile
      (isNumberChar_of_isExponent h.2)⟩
  · exact isNumberChar_of_isExponent h

/- A number without a sign begins with a digit. -/
theorem exists_digit_of_isUnsigned
    {t : Text}
    (h : isUnsigned t = true) :
    ∃ c rest,
      t = c :: rest ∧ isDigit c = true ∧
        ∀ d ∈ rest, isNumberChar d = true := by
  unfold isUnsigned at h
  split at h
  · rename_i rest
    exact ⟨'0', rest, rfl, rfl, isNumberChar_of_isFraction h⟩
  · rename_i c rest _
    rw [Bool.and_eq_true] at h
    exact ⟨c, rest, rfl, h.1, forall_mem_of_dropWhile
      (isNumberChar_of_isFraction h.2)⟩
  · cases h

/- A number begins with a digit or a sign. -/
theorem exists_cons_of_isNumber
    {literal : Text}
    (h : isNumber literal = true) :
    ∃ c rest,
      literal = c :: rest ∧ (isDigit c = true ∨ c = '-') ∧
        ∀ d ∈ rest, isNumberChar d = true := by
  unfold isNumber at h
  split at h
  · rename_i rest
    rcases exists_digit_of_isUnsigned h with
      ⟨c, digits, rfl, hDigit, hRest⟩
    refine ⟨'-', _, rfl, Or.inr rfl, ?_⟩
    rw [List.forall_mem_cons]
    exact ⟨isNumberChar_of_isDigit hDigit, hRest⟩
  · rcases exists_digit_of_isUnsigned h with
      ⟨c, rest, rfl, hDigit, hRest⟩
    exact ⟨c, rest, rfl, Or.inl hDigit, hRest⟩

------------------------------------------------------------
-- Lexemes of Values
------------------------------------------------------------

/- A value whose numbers are numbers. -/
inductive IsProper : Json → Prop where
  | null :
      IsProper null
  | bool
      (b : Bool) :
      IsProper (bool b)
  | number
      {literal : Text}
      (hNumber : isNumber literal = true) :
      IsProper (number literal)
  | string
      (s : Option Text) :
      IsProper (string s)
  | array
      {items : List Json}
      (hItems : ∀ item ∈ items, IsProper item) :
      IsProper (array items)
  | object
      {members : List (Option Text × Json)}
      (hMembers : ∀ member ∈ members, IsProper member.2) :
      IsProper (object members)

mutual

/- The lexemes of a value. -/
def lexemesOf : Json → List Lexeme
  | null => [.null]
  | bool b => [.bool b]
  | number literal => [.number literal]
  | string s => [.string s]
  | array [] => [.openArray, .closeArray]
  | array (item :: items) =>
      .openArray :: lexemesOf item ++ itemLexemes items ++
        [.closeArray]
  | object [] => [.openObject, .closeObject]
  | object ((key, value) :: members) =>
      .openObject :: .string key :: .colon :: lexemesOf value ++
        memberLexemes members ++ [.closeObject]

/- The lexemes of the items of an array after the first one. -/
def itemLexemes : List Json → List Lexeme
  | [] => []
  | item :: items =>
      .comma :: lexemesOf item ++ itemLexemes items

/- The lexemes of the members of an object after the first. -/
def memberLexemes : List (Option Text × Json) → List Lexeme
  | [] => []
  | (key, value) :: members =>
      .comma :: .string key :: .colon :: lexemesOf value ++
        memberLexemes members

end

------------------------------------------------------------
-- Splitting
------------------------------------------------------------

/- A text at the beginning of which a number has ended. -/
def EndsNumber (t : Text) : Prop :=
  ∀ c ∈ t.head?, isNumberChar c = false

theorem lexemes?_cons_of_lexeme
    {c : Char}
    {t rest : Text}
    {lexeme : Lexeme}
    (hSpace : isSpace c = false)
    (h : lexeme? c t = some (lexeme, rest)) :
    lexemes? (c :: t) = (lexemes? rest).map (lexeme :: ·) := by
  rw [lexemes?, hSpace, if_neg Bool.false_ne_true]
  split <;> simp_all

theorem lexemes?_mark
    {c : Char}
    {mark : Lexeme}
    (t : Text)
    (hSpace : isSpace c = false)
    (h : mark? c = some mark) :
    lexemes? (c :: t) = (lexemes? t).map (mark :: ·) := by
  apply lexemes?_cons_of_lexeme hSpace
  rw [lexeme?, h]

theorem lexemes?_space
    {c : Char}
    (t : Text)
    (hSpace : isSpace c = true) :
    lexemes? (c :: t) = lexemes? t := by
  rw [lexemes?, hSpace, if_pos rfl]

/- White space before a text does not count. -/
theorem lexemes?_blank_append
    {blank : Text}
    (t : Text)
    (h : ∀ c ∈ blank, isSpace c = true) :
    lexemes? (blank ++ t) = lexemes? t := by
  induction blank with
  | nil => rfl
  | cons c blank ih =>
      rw [List.forall_mem_cons] at h
      rw [List.cons_append, lexemes?_space _ h.1, ih h.2]

theorem lexemes?_newLine_append
    (level : Nat)
    (t : Text) :
    lexemes? (newLine level ++ t) = lexemes? t := by
  apply lexemes?_blank_append
  rw [newLine, List.forall_mem_cons]
  refine ⟨rfl, ?_⟩
  intro c hc
  rw [List.eq_of_mem_replicate hc]
  rfl

theorem lexemes?_quote_append
    (s : Option Text)
    (t : Text) :
    lexemes? (quote s ++ t) =
      (lexemes? t).map (.string s :: ·) := by
  have hQuote : quote s ++ t = '"' :: (quoted s ++ '"' :: t) := by
    simp [quote]
  rw [hQuote]
  exact lexemes?_cons_of_lexeme rfl (lexeme?_quoted s t)

/- The first character of a number begins nothing else. -/
theorem lexeme?_of_number
    {c : Char}
    (t : Text)
    (h : isDigit c = true ∨ c = '-') :
    isSpace c = false ∧ lexeme? c t = number? c t := by
  rcases h with hDigit | rfl
  · have hNe : ∀ {d}, isDigit d = false → c ≠ d := by
      rintro d hOther rfl
      rw [hDigit] at hOther
      cases hOther
    have hMark : mark? c = none := by
      rw [mark?, if_neg (hNe rfl), if_neg (hNe rfl),
        if_neg (hNe rfl), if_neg (hNe rfl), if_neg (hNe rfl),
        if_neg (hNe rfl)]
    constructor
    · simp [isSpace, hNe (d := ' ') rfl, hNe (d := '\t') rfl,
        hNe (d := '\n') rfl, hNe (d := '\r') rfl]
    · rw [lexeme?, hMark]
      dsimp only
      rw [if_neg (hNe rfl), if_neg (hNe rfl),
        if_neg (hNe rfl), if_neg (hNe rfl)]
  · exact ⟨rfl, rfl⟩

theorem lexemes?_number_append
    {literal t : Text}
    (hNumber : isNumber literal = true)
    (hEnds : EndsNumber t) :
    lexemes? (literal ++ t) =
      (lexemes? t).map (.number literal :: ·) := by
  rcases exists_cons_of_isNumber hNumber with
    ⟨c, rest, rfl, hFirst, hRest⟩
  have hTake : (rest ++ t).takeWhile isNumberChar = rest := by
    rw [List.takeWhile_append_of_pos hRest]
    cases t with
    | nil => simp
    | cons d t => simp [hEnds d rfl]
  have hDrop : (rest ++ t).dropWhile isNumberChar = t := by
    rw [List.dropWhile_append_of_pos hRest]
    cases t with
    | nil => rfl
    | cons d t => simp [hEnds d rfl]
  have hRead :
      number? c (rest ++ t) = some (.number (c :: rest), t) := by
    simp only [number?, hTake, hDrop, hNumber, if_true]
  rcases lexeme?_of_number (rest ++ t) hFirst with
    ⟨hSpace, hLexeme⟩
  rw [List.cons_append]
  exact lexemes?_cons_of_lexeme hSpace (hLexeme.trans hRead)

theorem lexemes?_word_append
    {c : Char}
    {lexeme : Lexeme}
    (word t : Text)
    (hSpace : isSpace c = false)
    (h : lexeme? c (word ++ t) = some (lexeme, t)) :
    lexemes? (c :: word ++ t) =
      (lexemes? t).map (lexeme :: ·) :=
  lexemes?_cons_of_lexeme hSpace h

------------------------------------------------------------
-- Lexemes of Printed Values
------------------------------------------------------------

/- A printed value is split into its lexemes. -/
def Splits (value : Json) : Prop :=
  ∀ level t,
    EndsNumber t →
      lexemes? (printAt level value ++ t) =
        (lexemes? t).map (lexemesOf value ++ ·)

theorem endsNumber_newLine_append
    (level : Nat)
    (t : Text) :
    EndsNumber (newLine level ++ t) := by
  rintro c ⟨⟩
  rfl

theorem endsNumber_printItems_append
    {t : Text}
    (level : Nat)
    (items : List Json)
    (hEnds : EndsNumber t) :
    EndsNumber (printItems level items ++ t) := by
  cases items with
  | nil => exact hEnds
  | cons item items =>
      rintro c ⟨⟩
      rfl

theorem endsNumber_printMembers_append
    {t : Text}
    (level : Nat)
    (members : List (Option Text × Json))
    (hEnds : EndsNumber t) :
    EndsNumber (printMembers level members ++ t) := by
  cases members with
  | nil => exact hEnds
  | cons member members =>
      rintro c ⟨⟩
      rfl

theorem lexemes?_printItems_append
    {items : List Json}
    {t : Text}
    (level : Nat)
    (hItems : ∀ item ∈ items, Splits item)
    (hEnds : EndsNumber t) :
    lexemes? (printItems level items ++ t) =
      (lexemes? t).map (itemLexemes items ++ ·) := by
  induction items with
  | nil =>
      rw [printItems, itemLexemes]
      simp
  | cons item items ih =>
      rw [List.forall_mem_cons] at hItems
      have hLater :=
        endsNumber_printItems_append level items hEnds
      simp only [printItems, itemLexemes, List.append_assoc,
        List.cons_append, List.nil_append,
        lexemes?_mark _ (rfl : isSpace ',' = false) rfl,
        lexemes?_newLine_append,
        hItems.1 level _ hLater, ih hItems.2, Option.map_map]
      rfl

theorem lexemes?_printMembers_append
    {members : List (Option Text × Json)}
    {t : Text}
    (level : Nat)
    (hMembers : ∀ member ∈ members, Splits member.2)
    (hEnds : EndsNumber t) :
    lexemes? (printMembers level members ++ t) =
      (lexemes? t).map (memberLexemes members ++ ·) := by
  induction members with
  | nil =>
      rw [printMembers, memberLexemes]
      simp
  | cons member members ih =>
      rw [List.forall_mem_cons] at hMembers
      have hLater :=
        endsNumber_printMembers_append level members hEnds
      simp only [printMembers, memberLexemes, List.append_assoc,
        List.cons_append, List.nil_append,
        lexemes?_mark _ (rfl : isSpace ',' = false) rfl,
        lexemes?_mark _ (rfl : isSpace ':' = false) rfl,
        lexemes?_space _ (rfl : isSpace ' ' = true),
        lexemes?_newLine_append, lexemes?_quote_append,
        hMembers.1 level _ hLater, ih hMembers.2,
        Option.map_map]
      rfl

theorem IsProper.splits
    {value : Json}
    (h : IsProper value) :
    Splits value := by
  intro level t hEnds
  -- Only a number needs the text after it, which goes on with
  -- a mark or a new line wherever a value is printed.
  induction h generalizing level t with
  | null =>
      exact lexemes?_word_append ['u', 'l', 'l'] t rfl rfl
  | bool b =>
      cases b with
      | true =>
          exact lexemes?_word_append ['r', 'u', 'e'] t rfl rfl
      | false =>
          exact lexemes?_word_append ['a', 'l', 's', 'e'] t rfl
            rfl
  | number hNumber =>
      exact lexemes?_number_append hNumber hEnds
  | string s =>
      exact lexemes?_quote_append s t
  | @array items _ ih =>
      cases items with
      | nil =>
          simp only [printAt, lexemesOf, List.cons_append,
            List.nil_append,
            lexemes?_mark _ (rfl : isSpace '[' = false) rfl,
            lexemes?_mark _ (rfl : isSpace ']' = false) rfl,
            Option.map_map]
          rfl
      | cons item items =>
          have hNewLine := endsNumber_newLine_append level
            (']' :: t)
          have hItems :=
            endsNumber_printItems_append (level + 1) items hNewLine
          rw [List.forall_mem_cons] at ih
          simp only [printAt, lexemesOf, List.append_assoc,
            List.cons_append, List.nil_append,
            lexemes?_mark _ (rfl : isSpace '[' = false) rfl,
            lexemes?_mark _ (rfl : isSpace ']' = false) rfl,
            lexemes?_newLine_append, ih.1 _ _ hItems,
            lexemes?_printItems_append _ ih.2 hNewLine,
            Option.map_map]
          rfl
  | @object members _ ih =>
      cases members with
      | nil =>
          simp only [printAt, lexemesOf, List.cons_append,
            List.nil_append,
            lexemes?_mark _ (rfl : isSpace '{' = false) rfl,
            lexemes?_mark _ (rfl : isSpace '}' = false) rfl,
            Option.map_map]
          rfl
      | cons member members =>
          have hNewLine := endsNumber_newLine_append level
            ('}' :: t)
          have hMembers :=
            endsNumber_printMembers_append (level + 1) members hNewLine
          rw [List.forall_mem_cons] at ih
          simp only [printAt, lexemesOf, List.append_assoc,
            List.cons_append, List.nil_append,
            lexemes?_mark _ (rfl : isSpace '{' = false) rfl,
            lexemes?_mark _ (rfl : isSpace '}' = false) rfl,
            lexemes?_mark _ (rfl : isSpace ':' = false) rfl,
            lexemes?_space _ (rfl : isSpace ' ' = true),
            lexemes?_newLine_append, lexemes?_quote_append,
            ih.1 _ _ hMembers,
            lexemes?_printMembers_append _ ih.2 hNewLine,
            Option.map_map]
          rfl

/- The lexemes of a printed value are its lexemes. -/
theorem IsProper.lexemes?_printAt
    {value : Json}
    (h : IsProper value)
    (level : Nat) :
    lexemes? (printAt level value) = some (lexemesOf value) := by
  have hSplits := h.splits level [] nofun
  rw [List.append_nil] at hSplits
  rw [hSplits, lexemes?]
  simp

------------------------------------------------------------
-- Reading
------------------------------------------------------------

/- A value does not begin with a mark that ends a value. -/
theorem exists_cons_of_lexemesOf
    (value : Json) :
    ∃ first later,
      lexemesOf value = first :: later ∧
        first ≠ .closeArray := by
  fun_cases lexemesOf value <;>
    exact ⟨_, _, rfl, nofun⟩

/- The first item of an array is read as its first item. -/
theorem readValue_openArray
    (stack : List Open)
    (item : Json)
    (rest : List Lexeme) :
    readValue stack (.openArray :: (lexemesOf item ++ rest)) =
      readValue (.array [] :: stack) (lexemesOf item ++ rest) := by
  rcases exists_cons_of_lexemesOf item with
    ⟨first, later, hFirst, hOpen⟩
  rw [hFirst, List.cons_append]
  cases first with
  | closeArray => exact absurd rfl hOpen
  | _ => rw [readValue.eq_def]

/- A further item of an array is not taken for a key. -/
theorem afterValue_comma
    {rest : List Lexeme}
    (stack : List Open)
    (done : List Json)
    (value item : Json)
    (hRest : rest.head? ≠ some .colon) :
    afterValue (.array done :: stack) value
        (.comma :: (lexemesOf item ++ rest)) =
      readValue (.array (value :: done) :: stack)
        (lexemesOf item ++ rest) := by
  have hKey :
      ∀ key later,
        lexemesOf item ++ rest ≠ .string key :: .colon :: later := by
    intro key later hSame
    cases item with
    | string s =>
        rw [lexemesOf, List.cons_append, List.nil_append] at hSame
        have hColon := congrArg List.head? (List.cons.inj hSame).2
        exact hRest hColon
    | array items => cases items <;> cases hSame
    | object members => cases members <;> cases hSame
    | _ => cases hSame
  rw [afterValue]
  exact hKey

/- A further member of an object is read after its key. -/
theorem afterValue_comma_key
    (stack : List Open)
    (done : List (Option Text × Json))
    (last key : Option Text)
    (value : Json)
    (rest : List Lexeme) :
    afterValue (.object done last :: stack) value
        (.comma :: .string key :: .colon :: rest) =
      readValue (.object ((last, value) :: done) key :: stack)
        rest := by
  rw [afterValue.eq_def]

theorem head?_itemLexemes_append
    (items : List Json)
    (rest : List Lexeme) :
    (itemLexemes items ++ .closeArray :: rest).head? ≠
      some .colon := by
  cases items with
  | nil => exact nofun
  | cons item items => exact nofun

/- What a value is read as, whatever waits for it. -/
def Reads (value : Json) : Prop :=
  ∀ stack rest,
    readValue stack (lexemesOf value ++ rest) =
      afterValue stack value rest

theorem afterValue_itemLexemes
    {items : List Json}
    (stack : List Open)
    (done : List Json)
    (value : Json)
    (rest : List Lexeme)
    (hItems : ∀ item ∈ items, Reads item) :
    afterValue (.array done :: stack) value
        (itemLexemes items ++ .closeArray :: rest) =
      afterValue stack (.array (done.reverse ++ value :: items))
        rest := by
  induction items generalizing done value with
  | nil =>
      rw [itemLexemes, List.nil_append, afterValue,
        List.reverse_cons]
  | cons item items ih =>
      rw [List.forall_mem_cons] at hItems
      have hHead := head?_itemLexemes_append items rest
      rw [itemLexemes, List.cons_append, List.cons_append,
        List.append_assoc, afterValue_comma _ _ _ _ hHead,
        hItems.1, ih _ _ hItems.2, List.reverse_cons,
        List.append_assoc]
      rfl

theorem afterValue_memberLexemes
    {members : List (Option Text × Json)}
    (stack : List Open)
    (done : List (Option Text × Json))
    (key : Option Text)
    (value : Json)
    (rest : List Lexeme)
    (hMembers : ∀ member ∈ members, Reads member.2) :
    afterValue (.object done key :: stack) value
        (memberLexemes members ++ .closeObject :: rest) =
      afterValue stack
        (.object (done.reverse ++ (key, value) :: members))
        rest := by
  induction members generalizing done key value with
  | nil =>
      rw [memberLexemes, List.nil_append, afterValue,
        List.reverse_cons]
  | cons member members ih =>
      rw [List.forall_mem_cons] at hMembers
      simp only [memberLexemes, List.append_assoc,
        List.cons_append]
      rw [afterValue_comma_key, hMembers.1,
        ih _ _ _ hMembers.2, List.reverse_cons,
        List.append_assoc]
      rfl

/- The lexemes of a value are read as the value. -/
theorem IsProper.readValue_lexemesOf
    {value : Json}
    (h : IsProper value) :
    Reads value := by
  -- Items are read with their array on the stack, so the
  -- induction is over any stack.
  intro stack rest
  induction h generalizing stack rest with
  | null => rw [lexemesOf, List.cons_append, readValue]; rfl
  | bool b => rw [lexemesOf, List.cons_append, readValue]; rfl
  | number => rw [lexemesOf, List.cons_append, readValue]; rfl
  | string s => rw [lexemesOf, List.cons_append, readValue]; rfl
  | @array items _ ih =>
      cases items with
      | nil =>
          rw [lexemesOf, List.cons_append, List.cons_append,
            readValue]
          rfl
      | cons item items =>
          rw [List.forall_mem_cons] at ih
          simp only [lexemesOf, List.append_assoc,
            List.cons_append, List.nil_append]
          rw [readValue_openArray, ih.1,
            afterValue_itemLexemes _ _ _ _ ih.2]
          rfl
  | @object members _ ih =>
      cases members with
      | nil =>
          rw [lexemesOf, List.cons_append, List.cons_append,
            readValue]
          rfl
      | cons member members =>
          rw [List.forall_mem_cons] at ih
          simp only [lexemesOf, List.append_assoc,
            List.cons_append, List.nil_append]
          rw [readValue, ih.1,
            afterValue_memberLexemes _ _ _ _ _ ih.2]
          rfl

/- A printed value is read back. -/
theorem IsProper.parse?_print
    {value : Json}
    (h : IsProper value) :
    parse? value.print = some value := by
  have hRead := h.readValue_lexemesOf [] []
  rw [List.append_nil] at hRead
  rw [parse?, print, h.lexemes?_printAt]
  exact hRead

------------------------------------------------------------
-- Proper Values
------------------------------------------------------------

theorem isDigit_digitChar
    {n : Nat}
    (h : n < 10) :
    isDigit (Nat.digitChar n) = true := by
  decide +revert

/- Digits are a number if the first one is no zero. -/
theorem isNumber_of_digits
    {c : Char}
    {rest : Text}
    (hDigit : isDigit c = true)
    (hZero : c ≠ '0')
    (hRest : ∀ d ∈ rest, isDigit d = true) :
    isNumber (c :: rest) = true := by
  have hSign : c ≠ '-' := by
    rintro rfl
    cases hDigit
  have hEnd : rest.dropWhile isDigit = [] :=
    List.dropWhile_eq_nil_iff.mpr hRest
  rw [isNumber]
  · rw [isUnsigned, hDigit, hEnd]
    · rfl
    · exact hZero
  · exact fun _ hSame => hSign (List.cons.inj hSame).1

/- The digits of a positive number begin with no zero. -/
theorem exists_cons_of_toDigits
    {n : Nat}
    (h : 0 < n) :
    ∃ c rest,
      Nat.toDigits 10 n = c :: rest ∧ isDigit c = true ∧
        c ≠ '0' ∧ ∀ d ∈ rest, isDigit d = true := by
  induction n using Nat.strongRecOn with
  | ind n ih =>
      by_cases hSmall : n < 10
      · refine ⟨Nat.digitChar n, [], ?_, ?_, ?_,
          List.forall_mem_nil _⟩
        · exact Nat.toDigits_of_lt_base hSmall
        · exact isDigit_digitChar hSmall
        · rw [Ne, Nat.digitChar_eq_zero]
          omega
      · rcases ih (n / 10) (by omega) (by omega) with
          ⟨c, rest, hDigits, hFirst, hZero, hRest⟩
        have hLast : isDigit (Nat.digitChar (n % 10)) = true :=
          isDigit_digitChar (Nat.mod_lt n (by decide))
        refine ⟨c, rest ++ [Nat.digitChar (n % 10)], ?_,
          hFirst, hZero, ?_⟩
        · rw [Nat.toDigits_of_base_le (by decide) (by omega),
            hDigits]
          rfl
        · rw [List.forall_mem_append, List.forall_mem_singleton]
          exact ⟨hRest, hLast⟩

theorem isProper_ofNat (n : Nat) : IsProper (ofNat n) := by
  apply IsProper.number
  rcases Nat.eq_zero_or_pos n with rfl | hPos
  · rfl
  · rcases exists_cons_of_toDigits hPos with
      ⟨c, rest, hDigits, hFirst, hZero, hRest⟩
    rw [hDigits]
    exact isNumber_of_digits hFirst hZero hRest

theorem isProper_text (t : Text) : IsProper (text t) :=
  .string (some t)

theorem isProper_ofText? (t : Option Text) :
    IsProper (ofText? t) := by
  cases t with
  | none => exact .null
  | some t => exact isProper_text t

theorem isProper_record
    {members : List (String × Json)}
    (h : ∀ member ∈ members, IsProper member.2) :
    IsProper (record members) := by
  apply IsProper.object
  rw [List.forall_mem_map]
  exact h

theorem isProper_map
    {α : Type}
    {toJson : α → Json}
    (items : List α)
    (h : ∀ item, IsProper (toJson item)) :
    IsProper (array (items.map toJson)) := by
  apply IsProper.array
  rw [List.forall_mem_map]
  exact fun item _ => h item

end Json

end CodecChain

import Mathlib.Data.List.Chain
import CodecChain.Proofs.Json.Numerals
import CodecChain.Proofs.Json.RoundTrip

/-
  The grammar of JSON text. A value has many texts: there may
  be any white space around its lexemes, and a character of a
  string may be itself, a letter after a backslash, or one or
  two numbers of sixteen bits. All texts of a value are read
  as the value.

  Key definitions include:
    * `Json.IsEscape`
    * `Json.Part.Spells`
    * `Json.Part.Mean`
    * `Json.Lexeme.Spells`
    * `Json.Spells`

  Main statements:
    * `Json.Part.SpellAll.joinParts_eq_some_iff`
    * `Json.Lexeme.SpellAll.lexemes?_eq`
    * `Json.Spells.parse?_eq`
-/

namespace CodecChain

namespace Json

------------------------------------------------------------
-- Strings and Their Parts
------------------------------------------------------------

/- The letters after a backslash, and what they stand for. -/
def letters : List (Char × Char) :=
  [('"', '"'), ('\\', '\\'), ('/', '/'), ('b', '\x08'),
   ('f', '\x0c'), ('n', '\n'), ('r', '\r'), ('t', '\t')]

/- The hexadecimal digits of a number, small and capital. -/
def IsHexDigit (n : Nat) (c : Char) : Prop :=
  n < 16 ∧ c ∈ [Nat.digitChar n, (Nat.digitChar n).toUpper]

instance (n : Nat) (c : Char) : Decidable (IsHexDigit n c) := by
  unfold IsHexDigit
  infer_instance

/- The escapes of a number of sixteen bits: four digits. -/
inductive IsEscape (n : Nat) : Text → Prop where
  | digits
      {k l m o : Nat}
      {a b c d : Char}
      (hA : IsHexDigit k a)
      (hB : IsHexDigit l b)
      (hC : IsHexDigit m c)
      (hD : IsHexDigit o d)
      (hNumber : n = k * 4096 + l * 256 + m * 16 + o) :
      IsEscape n ['\\', 'u', a, b, c, d]

namespace Part

/- How a part is written between quotes. -/
inductive Spells : Part → Text → Prop where
  | itself
      {c : Char}
      (hBlank : 0x20 ≤ c.toNat)
      (hQuote : c ≠ '"')
      (hBackslash : c ≠ '\\') :
      Spells (.char c) [c]
  | letter
      {letter c : Char}
      (hLetter : (letter, c) ∈ letters) :
      Spells (.char c) ['\\', letter]
  | escape
      {n : Nat}
      {t : Text}
      (hEscape : IsEscape n t) :
      Spells (.unit n) t

/- How parts are written one after the other. -/
inductive SpellAll : List Part → Text → Prop where
  | nil :
      SpellAll [] []
  | cons
      {part : Part}
      {parts : List Part}
      {front rest : Text}
      (hFirst : part.Spells front)
      (hLater : SpellAll parts rest) :
      SpellAll (part :: parts) (front ++ rest)

/-
  The text that parts stand for. A character may be given as
  itself, by its number, or, if that takes more than sixteen
  bits, by two halves; other halves stand for nothing.
-/
inductive Mean : List Part → Text → Prop where
  | nil :
      Mean [] []
  | char
      {parts : List Part}
      {t : Text}
      (c : Char)
      (hLater : Mean parts t) :
      Mean (.char c :: parts) (c :: t)
  | unit
      {parts : List Part}
      {t : Text}
      (c : Char)
      (hLater : Mean parts t) :
      Mean (.unit c.toNat :: parts) (c :: t)
  | halves
      {parts : List Part}
      {t : Text}
      {c : Char}
      {n m : Nat}
      (hFirst : n < 0x400)
      (hSecond : m < 0x400)
      (hNumber : c.toNat = 0x10000 + n * 0x400 + m)
      (hLater : Mean parts t) :
      Mean (.unit (0xd800 + n) :: .unit (0xdc00 + m) :: parts)
        (c :: t)

end Part

------------------------------------------------------------
-- Reading Parts
------------------------------------------------------------

theorem unescape_of_mem
    {letter c : Char}
    (h : (letter, c) ∈ letters) :
    unescape letter = some c ∧ letter ≠ 'u' := by
  simp only [letters, List.mem_cons, Prod.mk.injEq,
    List.not_mem_nil, or_false] at h
  rcases h with ⟨rfl, rfl⟩ | ⟨rfl, rfl⟩ | ⟨rfl, rfl⟩ |
    ⟨rfl, rfl⟩ | ⟨rfl, rfl⟩ | ⟨rfl, rfl⟩ | ⟨rfl, rfl⟩ |
    ⟨rfl, rfl⟩ <;> decide

theorem digit?_of_isHexDigit
    {n : Nat}
    {c : Char}
    (h : IsHexDigit n c) :
    digit? c = some n := by
  have hBoth :
      ∀ n < 16,
        digit? (Nat.digitChar n) = some n ∧
          digit? (Nat.digitChar n).toUpper = some n := by
    decide
  rcases h with ⟨hSmall, hMem⟩
  simp only [List.mem_cons, List.not_mem_nil, or_false] at hMem
  rcases hMem with rfl | rfl
  · exact (hBoth n hSmall).1
  · exact (hBoth n hSmall).2

variable {parts : List Part} {n : Nat} {t rest : Text}

/- An escape is read as its number. -/
theorem IsEscape.parts?_append
    (h : IsEscape n t)
    (rest : Text) :
    parts? (t ++ rest) =
      (parts? rest).map fun p => (.unit n :: p.1, p.2) := by
  cases h with
  | @digits k l m o a b c d hA hB hC hD hNumber =>
      have hUnit : unit? a b c d = some n := by
        simp only [unit?, digit?_of_isHexDigit hA,
          digit?_of_isHexDigit hB, digit?_of_isHexDigit hC,
          digit?_of_isHexDigit hD]
        exact congrArg some (by omega)
      simp only [List.cons_append, List.nil_append]
      rw [parts?, hUnit]
      cases parts? rest <;> rfl

theorem Part.Spells.parts?_append
    {part : Part}
    (h : part.Spells t)
    (rest : Text) :
    parts? (t ++ rest) =
      (parts? rest).map fun p => (part :: p.1, p.2) := by
  cases h with
  | itself hBlank hQuote hBackslash =>
      exact parts?_raw rest hQuote hBackslash hBlank
  | letter hLetter =>
      rcases unescape_of_mem hLetter with ⟨hChar, hOther⟩
      exact parts?_letter rest hOther hChar
  | escape hEscape => exact hEscape.parts?_append rest

/- Written parts are read up to the quote that ends them. -/
theorem Part.SpellAll.parts?_append_quote
    (h : Part.SpellAll parts t)
    (rest : Text) :
    parts? (t ++ '"' :: rest) = some (parts, rest) := by
  induction h with
  | nil => rfl
  | cons hFirst _ ih =>
      rw [List.append_assoc, hFirst.parts?_append, ih]
      rfl

------------------------------------------------------------
-- What Parts Stand For
------------------------------------------------------------

/- The halves of a character are joined to the character. -/
theorem joinParts_halves
    {c : Char}
    {n m : Nat}
    (parts : List Part)
    (hFirst : n < 0x400)
    (hSecond : m < 0x400)
    (hNumber : c.toNat = 0x10000 + n * 0x400 + m) :
    joinParts
        (.unit (0xd800 + n) :: .unit (0xdc00 + m) :: parts) =
      (joinParts parts).map (c :: ·) := by
  have hHalves :
      isFirstHalf (0xd800 + n) = true ∧
        isSecondHalf (0xdc00 + m) = true := by
    simp only [isFirstHalf, isSecondHalf, Bool.and_eq_true,
      decide_eq_true_eq]
    omega
  have hChar :
      Char.ofNat
          (0x10000 + (0xd800 + n - 0xd800) * 0x400 +
            (0xdc00 + m - 0xdc00)) = c := by
    rw [Nat.add_sub_cancel_left, Nat.add_sub_cancel_left,
      ← hNumber, Char.ofNat_toNat]
  rw [joinParts, if_pos hHalves.1, if_pos hHalves.2, hChar]

theorem Part.Mean.joinParts_eq
    (h : Part.Mean parts t) :
    joinParts parts = some t := by
  induction h with
  | nil => rfl
  | char c _ ih =>
      rw [joinParts, ih]
      rfl
  | unit c _ ih =>
      rw [joinParts_unit_cons, ih]
      rfl
  | halves hFirst hSecond hNumber _ ih =>
      rw [joinParts_halves _ hFirst hSecond hNumber, ih]
      rfl

/- The characters that need no escape. -/
def isPlain (c : Char) : Bool :=
  0x20 ≤ c.toNat && c ≠ '"' && c ≠ '\\'

/- Characters that need no escape are written as they are. -/
theorem Part.SpellAll.plain
    (h : t.all isPlain = true) :
    Part.SpellAll (t.map .char) t := by
  induction t with
  | nil => exact .nil
  | cons c t ih =>
      simp only [List.all_cons, isPlain, Bool.and_eq_true,
        decide_eq_true_eq] at h
      rcases h with ⟨⟨⟨hBlank, hQuote⟩, hBackslash⟩, hLater⟩
      exact .cons (.itself hBlank hQuote hBackslash) (ih hLater)

theorem Part.mean_map_char (t : Text) :
    Part.Mean (t.map .char) t := by
  induction t with
  | nil => exact .nil
  | cons c t ih => exact .char c ih

/- Escapes have numbers of sixteen bits. -/
theorem IsEscape.lt
    (h : IsEscape n t) :
    n < 0x10000 := by
  cases h with
  | digits hA hB hC hD hNumber =>
      have hBounds := And.intro hA.1 (And.intro hB.1
        (And.intro hC.1 hD.1))
      omega

/- What is written for half a character is an escape. -/
theorem isEscape_half :
    IsEscape 0xd800 half :=
  .digits (k := 0xd) (l := 8) (m := 0) (o := 0)
    (by decide) (by decide) (by decide) (by decide) rfl

/- A part that is no number of more than sixteen bits. -/
def Part.IsSmall : Part → Prop
  | char _ => True
  | unit n => n < 0x10000

theorem Part.SpellAll.isSmall_of_mem
    (h : Part.SpellAll parts t) :
    ∀ part ∈ parts, part.IsSmall := by
  induction h with
  | nil => exact List.forall_mem_nil _
  | cons hFirst _ ih =>
      rw [List.forall_mem_cons]
      refine ⟨?_, ih⟩
      cases hFirst with
      | itself => trivial
      | letter => trivial
      | escape hEscape => exact hEscape.lt

theorem toNat_ofNat_of_isValidChar
    (h : n.isValidChar) :
    (Char.ofNat n).toNat = n := by
  rw [Char.ofNat, dif_pos h]
  rfl

/- A number of sixteen bits that is no half is a character. -/
theorem Part.Mean.unit_cons
    (hLater : Part.Mean parts t)
    (hSmall : n < 0x10000)
    (hFirst : isFirstHalf n = false)
    (hSecond : isSecondHalf n = false) :
    Part.Mean (.unit n :: parts) (Char.ofNat n :: t) := by
  have hValid : n.isValidChar := by
    simp only [isFirstHalf, isSecondHalf, Bool.and_eq_false_iff,
      decide_eq_false_iff_not] at hFirst hSecond
    unfold Nat.isValidChar
    omega
  have hUnit := Part.Mean.unit (Char.ofNat n) hLater
  rw [toNat_ofNat_of_isValidChar hValid] at hUnit
  exact hUnit

/- Two halves in order are a character. -/
theorem Part.Mean.halves_cons
    {m : Nat}
    (hLater : Part.Mean parts t)
    (hFirst : isFirstHalf n = true)
    (hSecond : isSecondHalf m = true) :
    Part.Mean (.unit n :: .unit m :: parts)
      (Char.ofNat
        (0x10000 + (n - 0xd800) * 0x400 + (m - 0xdc00)) ::
          t) := by
  simp only [isFirstHalf, isSecondHalf, Bool.and_eq_true,
    decide_eq_true_eq] at hFirst hSecond
  have hValid :
      (0x10000 + (n - 0xd800) * 0x400 +
        (m - 0xdc00)).isValidChar := by
    unfold Nat.isValidChar
    omega
  have hHalves := Part.Mean.halves (by omega) (by omega)
    (toNat_ofNat_of_isValidChar hValid) hLater
  rw [Nat.add_sub_cancel' hFirst.1,
    Nat.add_sub_cancel' hSecond.1] at hHalves
  exact hHalves

/- What parts are joined to is what they stand for. -/
theorem Part.mean_of_joinParts
    (hSmall : ∀ part ∈ parts, part.IsSmall)
    (h : joinParts parts = some t) :
    Part.Mean parts t := by
  fun_induction joinParts parts generalizing t with
  | case1 =>
      cases h
      exact .nil
  | case2 c parts ih =>
      rcases Option.map_eq_some_iff.mp h with ⟨u, hLater, rfl⟩
      rw [List.forall_mem_cons] at hSmall
      exact .char c (ih hSmall.2 hLater)
  | case3 n m parts hFirst hSecond ih =>
      rcases Option.map_eq_some_iff.mp h with ⟨u, hLater, rfl⟩
      rw [List.forall_mem_cons, List.forall_mem_cons] at hSmall
      exact (ih hSmall.2.2 hLater).halves_cons hFirst hSecond
  | case4 => cases h
  | case5 => cases h
  | case6 n m parts hFirst hSecond ih =>
      rcases Option.map_eq_some_iff.mp h with ⟨u, hLater, rfl⟩
      rw [List.forall_mem_cons] at hSmall
      exact (ih hSmall.2 hLater).unit_cons hSmall.1
        (Bool.eq_false_iff.mpr hFirst)
        (Bool.eq_false_iff.mpr hSecond)
  | case7 => cases h
  | case8 n parts _ hHalf ih =>
      rcases Option.map_eq_some_iff.mp h with ⟨u, hLater, rfl⟩
      rw [List.forall_mem_cons] at hSmall
      rw [Bool.not_eq_true, Bool.or_eq_false_iff] at hHalf
      exact (ih hSmall.2 hLater).unit_cons hSmall.1 hHalf.1
        hHalf.2

/- Written parts are joined to what they stand for, if to any. -/
theorem Part.SpellAll.joinParts_eq_some_iff
    {u : Text}
    (h : Part.SpellAll parts t) :
    joinParts parts = some u ↔ Part.Mean parts u :=
  ⟨Part.mean_of_joinParts h.isSmall_of_mem,
    Part.Mean.joinParts_eq⟩

------------------------------------------------------------
-- Lexemes and Texts
------------------------------------------------------------

namespace Lexeme

/- How a lexeme is written. -/
inductive Spells : Lexeme → Text → Prop where
  | openArray :
      Spells openArray ['[']
  | closeArray :
      Spells closeArray [']']
  | openObject :
      Spells openObject ['{']
  | closeObject :
      Spells closeObject ['}']
  | comma :
      Spells comma [',']
  | colon :
      Spells colon [':']
  | null :
      Spells null ['n', 'u', 'l', 'l']
  | yes :
      Spells (bool true) ['t', 'r', 'u', 'e']
  | no :
      Spells (bool false) ['f', 'a', 'l', 's', 'e']
  | number
      {literal : Text}
      (hNumeral : IsNumeral literal) :
      Spells (number literal) literal
  | string
      {s : Option Text}
      {parts : List Part}
      {t : Text}
      (hParts : Part.SpellAll parts t)
      (hText : ∀ u, s = some u ↔ Part.Mean parts u) :
      Spells (string s) (['"'] ++ t ++ ['"'])

/-
  How lexemes are written one after the other, with white
  space around each of them.
-/
inductive SpellAll : List Lexeme → Text → Prop where
  | nil
      {blank : Text}
      (hBlank : ∀ c ∈ blank, c ∈ [' ', '\t', '\n', '\r']) :
      SpellAll [] blank
  | cons
      {lexeme : Lexeme}
      {lexemes : List Lexeme}
      {blank t rest : Text}
      (hBlank : ∀ c ∈ blank, c ∈ [' ', '\t', '\n', '\r'])
      (hFirst : lexeme.Spells t)
      (hLater : SpellAll lexemes rest) :
      SpellAll (lexeme :: lexemes) (blank ++ t ++ rest)

end Lexeme

/-
  The JSON texts of a value: the lexemes of the value, written
  in any way, with any white space around them.
-/
def Spells (value : Json) (t : Text) : Prop :=
  Lexeme.SpellAll (lexemesOf value) t

------------------------------------------------------------
-- Splitting Texts
------------------------------------------------------------

namespace Lexeme

/- A lexeme that is a number. -/
def isNumeral : Lexeme → Bool
  | number _ => true
  | _ => false

/- Lexemes that need nothing between them. -/
def Apart (first second : Lexeme) : Prop :=
  first.isNumeral = true → second.isNumeral = false

variable {lexeme : Lexeme} {lexemes : List Lexeme}

/- What is between two quotes is a string. -/
theorem Spells.of_spellAll
    {parts : List Part}
    (h : Part.SpellAll parts t) :
    Spells (.string (joinParts parts)) (['"'] ++ t ++ ['"']) :=
  .string h fun _ => h.joinParts_eq_some_iff

theorem Spells.plain
    (h : t.all isPlain = true) :
    Spells (.string (some t)) (['"'] ++ t ++ ['"']) := by
  rw [← (Part.mean_map_char t).joinParts_eq]
  exact .of_spellAll (.plain h)

/- A lexeme may come without any white space before it. -/
theorem SpellAll.tight
    (hFirst : lexeme.Spells t)
    (hLater : SpellAll lexemes rest) :
    SpellAll (lexeme :: lexemes) (t ++ rest) :=
  .cons (List.forall_mem_nil _) hFirst hLater

theorem SpellAll.spaced
    (c : Char)
    (hBlank : c ∈ [' ', '\t', '\n', '\r'])
    (hFirst : lexeme.Spells t)
    (hLater : SpellAll lexemes rest) :
    SpellAll (lexeme :: lexemes) (c :: t ++ rest) :=
  .cons (List.forall_mem_singleton.mpr hBlank) hFirst hLater

theorem isSpace_of_forall_mem
    {blank : Text}
    (h : ∀ c ∈ blank, c ∈ [' ', '\t', '\n', '\r']) :
    ∀ c ∈ blank, isSpace c = true := by
  intro c hc
  simpa [isSpace, or_assoc] using h c hc

/- A written lexeme is read, if what follows it can end it. -/
theorem Spells.lexemes?_append
    (h : lexeme.Spells t)
    (rest : Text)
    (hEnds : lexeme.isNumeral = true → EndsNumber rest) :
    lexemes? (t ++ rest) =
      (lexemes? rest).map (lexeme :: ·) := by
  cases h with
  | null =>
      exact lexemes?_word_append ['u', 'l', 'l'] rest rfl rfl
  | yes =>
      exact lexemes?_word_append ['r', 'u', 'e'] rest rfl rfl
  | no =>
      exact lexemes?_word_append ['a', 'l', 's', 'e'] rest rfl
        rfl
  | number hNumeral =>
      exact lexemes?_number_append hNumeral.isNumber
        (hEnds rfl)
  | @string s parts t hParts hText =>
      have hJoined : joinParts parts = s := by
        apply Option.ext
        intro u
        rw [hParts.joinParts_eq_some_iff, ← hText]
      have hMark : mark? '"' = none := rfl
      have hText : ['"'] ++ t ++ ['"'] ++ rest =
          '"' :: (t ++ '"' :: rest) := by
        simp
      rw [hText]
      apply lexemes?_cons_of_lexeme rfl
      simp only [lexeme?, hMark, if_true,
        hParts.parts?_append_quote, Option.map_some, hJoined]
  | _ => exact lexemes?_mark rest rfl rfl

theorem isNumberChar_of_blank
    {c : Char}
    (h : c ∈ [' ', '\t', '\n', '\r']) :
    isNumberChar c = false := by
  simp only [List.mem_cons, List.not_mem_nil, or_false] at h
  rcases h with rfl | rfl | rfl | rfl <;> rfl

theorem Spells.exists_cons
    (h : lexeme.Spells t)
    (hOther : lexeme.isNumeral = false) :
    ∃ c rest, t = c :: rest ∧ isNumberChar c = false := by
  cases h with
  | number => cases hOther
  | _ => exact ⟨_, _, rfl, rfl⟩

/- What begins with anything but a number ends a number. -/
theorem SpellAll.endsNumber
    (h : SpellAll lexemes t)
    (hFirst : ∀ lexeme ∈ lexemes.head?, lexeme.isNumeral = false) :
    EndsNumber t := by
  cases h with
  | nil hBlank =>
      intro c hc
      exact isNumberChar_of_blank
        (hBlank c (List.mem_of_mem_head? hc))
  | @cons lexeme lexemes blank t rest hBlank hSpells _ =>
      cases blank with
      | nil =>
          have hOther := hFirst lexeme rfl
          rcases hSpells.exists_cons hOther with
            ⟨c, later, rfl, hChar⟩
          rintro _ ⟨⟩
          exact hChar
      | cons c blank =>
          rw [List.forall_mem_cons] at hBlank
          rintro _ ⟨⟩
          exact isNumberChar_of_blank hBlank.1

theorem SpellAll.lexemes?_eq
    (h : SpellAll lexemes t)
    (hApart : lexemes.IsChain Apart) :
    lexemes? t = some lexemes := by
  induction h with
  | nil hBlank =>
      have hRead := lexemes?_blank_append []
        (isSpace_of_forall_mem hBlank)
      rw [List.append_nil] at hRead
      rw [hRead, lexemes?]
  | @cons lexeme lexemes blank t rest hBlank hFirst hLater ih =>
      rw [List.isChain_cons] at hApart
      have hEnds :
          lexeme.isNumeral = true → EndsNumber rest := by
        intro hNumber
        exact hLater.endsNumber fun next hNext =>
          hApart.1 next hNext hNumber
      rw [List.append_assoc,
        lexemes?_blank_append _ (isSpace_of_forall_mem hBlank),
        hFirst.lexemes?_append rest hEnds, ih hApart.2]
      rfl

------------------------------------------------------------
-- Lexemes That Need No Space
------------------------------------------------------------

/- Lexemes that can follow any others. -/
def CanFollow (lexemes : List Lexeme) : Prop :=
  lexemes.IsChain Apart ∧
    ∀ first ∈ lexemes.head?, first.isNumeral = false

theorem isChain_cons
    (hFirst : lexeme.isNumeral = false)
    (hLater : lexemes.IsChain Apart) :
    (lexeme :: lexemes).IsChain Apart := by
  rw [List.isChain_cons]
  refine ⟨fun _ _ hNumeral => ?_, hLater⟩
  rw [hFirst] at hNumeral
  cases hNumeral

theorem canFollow_cons
    (hFirst : lexeme.isNumeral = false)
    (hLater : lexemes.IsChain Apart) :
    CanFollow (lexeme :: lexemes) := by
  refine ⟨isChain_cons hFirst hLater, ?_⟩
  rintro _ ⟨⟩
  exact hFirst

theorem isChain_append_of_canFollow
    {front back : List Lexeme}
    (hFront : front.IsChain Apart)
    (hBack : CanFollow back) :
    (front ++ back).IsChain Apart := by
  rw [List.isChain_append]
  exact ⟨hFront, hBack.1, fun _ _ first hFirst _ =>
    hBack.2 first hFirst⟩

theorem canFollow_itemLexemes_append
    {items : List Json}
    {rest : List Lexeme}
    (hItems : ∀ item ∈ items, (lexemesOf item).IsChain Apart)
    (hRest : CanFollow rest) :
    CanFollow (itemLexemes items ++ rest) := by
  induction items with
  | nil => exact hRest
  | cons item items ih =>
      rw [List.forall_mem_cons] at hItems
      simp only [itemLexemes, List.cons_append,
        List.append_assoc]
      apply canFollow_cons rfl
      exact isChain_append_of_canFollow hItems.1 (ih hItems.2)

theorem canFollow_memberLexemes_append
    {members : List (Option Text × Json)}
    {rest : List Lexeme}
    (hMembers :
      ∀ member ∈ members, (lexemesOf member.2).IsChain Apart)
    (hRest : CanFollow rest) :
    CanFollow (memberLexemes members ++ rest) := by
  induction members with
  | nil => exact hRest
  | cons member members ih =>
      rw [List.forall_mem_cons] at hMembers
      have hLater :=
        isChain_append_of_canFollow hMembers.1 (ih hMembers.2)
      simp only [memberLexemes, List.cons_append,
        List.append_assoc]
      apply canFollow_cons rfl
      apply isChain_cons rfl
      exact isChain_cons rfl hLater

end Lexeme

/- Within a value no number comes right after another one. -/
theorem IsProper.isChain_lexemesOf
    {value : Json}
    (h : IsProper value) :
    (lexemesOf value).IsChain Lexeme.Apart := by
  have hEnd {mark : Lexeme} (hMark : mark.isNumeral = false) :
      Lexeme.CanFollow [mark] :=
    Lexeme.canFollow_cons hMark List.isChain_nil
  induction h with
  | null => exact List.isChain_singleton _
  | bool b => exact List.isChain_singleton _
  | number => exact List.isChain_singleton _
  | string s => exact List.isChain_singleton _
  | @array items _ ih =>
      cases items with
      | nil => exact Lexeme.isChain_cons rfl (hEnd rfl).1
      | cons item items =>
          rw [List.forall_mem_cons] at ih
          simp only [lexemesOf, List.cons_append,
            List.append_assoc]
          apply Lexeme.isChain_cons rfl
          apply Lexeme.isChain_append_of_canFollow ih.1
          exact Lexeme.canFollow_itemLexemes_append ih.2
            (hEnd rfl)
  | @object members _ ih =>
      cases members with
      | nil => exact Lexeme.isChain_cons rfl (hEnd rfl).1
      | cons member members =>
          rw [List.forall_mem_cons] at ih
          simp only [lexemesOf, List.cons_append,
            List.append_assoc]
          apply Lexeme.isChain_cons rfl
          apply Lexeme.isChain_cons rfl
          apply Lexeme.isChain_cons rfl
          apply Lexeme.isChain_append_of_canFollow ih.1
          exact Lexeme.canFollow_memberLexemes_append ih.2
            (hEnd rfl)

------------------------------------------------------------
-- Reading Texts
------------------------------------------------------------

/- A lexeme that is no number, or the text of one. -/
def Lexeme.IsProper : Lexeme → Prop
  | number literal => isNumber literal = true
  | _ => True

theorem Lexeme.Spells.isProper
    {lexeme : Lexeme}
    (h : lexeme.Spells t) :
    lexeme.IsProper := by
  cases h with
  | number hNumeral => exact hNumeral.isNumber
  | _ => trivial

theorem Lexeme.SpellAll.isProper_of_mem
    {lexemes : List Lexeme}
    (h : Lexeme.SpellAll lexemes t) :
    ∀ lexeme ∈ lexemes, lexeme.IsProper := by
  induction h with
  | nil => exact List.forall_mem_nil _
  | cons _ hFirst _ ih =>
      exact List.forall_mem_cons.mpr ⟨hFirst.isProper, ih⟩

mutual

/- A value is known to be proper by its lexemes. -/
theorem isProper_of_lexemesOf :
    (value : Json) →
    (∀ lexeme ∈ lexemesOf value, lexeme.IsProper) →
      value.IsProper
  | null, _ => .null
  | bool b, _ => .bool b
  | number _, h => .number (h _ List.mem_cons_self)
  | string s, _ => .string s
  | array [], _ => .array (List.forall_mem_nil _)
  | array (item :: items), h => by
      simp only [lexemesOf, List.cons_append] at h
      rw [List.forall_mem_cons, List.forall_mem_append,
        List.forall_mem_append] at h
      rcases h with ⟨-, ⟨hItem, hItems⟩, -⟩
      exact .array (List.forall_mem_cons.mpr
        ⟨isProper_of_lexemesOf item hItem,
          isProper_of_itemLexemes items hItems⟩)
  | object [], _ => .object (List.forall_mem_nil _)
  | object ((_, value) :: members), h => by
      simp only [lexemesOf, List.cons_append] at h
      rw [List.forall_mem_cons, List.forall_mem_cons,
        List.forall_mem_cons, List.forall_mem_append,
        List.forall_mem_append] at h
      rcases h with ⟨-, -, -, ⟨hValue, hMembers⟩, -⟩
      exact .object (List.forall_mem_cons.mpr
        ⟨isProper_of_lexemesOf value hValue,
          isProper_of_memberLexemes members hMembers⟩)

theorem isProper_of_itemLexemes :
    (items : List Json) →
    (∀ lexeme ∈ itemLexemes items, lexeme.IsProper) →
      ∀ item ∈ items, item.IsProper
  | [], _ => List.forall_mem_nil _
  | item :: items, h => by
      simp only [itemLexemes, List.cons_append] at h
      rw [List.forall_mem_cons, List.forall_mem_append] at h
      rcases h with ⟨-, hItem, hItems⟩
      exact List.forall_mem_cons.mpr
        ⟨isProper_of_lexemesOf item hItem,
          isProper_of_itemLexemes items hItems⟩

theorem isProper_of_memberLexemes :
    (members : List (Option Text × Json)) →
    (∀ lexeme ∈ memberLexemes members, lexeme.IsProper) →
      ∀ member ∈ members, member.2.IsProper
  | [], _ => List.forall_mem_nil _
  | (_, value) :: members, h => by
      simp only [memberLexemes, List.cons_append] at h
      rw [List.forall_mem_cons, List.forall_mem_cons,
        List.forall_mem_cons, List.forall_mem_append] at h
      rcases h with ⟨-, -, -, hValue, hMembers⟩
      exact List.forall_mem_cons.mpr
        ⟨isProper_of_lexemesOf value hValue,
          isProper_of_memberLexemes members hMembers⟩

end

/- The texts of a value are read as the value. -/
theorem Spells.parse?_eq
    {value : Json}
    (h : value.Spells t) :
    parse? t = some value := by
  have hProper : value.IsProper :=
    isProper_of_lexemesOf value h.isProper_of_mem
  have hRead := hProper.readValue_lexemesOf [] []
  rw [List.append_nil] at hRead
  rw [parse?, h.lexemes?_eq hProper.isChain_lexemesOf]
  exact hRead

end Json

end CodecChain

import CodecChain.Proofs.Json.Grammar

/-
  Printed values are JSON text. The printed form of a value is
  among the texts that the grammar gives for it: its strings
  are spelled part by part, and nothing but white space stands
  between its lexemes.

  Key definitions include:
    * `Json.Prints`

  Main statements:
    * `Json.Part.spells_escape`
    * `Json.Lexeme.spells_quote`
    * `Json.IsProper.spells_print`
-/

------------------------------------------------------------
-- Printed Strings
------------------------------------------------------------

namespace CodecChain

namespace Json

theorem isHexDigit_digitChar
    {n : Nat}
    (h : n < 16) :
    IsHexDigit n (Nat.digitChar n) :=
  ⟨h, List.mem_cons_self⟩

theorem isEscape_controlDigits
    {n : Nat}
    (h : n < 0x20) :
    IsEscape n (['\\', 'u'] ++ controlDigits n) := by
  have hZero : IsHexDigit 0 '0' := by decide
  have hHigh := isHexDigit_digitChar (show n / 16 < 16 by omega)
  have hLow := isHexDigit_digitChar (show n % 16 < 16 by omega)
  exact .digits hZero hZero hHigh hLow (by omega)

namespace Part

/- The characters that are written by a letter. -/
theorem spells_escape_of_mem
    {c : Char}
    (h : c ∈ ['"', '\\', '\x08', '\x0c', '\n', '\r', '\t']) :
    (partOf c).Spells (escape c) := by
  simp only [List.mem_cons, List.not_mem_nil, or_false] at h
  rcases h with rfl | rfl | rfl | rfl | rfl | rfl | rfl <;>
    exact .letter (by decide)

/- What is written for a character spells its part. -/
theorem spells_escape (c : Char) :
    (partOf c).Spells (escape c) := by
  by_cases hLetter :
      c ∈ ['"', '\\', '\x08', '\x0c', '\n', '\r', '\t']
  · exact spells_escape_of_mem hLetter
  simp only [List.mem_cons, List.not_mem_nil, or_false,
    not_or] at hLetter
  rcases hLetter with
    ⟨hQuote, hBackslash, hBackspace, hFeed, hLine, hReturn, hTab⟩
  rw [Json.escape, if_neg hQuote, if_neg hBackslash,
    if_neg hBackspace, if_neg hFeed, if_neg hLine,
    if_neg hReturn, if_neg hTab]
  by_cases hLow : c.toNat < 0x20
  · have hNumbered : IsNumbered c := by
      refine ⟨hLow, ?_⟩
      simp [hBackspace, hFeed, hLine, hReturn, hTab]
    rw [if_pos hLow, partOf, if_pos hNumbered]
    exact .escape (isEscape_controlDigits hLow)
  · rw [if_neg hLow,
      partOf_of_not_isNumbered fun h => hLow h.1]
    exact .itself (by omega) hQuote hBackslash

theorem spellAll_quoted (s : Option Text) :
    SpellAll (partsOf s) (quoted s) := by
  cases s with
  | none => exact .cons (.escape isEscape_half) .nil
  | some t =>
      induction t with
      | nil => exact .nil
      | cons c t ih => exact .cons (spells_escape c) ih

end Part

------------------------------------------------------------
-- Printed Values
------------------------------------------------------------

namespace Lexeme

theorem spells_quote (s : Option Text) :
    Spells (string s) (quote s) := by
  have hSpelled := Spells.of_spellAll (Part.spellAll_quoted s)
  rwa [joinParts_partsOf] at hSpelled

/- White space may come before lexemes. -/
theorem SpellAll.blank_append
    {lexemes : List Lexeme}
    {blank t : Text}
    (hBlank : ∀ c ∈ blank, c ∈ [' ', '\t', '\n', '\r'])
    (h : SpellAll lexemes t) :
    SpellAll lexemes (blank ++ t) := by
  cases h with
  | nil hLast =>
      exact .nil (List.forall_mem_append.mpr ⟨hBlank, hLast⟩)
  | cons hFront hFirst hLater =>
      rw [← List.append_assoc, ← List.append_assoc]
      exact .cons (List.forall_mem_append.mpr ⟨hBlank, hFront⟩)
        hFirst hLater

theorem SpellAll.newLine_append
    {lexemes : List Lexeme}
    {t : Text}
    (level : Nat)
    (h : SpellAll lexemes t) :
    SpellAll lexemes (newLine level ++ t) := by
  apply h.blank_append
  rw [newLine, List.forall_mem_cons]
  refine ⟨by decide, ?_⟩
  intro c hc
  rw [List.eq_of_mem_replicate hc]
  decide

end Lexeme

open Lexeme

/-
  A value is printed as one of its texts, whatever the level,
  before any other lexemes.
-/
def Prints (value : Json) : Prop :=
  ∀ level lexemes t,
    SpellAll lexemes t →
      SpellAll (lexemesOf value ++ lexemes)
        (printAt level value ++ t)

theorem spellAll_printItems_append
    {items : List Json}
    {lexemes : List Lexeme}
    {t : Text}
    (level : Nat)
    (hItems : ∀ item ∈ items, Prints item)
    (h : SpellAll lexemes t) :
    SpellAll (itemLexemes items ++ lexemes)
      (printItems level items ++ t) := by
  induction items with
  | nil => exact h
  | cons item items ih =>
      rw [List.forall_mem_cons] at hItems
      have hLater := hItems.1 level _ _ (ih hItems.2)
      have hItem := SpellAll.tight .comma
        (hLater.newLine_append level)
      simpa only [printItems, itemLexemes, List.append_assoc,
        List.cons_append, List.nil_append] using hItem

theorem spellAll_member
    {value : Json}
    {lexemes : List Lexeme}
    {t : Text}
    (level : Nat)
    (key : Option Text)
    (hValue : Prints value)
    (h : SpellAll lexemes t) :
    SpellAll (.string key :: .colon :: lexemesOf value ++ lexemes)
      (newLine level ++ quote key ++ [':', ' '] ++
        printAt level value ++ t) := by
  have hBlank : ∀ c ∈ [' '], c ∈ [' ', '\t', '\n', '\r'] :=
    List.forall_mem_singleton.mpr List.mem_cons_self
  have hColon := SpellAll.tight .colon
    ((hValue level _ _ h).blank_append hBlank)
  have hMember := SpellAll.tight (spells_quote key) hColon
  have hLine := hMember.newLine_append level
  simpa only [List.append_assoc, List.cons_append,
    List.nil_append] using hLine

theorem spellAll_printMembers_append
    {members : List (Option Text × Json)}
    {lexemes : List Lexeme}
    {t : Text}
    (level : Nat)
    (hMembers : ∀ member ∈ members, Prints member.2)
    (h : SpellAll lexemes t) :
    SpellAll (memberLexemes members ++ lexemes)
      (printMembers level members ++ t) := by
  induction members with
  | nil => exact h
  | cons member members ih =>
      rw [List.forall_mem_cons] at hMembers
      have hLater := ih hMembers.2
      have hMember := SpellAll.tight .comma
        (spellAll_member level member.1 hMembers.1 hLater)
      simpa only [printMembers, memberLexemes,
        List.append_assoc, List.cons_append,
        List.nil_append] using hMember

theorem IsProper.prints
    {value : Json}
    (h : IsProper value) :
    Prints value := by
  intro level lexemes t hLater
  induction h generalizing level lexemes t with
  | null => exact .tight .null hLater
  | bool b =>
      cases b with
      | true => exact .tight .yes hLater
      | false => exact .tight .no hLater
  | number hNumber =>
      exact .tight (.number (isNumber_iff.mp hNumber)) hLater
  | string s => exact .tight (spells_quote s) hLater
  | @array items _ ih =>
      cases items with
      | nil =>
          have hArray := SpellAll.tight .openArray
            (.tight .closeArray hLater)
          simpa only [printAt, lexemesOf, List.cons_append,
            List.nil_append] using hArray
      | cons item items =>
          rw [List.forall_mem_cons] at ih
          have hEnd := (SpellAll.tight .closeArray
            hLater).newLine_append level
          have hItems := spellAll_printItems_append (level + 1)
            (fun item hItem => ih.2 item hItem) hEnd
          have hFirst :=
            (ih.1 (level + 1) _ _ hItems).newLine_append
              (level + 1)
          have hArray := SpellAll.tight .openArray hFirst
          simpa only [printAt, lexemesOf, List.append_assoc,
            List.cons_append, List.nil_append] using hArray
  | @object members _ ih =>
      cases members with
      | nil =>
          have hObject := SpellAll.tight .openObject
            (.tight .closeObject hLater)
          simpa only [printAt, lexemesOf, List.cons_append,
            List.nil_append] using hObject
      | cons member members =>
          rw [List.forall_mem_cons] at ih
          have hEnd := (SpellAll.tight .closeObject
            hLater).newLine_append level
          have hMembers :=
            spellAll_printMembers_append (level + 1)
              (fun member hMember => ih.2 member hMember) hEnd
          have hObject := SpellAll.tight .openObject
            (spellAll_member (level + 1) member.1 ih.1 hMembers)
          simpa only [printAt, lexemesOf, List.append_assoc,
            List.cons_append, List.nil_append] using hObject

/- The printed form of a value is one of its texts. -/
theorem IsProper.spells_print
    {value : Json}
    (h : IsProper value) :
    value.Spells value.print := by
  have hPrinted := h.prints 0 [] []
    (.nil (List.forall_mem_nil _))
  rwa [List.append_nil, List.append_nil] at hPrinted

end Json

end CodecChain

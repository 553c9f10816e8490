import CodecChain.Proofs.Yaml.Values
import CodecChain.Yaml.Reader

/-
  Entries of a mapping on lines. Lines of keys and values that
  were written are split into the tokens of one mapping, from
  these the mapping is built, and its entries are those that
  were written.

  Key definitions include:
    * `Yaml.Entry`
    * `Yaml.Entry.IsSound`
    * `Yaml.Entry.tokens`

  Main statements:
    * `Yaml.Lexer.run?_entries`
    * `Yaml.tokens?_entries`
    * `Yaml.ofTokens?_entries`
    * `Yaml.entries?_flatMap_print`
-/

------------------------------------------------------------
-- Entries
------------------------------------------------------------

namespace CodecChain

namespace Yaml

/-
  An entry: its key, what is written for its value, and the
  style and the text that this is to be read as.
-/
structure Entry where
  key : Text
  written : Text
  style : Style
  text : Text

namespace Entry

/- The line or lines of an entry. -/
def print (e : Entry) : Text :=
  writeEntry e.key e.written

/- The tokens of an entry. -/
def tokens (e : Entry) : List Token :=
  [.key, .scalar .plain e.key, .value, .scalar e.style e.text]

/- An entry that is read as it was meant. -/
structure IsSound (e : Entry) : Prop where
  key : IsKey e.key
  value : Writes e.written e.style e.text

theorem print_eq
    (e : Entry) :
    e.print =
      e.key ++ ':' :: ' ' :: (e.written ++ lineEnd e.written) := by
  simp [print, writeEntry, lineEnd]

/- A line begins with the key of its entry. -/
theorem startsLine_flatMap_print
    {entries : List Entry}
    (h : ∀ e ∈ entries, e.IsSound) :
    StartsLine (entries.flatMap print) := by
  cases entries with
  | nil => exact nofun
  | cons e entries =>
      have hKey := (h e List.mem_cons_self).key
      cases hText : e.key with
      | nil => exact absurd hText hKey.content
      | cons c key =>
          have hWord := hKey.word c (by simp [hText])
          rw [List.flatMap_cons, print_eq, hText]
          rintro d ⟨⟩
          exact ⟨isGap_of_isWordChar hWord,
            ne_of_isWordChar hWord rfl, ne_of_isWordChar hWord rfl⟩

theorem isReadable_print
    {e : Entry}
    (h : e.IsSound) :
    isReadable e.print = true := by
  have hKey : isReadable e.key = true :=
    isReadable_of_printable h.key.isPrintable
  have hEnd : isReadable (lineEnd e.written) = true := by
    rw [lineEnd]
    split <;> rfl
  have hValue : isReadable (e.written ++ lineEnd e.written) = true := by
    rw [isReadable_append, h.value.readable, hEnd]
    rfl
  rw [print_eq, isReadable_append, hKey, Bool.true_and]
  exact hValue

end Entry

------------------------------------------------------------
-- Tokens
------------------------------------------------------------

namespace Lexer

/- An entry leads from its line to the next one. -/
theorem run?_entry
    {s here : Lexer}
    {e : Entry}
    {rest : Text}
    (hSettle : s.settle? = some here)
    (hLine : here.AtLine (e.print ++ rest))
    (hSound : e.IsSound)
    (hRest : StartsLine rest) :
    ∃ next there : Lexer,
      s.run? = next.run? ∧ next.settle? = some there ∧
        there.AtLine rest ∧ there.columns = [0] ∧
        there.tokens =
          e.tokens.reverse ++ opening here.columns ++ here.tokens := by
  have hPrint :
      e.print ++ rest =
        e.key ++ ':' :: ' ' ::
          (e.written ++ (lineEnd e.written ++ rest)) := by
    rw [Entry.print_eq]
    simp
  have hStart :
      StartsLine (e.written ++ (lineEnd e.written ++ rest)) := by
    cases hText : e.written with
    | nil => exact absurd hText hSound.value.content
    | cons c written =>
        rintro d ⟨⟩
        exact hSound.value.starts c (by simp [hText])
  rw [hPrint] at hLine
  rcases run?_key hSettle hLine hSound.key hStart with
    ⟨mid, value, hFirst, hMid, hValue, hTokens⟩
  rcases hSound.value.reads value rest hValue hRest with
    ⟨next, there, hStep, hShorter, hNext, hThere, hColumns, hLast⟩
  have hMore : value.place.rest ≠ [] := by
    rw [hValue.rest]
    simp [hSound.value.content]
  refine ⟨next, there, ?_, hNext, hThere, hColumns, ?_⟩
  · rw [hFirst, run?_of_step hMid hMore hStep hShorter]
  · rw [hLast, hTokens]
    rfl

theorem atLine_start (t : Text) : (start t).AtLine t :=
  ⟨rfl, rfl, Or.inl rfl, rfl, rfl, rfl⟩

theorem settle?_start
    {t : Text}
    (h : StartsLine t) :
    (start t).settle? = some (start t) := by
  have hSkip :
      skipGap false (start t).admitsKey
          ((start t).place.column = 0) false (start t).place.rest =
        (t, true) :=
    skipGap_of_startsLine false true true h
  have hPlace : (start t).place.moveTo t = (start t).place :=
    Place.moveTo_self (Place.start t)
  rw [settle?_of_skipGap rfl (atLine_start t).forall_columns rfl
    hSkip, moveTo, hPlace]
  rfl

/- The entries of a mapping that has begun. -/
theorem run?_entries
    {entries : List Entry}
    {s here : Lexer}
    (hSettle : s.settle? = some here)
    (hLine : here.AtLine (entries.flatMap Entry.print))
    (hColumns : here.columns = [0])
    (hSound : ∀ e ∈ entries, e.IsSound) :
    s.run? =
      some (.blockEnd :: (entries.flatMap Entry.tokens).reverse ++
        here.tokens) := by
  -- Between two entries the lexer is on a new line within the
  -- mapping, which is what each entry leads back to.
  induction entries generalizing s here with
  | nil =>
      rw [run?_of_end hSettle hLine.rest hLine.candidate
        hLine.outer, hColumns]
      rfl
  | cons e entries ih =>
      rw [List.forall_mem_cons] at hSound
      rcases run?_entry hSettle hLine hSound.1
        (Entry.startsLine_flatMap_print hSound.2) with
        ⟨next, there, hRun, hNext, hThere, hZero, hTokens⟩
      rw [hRun, ih hNext hThere hZero hSound.2, hTokens, hColumns,
        List.flatMap_cons, List.reverse_append]
      simp [opening]

end Lexer

/- Lines of entries are split into the tokens of a mapping. -/
theorem tokens?_entries
    {entries : List Entry}
    (hSome : entries ≠ [])
    (hSound : ∀ e ∈ entries, e.IsSound) :
    tokens? (entries.flatMap Entry.print) =
      some (.mappingBlock :: entries.flatMap Entry.tokens ++
        [.blockEnd]) := by
  have hReadable :
      isReadable (entries.flatMap Entry.print) = true := by
    rw [List.flatMap_def]
    apply isReadable_flatten
    rw [List.forall_mem_map]
    exact fun e he => Entry.isReadable_print (hSound e he)
  rw [tokens?_of_isReadable hReadable]
  cases entries with
  | nil => exact absurd rfl hSome
  | cons e entries =>
      have hStart := Lexer.settle?_start
        (Entry.startsLine_flatMap_print hSound)
      have hLine := Lexer.atLine_start
        ((e :: entries).flatMap Entry.print)
      rw [List.forall_mem_cons] at hSound
      rcases Lexer.run?_entry hStart hLine hSound.1
        (Entry.startsLine_flatMap_print hSound.2) with
        ⟨next, there, hRun, hNext, hThere, hZero, hTokens⟩
      rw [hRun, Lexer.run?_entries hNext hThere hZero hSound.2,
        hTokens]
      simp [Lexer.opening, Lexer.start]

------------------------------------------------------------
-- Documents
------------------------------------------------------------

namespace Entry

/- The entry as a pair of nodes. -/
def nodes (e : Entry) : Node × Node :=
  (.scalar { tag := none, style := .plain, text := e.key },
   .scalar { tag := none, style := e.style, text := e.text })

end Entry

namespace Builder

/- The state within a mapping of some entries so far. -/
def within (key : Node) (entries : List (Node × Node)) : Builder :=
  { start with
    frames :=
      [.mapping .block .mark none key entries,
       .document .opening .empty] }

theorem step?_mappingBlock :
    start.step? .mappingBlock = some (within .empty []) :=
  rfl

/- The tokens of an entry are its nodes. -/
theorem foldlM_tokens
    (e : Entry)
    (key : Node)
    (entries : List (Node × Node)) :
    e.tokens.foldlM step? (within key entries) =
      some (within e.nodes.1 (e.nodes :: entries)) :=
  rfl

theorem foldlM_entries
    (items : List Entry)
    (key : Node)
    (entries : List (Node × Node)) :
    ∃ last,
      (items.flatMap Entry.tokens).foldlM step?
          (within key entries) =
        some (within last
          ((items.map Entry.nodes).reverse ++ entries)) := by
  induction items generalizing key entries with
  | nil => exact ⟨key, rfl⟩
  | cons e items ih =>
      rcases ih e.nodes.1 (e.nodes :: entries) with ⟨last, hRest⟩
      refine ⟨last, ?_⟩
      rw [List.flatMap_cons, List.foldlM_append, foldlM_tokens]
      simp only [Option.bind_eq_bind, Option.bind_some, hRest,
        List.map_cons, List.reverse_cons, List.append_assoc]
      rfl

/- A mapping ends as the only node of the document. -/
theorem finish?_blockEnd
    (key : Node)
    (entries : List (Node × Node)) :
    ((within key entries).step? .blockEnd).bind finish? =
      some
        { root := .mapping none entries.reverse
          anchored := [] } :=
  rfl

end Builder

/- The tokens of a mapping make up its document. -/
theorem ofTokens?_entries
    (entries : List Entry) :
    Document.ofTokens?
        (.mappingBlock :: entries.flatMap Entry.tokens ++
          [.blockEnd]) =
      some
        { root := .mapping none (entries.map Entry.nodes)
          anchored := [] } := by
  rcases Builder.foldlM_entries entries .empty [] with
    ⟨last, hEntries⟩
  have hEnd := Builder.finish?_blockEnd last
    ((entries.map Entry.nodes).reverse ++ [])
  rw [List.append_nil] at hEntries hEnd
  rw [List.reverse_reverse] at hEnd
  rw [Document.ofTokens?, List.cons_append, List.foldlM_cons,
    Builder.step?_mappingBlock]
  simp only [Option.bind_eq_bind, Option.bind_some,
    List.foldlM_append, hEntries, List.foldlM_cons,
    List.foldlM_nil, Option.pure_def, Option.bind_fun_some]
  exact hEnd

/- Lines of entries are read as these entries. -/
theorem entries?_flatMap_print
    {entries : List Entry}
    (hSome : entries ≠ [])
    (hSound : ∀ e ∈ entries, e.IsSound) :
    entries? (entries.flatMap Entry.print) =
      some (entries.map fun e =>
        (e.key,
         some { tag := none, style := e.style, text := e.text })) := by
  have hNodes :
      ∀ d : Document,
        (entries.map Entry.nodes).mapM (fun entry =>
          (d.scalar? entry.1).map fun key =>
            (key.text, d.scalar? entry.2)) =
          some (entries.map fun e =>
            (e.key,
             some
               { tag := none, style := e.style, text := e.text })) := by
    intro d
    clear hSome hSound
    induction entries with
    | nil => rfl
    | cons e entries ih =>
        rw [List.map_cons, List.mapM_cons, ih]
        rfl
  rw [entries?, Document.parse?, tokens?_entries hSome hSound,
    Option.bind_some, ofTokens?_entries, Option.bind_some]
  exact hNodes _

end Yaml

end CodecChain

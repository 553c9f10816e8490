import CodecChain.Proofs.Codec.Coding
import CodecChain.Proofs.Deflate.Searching
import CodecChain.Proofs.Text.Quoted
import Mathlib.Data.List.Induction

/-
  What is hexadecimal text. It is what is written for a text,
  in either case of the letters. All else is refused: for an
  odd number of bytes before anything is read, and otherwise
  at the first byte that is no digit. Digits take one byte
  each, so that this byte begins a character, which is the
  one that is named.

  Key definitions include:
    * `Hex.IsDigit`
    * `Hex.capital`

  Main statements:
    * `Hex.toBytes_eq_ok_iff`
    * `Hex.toBytes_append_cons`
    * `Codec.reads_hex_digits`
-/

------------------------------------------------------------
-- Digits
------------------------------------------------------------

namespace CodecChain

namespace Hex

variable {b : UInt8} {c : Char} {t front : Text}
variable {digits bytes : List UInt8}

/- The codes of digits, in either case. -/
def IsDigit (n : Nat) : Prop :=
  ('0'.toNat ≤ n ∧ n ≤ '9'.toNat) ∨
    ('A'.toNat ≤ n ∧ n ≤ 'F'.toNat) ∨
    ('a'.toNat ≤ n ∧ n ≤ 'f'.toNat)

instance (n : Nat) : Decidable (IsDigit n) := by
  unfold IsDigit
  infer_instance

/- The letters from a to f as capitals, all else as it is. -/
def capital (c : Char) : Char :=
  if 'a' ≤ c ∧ c ≤ 'f' then c.toUpper else c

theorem IsDigit.lt
    {n : Nat}
    (h : IsDigit n) :
    n < 0x80 := by
  unfold IsDigit at h
  grind

theorem value?_eq_none_iff :
    value? b = none ↔ ¬IsDigit b.toNat := by
  unfold value? IsDigit
  grind

theorem isDigit_iff_exists_value? :
    IsDigit b.toNat ↔ ∃ n, value? b = some n := by
  rw [← Option.ne_none_iff_exists', ne_eq, value?_eq_none_iff,
    Decidable.not_not]

theorem valueAt_of_not_isDigit
    (index : Nat)
    (h : ¬IsDigit b.toNat) :
    valueAt index b = .error (.badByte index) := by
  rw [valueAt, value?_eq_none_iff.mpr h]

theorem valueAt_eq_ok_iff
    {index n : Nat} :
    valueAt index b = .ok n ↔ value? b = some n := by
  unfold valueAt
  cases value? b <;> simp

/- The two cases of a letter are digits of one number. -/
theorem value?_code_capital
    (h : c.toNat < 0x80) :
    value? (code (capital c)) = value? (code c) := by
  have hAscii :
      ∀ m < 0x80,
        value? (code (capital (Char.ofNat m))) =
          value? (code (Char.ofNat m)) := by
    decide
  simpa using hAscii c.toNat h

/- A digit in capitals is the one that is written. -/
theorem capital_of_value?
    {n : Nat}
    (hCode : c.toNat < 0x80)
    (h : value? (code c) = some n) :
    n < 16 ∧ capital c = digit n := by
  have hAscii :
      ∀ m < 0x80, ∀ n ∈ value? (code (Char.ofNat m)),
        n < 16 ∧ capital (Char.ofNat m) = digit n := by
    decide
  simpa using hAscii c.toNat hCode n (by simpa using h)

/- Characters are not made smaller than others by capitals. -/
theorem toNat_lt_of_capital
    (h : (capital c).toNat < 0x80) :
    c.toNat < 0x80 := by
  by_cases hLetter : 'a' ≤ c ∧ c ≤ 'f'
  · have hSmall : c.toNat ≤ 'f'.toNat := hLetter.2
    have hLast : 'f'.toNat < 0x80 := by decide
    omega
  · rwa [capital, if_neg hLetter] at h

------------------------------------------------------------
-- Bytes of Digits
------------------------------------------------------------

/- Digits are as many bytes as characters. -/
theorem encode_eq_map_of_isDigit
    (h : ∀ c ∈ t, IsDigit c.toNat) :
    Utf8.encode t = t.map code :=
  Utf8.encode_eq_map fun c hc => (h c hc).lt

theorem isDigit_of_mem_encode
    (h : ∀ c ∈ t, IsDigit c.toNat) :
    ∀ b ∈ Utf8.encode t, IsDigit b.toNat := by
  rw [encode_eq_map_of_isDigit h, List.forall_mem_map]
  intro c hc
  rw [toNat_code (h c hc).lt]
  exact h c hc

/- What is no digit begins with a byte that is none. -/
theorem exists_encodeChar_of_not_isDigit
    (h : ¬IsDigit c.toNat) :
    ∃ b rest,
      Utf8.encodeChar c = b :: rest ∧ ¬IsDigit b.toNat := by
  rcases List.exists_cons_of_ne_nil (Utf8.encodeChar_ne_nil c)
    with ⟨b, rest, hBytes⟩
  refine ⟨b, rest, hBytes, ?_⟩
  intro hDigit
  have hMem : b ∈ Utf8.encodeChar c := by
    rw [hBytes]
    exact List.mem_cons_self
  rw [← Utf8.toNat_eq_of_mem_encodeChar hMem hDigit.lt]
    at hDigit
  exact h hDigit

/-
  The first byte that is no digit begins the first character
  that is none.
-/
theorem findIdx_encode
    (back : Text)
    (hFront : ∀ d ∈ front, IsDigit d.toNat)
    (hBad : ¬IsDigit c.toNat) :
    (Utf8.encode (front ++ c :: back)).findIdx
        (¬IsDigit ·.toNat) =
      Utf8.size front := by
  have hDigits :
      (Utf8.encode front).findIdx (¬IsDigit ·.toNat) =
        (Utf8.encode front).length := by
    apply List.findIdx_eq_length_of_false
    simpa using isDigit_of_mem_encode hFront
  rcases exists_encodeChar_of_not_isDigit hBad with
    ⟨b, rest, hBytes, hFirst⟩
  rw [Utf8.encode_append, Utf8.encode_cons, hBytes,
    List.findIdx_append, hDigits, if_neg (Nat.lt_irrefl _),
    List.cons_append, List.findIdx_cons]
  simp [hFirst, Utf8.size]

/- A byte that is no digit comes from a character that is none. -/
theorem exists_eq_append_cons
    {b : UInt8}
    (hMem : b ∈ Utf8.encode t)
    (hBad : ¬IsDigit b.toNat) :
    ∃ front c back,
      t = front ++ c :: back ∧
        (∀ d ∈ front, IsDigit d.toNat) ∧
        ¬IsDigit c.toNat := by
  cases hFind : t.find? (¬IsDigit ·.toNat) with
  | none =>
      rw [List.find?_eq_none] at hFind
      have hDigits : ∀ c ∈ t, IsDigit c.toNat := by
        simpa using hFind
      exact absurd (isDigit_of_mem_encode hDigits b hMem) hBad
  | some c =>
      rw [List.find?_eq_some_iff_append] at hFind
      rcases hFind with ⟨hNone, front, back, rfl, hFront⟩
      exact ⟨front, c, back, rfl, by simpa using hFront,
        by simpa using hNone⟩

/- Bytes that are digits are those of characters that are. -/
theorem isDigit_of_encode
    (h : ∀ b ∈ Utf8.encode t, IsDigit b.toNat) :
    ∀ c ∈ t, IsDigit c.toNat := by
  intro c hc
  by_contra hBad
  rcases exists_encodeChar_of_not_isDigit hBad with
    ⟨b, rest, hBytes, hFirst⟩
  have hMem : b ∈ Utf8.encodeChar c := by
    rw [hBytes]
    exact List.mem_cons_self
  exact hFirst (h b (List.mem_flatMap.mpr ⟨c, hc, hMem⟩))

------------------------------------------------------------
-- Reading Digits
------------------------------------------------------------

/-
  Reading stops at the first byte that is no digit, which is
  not left without a partner if the number of bytes is even.
-/
theorem pairs_append_cons
    (index : Nat)
    (back : List UInt8)
    (hEven : (digits ++ b :: back).length % 2 = 0)
    (hFront : ∀ d ∈ digits, IsDigit d.toNat)
    (hBad : ¬IsDigit b.toNat) :
    pairs index (digits ++ b :: back) =
      .error (.badByte (index + digits.length)) := by
  induction digits using List.twoStepInduction
      generalizing index with
  | nil =>
      cases back with
      | nil => cases hEven
      | cons d back =>
          rw [List.nil_append, pairs,
            valueAt_of_not_isDigit index hBad]
          rfl
  | singleton d =>
      have hDigit := hFront d List.mem_cons_self
      rcases isDigit_iff_exists_value?.mp hDigit with ⟨n, hValue⟩
      rw [List.cons_append, List.nil_append, pairs,
        valueAt_of_value? index hValue,
        valueAt_of_not_isDigit (index + 1) hBad]
      rfl
  | cons_cons d e digits ih =>
      rw [List.forall_mem_cons, List.forall_mem_cons] at hFront
      rcases hFront with ⟨hHigh, hLow, hRest⟩
      rcases isDigit_iff_exists_value?.mp hHigh with ⟨m, hHigh⟩
      rcases isDigit_iff_exists_value?.mp hLow with ⟨n, hLow⟩
      have hPlace :
          index + 2 + digits.length =
            index + (d :: e :: digits).length := by
        simp only [List.length_cons]
        omega
      have hLess : (digits ++ b :: back).length % 2 = 0 := by
        simp only [List.cons_append, List.length_cons] at hEven
        omega
      rw [List.cons_append, List.cons_append, pairs,
        valueAt_of_value? index hHigh,
        valueAt_of_value? (index + 1) hLow,
        ih (index + 2) hLess hRest, hPlace]
      rfl

/- Only digits are read. -/
theorem isDigit_of_pairs
    {index : Nat}
    (h : pairs index digits = .ok bytes) :
    ∀ b ∈ digits, IsDigit b.toNat := by
  fun_induction pairs index digits generalizing bytes with
  | case1 =>
      intro b hMem
      cases hMem
  | case2 => cases h
  | case3 index b c rest ih =>
      rcases Except.bind_eq_ok_iff.mp h with ⟨high, hHigh, h⟩
      rcases Except.bind_eq_ok_iff.mp h with ⟨low, hLow, h⟩
      rcases Except.bind_eq_ok_iff.mp h with ⟨more, hMore, -⟩
      rw [valueAt_eq_ok_iff] at hHigh hLow
      rw [List.forall_mem_cons, List.forall_mem_cons]
      exact ⟨isDigit_iff_exists_value?.mpr ⟨high, hHigh⟩,
        isDigit_iff_exists_value?.mpr ⟨low, hLow⟩, ih hMore⟩

/-
  What is read as bytes is, in capitals, what is written for
  them.
-/
theorem map_capital_of_pairs
    {index : Nat}
    (hDigits : ∀ c ∈ t, IsDigit c.toNat)
    (h : pairs index (t.map code) = .ok bytes) :
    t.map capital = ofBytes bytes := by
  induction t using List.twoStepInduction
      generalizing index bytes with
  | nil =>
      cases h
      rfl
  | singleton c => cases h
  | cons_cons c d t ih =>
      rw [List.forall_mem_cons, List.forall_mem_cons] at hDigits
      rcases hDigits with ⟨hFirst, hSecond, hRest⟩
      rw [List.map_cons, List.map_cons, pairs] at h
      rcases Except.bind_eq_ok_iff.mp h with ⟨high, hHigh, h⟩
      rcases Except.bind_eq_ok_iff.mp h with ⟨low, hLow, h⟩
      rcases Except.bind_eq_ok_iff.mp h with
        ⟨more, hMore, hBytes⟩
      cases hBytes
      rw [valueAt_eq_ok_iff] at hHigh hLow
      rcases capital_of_value? hFirst.lt hHigh with
        ⟨hHighLt, hHigh⟩
      rcases capital_of_value? hSecond.lt hLow with
        ⟨hLowLt, hLow⟩
      have hByte :
          (UInt8.ofNat (high * 16 + low)).toNat =
            high * 16 + low := by
        rw [UInt8.toNat_ofNat', Nat.mod_eq_of_lt (by omega)]
      have hDiv : (high * 16 + low) / 16 = high := by omega
      have hMod : (high * 16 + low) % 16 = low := by omega
      rw [List.map_cons, List.map_cons, hHigh, hLow,
        ih hRest hMore, ofBytes_cons, hByte, hDiv, hMod]

theorem exists_digit_of_mem_ofByte
    (h : c ∈ ofByte b) :
    ∃ n < 16, c = digit n := by
  have hByte := b.toNat_lt
  rw [ofByte, List.mem_cons, List.mem_singleton] at h
  rcases h with hHigh | hLow
  · exact ⟨b.toNat / 16, by omega, hHigh⟩
  · exact ⟨b.toNat % 16, by omega, hLow⟩

/- Digits of bytes are digits, in either case. -/
theorem isDigit_of_map_capital
    (h : t.map capital = ofBytes bytes) :
    ∀ c ∈ t, IsDigit c.toNat := by
  intro c hc
  have hCapital : capital c ∈ ofBytes bytes := by
    rw [← h]
    exact List.mem_map_of_mem hc
  have hCode :=
    toNat_lt_of_capital (toNat_lt_of_mem_ofBytes hCapital)
  rcases List.mem_flatMap.mp hCapital with ⟨b, -, hByte⟩
  rcases exists_digit_of_mem_ofByte hByte with
    ⟨n, hLt, hDigit⟩
  have hValue := value?_code_digit hLt
  rw [← hDigit, value?_code_capital hCode] at hValue
  have hIs := isDigit_iff_exists_value?.mpr ⟨n, hValue⟩
  rwa [toNat_code hCode] at hIs

/- Capitals change nothing in what digits are read as. -/
theorem pairs_map_capital
    (index : Nat)
    (h : ∀ c ∈ t, IsDigit c.toNat) :
    pairs index ((t.map capital).map code) =
      pairs index (t.map code) := by
  have hValue : ∀ place, ∀ c ∈ t,
      valueAt place (code (capital c)) = valueAt place (code c) := by
    intro place c hc
    rw [valueAt, valueAt, value?_code_capital (h c hc).lt]
  clear h
  induction t using List.twoStepInduction
      generalizing index with
  | nil => rfl
  | singleton c => rfl
  | cons_cons c d t ih =>
      have hFirst := hValue index c List.mem_cons_self
      have hSecond :=
        hValue (index + 1) d
          (List.mem_cons_of_mem c List.mem_cons_self)
      have hRest := ih (index + 2) fun place e he =>
        hValue place e
          (List.mem_cons_of_mem c (List.mem_cons_of_mem d he))
      simp only [List.map_cons, pairs, hFirst, hSecond, hRest]

/-
  A text is read as bytes exactly if it is, in capitals, what
  is written for them.
-/
theorem toBytes_eq_ok_iff :
    toBytes t = .ok bytes ↔ t.map capital = ofBytes bytes := by
  rw [toBytes, Except.mapError_eq_ok_iff]
  constructor
  · intro h
    unfold ofDigits at h
    split at h
    · contradiction
    · have hDigits := isDigit_of_encode (isDigit_of_pairs h)
      rw [encode_eq_map_of_isDigit hDigits] at h
      exact map_capital_of_pairs hDigits h
  · intro h
    have hDigits := isDigit_of_map_capital h
    have hLength := congrArg List.length h
    rw [List.length_map, length_ofBytes] at hLength
    have hEven : ¬(t.map code).length % 2 = 1 := by
      rw [List.length_map]
      omega
    rw [encode_eq_map_of_isDigit hDigits, ofDigits,
      if_neg hEven, ← pairs_map_capital 0 hDigits, h,
      pairs_ofBytes]

------------------------------------------------------------
-- Faults in Texts of Digits
------------------------------------------------------------

theorem charIndices_append
    (start : Nat)
    (s t : Text) :
    charIndices start (s ++ t) =
      charIndices start s ++
        charIndices (start + Utf8.size s) t := by
  induction s generalizing start with
  | nil => rfl
  | cons c s ih =>
      have hSize :
          start + (Utf8.encodeChar c).length + Utf8.size s =
            start + Utf8.size (c :: s) := by
        rw [Utf8.size, Utf8.size, Utf8.encode_cons,
          List.length_append, Nat.add_assoc]
      rw [List.cons_append, charIndices, charIndices, ih, hSize]
      rfl

/- Characters of a part begin before the end of the part. -/
theorem lt_of_mem_charIndices
    {start : Nat}
    {place : Nat × Char}
    (h : place ∈ charIndices start t) :
    start ≤ place.1 ∧ place.1 < start + Utf8.size t := by
  induction t generalizing start with
  | nil => cases h
  | cons c t ih =>
      have hSize :
          Utf8.size (c :: t) =
            (Utf8.encodeChar c).length + Utf8.size t := by
        rw [Utf8.size, Utf8.size, Utf8.encode_cons,
          List.length_append]
      have hSome :=
        List.length_pos_iff.mpr (Utf8.encodeChar_ne_nil c)
      rw [charIndices, List.mem_cons] at h
      rcases h with rfl | h
      · exact ⟨Nat.le_refl _, by omega⟩
      · rcases ih h with ⟨hLe, hLt⟩
        exact ⟨by omega, by omega⟩

/- The character that begins at a byte is found there. -/
theorem charAt_append_cons
    (front : Text)
    (c : Char)
    (back : Text) :
    charAt (front ++ c :: back) (Utf8.size front) = c := by
  have hFront :
      ∀ place ∈ charIndices 0 front,
        decide (place.1 ≤ Utf8.size front) = true := by
    intro place hPlace
    have hLt := (lt_of_mem_charIndices hPlace).2
    rw [decide_eq_true_iff]
    omega
  have hBack :
      (charIndices (Utf8.size front + (Utf8.encodeChar c).length)
        back).takeWhile
          (fun place => place.1 ≤ Utf8.size front) = [] := by
    cases hPlaces : charIndices _ back with
    | nil => rfl
    | cons place places =>
        have hMem : place ∈ charIndices
            (Utf8.size front + (Utf8.encodeChar c).length) back := by
          rw [hPlaces]
          exact List.mem_cons_self
        have hLe := (lt_of_mem_charIndices hMem).1
        have hSome :=
          List.length_pos_iff.mpr (Utf8.encodeChar_ne_nil c)
        rw [List.takeWhile_cons_of_neg]
        rw [decide_eq_true_iff]
        omega
  rw [charAt, charIndices_append, Nat.zero_add, charIndices,
    List.takeWhile_append_of_pos hFront,
    List.takeWhile_cons_of_pos (by simp), hBack]
  simp

/- The character that is blamed stands between quotes. -/
theorem reason_badDigit
    (c : Char)
    (offset : Nat)
    (written : Text)
    (h : Quoted.escape '\'' c = written) :
    (Fault.badDigit c offset).reason =
      s!"invalid hex character '{written.asString}'" := by
  have hLabel :
      "invalid hex character " ++ "'" =
        "invalid hex character '" := by
    decide
  unfold Fault.reason
  dsimp only
  rw [Quoted.asString_char, h]
  simp only [toString, ← String.append_assoc, hLabel]

/-
  An odd number of bytes is the first thing that is found
  wrong.
-/
theorem toBytes_of_odd
    (h : Utf8.size t % 2 = 1) :
    toBytes t = .error (.oddLength (Utf8.size t)) := by
  have hOdd : (Utf8.encode t).length % 2 = 1 := h
  rw [toBytes, ofDigits, if_pos hOdd]
  rfl

/-
  In a text of an even number of bytes, the first character
  that is no digit is blamed, at the byte it begins with.
-/
theorem toBytes_append_cons
    (back : Text)
    (hEven : Utf8.size (front ++ c :: back) % 2 = 0)
    (hFront : ∀ d ∈ front, IsDigit d.toNat)
    (hBad : ¬IsDigit c.toNat) :
    toBytes (front ++ c :: back) =
      .error (.badDigit c (Utf8.size front)) := by
  rcases exists_encodeChar_of_not_isDigit hBad with
    ⟨b, rest, hBytes, hFirst⟩
  have hEncoded :
      Utf8.encode (front ++ c :: back) =
        Utf8.encode front ++ b :: (rest ++ Utf8.encode back) := by
    rw [Utf8.encode_append, Utf8.encode_cons, hBytes,
      List.cons_append]
  have hNotOdd :
      ¬(Utf8.encode (front ++ c :: back)).length % 2 = 1 := by
    rw [Utf8.size] at hEven
    omega
  rw [Utf8.size, hEncoded] at hEven
  rw [toBytes, ofDigits, if_neg hNotOdd, hEncoded,
    pairs_append_cons 0 _ hEven (isDigit_of_mem_encode hFront)
      hFirst, Nat.zero_add]
  show Except.error _ = _
  rw [faultOf, ← Utf8.size, charAt_append_cons]

end Hex

------------------------------------------------------------
-- Texts of Digits
------------------------------------------------------------

namespace Codec

variable {s t : Text}

theorem decode_hex_of_error
    {fault : Hex.Fault}
    (h : Hex.toBytes t = .error fault) :
    hex.decode t = .error ⟨hex, .hex fault⟩ := by
  rw [decode, h]
  rfl

/-
  A text is read as another one exactly if it is, in capitals,
  what is written for it.
-/
theorem decode_hex_eq_ok_iff
    [Compressor] :
    hex.decode t = .ok s ↔
      t.map Hex.capital = hex.encode s := by
  rw [decode, Except.bind_eq_ok_iff, encode,
    ← Hex.toBytes_eq_ok_iff]
  constructor
  · intro h
    rcases h with ⟨bytes, hBytes, hText⟩
    rw [← eq_encode_of_textOf hText]
    exact Except.mapError_eq_ok_iff.mp hBytes
  · intro h
    exact ⟨Utf8.encode s, Except.mapError_eq_ok_iff.mpr h,
      textOf_encode hex s⟩

/-
  Hexadecimal text is read as a text exactly if it is what is
  written for it, in either case of the letters. Of a text
  with an odd number of bytes this number is blamed, at the
  last byte, whatever the bytes are. Of any other text with a
  byte that is no digit, the first such byte is blamed; it
  begins a character, which is the one that is looked up, and
  what is quoted can stand for no other one.
-/
theorem reads_hex_digits
    [Compressor]
    (s t : Text) :
    (hex.decode t = .ok s ↔
      t.map Hex.capital = hex.encode s) ∧
    (Utf8.size t % 2 = 1 →
      ∃ e : DecodeError,
        hex.decode t = .error e ∧
          e.codec = hex ∧
          e.fault.offset? = some (Utf8.size t - 1) ∧
          e.fault.reason =
            s!"odd number of hex digits ({Utf8.size t})") ∧
    (Utf8.size t % 2 = 0 →
      (∃ b ∈ Utf8.encode t, ¬Hex.IsDigit b.toNat) →
      ∃ (e : DecodeError) (front : Text) (c : Char)
          (back written : Text),
        t = front ++ c :: back ∧
          Utf8.size front =
            (Utf8.encode t).findIdx (¬Hex.IsDigit ·.toNat) ∧
          Hex.charAt t (Utf8.size front) = c ∧
          hex.decode t = .error e ∧
          e.codec = hex ∧
          e.fault.offset? = some (Utf8.size front) ∧
          e.fault.reason =
            s!"invalid hex character '{written.asString}'" ∧
          Quoted.Spells c written ∧
          ∀ d, Quoted.Spells d written → d = c) := by
  refine ⟨decode_hex_eq_ok_iff, ?_, ?_⟩
  · intro hOdd
    have hFault := Hex.toBytes_of_odd hOdd
    exact ⟨_, decode_hex_of_error hFault, rfl, rfl, rfl⟩
  · intro hEven hBytes
    rcases hBytes with ⟨b, hMem, hBad⟩
    rcases Hex.exists_eq_append_cons hMem hBad with
      ⟨front, c, back, rfl, hFront, hOther⟩
    have hFault :=
      Hex.toBytes_append_cons back hEven hFront hOther
    have hFirst := Hex.findIdx_encode back hFront hOther
    have hSpells := Quoted.spells_escape c
    exact ⟨_, front, c, back, _, rfl, hFirst.symm,
      Hex.charAt_append_cons front c back,
      decode_hex_of_error hFault, rfl, rfl,
      Hex.reason_badDigit c (Utf8.size front) _ rfl, hSpells,
      fun d hOther => hOther.char_unique hSpells⟩

/-
  Digits in both cases are read. An accented letter takes two
  bytes, which make the number even, and the first of them is
  blamed. A further character makes it odd, and then the
  letter is not looked at. A mark that is drawn over others is
  quoted by its code point.
-/
theorem reads_hex_digits_of_accent :
    hex.decode (.ofString "c3Bf") = .ok (.ofString "ÿ") ∧
      (∃ e : DecodeError,
        hex.decode (.ofString "4éAA") = .error e ∧
          e.fault.offset? = some 4 ∧
          e.fault.reason = "odd number of hex digits (5)") ∧
      (∃ (e : DecodeError) (written : Text),
        hex.decode (.ofString "4éA") = .error e ∧
          e.fault.offset? = some 1 ∧
          e.fault.reason =
            s!"invalid hex character '{written.asString}'" ∧
          Quoted.Spells 'é' written) ∧
      ∃ (e : DecodeError) (written : Text),
        hex.decode (.ofString "4\u0301A") = .error e ∧
          e.fault.offset? = some 1 ∧
          e.fault.reason =
            s!"invalid hex character '{written.asString}'" ∧
          Quoted.Spells '\u0301' written ∧
          e.fault.reason =
            "invalid hex character '\\u\x7b301\x7d'" := by
  have hRead :=
    reads_hex_digits (.ofString "ÿ") (.ofString "c3Bf")
  have hOdd := reads_hex_digits [] (.ofString "4éAA")
  have hEven := reads_hex_digits [] (.ofString "4éA")
  have hMark := reads_hex_digits [] (.ofString "4\u0301A")
  refine ⟨hRead.1.mpr (by decide), ?_, ?_, ?_⟩
  · rcases hOdd.2.1 (by decide) with
      ⟨e, hDecode, -, hOffset, hReason⟩
    exact ⟨e, hDecode, hOffset, hReason⟩
  · rcases hEven.2.2 (by decide) (by decide) with
      ⟨e, front, c, back, written, -, hSize, hChar, hDecode, -,
        hOffset, hReason, hSpells, -⟩
    have hFirst : Utf8.size front = 1 := hSize.trans (by decide)
    rw [hFirst] at hOffset hChar
    have hAccent : c = 'é' := hChar.symm.trans (by decide)
    rw [hAccent] at hSpells
    exact ⟨e, written, hDecode, hOffset, hReason, hSpells⟩
  · rcases hMark.2.2 (by decide) (by decide) with
      ⟨e, front, c, back, written, -, hSize, hChar, hDecode, -,
        hOffset, hReason, hSpells, -⟩
    have hFirst : Utf8.size front = 1 := hSize.trans (by decide)
    rw [hFirst] at hOffset hChar
    have hAccent : c = '\u0301' := hChar.symm.trans (by decide)
    rw [hAccent] at hSpells
    have hError :
        hex.decode (.ofString "4\u0301A") =
          .error ⟨hex, .hex (.badDigit '\u0301' 1)⟩ := by
      decide
    have hSame := Except.error.inj (hDecode.symm.trans hError)
    refine ⟨e, written, hDecode, hOffset, hReason, hSpells, ?_⟩
    rw [hSame]
    decide

end Codec

end CodecChain

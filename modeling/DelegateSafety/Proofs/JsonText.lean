import Mathlib.Data.List.Basic
import Mathlib.Data.List.TakeWhile
import DelegateSafety.Json.Read

/-! # Texts that write a JSON value

The grammar of RFC 8259, as far as fractions and exponents are not needed: names, integers of 64
bits, strings with every escape, arrays and objects, and blanks around each token. Whatever text
writes a value in this grammar, the reader gives the value back.
-/
namespace DelegateSafety.Json

/-! ## The grammar -/

/-- Four hexadecimal digits, in either case. -/
structure IsHex (digits : List Char) (code : Nat) : Prop where
  value : valueOfDigits 16 digits = code
  length : digits.length = 4
  digits : ∀ c ∈ digits, isDigitOf 16 c

/-- What may stand between quotes for the characters of a string. -/
inductive Quoted : List Char → List Char → Prop where
  | nil : Quoted [] []
  | plain {c cs spelled} (hControl : 0x20 ≤ c.toNat) (hQuote : c ≠ '"') (hEscape : c ≠ '\\')
      (hRest : Quoted cs spelled) : Quoted (c :: cs) (c :: spelled)
  | escape {c letter cs spelled} (hLetter : escapeCode? letter = some c.toNat)
      (hRest : Quoted cs spelled) : Quoted (c :: cs) ('\\' :: letter :: spelled)
  | unicode {c digits cs spelled} (hCode : IsHex digits c.toNat) (hRest : Quoted cs spelled) :
      Quoted (c :: cs) ('\\' :: 'u' :: (digits ++ spelled))
  /-- A character beyond 16 bits, as two halves. -/
  | pair {c high low highCode lowCode cs spelled} (hHigh : IsHex high highCode)
      (hLow : IsHex low lowCode) (hSurrogates : isHighSurrogate highCode ∧ isLowSurrogate lowCode)
      (hCode : c.toNat = 0x10000 + (highCode - 0xD800) * 0x400 + (lowCode - 0xDC00))
      (hRest : Quoted cs spelled) :
      Quoted (c :: cs) ('\\' :: 'u' :: (high ++ '\\' :: 'u' :: (low ++ spelled)))

inductive Token.Spelled : Token → List Char → Prop where
  | null : Spelled (.scalar .null) ['n', 'u', 'l', 'l']
  | true : Spelled (.scalar (.bool true)) ['t', 'r', 'u', 'e']
  | false : Spelled (.scalar (.bool false)) ['f', 'a', 'l', 's', 'e']
  | integer {n : Int} (hLow : -wordSize 63 ≤ n) (hHigh : n < wordSize 64) :
      Spelled (.scalar (.integer n)) (toString n).toList
  | text {s spelled} (hQuoted : Quoted s.toList spelled) :
      Spelled (.text (some s)) ('"' :: (spelled ++ ['"']))
  | punctuation {token c} (hToken : punctuation? c = some token) : Spelled token [c]

/-- Tokens one after the other, with blanks before, between and behind them. -/
inductive Spelled : List Token → List Char → Prop where
  | nil : Spelled [] []
  | blank {c tokens cs} (hBlank : isBlank c) (hRest : Spelled tokens cs) : Spelled tokens (c :: cs)
  | token {token spelled tokens cs} (hToken : token.Spelled spelled) (hRest : Spelled tokens cs) :
      Spelled (token :: tokens) (spelled ++ cs)

mutual

/-- The tokens of a value. -/
def tokens : Json → List Token
  | array items => .openArray :: (itemTokens items ++ [.closeArray])
  | object members => .openObject :: (memberTokens members ++ [.closeObject])
  | string s => [.text (some s)]
  | null => [.scalar null]
  | bool value => [.scalar (bool value)]
  | integer value => [.scalar (integer value)]
  | real spelling => [.scalar (real spelling)]
  | unreadable => [.scalar unreadable]

def itemTokens : List Json → List Token
  | [] => []
  | [item] => tokens item
  | item :: next :: rest => tokens item ++ .comma :: itemTokens (next :: rest)

def memberTokens : List (String × Json) → List Token
  | [] => []
  | [(key, value)] => .text (some key) :: .colon :: tokens value
  | (key, value) :: next :: rest =>
    .text (some key) :: .colon :: (tokens value ++ .comma :: memberTokens (next :: rest))

end

/-- The text writes the value: it consists of the value's tokens. -/
def Writes (j : Json) (text : String) : Prop := Spelled j.tokens text.toList

def isPlain (c : Char) : Bool := 0x20 ≤ c.toNat && c != '"' && c != '\\'

/-- Characters that need no escape stand for themselves. -/
theorem Quoted.of_plain {cs : List Char} (h : cs.all isPlain) : Quoted cs cs := by
  induction cs with
  | nil => exact .nil
  | cons c rest ih =>
    simp only [List.all_cons, isPlain, Bool.and_eq_true, decide_eq_true_eq, bne_iff_ne] at h
    obtain ⟨⟨⟨hControl, hQuote⟩, hEscape⟩, hRest⟩ := h
    exact .plain hControl hQuote hEscape (ih hRest)

theorem Spelled.mark {token : Token} {c : Char} {tokens : List Token} {cs : List Char}
    (hToken : punctuation? c = some token) (hRest : Spelled tokens cs) :
    Spelled (token :: tokens) (c :: cs) :=
  .token (.punctuation hToken) hRest

theorem Spelled.plain {s : String} {tokens : List Token} {cs : List Char}
    (h : s.toList.all isPlain) (hRest : Spelled tokens cs) :
    Spelled (.text (some s) :: tokens) ('"' :: (s.toList ++ '"' :: cs)) := by
  have hText := Spelled.token (.text (.of_plain h)) hRest
  rwa [List.cons_append, List.append_assoc] at hText

/-! ## From tokens to values -/

namespace Reader

section Transitions

variable {frames : List Frame} {expect : Expect}

theorem push_scalar (hExpect : expect = .value ∨ expect = .firstItem) (value : Json) :
    push ⟨frames, expect⟩ (.scalar value) = put value frames := by
  rcases hExpect with rfl | rfl <;> rfl

theorem push_text (hExpect : expect = .value ∨ expect = .firstItem) (s : String) :
    push ⟨frames, expect⟩ (.text (some s)) = put (.string s) frames := by
  rcases hExpect with rfl | rfl <;> rfl

theorem push_openArray (hExpect : expect = .value ∨ expect = .firstItem) :
    push ⟨frames, expect⟩ .openArray = some ⟨.array [] :: frames, .firstItem⟩ := by
  rcases hExpect with rfl | rfl <;> rfl

theorem push_openObject (hExpect : expect = .value ∨ expect = .firstItem) :
    push ⟨frames, expect⟩ .openObject = some ⟨.object [] :: frames, .firstKey⟩ := by
  rcases hExpect with rfl | rfl <;> rfl

theorem push_closeArray (hExpect : expect = .firstItem ∨ expect = .commaOrClose)
    (items : List Json) :
    push ⟨.array items :: frames, expect⟩ .closeArray = put (.array items.reverse) frames := by
  rcases hExpect with rfl | rfl <;> rfl

theorem push_closeObject (hExpect : expect = .firstKey ∨ expect = .commaOrClose)
    (members : List (Option String × Json)) :
    push ⟨.object members :: frames, expect⟩ .closeObject = put (closeMembers members) frames := by
  rcases hExpect with rfl | rfl <;> rfl

theorem push_key (hExpect : expect = .firstKey ∨ expect = .key)
    (members : List (Option String × Json)) (key : Option String) :
    push ⟨.object members :: frames, expect⟩ (.text key) =
      some ⟨.keyed members key :: frames, .colon⟩ := by
  rcases hExpect with rfl | rfl <;> rfl

end Transitions

theorem closeMembers_map (members : List (String × Json)) :
    closeMembers (members.map fun member => (some member.1, member.2)).reverse =
      .object members := by
  have hKeys : (members.map fun member => (some member.1, member.2)).mapM
      (fun member : Option String × Json => member.1.map (·, member.2)) = some members := by
    induction members with
    | nil => rfl
    | cons member rest ih => simp [ih]
  simp only [closeMembers, List.reverse_reverse, hKeys]

theorem foldlM_singleton (reader : Reader) (token : Token) :
    [token].foldlM push reader = reader.push token := bind_pure _

mutual

/-- The tokens of a value put the value where it belongs. -/
theorem foldlM_tokens (frames : List Frame) (expect : Expect)
    (hExpect : expect = .value ∨ expect = .firstItem) :
    ∀ j : Json, j.tokens.foldlM push ⟨frames, expect⟩ = put j frames
  | array items => by
    rw [tokens, List.foldlM_cons, push_openArray hExpect]
    exact foldlM_itemTokens [] frames .firstItem items (.inl rfl)
  | object members => by
    rw [tokens, List.foldlM_cons, push_openObject hExpect]
    have hMembers := foldlM_memberTokens [] frames .firstKey members (.inl rfl)
    rw [List.append_nil, closeMembers_map] at hMembers
    exact hMembers
  | string s => by rw [tokens, foldlM_singleton, push_text hExpect]
  | null | bool _ | integer _ | real _ | unreadable => by
    rw [tokens, foldlM_singleton, push_scalar hExpect]

theorem foldlM_itemTokens (seen : List Json) (frames : List Frame) (expect : Expect) :
    ∀ items : List Json, expect = .firstItem ∨ expect = .value ∧ items ≠ [] →
      (itemTokens items ++ [Token.closeArray]).foldlM push ⟨.array seen :: frames, expect⟩ =
        put (.array (seen.reverse ++ items)) frames
  | [], hExpect => by
    obtain rfl : expect = .firstItem := by simpa using hExpect
    rw [itemTokens, List.nil_append, foldlM_singleton, push_closeArray (.inl rfl), List.append_nil]
  | [item], hExpect => by
    have hItem := foldlM_tokens (.array seen :: frames) expect (hExpect.symm.imp_left And.left) item
    rw [itemTokens, List.foldlM_append, hItem, ← List.reverse_cons]
    exact foldlM_singleton ⟨.array (item :: seen) :: frames, .commaOrClose⟩ .closeArray
  | item :: next :: rest, hExpect => by
    have hItem := foldlM_tokens (.array seen :: frames) expect (hExpect.symm.imp_left And.left) item
    have hRest := foldlM_itemTokens (item :: seen) frames .value (next :: rest) (.inr ⟨rfl, nofun⟩)
    rw [itemTokens, List.append_assoc, List.foldlM_append, hItem]
    rw [List.reverse_cons, List.append_assoc] at hRest
    exact hRest

theorem foldlM_memberTokens (seen : List (Option String × Json)) (frames : List Frame)
    (expect : Expect) :
    ∀ members : List (String × Json), expect = .firstKey ∨ expect = .key ∧ members ≠ [] →
      (memberTokens members ++ [Token.closeObject]).foldlM push ⟨.object seen :: frames, expect⟩ =
        put (closeMembers ((members.map fun member => (some member.1, member.2)).reverse ++ seen))
          frames
  | [], hExpect => by
    obtain rfl : expect = .firstKey := by simpa using hExpect
    rw [memberTokens, List.nil_append, foldlM_singleton, push_closeObject (.inl rfl)]
    rfl
  | [(key, value)], hExpect => by
    have hValue := foldlM_tokens (.keyed seen (some key) :: frames) .value (.inl rfl) value
    rw [memberTokens, List.cons_append, List.foldlM_cons, push_key (hExpect.imp_right And.left)]
    change (value.tokens ++ [Token.closeObject]).foldlM push _ = _
    rw [List.foldlM_append, hValue]
    exact foldlM_singleton ⟨.object ((some key, value) :: seen) :: frames, .commaOrClose⟩ .closeObject
  | (key, value) :: next :: rest, hExpect => by
    have hValue := foldlM_tokens (.keyed seen (some key) :: frames) .value (.inl rfl) value
    have hRest := foldlM_memberTokens ((some key, value) :: seen) frames .key (next :: rest)
      (.inr ⟨rfl, nofun⟩)
    rw [memberTokens, List.cons_append, List.foldlM_cons, push_key (hExpect.imp_right And.left)]
    change (value.tokens ++ .comma :: memberTokens (next :: rest) ++
      [Token.closeObject]).foldlM push _ = _
    rw [List.append_assoc, List.foldlM_append, hValue, List.map_cons, List.reverse_cons,
      List.append_assoc]
    exact hRest

end

/-- No scalar follows a scalar. -/
theorem push_scalar_of_push_scalar {reader after : Reader} {value : Json}
    (h : reader.push (.scalar value) = some after) (next : Json) :
    after.push (.scalar next) = none := by
  obtain ⟨frames, expect⟩ := reader
  have hPut : put value frames = some after := by
    cases expect <;> first | exact h | cases h
  unfold put at hPut
  split at hPut <;> cases hPut <;> rfl

end Reader

/-! ## From characters to tokens -/

theorem begin_blank {c : Char} (h : isBlank c) (reader : Reader) :
    begin reader c = some (reader, .between) := by
  rw [begin, if_pos h]

theorem begin_punctuation {c : Char} {token : Token} (h : punctuation? c = some token)
    (reader : Reader) : begin reader c = (reader.push token).map (·, .between) := by
  unfold punctuation? at h
  split at h <;> cases h <;> rfl

/-- A name or number whose end is not yet seen. -/
inductive Lexing.Pending (value : Json) : Lexing → Prop where
  | word {letters} (hValue : wordValue? letters.reverse = some value) : Pending value (.word letters)
  | number {chars} (hValue : numberValue? chars.reverse = some value) :
      Pending value (.number chars)

/-- A character that no name and no number goes on with. -/
def EndsScalar (c : Char) : Prop := ¬c.isLower ∧ ¬isNumberChar c

theorem endsScalar_of_isBlank {c : Char} (h : isBlank c) : EndsScalar c := by
  simp only [isBlank, Bool.or_eq_true, decide_eq_true_eq] at h
  rcases h with ((rfl | rfl) | rfl) | rfl <;> exact ⟨by decide, by decide⟩

theorem endsScalar_of_punctuation {c : Char} {token : Token} (h : punctuation? c = some token) :
    EndsScalar c := by
  unfold punctuation? at h
  split at h <;> cases h <;> exact ⟨by decide, by decide⟩

theorem Lexing.Pending.step {value : Json} {lexing : Lexing} (h : lexing.Pending value)
    {reader after : Reader} (hPush : reader.push (.scalar value) = some after) {c : Char}
    (hc : EndsScalar c) : step (reader, lexing) c = Json.step (after, .between) c := by
  cases h with
  | word hValue => simp [Json.step, hc.1, hValue, hPush]
  | number hValue => simp [Json.step, hc.2, hValue, hPush]

theorem Lexing.Pending.finish {value : Json} {lexing : Lexing} (h : lexing.Pending value)
    {reader after : Reader} (hPush : reader.push (.scalar value) = some after) :
    finish (reader, lexing) = Json.finish (after, .between) := by
  obtain ⟨frames, expect⟩ := after
  cases h with
  | word hValue => cases expect <;> simp [Json.finish, hValue, hPush]
  | number hValue => cases expect <;> simp [Json.finish, hValue, hPush]

/-- Whatever ends a scalar, the scalar counts as pushed before it. -/
theorem Lexing.Pending.settle {value : Json} {lexing : Lexing} (h : lexing.Pending value)
    {reader after : Reader} (hPush : reader.push (.scalar value) = some after) {cs : List Char}
    (hEnds : ∀ c ∈ cs.head?, EndsScalar c) :
    (cs.foldlM Json.step (reader, lexing)).bind Json.finish =
      (cs.foldlM Json.step (after, .between)).bind Json.finish := by
  cases cs with
  | nil => exact h.finish hPush
  | cons c rest => rw [List.foldlM_cons, List.foldlM_cons, h.step hPush (hEnds c rfl)]

/-! ### Strings -/

theorem not_surrogate (c : Char) : isHighSurrogate c.toNat = false ∧ isLowSurrogate c.toNat = false := by
  have hValid : c.toNat < 0xD800 ∨ 0xDFFF < c.toNat ∧ c.toNat < 0x110000 := c.valid
  simp only [isHighSurrogate, isLowSurrogate, Bool.and_eq_false_iff, decide_eq_false_iff_not]
  omega

theorem joinSurrogates_char (c : Char) (codes : List Nat) :
    joinSurrogates (c.toNat :: codes) = (joinSurrogates codes).map (c :: ·) := by
  obtain ⟨hHigh, hLow⟩ := not_surrogate c
  cases codes <;> simp [joinSurrogates, hHigh, hLow, Char.ofNat_toNat]

theorem joinSurrogates_pair {high low : Nat} (hHigh : isHighSurrogate high)
    (hLow : isLowSurrogate low) (codes : List Nat) :
    joinSurrogates (high :: low :: codes) = (joinSurrogates codes).map
      (Char.ofNat (0x10000 + (high - 0xD800) * 0x400 + (low - 0xDC00)) :: ·) := by
  simp [joinSurrogates, hHigh, hLow]

/-- The four digits of a code become one code of the string. -/
theorem foldlM_hex {digits : List Char} {code : Nat} (h : IsHex digits code) (reader : Reader)
    (codes : List Nat) :
    digits.foldlM step (reader, .hex codes 0 0) = some (reader, .string (code :: codes)) := by
  obtain ⟨rfl, hLength, hDigits⟩ := h
  obtain ⟨a, b, c, d, rfl⟩ : ∃ a b c d, digits = [a, b, c, d] := by
    match digits, hLength with
    | [a, b, c, d], _ => exact ⟨a, b, c, d, rfl⟩
  have hValue (x : Char) (hx : x ∈ [a, b, c, d]) : ∃ n, digitValue? x = some n := by
    have hAny := hDigits x hx
    rw [isDigitOf, Option.any_eq_true_iff_get] at hAny
    exact ⟨_, (Option.some_get hAny.1).symm⟩
  obtain ⟨na, ha⟩ := hValue a (by simp)
  obtain ⟨nb, hb⟩ := hValue b (by simp)
  obtain ⟨nc, hc⟩ := hValue c (by simp)
  obtain ⟨nd, hd⟩ := hValue d (by simp)
  simp [step, valueOfDigits, ha, hb, hc, hd]

/-- The codes that a string's characters stand for. -/
theorem Quoted.exists_codes {cs spelled : List Char} (h : Quoted cs spelled) (reader : Reader) :
    ∃ codes, joinSurrogates codes = some cs ∧ ∀ before, spelled.foldlM step (reader, .string before) =
      some (reader, .string (codes.reverse ++ before)) := by
  induction h with
  | nil => exact ⟨[], rfl, fun _ => rfl⟩
  | @plain c cs spelled hControl hQuote hEscape _ ih =>
    obtain ⟨codes, hJoin, hSteps⟩ := ih
    refine ⟨c.toNat :: codes, by rw [joinSurrogates_char, hJoin]; rfl, fun before => ?_⟩
    simp [step, hQuote, hEscape, Nat.not_lt.mpr hControl, hSteps]
  | @escape c letter cs spelled hLetter _ ih =>
    obtain ⟨codes, hJoin, hSteps⟩ := ih
    have hNot : letter ≠ 'u' := by rintro rfl; cases hLetter
    refine ⟨c.toNat :: codes, by rw [joinSurrogates_char, hJoin]; rfl, fun before => ?_⟩
    simp [step, hNot, hLetter, hSteps]
  | @unicode c digits cs spelled hCode _ ih =>
    obtain ⟨codes, hJoin, hSteps⟩ := ih
    refine ⟨c.toNat :: codes, by rw [joinSurrogates_char, hJoin]; rfl, fun before => ?_⟩
    simp [step, List.foldlM_append, foldlM_hex hCode, hSteps]
  | @pair c high low highCode lowCode cs spelled hHigh hLow hSurrogates hCode _ ih =>
    obtain ⟨codes, hJoin, hSteps⟩ := ih
    refine ⟨highCode :: lowCode :: codes, ?_, fun before => ?_⟩
    · rw [joinSurrogates_pair hSurrogates.1 hSurrogates.2, hJoin, ← hCode, Char.ofNat_toNat]
      rfl
    · simp [step, List.foldlM_append, foldlM_hex hHigh, foldlM_hex hLow, hSteps]

/-! ### Numbers -/

theorem all_isDigit_toDigits (n : Nat) : ∀ c ∈ Nat.toDigits 10 n, c.isDigit :=
  fun _ hc => Nat.isDigit_of_mem_toDigits (by decide) (by decide) hc

theorem valueOfDigits_toDigits (n : Nat) : valueOfDigits 10 (Nat.toDigits 10 n) = n := by
  have hValue : ∀ m : Nat, ∀ c ∈ Nat.toDigits 10 n,
      10 * m + (digitValue? c).getD 0 = 10 * m + (c.toNat - '0'.toNat) := by
    intro m c hc
    rw [digitValue?, if_pos (all_isDigit_toDigits n c hc)]
    rfl
  calc valueOfDigits 10 (Nat.toDigits 10 n)
      = Nat.ofDigitChars 10 (Nat.toDigits 10 n) 0 := List.foldl_ext _ _ _ hValue
    _ = n := Nat.ofDigitChars_ten_toDigits

theorem head?_toDigits {n : Nat} (h : 0 < n) : (Nat.toDigits 10 n).head? ≠ some '0' := by
  induction n using Nat.strongRecOn with
  | _ n ih =>
    rcases Nat.lt_or_ge n 10 with hSmall | hLarge
    · rw [Nat.toDigits_of_lt_base hSmall]
      have hDigit : ∀ m : Fin 10, 0 < m.val → [m.val.digitChar].head? ≠ some '0' := by decide
      exact hDigit ⟨n, hSmall⟩ h
    · rw [Nat.toDigits_of_base_le (by decide) hLarge, List.head?_append_of_ne_nil _ Nat.toDigits_ne_nil]
      exact ih (n / 10) (Nat.div_lt_self h (by decide)) (Nat.div_pos hLarge (by decide))

theorem hasNoLeadingZero (n : Nat) :
    ((Nat.toDigits 10 n).isEmpty ||
      ((Nat.toDigits 10 n).length > 1 && (Nat.toDigits 10 n).head? == some '0')) = false := by
  rcases Nat.eq_zero_or_pos n with rfl | hPos
  · decide
  · simp [Nat.toDigits_ne_nil, head?_toDigits hPos]

theorem takeWhile_toDigits (n : Nat) : (Nat.toDigits 10 n).takeWhile Char.isDigit = Nat.toDigits 10 n :=
  List.takeWhile_eq_self_iff.mpr (all_isDigit_toDigits n)

theorem dropWhile_toDigits (n : Nat) : (Nat.toDigits 10 n).dropWhile Char.isDigit = [] :=
  List.dropWhile_eq_nil_iff.mpr (all_isDigit_toDigits n)

theorem numberValue?_nat {n : Nat} (h : n < wordSize 64) :
    numberValue? (Nat.toDigits 10 n) = some (.integer n) := by
  have hPositive : ((Nat.toDigits 10 n).head? == some '-') = false := by
    simp only [beq_eq_false_iff_ne]
    intro hHead
    exact absurd (all_isDigit_toDigits n '-' (List.mem_of_mem_head? hHead)) (by decide)
  simp [numberValue?, hPositive, takeWhile_toDigits, dropWhile_toDigits, hasNoLeadingZero,
    valueOfDigits_toDigits, h]

theorem numberValue?_neg {n : Nat} (hPos : 0 < n) (h : n ≤ wordSize 63) :
    numberValue? ('-' :: Nat.toDigits 10 n) = some (.integer (-n)) := by
  simp [numberValue?, takeWhile_toDigits, dropWhile_toDigits, hasNoLeadingZero,
    valueOfDigits_toDigits, h, Nat.ne_of_gt hPos]

theorem isNumberChar_of_isDigit {c : Char} (h : c.isDigit) : isNumberChar c := by
  simp [isNumberChar, h]

theorem foldlM_numberChars {chars : List Char} (h : ∀ c ∈ chars, isNumberChar c) (reader : Reader)
    (before : List Char) :
    chars.foldlM step (reader, .number before) = some (reader, .number (chars.reverse ++ before)) := by
  induction chars generalizing before with
  | nil => rfl
  | cons c rest ih =>
    have hc : isNumberChar c := h c (by simp)
    have hRest := ih (fun d hd => h d (by simp [hd])) (c :: before)
    simp [step, hc, hRest]

/-- A number's spelling, read from its first character on. -/
theorem foldlM_number {c : Char} {chars : List Char} (hc : c = '-' ∨ c.isDigit)
    (hChars : ∀ d ∈ chars, isNumberChar d) (reader : Reader) :
    (c :: chars).foldlM step (reader, .between) =
      some (reader, .number (c :: chars).reverse) := by
  have hBegin : begin reader c = some (reader, .number [c]) := by
    have hBlank : isBlank c = false := by
      rcases hc with rfl | hDigit
      · decide
      · simp only [isBlank, Bool.or_eq_false_iff, decide_eq_false_iff_not]
        refine ⟨⟨⟨?_, ?_⟩, ?_⟩, ?_⟩ <;> (rintro rfl; exact absurd hDigit (by decide))
    have hQuote : c ≠ '"' := by
      rintro rfl
      exact absurd hc (by decide)
    simp [begin, hBlank, hQuote, hc]
  rw [List.foldlM_cons, step, hBegin]
  simpa using foldlM_numberChars hChars reader [c]

theorem exists_integer {n : Int} (hLow : -wordSize 63 ≤ n) (hHigh : n < wordSize 64) :
    ∃ c chars, (toString n).toList = c :: chars ∧ (c = '-' ∨ c.isDigit) ∧
      (∀ d ∈ chars, isNumberChar d) ∧ numberValue? (c :: chars) = some (.integer n) := by
  cases n with
  | ofNat n =>
    obtain ⟨c, chars, hDigits⟩ := List.exists_cons_of_ne_nil (Nat.toDigits_ne_nil (n := n) (b := 10))
    have hAll := all_isDigit_toDigits n
    rw [hDigits] at hAll
    refine ⟨c, chars, ?_, .inr (hAll c (by simp)),
      fun d hd => isNumberChar_of_isDigit (hAll d (by simp [hd])), ?_⟩
    · rw [← hDigits, ← Nat.toList_repr]; rfl
    · rw [← hDigits]
      exact numberValue?_nat (Int.ofNat_lt.mp hHigh)
  | negSucc n =>
    refine ⟨'-', Nat.toDigits 10 (n + 1), ?_, .inl rfl,
      fun d hd => isNumberChar_of_isDigit (all_isDigit_toDigits _ d hd), ?_⟩
    · rw [← Nat.toList_repr]
      exact String.toList_append
    · exact numberValue?_neg (Nat.succ_pos n) (by omega)

/-! ## From characters to values -/

/-- A token's spelling pushes the token, or leaves a scalar whose end is not yet seen. -/
theorem Token.Spelled.foldlM_step {token : Token} {spelled : List Char} (h : token.Spelled spelled)
    {reader after : Reader} (hPush : reader.push token = some after) :
    spelled.foldlM step (reader, .between) = some (after, .between) ∨
      ∃ value lexing, token = .scalar value ∧ lexing.Pending value ∧
        spelled.foldlM step (reader, .between) = some (reader, lexing) := by
  cases h with
  | null => exact .inr ⟨_, _, rfl, .word rfl, rfl⟩
  | true => exact .inr ⟨_, _, rfl, .word rfl, rfl⟩
  | false => exact .inr ⟨_, _, rfl, .word rfl, rfl⟩
  | integer hLow hHigh =>
    obtain ⟨c, chars, hSpelled, hc, hChars, hValue⟩ := exists_integer hLow hHigh
    rw [hSpelled]
    exact .inr ⟨_, _, rfl, .number (by rw [List.reverse_reverse]; exact hValue),
      foldlM_number hc hChars reader⟩
  | @text s spelled hQuoted =>
    obtain ⟨codes, hJoin, hSteps⟩ := hQuoted.exists_codes reader
    have hBegin : begin reader '"' = some (reader, .string []) := rfl
    refine .inl ?_
    simp [step, hBegin, List.foldlM_append, hSteps, hJoin, hPush]
  | punctuation hToken =>
    refine .inl ?_
    simp [step, begin_punctuation hToken, hPush]

theorem Spelled.endsScalar {tokens : List Token} {cs : List Char} (h : Spelled tokens cs)
    (hTokens : ∀ value, tokens.head? ≠ some (.scalar value)) : ∀ c ∈ cs.head?, EndsScalar c := by
  cases h with
  | nil => nofun
  | blank hBlank _ => simpa using endsScalar_of_isBlank hBlank
  | token hToken _ =>
    cases hToken with
    | null => exact absurd rfl (hTokens _)
    | true => exact absurd rfl (hTokens _)
    | false => exact absurd rfl (hTokens _)
    | integer _ _ => exact absurd rfl (hTokens _)
    | text _ =>
      rintro c ⟨⟩
      exact ⟨by decide, by decide⟩
    | punctuation hPunctuation => simpa using endsScalar_of_punctuation hPunctuation

/-- Where tokens end in a value, so does the text they are spelled by. -/
theorem Spelled.read {tokens : List Token} {cs : List Char} (h : Spelled tokens cs)
    {reader : Reader} {frames : List Frame} {value : Json}
    (hPush : tokens.foldlM Reader.push reader = some ⟨frames, .done value⟩) :
    (cs.foldlM step (reader, .between)).bind finish = some value := by
  induction h generalizing reader with
  | nil =>
    cases hPush
    rfl
  | blank hBlank _ ih =>
    rw [List.foldlM_cons, step, begin_blank hBlank]
    exact ih hPush
  | @token token spelled tokens cs hToken hRest ih =>
    rw [List.foldlM_cons] at hPush
    obtain ⟨after, hAfter, hTokens⟩ := Option.bind_eq_some_iff.mp hPush
    rw [List.foldlM_append]
    rcases hToken.foldlM_step hAfter with hSteps | ⟨scalar, lexing, rfl, hPending, hSteps⟩
    · rw [hSteps]
      exact ih hTokens
    · have hNot : ∀ next, tokens.head? ≠ some (.scalar next) := by
        intro next hHead
        obtain ⟨later, rfl⟩ := List.head?_eq_some_iff.mp hHead
        rw [List.foldlM_cons, Reader.push_scalar_of_push_scalar hAfter] at hTokens
        cases hTokens
      rw [hSteps]
      exact (hPending.settle hAfter (hRest.endsScalar hNot)).trans (ih hTokens)

/-- Any text that writes a value is read as that value. -/
theorem read?_of_writes {j : Json} {text : String} (h : j.Writes text) : read? text = some j :=
  Spelled.read h (Reader.foldlM_tokens [] .value (.inl rfl) j)

/-! ## Values that can be written -/

theorem Spelled.forall_token {tokens : List Token} {cs : List Char} (h : Spelled tokens cs) :
    ∀ token ∈ tokens, ∃ spelled, token.Spelled spelled := by
  induction h with
  | nil => nofun
  | blank _ _ ih => exact ih
  | token hToken _ ih => exact List.forall_mem_cons.mpr ⟨⟨_, hToken⟩, ih⟩

mutual

theorem isReadable_of_tokens :
    ∀ j : Json, (∀ token ∈ j.tokens, ∃ spelled, token.Spelled spelled) → j.isReadable
  | array items, h => by
    simp only [tokens, List.forall_mem_cons, List.forall_mem_append] at h
    exact allReadable_of_itemTokens items h.2.1
  | object members, h => by
    simp only [tokens, List.forall_mem_cons, List.forall_mem_append] at h
    exact membersReadable_of_memberTokens members h.2.1
  | unreadable, h => by
    obtain ⟨spelled, hSpelled⟩ := h (.scalar unreadable) (by simp [tokens])
    cases hSpelled with
    | punctuation hToken => unfold punctuation? at hToken; split at hToken <;> cases hToken
  | string _, _ | null, _ | bool _, _ | integer _, _ | real _, _ => rfl

theorem allReadable_of_itemTokens : ∀ items : List Json,
    (∀ token ∈ itemTokens items, ∃ spelled, token.Spelled spelled) → allReadable items
  | [], _ => rfl
  | [item], h => by
    rw [allReadable, isReadable_of_tokens item h]
    rfl
  | item :: next :: rest, h => by
    simp only [itemTokens, List.forall_mem_append, List.forall_mem_cons] at h
    rw [allReadable, isReadable_of_tokens item h.1, allReadable_of_itemTokens _ h.2.2]
    rfl

theorem membersReadable_of_memberTokens : ∀ members : List (String × Json),
    (∀ token ∈ memberTokens members, ∃ spelled, token.Spelled spelled) → membersReadable members
  | [], _ => rfl
  | [(key, value)], h => by
    simp only [memberTokens, List.forall_mem_cons] at h
    rw [membersReadable, isReadable_of_tokens value h.2.2]
    rfl
  | (key, value) :: next :: rest, h => by
    simp only [memberTokens, List.forall_mem_append, List.forall_mem_cons] at h
    rw [membersReadable, isReadable_of_tokens value h.2.2.1, membersReadable_of_memberTokens _ h.2.2.2.2]
    rfl

end

theorem isReadable_of_writes {j : Json} {text : String} (h : j.Writes text) : j.isReadable :=
  isReadable_of_tokens j (Spelled.forall_token h)

end DelegateSafety.Json

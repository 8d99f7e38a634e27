import DelegateSafety.Json.Number

/-! # Reading JSON text

One pass over the characters. A small machine gathers tokens (`Lexing`), a second one puts them into
the arrays and objects that are still open (`Reader`). Text with anything before, between or behind
that the grammar does not allow has no reading.
-/
namespace DelegateSafety.Json

inductive Token where
  | scalar (value : Json)
  /-- A string, `none` when it holds half of a surrogate pair. -/
  | text (value : Option String)
  | openArray | closeArray | openObject | closeObject | comma | colon

/-- An array or object that is still open, its latest part first. -/
inductive Frame where
  | array (items : List Json)
  | object (members : List (Option String × Json))
  /-- An object with a key whose value is to come. -/
  | keyed (members : List (Option String × Json)) (key : Option String)

inductive Expect where
  | value | firstItem | firstKey | key | colon | commaOrClose
  | done (value : Json)

structure Reader where
  frames : List Frame
  expect : Expect

namespace Reader

def start : Reader := ⟨[], .value⟩

/-- Members in source order; an object with an unreadable key is unreadable. -/
def closeMembers (members : List (Option String × Json)) : Json :=
  match members.reverse.mapM fun member => member.1.map (·, member.2) with
  | some members => .object members
  | none => .unreadable

/-- Puts a finished value where it belongs. -/
def put (value : Json) : List Frame → Option Reader
  | [] => some ⟨[], .done value⟩
  | .array items :: rest => some ⟨.array (value :: items) :: rest, .commaOrClose⟩
  | .keyed members key :: rest => some ⟨.object ((key, value) :: members) :: rest, .commaOrClose⟩
  | .object _ :: _ => none

def push (reader : Reader) (token : Token) : Option Reader :=
  match reader.expect, token, reader.frames with
  | .value, .scalar v, frames | .firstItem, .scalar v, frames => put v frames
  | .value, .text s, frames | .firstItem, .text s, frames =>
    put (s.elim .unreadable .string) frames
  | .value, .openArray, frames | .firstItem, .openArray, frames =>
    some ⟨.array [] :: frames, .firstItem⟩
  | .value, .openObject, frames | .firstItem, .openObject, frames =>
    some ⟨.object [] :: frames, .firstKey⟩
  | .firstItem, .closeArray, .array items :: frames
  | .commaOrClose, .closeArray, .array items :: frames => put (.array items.reverse) frames
  | .firstKey, .closeObject, .object members :: frames
  | .commaOrClose, .closeObject, .object members :: frames => put (closeMembers members) frames
  | .firstKey, .text key, .object members :: frames
  | .key, .text key, .object members :: frames => some ⟨.keyed members key :: frames, .colon⟩
  | .colon, .colon, frames => some ⟨frames, .value⟩
  | .commaOrClose, .comma, .array items :: frames => some ⟨.array items :: frames, .value⟩
  | .commaOrClose, .comma, .object members :: frames => some ⟨.object members :: frames, .key⟩
  | _, _, _ => none

end Reader

/-- What is being read, its latest part first. Strings are gathered as UTF-16 escapes and whole
characters alike, by code. -/
inductive Lexing where
  | between
  | word (letters : List Char)
  | number (chars : List Char)
  | string (codes : List Nat)
  | escape (codes : List Nat)
  | hex (codes : List Nat) (digits : Nat) (code : Nat)

def isHighSurrogate (code : Nat) : Bool := 0xD800 ≤ code && code < 0xDC00

def isLowSurrogate (code : Nat) : Bool := 0xDC00 ≤ code && code < 0xE000

/-- The characters of a string, surrogate halves joined in pairs. -/
def joinSurrogates : List Nat → Option (List Char)
  | [] => some []
  | high :: low :: rest =>
    if isHighSurrogate high then
      if isLowSurrogate low then
        (joinSurrogates rest).map
          (Char.ofNat (0x10000 + (high - 0xD800) * 0x400 + (low - 0xDC00)) :: ·)
      else none
    else if isLowSurrogate high then none
    else (joinSurrogates (low :: rest)).map (Char.ofNat high :: ·)
  | [code] =>
    if isHighSurrogate code || isLowSurrogate code then none else some [Char.ofNat code]

def escapeCode? : Char → Option Nat
  | '"' => some 0x22
  | '\\' => some 0x5C
  | '/' => some 0x2F
  | 'b' => some 0x08
  | 'f' => some 0x0C
  | 'n' => some 0x0A
  | 'r' => some 0x0D
  | 't' => some 0x09
  | _ => none

def wordValue? (letters : List Char) : Option Json :=
  if letters = ['n', 'u', 'l', 'l'] then some .null
  else if letters = ['t', 'r', 'u', 'e'] then some (.bool true)
  else if letters = ['f', 'a', 'l', 's', 'e'] then some (.bool false)
  else none

def isNumberChar (c : Char) : Bool :=
  c.isDigit || c = '-' || c = '+' || c = '.' || c = 'e' || c = 'E'

def isBlank (c : Char) : Bool := c = ' ' || c = '\n' || c = '\t' || c = '\r'

def punctuation? : Char → Option Token
  | '[' => some .openArray
  | ']' => some .closeArray
  | '\x7b' => some .openObject
  | '\x7d' => some .closeObject
  | ',' => some .comma
  | ':' => some .colon
  | _ => none

/-- A character between tokens. -/
def begin (reader : Reader) (c : Char) : Option (Reader × Lexing) :=
  if isBlank c then some (reader, .between)
  else if c = '"' then some (reader, .string [])
  else if c = '-' || c.isDigit then some (reader, .number [c])
  else if c.isLower then some (reader, .word [c])
  else (punctuation? c).bind fun token => (reader.push token).map (·, .between)

def step : Reader × Lexing → Char → Option (Reader × Lexing)
  | (reader, .between), c => begin reader c
  | (reader, .word letters), c =>
    if c.isLower then some (reader, .word (c :: letters))
    else (wordValue? letters.reverse).bind fun v =>
      (reader.push (.scalar v)).bind fun reader => begin reader c
  | (reader, .number chars), c =>
    if isNumberChar c then some (reader, .number (c :: chars))
    else (numberValue? chars.reverse).bind fun v =>
      (reader.push (.scalar v)).bind fun reader => begin reader c
  | (reader, .string codes), c =>
    if c = '"' then
      (reader.push (.text ((joinSurrogates codes.reverse).map String.ofList))).map (·, .between)
    else if c = '\\' then some (reader, .escape codes)
    else if c.toNat < 0x20 then none
    else some (reader, .string (c.toNat :: codes))
  | (reader, .escape codes), c =>
    if c = 'u' then some (reader, .hex codes 0 0)
    else (escapeCode? c).map fun code => (reader, .string (code :: codes))
  | (reader, .hex codes digits code), c =>
    (digitValue? c).map fun n =>
      if digits = 3 then (reader, .string ((16 * code + n) :: codes))
      else (reader, .hex codes (digits + 1) (16 * code + n))

def finish : Reader × Lexing → Option Json
  | (⟨_, .done v⟩, .between) => some v
  | (reader, .word letters) => (wordValue? letters.reverse).bind fun v =>
    (reader.push (.scalar v)).bind fun
      | ⟨_, .done v⟩ => some v
      | _ => none
  | (reader, .number chars) => (numberValue? chars.reverse).bind fun v =>
    (reader.push (.scalar v)).bind fun
      | ⟨_, .done v⟩ => some v
      | _ => none
  | _ => none

/-- The one value that a text writes. -/
def read? (text : String) : Option Json :=
  (text.toList.foldlM step (Reader.start, .between)).bind finish

end DelegateSafety.Json

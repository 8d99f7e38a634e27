import DelegateSafety.Json.Value
import DelegateSafety.Text.Digits
import DelegateSafety.Text.Split

/-! # TOML values without quotes

Truth values, integers, other numbers, dates and times. A date has no counterpart in JSON; it stands
as an object without members.
-/
namespace DelegateSafety.Toml

/-- Digits, single underscores between them left out. -/
def digitRun? (base : Nat) (chars : List Char) : Option (List Char) :=
  let groups := cutAt (· == '_') chars
  if groups.all fun g => !g.isEmpty && g.all (isDigitOf base) then some groups.flatten else none

/-- Decimal digits without a leading zero. -/
def wholeDigits? (chars : List Char) : Option (List Char) :=
  (digitRun? 10 chars).filter fun digits => digits.length == 1 || digits.head? != some '0'

def natural? : List Char → Option Nat
  | '0' :: 'x' :: chars => (digitRun? 16 chars).map (valueOfDigits 16)
  | '0' :: 'o' :: chars => (digitRun? 8 chars).map (valueOfDigits 8)
  | '0' :: 'b' :: chars => (digitRun? 2 chars).map (valueOfDigits 2)
  | chars => (wholeDigits? chars).map (valueOfDigits 10)

def integer? : List Char → Option Int
  | '+' :: chars => (wholeDigits? chars).map fun digits => valueOfDigits 10 digits
  | '-' :: chars => (wholeDigits? chars).map fun digits => -valueOfDigits 10 digits
  | chars => (natural? chars).map fun n => n

/-- An integer counts as one if 64 bits hold it, signed or not. What 128 bits hold is still a
number; what is beyond has no value. -/
def integerValue (i : Int) : Json :=
  if -wordSize 63 ≤ i ∧ i < wordSize 64 then .integer i
  else if -wordSize 127 ≤ i ∧ i < wordSize 128 then .real (toString i)
  else .unreadable

def unsigned : List Char → List Char
  | '+' :: chars | '-' :: chars => chars
  | chars => chars

def exponent? : List Char → Option Int
  | [] => some 0
  | 'e' :: chars | 'E' :: chars =>
    (digitRun? 10 (unsigned chars)).map fun digits =>
      let size : Int := valueOfDigits 10 digits
      if chars.head? == some '-' then -size else size
  | _ => none

def isDigitOrUnderscore (c : Char) : Bool := c.isDigit || c == '_'

/-- The digits behind the point, and the exponent. -/
def fraction? : List Char → Option (List Char × Int)
  | '.' :: chars => do
    let digits ← digitRun? 10 (chars.takeWhile isDigitOrUnderscore)
    some (digits, ← exponent? (chars.dropWhile isDigitOrUnderscore))
  | chars => (exponent? chars).map ([], ·)

/-- A number with a fraction or an exponent, and the special ones. Beyond the range of doubles it
has no value. -/
def real? (chars : List Char) : Option Json :=
  let body := unsigned chars
  if body = ['i', 'n', 'f'] || body = ['n', 'a', 'n'] then some (.real (String.ofList body))
  else do
    let whole ← wholeDigits? (body.takeWhile isDigitOrUnderscore)
    let (fraction, exponent) ← fraction? (body.dropWhile isDigitOrUnderscore)
    if isFiniteDouble (valueOfDigits 10 (whole ++ fraction)) (exponent - fraction.length) then
      some (.real (String.ofList chars))
    else some .unreadable

/-- Two digits, at least one number and at most another. -/
def isPair (least most : Nat) (a b : Char) : Bool :=
  let n := valueOfDigits 10 [a, b]
  a.isDigit && b.isDigit && least ≤ n && n ≤ most

def daysIn (year month : Nat) : Nat :=
  if month = 2 then
    if year % 4 = 0 && (year % 100 ≠ 0 || year % 400 = 0) then 29 else 28
  else if month = 4 || month = 6 || month = 9 || month = 11 then 30
  else 31

def isDate : List Char → Bool
  | [a, b, c, d, '-', e, f, '-', g, h] =>
    [a, b, c, d].all Char.isDigit && isPair 1 12 e f &&
      isPair 1 (daysIn (valueOfDigits 10 [a, b, c, d]) (valueOfDigits 10 [e, f])) g h
  | _ => false

def isOffset : List Char → Bool
  | [] | ['Z'] | ['z'] => true
  | [sign, a, b, ':', c, d] => (sign == '+' || sign == '-') && isPair 0 23 a b && isPair 0 59 c d
  | _ => false

/-- The end of a time, which has an offset only behind a date. -/
def isTimeEnd (dated : Bool) (chars : List Char) : Bool :=
  chars.isEmpty || (dated && isOffset chars)

def isSubsecond (dated : Bool) : List Char → Bool
  | '.' :: chars =>
    !(chars.takeWhile Char.isDigit).isEmpty && isTimeEnd dated (chars.dropWhile Char.isDigit)
  | chars => isTimeEnd dated chars

def isTime (dated : Bool) : List Char → Bool
  | a :: b :: ':' :: c :: d :: ':' :: e :: f :: rest =>
    isPair 0 23 a b && isPair 0 59 c d && isPair 0 60 e f && isSubsecond dated rest
  | a :: b :: ':' :: c :: d :: rest =>
    isPair 0 23 a b && isPair 0 59 c d && isTimeEnd dated rest
  | _ => false

def isMoment (chars : List Char) : Bool :=
  isDate chars || isTime false chars ||
    (isDate (chars.take 10) && chars[10]?.any (['T', 't', ' '].contains ·) &&
      isTime true (chars.drop 11))

def scalar? (chars : List Char) : Option Json :=
  if chars = ['t', 'r', 'u', 'e'] then some (.bool true)
  else if chars = ['f', 'a', 'l', 's', 'e'] then some (.bool false)
  else if isMoment chars then some (.object [])
  else match integer? chars with
    | some i => some (integerValue i)
    | none => real? chars

end DelegateSafety.Toml

import DelegateSafety.Json.Value
import DelegateSafety.Text.Digits

/-! # Numbers in JSON text

A number is an integer if its spelling has neither a fraction nor an exponent and 64 bits hold it.
All others are taken as a significand of 64 bits times a power of ten, both of them rounded to
doubles before they are multiplied; what this takes beyond the doubles is no number.
-/
namespace DelegateSafety.Json

/-- The digits of an exponent, with its sign. -/
def exponentOf? : List Char → Option Int
  | '+' :: digits => if digits.isEmpty || !digits.all Char.isDigit then none
    else some (valueOfDigits 10 digits)
  | '-' :: digits => if digits.isEmpty || !digits.all Char.isDigit then none
    else some (-(valueOfDigits 10 digits : Int))
  | digits => if digits.isEmpty || !digits.all Char.isDigit then none
    else some (valueOfDigits 10 digits)

/-- A fraction and an exponent behind a number's whole part: the digits of the one, the other. -/
def fractionOf? : List Char → Option (List Char × Int)
  | '.' :: rest =>
    let digits := rest.takeWhile Char.isDigit
    if digits.isEmpty then none
    else match rest.dropWhile Char.isDigit with
      | [] => some (digits, 0)
      | 'e' :: tail | 'E' :: tail => (exponentOf? tail).map (digits, ·)
      | _ => none
  | 'e' :: tail | 'E' :: tail => (exponentOf? tail).map ([], ·)
  | _ => none

/-- The number whose digits go on from `n` as far as 64 bits hold it, and the digits left over. -/
def significand (n : Nat) : List Char → Nat × List Char
  | [] => (n, [])
  | c :: rest =>
    let longer := valueOfDigits 10 [c] + 10 * n
    if longer < wordSize 64 then significand longer rest else (n, c :: rest)

/-- Whether a number stays within the doubles. Digits left over count for their places alone: in the
whole part each is a factor of ten, in the fraction they are nothing. -/
def isWithinDoubles (whole fraction : List Char) (exponent : Int) : Bool :=
  let (front, wholeLeft) := significand 0 whole
  let (all, fractionLeft) := significand front fraction
  let scale := exponent + wholeLeft.length - (fraction.length - fractionLeft.length)
  all == 0 || (scale ≤ 308 &&
    roundToDouble all * roundToDouble (Nat.pow 10 scale.toNat) < doubleBound)

/-- The value of a number's spelling. Zero with a minus sign is not an integer. -/
def numberValue? (chars : List Char) : Option Json :=
  let negative := chars.head? == some '-'
  let body := if negative then chars.tail else chars
  let whole := body.takeWhile Char.isDigit
  let rest := body.dropWhile Char.isDigit
  let real (fraction : List Char) (exponent : Int) : Json :=
    if isWithinDoubles whole fraction exponent then .real (String.ofList chars) else .unreadable
  if whole.isEmpty || (whole.length > 1 && whole.head? == some '0') then none
  else if rest.isEmpty then
    let n := valueOfDigits 10 whole
    if negative && n != 0 && n ≤ wordSize 63 then some (.integer (-n))
    else if !negative && n < wordSize 64 then some (.integer n)
    else some (real [] 0)
  else (fractionOf? rest).map fun (fraction, exponent) => real fraction exponent

end DelegateSafety.Json

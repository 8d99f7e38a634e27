/-! # Digits and sizes of numbers -/
namespace DelegateSafety

/-- The value of a digit, with `a` to `f` in either case as ten to fifteen. -/
def digitValue? (c : Char) : Option Nat :=
  if c.isDigit then some (c.toNat - '0'.toNat)
  else if 'a' ≤ c ∧ c ≤ 'f' then some (c.toNat - 'a'.toNat + 10)
  else if 'A' ≤ c ∧ c ≤ 'F' then some (c.toNat - 'A'.toNat + 10)
  else none

def isDigitOf (base : Nat) (c : Char) : Bool := (digitValue? c).any (· < base)

def valueOfDigits (base : Nat) (digits : List Char) : Nat :=
  digits.foldl (fun n c => base * n + (digitValue? c).getD 0) 0

/-- How many numbers a word of so many bits tells apart. -/
def wordSize (bits : Nat) : Nat := Nat.pow 2 bits

/-- From here on a number rounds beyond every finite double. -/
def doubleBound : Nat := wordSize 1024 - wordSize 970

/-- Whether `mantissa * 10 ^ exponent` rounds to a finite double. -/
def isFiniteDouble (mantissa : Nat) (exponent : Int) : Bool :=
  let size : Int := (Nat.toDigits 10 mantissa).length + exponent
  if mantissa = 0 || size < 300 then true
  else if size > 320 then false
  else mantissa * Nat.pow 10 exponent.toNat < doubleBound * Nat.pow 10 (-exponent).toNat

/-- A number rounded to the 53 binary digits of a double. A half goes to the even neighbour. -/
def roundToDouble (n : Nat) : Nat :=
  let unit := wordSize (n.log2 - 52)
  let below := n / unit
  let rest := 2 * (n % unit)
  (if unit < rest || (rest == unit && below % 2 == 1) then below + 1 else below) * unit

end DelegateSafety

import AstraConnect.Lib.Decimal

set_option autoImplicit false

/-! # Fixed point numbers (`utils/decimal/fixedPoint.hpp`)

Prices, quantities and amounts are integer counts of `10^-8` units, read straight from the
exchange's decimal strings. `parseFixed` and `formatFixed` are templates over `int64_t` and
`__int128`; the argument is `IntType` here.

A string is a `List Char`. Values of the unsigned companion type `U` are naturals, and each
operation on them is checked: it ends the computation with `Exit.overflow` when its exact
result does not fit the type. The same holds for the counter `decimals`, an `int`. So
`parseFixed … = none` says that some intermediate operation left its range. Only the final
conversion `Int(U(0) - value)` is meant to wrap, and is modelled by the two's complement value.
-/

namespace AstraConnect.Utils

open Decimal

/-- The instances of the template argument `Int`. -/
inductive IntType where
  | int64
  | int128
  deriving DecidableEq, Repr

namespace IntType

/-- The number of bits of `Int` and of `Unsigned`. -/
def width : IntType → Nat
  | int64 => 64
  | int128 => 128

/-- `FixedLimits<Int>::negLimit`, the magnitude of the most negative value. -/
def negLimit (I : IntType) : Nat := 2 ^ (I.width - 1)

/-- The values of the type. -/
def InRange (I : IntType) (v : Int) : Prop := -(I.negLimit : Int) ≤ v ∧ v < I.negLimit

instance (I : IntType) (v : Int) : Decidable (I.InRange v) := inferInstanceAs (Decidable (_ ∧ _))

/-- The value of `Int` with the bit pattern of `n`. -/
def ofUnsigned (I : IntType) (n : Nat) : Int := Int.bmod n (2 ^ I.width)

end IntType

def FIXED_DIGITS : Nat := 8

def FIXED_SCALE : Nat := 100000000

/-! ## `parseFixed`

The digit loop, the padding loop and the sign are functions of their own, with the tests of the
source in their order. -/

/-- How a parse ends early: `return false`, or an operation that leaves its type's range. -/
inductive Exit where
  | reject
  | overflow
  deriving DecidableEq, Repr

/-- A result of an operation on `Unsigned`. -/
def fitU (I : IntType) (n : Int) : Except Exit Nat :=
  if 0 ≤ n ∧ n < 2 ^ I.width then .ok n.toNat else .error .overflow

/-- A result of an operation on `int`. -/
def fitInt (n : Int) : Except Exit Int :=
  if -2 ^ 31 ≤ n ∧ n < 2 ^ 31 then .ok n else .error .overflow

/-- The local variables of the digit loop. `decimals` is `-1` before the point. -/
structure ParseState where
  value : Nat := 0
  decimals : Int := -1
  anyDigit : Bool := false
  roundUp : Bool := false
  deriving DecidableEq, Repr

/-- `if(value > (negLimit - digit) / 10) return false; value = value * 10 + digit;` -/
def pushDigit (I : IntType) (value digit : Nat) : Except Exit Nat := do
  let room ← fitU I (I.negLimit - digit)
  if value > room / 10 then throw .reject
  let tenfold ← fitU I (value * 10)
  fitU I (tenfold + digit)

/-- One round of the digit loop. -/
def parseChar (I : IntType) (st : ParseState) (c : Char) : Except Exit ParseState := do
  if c = '.' then
    if st.decimals ≥ 0 then throw .reject
    return { st with decimals := 0 }
  if c < '0' ∨ c > '9' then throw .reject
  if st.decimals ≥ FIXED_DIGITS then
    -- only the first dropped digit decides the rounding
    let roundUp := if st.decimals = FIXED_DIGITS then decide (c ≥ '5') else st.roundUp
    let decimals ← fitInt (st.decimals + 1)
    return { st with anyDigit := true, roundUp := roundUp, decimals := decimals }
  let value ← pushDigit I st.value (digitVal c)
  let decimals ← if st.decimals ≥ 0 then fitInt (st.decimals + 1) else pure st.decimals
  return { st with anyDigit := true, value := value, decimals := decimals }

/-- The padding loop `for(int k = …; k < FIXED_DIGITS; k++)`, by the rounds left. -/
def padValue (I : IntType) : Nat → Nat → Except Exit Nat
  | 0, value => .ok value
  | k + 1, value => do
      if value > I.negLimit / 10 then throw .reject
      let value ← fitU I (value * 10)
      padValue I k value

/-- `if(roundUp) { if(value >= negLimit) return false; value++; }` -/
def roundValue (I : IntType) (roundUp : Bool) (value : Nat) : Except Exit Nat := do
  if roundUp then
    if value ≥ I.negLimit then throw .reject
    fitU I (value + 1)
  else pure value

/-- The optional sign: whether it is `-`, and the characters after it. -/
def readSign : List Char → Bool × List Char
  | [] => (false, [])
  | c :: s => if c = '-' ∨ c = '+' then (c = '-', s) else (false, c :: s)

/-- The body of `parseFixed`, with the value it assigns to `out`. -/
def parseFixedValue (I : IntType) (s : List Char) : Except Exit Int := do
  let (negative, body) := readSign s
  let st ← body.foldlM (parseChar I) {}
  if !st.anyDigit then throw .reject
  let value ← padValue I (FIXED_DIGITS - st.decimals.toNat) st.value
  let value ← roundValue I st.roundUp value
  if value > I.negLimit ∨ (!negative ∧ value = I.negLimit) then throw .reject
  return if negative then I.ofUnsigned (2 ^ I.width - value) else I.ofUnsigned value

/-- `parseFixed(s, out)`: the returned flag and `out` afterwards, `none` if an intermediate
operation left the range of its type. -/
def parseFixed (I : IntType) (s : List Char) (out : Int) : Option (Bool × Int) :=
  match parseFixedValue I s with
  | .ok v => some (true, v)
  | .error .reject => some (false, out)
  | .error .overflow => none

example : parseFixed .int64 "-0.000000015".toList 7 = some (true, -2) := by decide

example : parseFixed .int64 "92233720368.547758075".toList 7 = some (false, 7) := by decide

/-! ## `formatFixed` -/

/-- `do { digits[n++] = '0' + whole % 10; whole /= 10; } while(whole);` on a buffer with `room`
free bytes, least significant digit first; `none` is a write past the buffer. -/
def wholeDigits : Nat → Nat → Option (List Char)
  | 0, _ => none
  | room + 1, whole =>
      if whole / 10 = 0 then some [digitChar (whole % 10)]
      else (wholeDigits room (whole / 10)).map (digitChar (whole % 10) :: ·)

/-- The array `decimals` after its loop: `k` digits of `fraction`, filled from the right. -/
def fractionDigits : Nat → Nat → List Char
  | 0, _ => []
  | k + 1, fraction => fractionDigits k (fraction / 10) ++ [digitChar (fraction % 10)]

/-- `while(decimals[len - 1] == '0') len--;` -/
def stripZeros (decimals : List Char) : Nat → Nat
  | 0 => 0
  | len + 1 => if decimals[len]? = some '0' then stripZeros decimals len else len + 1

/-- The point and the decimals, when there are any. -/
def formatFraction (fraction : Nat) : List Char :=
  if fraction = 0 then []
  else
    let decimals := fractionDigits FIXED_DIGITS fraction
    '.' :: decimals.take (stripZeros decimals FIXED_DIGITS)

/-- `U(v)`. -/
def IntType.toUnsigned (I : IntType) (v : Int) : Nat := (v % 2 ^ I.width).toNat

/-- `negative ? U(0) - U(v) : U(v)` -/
def magnitude (I : IntType) (v : Int) : Nat :=
  if v < 0 then (2 ^ I.width - I.toUnsigned v) % 2 ^ I.width else I.toUnsigned v

/-- `formatFixed(v)`; `none` if the 48 bytes of `digits` do not hold the whole part. -/
def formatFixed (I : IntType) (v : Int) : Option (List Char) :=
  (wholeDigits 48 (magnitude I v / FIXED_SCALE)).map fun digits =>
    (if v < 0 then ['-'] else []) ++ digits.reverse ++ formatFraction (magnitude I v % FIXED_SCALE)

example : formatFixed .int64 (-50000000) = some "-0.5".toList := by decide

end AstraConnect.Utils

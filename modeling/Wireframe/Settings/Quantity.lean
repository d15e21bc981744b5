/-!
# Quantities

A setting with decimals is held as a *quantity*: a whole number of at most 53 binary digits times a
power of two, or one of the values beyond these. A decimal number becomes the nearest quantity, of
two equally near ones the even one (`Quantity.ofDecimal`), and a quantity is shown by the shortest
decimal number that becomes it, without an exponent (`Quantity.display`).
-/

namespace Wireframe

/-- A number with decimals, as settings hold it. -/
inductive Quantity
  /-- The mantissa times two to the power of the exponent. -/
  | finite (negative : Bool) (mantissa : Nat) (exponent : Int)
  | infinite (negative : Bool)
  | undefined
  deriving DecidableEq, Repr

/-- A quotient to the nearest whole number, and a half to the even one. -/
def roundedQuotient (numerator denominator : Nat) : Nat :=
  let quotient := numerator / denominator
  let rest := numerator % denominator
  if 2 * rest < denominator || (2 * rest = denominator && quotient % 2 = 0) then quotient
  else quotient + 1

/-- A number times a power of a base; below zero an exponent leaves it as it is. -/
def raised (n base : Nat) (exponent : Int) : Nat :=
  n * base.pow exponent.toNat

namespace Quantity

/-- The exponent of the smallest positive quantity. -/
def leastExponent : Int := -1074

/-- The number of binary digits of a mantissa. -/
def precision : Nat := 53

/-- Zero. -/
def zero (negative : Bool) : Quantity :=
  finite negative 0 leastExponent

/-- A mantissa with one digit too many gives one up. -/
def normalize (negative : Bool) (mantissa : Nat) (exponent : Int) : Quantity :=
  let (mantissa, exponent) :=
    if mantissa = Nat.pow 2 precision then (mantissa / 2, exponent + 1) else (mantissa, exponent)
  if exponent > 1024 - precision then infinite negative else finite negative mantissa exponent

/-- The quantity nearest to a positive quotient. -/
def ofQuotient (negative : Bool) (numerator denominator : Nat) : Quantity :=
  let guess : Int := (numerator.log2 : Int) - (denominator.log2 : Int)
  let isBelow := raised numerator 2 (-guess) < raised denominator 2 guess
  let leading := if isBelow then guess - 1 else guess
  let exponent := max leastExponent (leading - (precision - 1))
  normalize negative
    (roundedQuotient (raised numerator 2 (-exponent)) (raised denominator 2 exponent)) exponent

/-- The number of digits of a positive number. -/
def digitCount (n : Nat) : Nat :=
  (Nat.toDigits 10 n).length

/-- The quantity nearest to some digits times a power of ten. -/
def ofDecimal (negative : Bool) (digits : Nat) (power : Int) : Quantity :=
  let size := (digitCount digits : Int) + power
  if digits = 0 || size < -330 then zero negative
  else if size > 310 then infinite negative
  else ofQuotient negative (raised digits 10 power) (raised 1 10 (-power))

/-- Whether a quantity is zero. -/
def isZero : Quantity → Bool
  | finite _ mantissa _ => mantissa = 0
  | _ => false

/-- The largest number that is counted to. -/
def countLimit : Nat := Nat.pow 2 64 - 1

/-- The whole number nearest to a quantity, a half away from zero, within zero and the limit. -/
def toCount : Quantity → Nat
  | finite true _ _ => 0
  | finite false mantissa exponent =>
    let doubled := raised (2 * mantissa) 2 exponent / raised 1 2 (-exponent)
    min countLimit ((doubled + 1) / 2)
  | infinite true => 0
  | infinite false => countLimit
  | undefined => 0

/-! ## Shortest decimals -/

/-- The decimal number with the given count of digits that becomes the given quantity, if there is
    one; of two the nearer. The quantity lies below the power of ten with the exponent `size`. -/
def decimalOfLength? (mantissa : Nat) (exponent size : Int) (length : Nat) : Option (Nat × Int) :=
  let power := size - length
  let numerator := raised (raised mantissa 2 exponent) 10 (-power)
  let denominator := raised (raised 1 2 (-exponent)) 10 power
  let below := numerator / denominator
  let readsBack (digits : Nat) : Bool :=
    ofDecimal false digits power = finite false mantissa exponent
  let nearer := roundedQuotient numerator denominator
  let other := if nearer = below then below + 1 else below
  if readsBack nearer then some (nearer, power)
  else if readsBack other then some (other, power)
  else none

/-- The shortest decimal number that becomes a positive quantity, as digits and a power of ten. -/
def shortestDecimal (mantissa : Nat) (exponent : Int) : Nat × Int :=
  let enlarged := raised (raised mantissa 2 exponent) 10 400 / raised 1 2 (-exponent)
  let size := (digitCount enlarged : Int) - 400
  ((List.range' 1 17).findSome? (decimalOfLength? mantissa exponent size)).getD (0, 0)

/-- A decimal number without an exponent. -/
def positional (digits : Nat) (power : Int) : String :=
  let figures := Nat.toDigits 10 digits
  if 0 ≤ power then String.ofList (figures ++ List.replicate power.toNat '0')
  else
    let places := (-power).toNat
    let padded := List.replicate (places + 1 - figures.length) '0' ++ figures
    let whole := padded.take (padded.length - places)
    let decimals := padded.drop (padded.length - places)
    let shown := (decimals.reverse.dropWhile (· = '0')).reverse
    String.ofList (if shown.isEmpty then whole else whole ++ '.' :: shown)

/-- A quantity as it is shown. -/
def display : Quantity → String
  | finite negative mantissa exponent =>
    let sign := if negative then "-" else ""
    if mantissa = 0 then sign ++ "0"
    else
      let (digits, power) := shortestDecimal mantissa exponent
      sign ++ positional digits power
  | infinite negative => if negative then "-inf" else "inf"
  | undefined => "NaN"

/-- A quantity as it is shown where it must not be taken for a whole number: what is finite has a
    decimal point. -/
def pointed (q : Quantity) : String :=
  match q with
  | finite .. => if q.display.toList.contains '.' then q.display else q.display ++ ".0"
  | _ => q.display

end Quantity

end Wireframe

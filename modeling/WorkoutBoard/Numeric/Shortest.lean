import WorkoutBoard.Numeric.Binary64
import WorkoutBoard.Text.Decimal

/-!
# The shortest decimal text of a floating-point number

A number stands for every real that rounds to it. Of the decimals in that interval `shortest` takes
one with the fewest digits, and of those the nearest. `Binary64.text` writes it positionally between
`0.00001` and `10 ^ 16`, and with an exponent elsewhere.
-/

namespace WorkoutBoard.Numeric.Binary64

structure Scientific where
  digits : Nat
  exponent : Int
deriving DecidableEq, Repr

def powerOfTen (exponent : Int) : Nat × Nat :=
  match exponent with
  | .ofNat power => (10 ^ power, 1)
  | .negSucc power => (1, 10 ^ (power + 1))

/-- Whether `digits * 10 ^ exponent` rounds to a number. The interval reaches half a step up and
half a step down, where the step below a power of two is half as long; its ends count if the
significand is even. -/
def roundsTo (number : Binary64) (decimal : Scientific) : Bool :=
  let (up, down) := powerOfTen decimal.exponent
  let point := 4 * decimal.digits * up * unitsOfOne
  let centre := 4 * number.significand * 2 ^ number.shift * down
  let step := 2 ^ number.shift * down
  let above := centre + 2 * step
  let lowerGap :=
    if number.significand = 2 ^ (precision - 1) ∧ 0 < number.shift then step else 2 * step
  let below := centre - lowerGap
  if number.significand % 2 = 0 then below ≤ point && point ≤ above
  else below < point && point < above

/-- The neighbours of a number among the multiples of `10 ^ exponent`, the nearer one first; of two
equally near ones the even one. -/
def neighbours (number : Binary64) (exponent : Int) : Scientific × Scientific :=
  let (up, down) := powerOfTen exponent
  let numerator := number.units * down
  let denominator := up * unitsOfOne
  let low := numerator / denominator
  let nearest := divideToEven numerator denominator
  (⟨nearest, exponent⟩, ⟨if nearest = low then low + 1 else low, exponent⟩)

def leadingExponent (number : Binary64) : Nat → Int → Int
  | 0, exponent => exponent
  | fuel + 1, exponent =>
      let (up, down) := powerOfTen exponent
      if up * unitsOfOne ≤ number.units * down then exponent
      else leadingExponent number fuel (exponent - 1)

def firstHit (number : Binary64) : Nat → Int → Scientific
  | 0, exponent => (number.neighbours exponent).1
  | finer + 1, exponent =>
      let (nearest, other) := number.neighbours exponent
      if number.roundsTo nearest then nearest
      else if number.roundsTo other then other
      else firstHit number finer (exponent - 1)

/-- The decimal of fewest digits that rounds to a positive number. -/
def shortest (number : Binary64) : Scientific :=
  firstHit number 17 (number.leadingExponent 633 308 + 1)

def exponentText (digits : List Char) (exponent : Int) : List Char :=
  let fraction := match digits with
    | first :: second :: rest => first :: '.' :: second :: rest
    | short => short
  let sign := if exponent < 0 then '-' else '+'
  fraction ++ 'e' :: sign :: Nat.toDigits 10 exponent.natAbs

def positionalText (digits : List Char) (exponent : Int) : List Char :=
  match exponent with
  | .ofNat power =>
      let whole := digits.take (power + 1) ++ List.replicate (power + 1 - digits.length) '0'
      let fraction := digits.drop (power + 1)
      whole ++ '.' :: (if fraction.isEmpty then ['0'] else fraction)
  | .negSucc zeros => '0' :: '.' :: (List.replicate zeros '0' ++ digits)

def withoutTrailingZeros (digits : List Char) : List Char :=
  (digits.reverse.dropWhile (· == '0')).reverse

def text (number : Binary64) : String :=
  if number.isZero then "0.0"
  else
    let decimal := number.shortest
    let allDigits := Nat.toDigits 10 decimal.digits
    let exponent := decimal.exponent + allDigits.length - 1
    let digits := withoutTrailingZeros allDigits
    String.ofList
      (if -5 ≤ exponent ∧ exponent ≤ 15 then positionalText digits exponent
        else exponentText digits exponent)

example : (⟨1, 0⟩ : Binary64).text = "5e-324" := by decide +kernel

example :
    (ofNat? 1000000000000000).map text = some "1000000000000000.0" ∧
      (ofNat? 10000000000000000).map text = some "1e+16" := by
  decide +kernel

end WorkoutBoard.Numeric.Binary64

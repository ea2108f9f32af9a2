/-
This file holds lengths of time and their form in reports: seconds with two decimals. The seconds
are first brought to binary floating point with 53 bits, as the sum of the whole seconds and the
part below a second, and it is the value of that sum that is rounded to two decimals.
-/

import EngineDocs.Text.Digits

namespace EngineDocs

/-! ### Binary floating point -/

/-- The quotient rounded to the nearest whole number, a half going to the even neighbour. -/
def roundQuotient (numerator denominator : Nat) : Nat :=
  let quotient := numerator / denominator
  let twice := 2 * (numerator % denominator)
  if twice < denominator then quotient
  else if denominator < twice then quotient + 1
  else quotient + quotient % 2

/-- A number of the form `mantissa / 2 ^ scale`. -/
structure Dyadic where
  mantissa : Nat
  scale : Nat
  deriving DecidableEq

namespace Dyadic

/-- The number with a mantissa of at most 53 bits that is nearest to a quotient, a half going to
the even mantissa. The quotient has to be zero or at least `2 ^ -1000`, and below `2 ^ 1000`. -/
def nearest (numerator denominator : Nat) : Dyadic :=
  -- The quotient times `2 ^ 1060` has its leading bit at `top`, and its last 52 bits below that
  -- are kept.
  let scaled := numerator * Nat.pow 2 1060
  let top := Nat.log2 (scaled / denominator)
  let drop := top - 52
  ⟨roundQuotient scaled (denominator * Nat.pow 2 drop) * Nat.pow 2 drop, 1060⟩

/-- The sum, rounded like a quotient. -/
def add (a b : Dyadic) : Dyadic :=
  nearest (a.mantissa * Nat.pow 2 b.scale + b.mantissa * Nat.pow 2 a.scale)
    (Nat.pow 2 (a.scale + b.scale))

/-- The number with two decimals, a half going to the even digit. -/
def twoDecimals (value : Dyadic) : Text :=
  let hundredths := roundQuotient (value.mantissa * 100) (Nat.pow 2 value.scale)
  Text.decimal (hundredths / 100) ++ '.' :: Text.paddedDecimal 2 (hundredths % 100)

end Dyadic

/-! ### Lengths of time -/

/-- A length of time, in seconds and nanoseconds. -/
structure Duration where
  seconds : Nat := 0
  nanos : Nat := 0
  deriving DecidableEq

namespace Duration

/-- The number of nanoseconds of a second. -/
def nanosPerSecond : Nat := 1000000000

/-- The seconds as a floating point number. -/
def toDyadic (duration : Duration) : Dyadic :=
  (Dyadic.nearest duration.seconds 1).add (Dyadic.nearest duration.nanos nanosPerSecond)

/-- The seconds with two decimals and the unit. -/
def text (duration : Duration) : String :=
  String.ofList (duration.toDyadic.twoDecimals ++ ['s'])

end Duration

end EngineDocs

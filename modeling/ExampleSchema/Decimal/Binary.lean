import ExampleSchema.Decimal.Basic

/-!
# Decimals as binary floating point

The double precision number nearest to a decimal, a tie going to the even neighbour, as the bits of
its encoding.  The quotient is rounded once, in exact arithmetic; a value beyond the largest finite
number becomes an infinity.
-/

namespace ExampleSchema
namespace Binary64

/-- The natural number nearest to `n / d`, a tie going to the even neighbour. -/
def roundDiv (n d : Nat) : Nat :=
  let q := n / d
  let twice := 2 * (n % d)
  if twice > d ∨ (twice = d ∧ q % 2 = 1) then q + 1 else q

/-- `n / (d * 2 ^ e)`, rounded. -/
def roundScaled (n d : Nat) (e : Int) : Nat :=
  if e < 0 then roundDiv (n <<< e.natAbs) d else roundDiv n (d <<< e.toNat)

/-- Whether `2 ^ k ≤ n / d`. -/
def powLe (n d : Nat) (k : Int) : Bool :=
  if k < 0 then d ≤ n <<< k.natAbs else d <<< k.toNat ≤ n

/-- The largest `k` with `2 ^ k ≤ n / d`, for positive `n` and `d`. -/
def exponent (n d : Nat) : Int :=
  let k : Int := (n.log2 : Int) - (d.log2 : Int)
  if powLe n d k then k else k - 1

/-- The bits of positive infinity. -/
def infinity : Nat := 0x7FF <<< 52

/-- The bits of the double nearest to `n / d`, without the sign. -/
def magnitudeBits (n d : Nat) : Nat :=
  if n = 0 then 0
  else
    let e := max (exponent n d - 52) (-1074)
    let m := roundScaled n d e
    let bits := m + (e + 1074).toNat <<< 52
    min bits infinity

/-- The bits of the double nearest to a decimal. -/
def bits (d : Decimal) : Nat :=
  magnitudeBits d.coeff (Nat.pow 10 d.scale) + if d.negative then 1 <<< 63 else 0

end Binary64
end ExampleSchema

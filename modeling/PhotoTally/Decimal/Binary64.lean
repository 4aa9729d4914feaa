/-!
# Floating-point numbers of 64 bits

A finite number without its sign is `mantissa * 2 ^ exponent`, with a mantissa of at most 53 bits
and an exponent of at least -1074.  Every operation is the exact one followed by `ofRatio`, which
rounds to the nearest such number, ties to the even mantissa; `none` stands for overflow.
-/

namespace PhotoTally.Decimal

/-- `num / den` to the nearest integer, a tie to the even one. -/
def divRound (num den : Nat) : Nat :=
  let q := num / den
  let r := num % den
  if 2 * r < den then q
  else if den < 2 * r then q + 1
  else if q % 2 = 0 then q else q + 1

/-- The number `mantissa * 2 ^ exponent`. -/
structure Binary64 where
  mantissa : Nat
  exponent : Int
  deriving DecidableEq

namespace Binary64

def zero : Binary64 := ⟨0, -1074⟩

/-- The number nearest to `num / den`, unless that is too large. -/
def ofRatio (num den : Nat) : Option Binary64 :=
  if num = 0 then some zero
  else
    let guess : Int := (num.log2 : Int) - den.log2
    let top : Int :=
      if num <<< (-guess).toNat < den <<< guess.toNat then guess - 1 else guess
    let e : Int := max (top - 52) (-1074)
    let m := divRound (num <<< (-e).toNat) (den <<< e.toNat)
    let x : Binary64 := if m = 1 <<< 53 then ⟨1 <<< 52, e + 1⟩ else ⟨m, e⟩
    if 971 < x.exponent then none else some x

/-- The product, rounded. -/
def mul (x y : Binary64) : Option Binary64 :=
  let e := x.exponent + y.exponent
  ofRatio ((x.mantissa * y.mantissa) <<< e.toNat) (1 <<< (-e).toNat)

/-- The quotient by a number other than zero, rounded. -/
def div (x y : Binary64) : Option Binary64 :=
  let e := x.exponent - y.exponent
  ofRatio (x.mantissa <<< e.toNat) (y.mantissa <<< (-e).toNat)

/-- `10 ^ k` for `k` up to 308, rounded. -/
def pow10 (k : Nat) : Binary64 := (ofRatio (Nat.pow 10 k) 1).getD zero

/-- `x / 10 ^ k`, in rounded steps of at most `10 ^ 308`.  Three steps reach zero from every
significand that fits a word. -/
def scaleDown (x : Binary64) : Nat → Nat → Binary64
  | 0, _ => zero
  | steps + 1, k =>
    if k ≤ 308 then (x.div (pow10 k)).getD zero
    else if x.mantissa = 0 then zero
    else scaleDown ((x.div (pow10 308)).getD zero) steps (k - 308)

/-- The value read from a decimal: the significand is rounded, then scaled by a rounded power of
ten, and the result is rounded again.  `none` if it is too large. -/
def ofDecimal (significand : Nat) (exponent : Int) : Option Binary64 :=
  match ofRatio significand 1 with
  | none => none
  | some x =>
    if exponent < 0 then some (x.scaleDown 4 exponent.natAbs)
    else if exponent ≤ 308 then x.mul (pow10 exponent.toNat)
    else if x.mantissa = 0 then some zero
    else none

end Binary64

end PhotoTally.Decimal

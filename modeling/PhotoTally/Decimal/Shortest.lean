import PhotoTally.Decimal.Binary64

/-!
# The shortest decimal that reads back

A floating-point number is shown with the fewest digits that round to it, and with the nearest of
those.  `shortest` finds them on the decimal grids of one, two, … digits by exact arithmetic.
`Binary64.text` writes them: positional with a point from `0.00001` up to `10 ^ 16`, with an
exponent beyond.
-/

namespace PhotoTally.Decimal

/-- Where a number lies among its neighbours, in units of `2 ^ unit`. -/
structure Binary64.Interval where
  low : Nat
  value : Nat
  high : Nat
  unit : Int
  closed : Bool

/-- The numbers that round to `x`, in quarters of its last place. -/
def Binary64.interval (x : Binary64) : Binary64.Interval where
  low := 4 * x.mantissa - (if x.mantissa = 1 <<< 52 ∧ -1074 < x.exponent then 1 else 2)
  value := 4 * x.mantissa
  high := 4 * x.mantissa + 2
  unit := x.exponent - 2
  closed := x.mantissa % 2 == 0

/-- `n * 2 ^ unit / 10 ^ q` as a fraction. -/
def Binary64.Interval.onGrid (i : Binary64.Interval) (q : Int) (n : Nat) : Nat × Nat :=
  ((n <<< i.unit.toNat) * Nat.pow 10 (-q).toNat, (1 <<< (-i.unit).toNat) * Nat.pow 10 q.toNat)

/-- Whether `d * 10 ^ q` rounds to the number. -/
def Binary64.Interval.contains (i : Binary64.Interval) (q : Int) (d : Nat) : Bool :=
  let (low, den) := i.onGrid q i.low
  let (high, _) := i.onGrid q i.high
  let point := d * den
  if i.closed then low ≤ point && point ≤ high else low < point && point < high

/-- The nearer of the two neighbours on the grid of `10 ^ q` that round to the number; at a tie the
even one. -/
def Binary64.Interval.nearest? (i : Binary64.Interval) (q : Int) : Option Nat :=
  let (num, den) := i.onGrid q i.value
  let d := num / den
  let nearer := divRound num den
  let farther := if nearer = d then d + 1 else d
  if i.contains q nearer then some nearer
  else if i.contains q farther then some farther
  else none

/-- The exponent of the first digit of a number other than zero. -/
def Binary64.Interval.leading (i : Binary64.Interval) : Int :=
  let whole := (fun p : Nat × Nat => p.1 / p.2) (i.onGrid 0 i.value)
  if whole ≠ 0 then (Nat.toDigits 10 whole).length - 1
  else
    match (List.range 330).find? fun (k : Nat) =>
      (fun p : Nat × Nat => p.2 ≤ p.1) (i.onGrid (-(k : Int)) i.value) with
    | some k => -(k : Int)
    | none => 0

/-- Takes zeros off the end of `d * 10 ^ q`. -/
def stripZeros : Nat → Nat → Int → Nat × Int
  | 0, d, q => (d, q)
  | fuel + 1, d, q => if d % 10 = 0 then stripZeros fuel (d / 10) (q + 1) else (d, q)

/-- The fewest digits `d` with `d * 10 ^ q` rounding to a number other than zero. -/
def shortest (x : Binary64) : Nat × Int :=
  let i := x.interval
  let p := i.leading
  let found := (List.range 18).findSome? fun (n : Nat) =>
    let q := p - n
    (i.nearest? q).map fun d => (d, q)
  match found with
  | some (d, q) => stripZeros 20 d q
  | none => (0, 0)

/-- How a number is laid out: positional for exponents of the first digit from `-5` to `15`, with
at least one digit on either side of the point. -/
def Binary64.text (negative : Bool) (x : Binary64) : String :=
  let sign := if negative then ['-'] else []
  if x.mantissa = 0 then String.ofList (sign ++ ['0', '.', '0'])
  else
    let (d, q) := shortest x
    let ds := Nat.toDigits 10 d
    let e : Int := q + ds.length - 1
    let body :=
      if 16 ≤ e ∨ e < -5 then
        let fraction := if ds.length = 1 then [] else '.' :: ds.tail
        ds.take 1 ++ fraction ++ 'e' :: (if e < 0 then '-' else '+') ::
          Nat.toDigits 10 e.natAbs
      else if e < 0 then ['0', '.'] ++ List.replicate (e.natAbs - 1) '0' ++ ds
      else if 0 ≤ q then ds ++ List.replicate q.toNat '0' ++ ['.', '0']
      else ds.take (e.toNat + 1) ++ '.' :: ds.drop (e.toNat + 1)
    String.ofList (sign ++ body)

end PhotoTally.Decimal

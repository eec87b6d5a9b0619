set_option autoImplicit false

/-! # Shortest decimals

A binary number stands for every real number that rounds to it. Among the decimals in that interval
`Decimal.shortest` takes one with the fewest digits, and of those the nearest to the number; of two
that are equally near, the even one. All comparisons are between natural numbers and exact.

For each number of digits it is enough to look at the two neighbours of the number on the grid of
decimals with that many digits: if any point of the grid is in the interval, one of them is. -/

namespace CanvasTransform

/-- The number `digits * 10 ^ exponent`. -/
structure Decimal where
  digits : Nat
  exponent : Int
deriving DecidableEq

namespace Decimal

/-- A positive binary number `m * 2 ^ e`, and whether the next smaller one is only half as far away as
    the next larger one. -/
structure Binary where
  m : Nat
  e : Int
  narrowBelow : Bool

/-- The same comparison of `c * 10 ^ g` with `x * 2 ^ (e - 2)` in whole numbers: compare
    `c * weights.1` with `x * weights.2`. -/
def weights (e g : Int) : Nat × Nat :=
  (Nat.pow 10 g.toNat <<< (2 - e).toNat, Nat.pow 10 (-g).toNat <<< (e - 2).toNat)

/-- The greatest `t` with `10 ^ t` not above the number, found near an estimate of its logarithm. -/
def magnitude (b : Binary) : Int :=
  let estimate := ((b.m.log2 : Int) + b.e) * 30103 / 100000
  let fits (t : Int) : Bool :=
    let (den, num) := weights b.e t
    decide (den ≤ 4 * b.m * num)
  if fits (estimate + 1) then estimate + 1 else if fits estimate then estimate else estimate - 1

/-- The decimal with grid exponent `g` nearest to the number, if one is in the interval of the real
    numbers that round to it. The ends belong to the interval when `m` is even. -/
def onGrid? (b : Binary) (g : Int) : Option Decimal :=
  let (unit, num) := weights b.e g
  let low := (if b.narrowBelow then 4 * b.m - 1 else 4 * b.m - 2) * num
  let value := 4 * b.m * num
  let high := (4 * b.m + 2) * num
  let inside (c : Nat) : Bool :=
    if b.m % 2 = 0 then decide (low ≤ c * unit) && decide (c * unit ≤ high)
    else decide (low < c * unit) && decide (c * unit < high)
  let c := value / unit
  let below := value - c * unit
  let above := (c + 1) * unit - value
  if inside c && inside (c + 1) then
    some ⟨if below < above || (below == above && c % 2 == 0) then c else c + 1, g⟩
  else if inside c then some ⟨c, g⟩
  else if inside (c + 1) then some ⟨c + 1, g⟩
  else none

/-- The decimal without the zeros at its end, which there are at most `n` of. -/
def trim : Nat → Decimal → Decimal
  | 0, d => d
  | n + 1, d =>
    if d.digits % 10 = 0 ∧ d.digits ≠ 0 then trim n ⟨d.digits / 10, d.exponent + 1⟩ else d

/-- The first grid of at least `17 - n` digits that has a decimal in the interval. Seventeen digits
    always suffice. -/
def search (b : Binary) (t : Int) : Nat → Decimal
  | 0 => (onGrid? b (t - 16)).getD ⟨0, 0⟩
  | n + 1 =>
    match onGrid? b (t - (16 - (n + 1 : Nat))) with
    | some d => d
    | none => search b t n

/-- The shortest decimal that rounds to the number, nearest to it among those of its length. -/
def shortest (b : Binary) : Decimal := trim 20 (search b (magnitude b) 16)

end Decimal

end CanvasTransform

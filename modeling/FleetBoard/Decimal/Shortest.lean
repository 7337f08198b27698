/-!
# The shortest decimal that reads back

`shortest m q` gives, for the positive double `m × 2 ^ q`, the decimal with the fewest digits among
those that are nearer to it than to any other double, and of those the nearest. Everything is
computed on whole numbers.
-/

namespace FleetBoard.Decimal

def binaryFraction (x : Nat) (q : Int) : Nat × Nat :=
  match q with
  | .ofNat k => (x * Nat.pow 2 k, 1)
  | .negSucc k => (x, Nat.pow 2 (k + 1))

def decimalFraction (n : Nat) (e : Int) : Nat × Nat :=
  match e with
  | .ofNat k => (n * Nat.pow 10 k, 1)
  | .negSucc k => (n, Nat.pow 10 (k + 1))

def fractionLt (a b : Nat × Nat) : Bool := a.1 * b.2 < b.1 * a.2

/-- The interval of reals whose nearest double is `m × 2 ^ q`, as the numbers of quarter units below
and above; below a power of two the doubles lie twice as close. -/
def quarterBounds (m : Nat) (q : Int) : Nat × Nat :=
  let below := if m = Nat.pow 2 52 ∧ -1074 < q then 1 else 2
  (4 * m - below, 4 * m + 2)

/-- Does `n × 10 ^ e` read back as `m × 2 ^ q`? An end of the interval belongs to it when `m` is
even. -/
def readsBack (m : Nat) (q : Int) (n : Nat) (e : Int) : Bool :=
  let bounds := quarterBounds m q
  let x := decimalFraction n e
  let low := binaryFraction bounds.1 (q - 2)
  let high := binaryFraction bounds.2 (q - 2)
  if m % 2 = 0 then !fractionLt x low && !fractionLt high x
  else fractionLt low x && fractionLt x high

/-- The largest `n` with `n × 10 ^ e` at most `m × 2 ^ q`. -/
def gridFloor (m : Nat) (q e : Int) : Nat :=
  let x := binaryFraction m q
  let unit := decimalFraction 1 e
  x.1 * unit.2 / (x.2 * unit.1)

/-- Is `n + 1` at most as far from `m × 2 ^ q` as `n`, on the grid of `10 ^ e`? An exact tie goes to
the even neighbour. -/
def prefersUpper (m : Nat) (q : Int) (n : Nat) (e : Int) : Bool :=
  let x := binaryFraction (2 * m) q
  let middle := decimalFraction (2 * n + 1) e
  if fractionLt middle x then true
  else if fractionLt x middle then false
  else n % 2 = 1

/-- Tries grids with more and more digits; `top` is the exponent of the first digit. -/
def shortestFrom (m : Nat) (q top : Int) : (digits fuel : Nat) → Nat × Int
  | digits, 0 =>
    let e := top - digits
    (gridFloor m q e, e)
  | digits, fuel + 1 =>
    let e := top - digits
    let n := gridFloor m q e
    let lower := n ≠ 0 && readsBack m q n e
    let upper := readsBack m q (n + 1) e
    if lower && upper then (if prefersUpper m q n e then n + 1 else n, e)
    else if lower then (n, e)
    else if upper then (n + 1, e)
    else shortestFrom m q top (digits + 1) fuel

/-- The exponent of the first decimal digit of `x`. -/
def leadExponent (x : Nat × Nat) : Int :=
  if x.2 ≤ x.1 then ((Nat.toDigits 10 (x.1 / x.2)).length : Int) - 1
  else
    let k := (Nat.toDigits 10 (x.2 / x.1)).length
    if fractionLt x (decimalFraction 1 (-(k : Int) + 1)) then -(k : Int) else -(k : Int) + 1

/-- The digits and the exponent of ten of the shortest decimal for `m × 2 ^ q`, with `0 < m`. -/
def shortest (m : Nat) (q : Int) : Nat × Int :=
  shortestFrom m q (leadExponent (binaryFraction m q)) 0 17

/-- Moves zeros at the end of the digits into the exponent. -/
def stripZeros : (fuel : Nat) → Nat × Int → Nat × Int
  | 0, x => x
  | fuel + 1, (n, e) => if n ≠ 0 ∧ n % 10 = 0 then stripZeros fuel (n / 10, e + 1) else (n, e)

/-- A finite double as sign, whole number and power of two. -/
def decompose (x : Float) : Bool × Nat × Int :=
  let bits := x.toBits.toNat
  let exponent : Nat := bits / Nat.pow 2 52 % Nat.pow 2 11
  let fraction : Nat := bits % Nat.pow 2 52
  (decide (Nat.pow 2 63 ≤ bits),
    if exponent = 0 then (fraction, -1074) else (Nat.pow 2 52 + fraction, (exponent : Int) - 1075))

/-- How a decimal is laid out: the numbers of digits before the point for which the point is written
out, and otherwise an exponent after `e`. -/
structure Layout where
  /-- Fewest digits before the point, negative for zeros behind it. -/
  least : Int
  /-- Most digits before the point. -/
  most : Int

/-- Writes a finite double: always with a point or an exponent, and with a minus sign also on
zero. -/
def Layout.write (layout : Layout) (x : Float) : List Char :=
  let (negative, m, q) := decompose x
  let sign := if negative then ['-'] else []
  if m = 0 then sign ++ ['0', '.', '0']
  else
    let (n, e) := stripZeros 20 (shortest m q)
    let digits := Nat.toDigits 10 n
    let point : Int := digits.length + e
    let body :=
      if 0 ≤ e ∧ point ≤ layout.most then digits ++ List.replicate e.toNat '0' ++ ['.', '0']
      else if 0 < point ∧ point ≤ layout.most then
        digits.take point.toNat ++ '.' :: digits.drop point.toNat
      else if layout.least < point ∧ point ≤ 0 then
        '0' :: '.' :: List.replicate (-point).toNat '0' ++ digits
      else
        let exponent := 'e' :: (toString (point - 1)).toList
        match digits with
        | [d] => d :: exponent
        | d :: more => d :: '.' :: more ++ exponent
        | [] => exponent
    sign ++ body

end FleetBoard.Decimal

import ContentSchema.Number.Double

/-!
# Decimal text of numbers

Two ways of writing a number in base ten.  `Decimal.shortest` takes the fewest digits that read
back as the same double, and of those the nearest.  `Decimal.fixed` writes a given number of places,
rounding the exact value half to even.
-/

namespace ContentSchema

/-- The number `digits * 10 ^ exponent`. -/
structure Decimal where
  /-- The digits, as a number. -/
  digits : Nat
  /-- The power of ten. -/
  exponent : Int
deriving DecidableEq, Repr

namespace Decimal

/-- Decimal digits of a natural number. -/
def digitsText (n : Nat) : List Char := Nat.toDigits 10 n

/-- A nonnegative rational number. -/
structure Ratio where
  /-- Numerator. -/
  num : Nat
  /-- Denominator, positive. -/
  den : Nat
deriving Repr

/-- Whether the first ratio is less than the second one. -/
def Ratio.lt (a b : Ratio) : Bool := a.num * b.den < b.num * a.den

/-- Whether the first ratio is at most the second one. -/
def Ratio.le (a b : Ratio) : Bool := a.num * b.den ≤ b.num * a.den

/-- The ratio `m * b ^ e`. -/
def Ratio.scaled (m b : Nat) (e : Int) : Ratio :=
  if 0 ≤ e then ⟨m * Nat.pow b e.toNat, 1⟩ else ⟨m, Nat.pow b (-e).toNat⟩

/-- The ends of the interval of numbers that round to `m * 2 ^ q`.  Below a power of two the
neighbours are half as far away, so all is measured in quarters of a unit. -/
def roundingEnds (m : Nat) (q : Int) : Ratio × Ratio :=
  let low := if m = Nat.pow 2 52 ∧ -1074 < q then 4 * m - 1 else 4 * m - 2
  (Ratio.scaled low 2 (q - 2), Ratio.scaled (4 * m + 2) 2 (q - 2))

/-- Whether `d` lies in the interval of numbers that round to `m * 2 ^ q`.  The ends belong to it
when `m` is even, as ties go to the even mantissa. -/
def readsBack (m : Nat) (q : Int) (d : Decimal) : Bool :=
  let (lo, hi) := roundingEnds m q
  let x := Ratio.scaled d.digits 10 d.exponent
  if m % 2 = 0 then lo.le x && x.le hi else lo.lt x && x.lt hi

/-- The neighbours of `m * 2 ^ q` on the grid of multiples of `10 ^ e`, the nearer one first and of
two equally near ones the even one. -/
def neighbours (m : Nat) (q e : Int) : List Decimal :=
  let x := Ratio.scaled m 2 q
  let y := if 0 ≤ e then Ratio.mk x.num (x.den * Nat.pow 10 e.toNat)
    else Ratio.mk (x.num * Nat.pow 10 (-e).toNat) x.den
  let below := y.num / y.den
  let rest := y.num % y.den
  let downFirst := 2 * rest < y.den || (2 * rest == y.den && below % 2 == 0)
  if downFirst then [⟨below, e⟩, ⟨below + 1, e⟩] else [⟨below + 1, e⟩, ⟨below, e⟩]

/-- The first decimal on ever finer grids that reads back as `m * 2 ^ q`. -/
def searchGrids (m : Nat) (q : Int) : Nat → Int → Decimal
  | 0, e => ⟨0, e⟩
  | fuel + 1, e =>
    match (neighbours m q e).find? fun d => d.digits != 0 && readsBack m q d with
    | some d => d
    | none => searchGrids m q fuel (e - 1)

/-- A decimal without zeros at the end of its digits. -/
def normalize : Nat → Decimal → Decimal
  | 0, d => d
  | fuel + 1, d =>
    if d.digits ≠ 0 ∧ d.digits % 10 = 0 then normalize fuel ⟨d.digits / 10, d.exponent + 1⟩ else d

/-- The decimal with the fewest digits that reads back as the positive double `m * 2 ^ q`.  The
coarsest grid is that of the power of ten above the number; nineteen steps reach seventeen
digits. -/
def shortest (m : Nat) (q : Int) : Decimal :=
  let x := Ratio.scaled m 2 q
  let order : Int := ((digitsText (x.num / x.den)).length : Int)
  let start := if x.num / x.den = 0 then
      1 - ((digitsText (x.den / x.num)).length : Int) else order
  normalize 20 (searchGrids m q 20 start)

/-- The natural number `num / den * 10 ^ places`, rounded half to even, with `places` of its
digits behind a point. -/
def fixed (places : Nat) (x : Ratio) : List Char :=
  let n := Double.roundDiv (x.num * Nat.pow 10 places) x.den
  let fraction := digitsText (n % Nat.pow 10 places)
  digitsText (n / Nat.pow 10 places) ++ '.' :: List.replicate (places - fraction.length) '0' ++ fraction

/-- A number with its digits in groups of three. -/
def grouped (n : Nat) : List Char :=
  let rec go : List Char → List Char
    | a :: b :: c :: d :: rest => a :: b :: c :: ',' :: go (d :: rest)
    | short => short
  (go (digitsText n).reverse).reverse

end Decimal

/-- How a double is written: where positional notation ends and how an exponent looks. -/
structure DoubleFormat where
  /-- The least exponent of the first digit written positionally. -/
  positionalFrom : Int
  /-- The exponent of the first digit from which on an exponent is written. -/
  scientificFrom : Int
  /-- The least number of digits of an exponent. -/
  exponentWidth : Nat
  /-- Whether a whole number ends in `.0`. -/
  wholeMark : Bool
  /-- The text of infinity. -/
  infinityText : String
  /-- The text of what is no number. -/
  nanText : String

/-- The digits of a decimal, with the exponent of the first one. -/
def Decimal.leading (d : Decimal) : List Char × Int :=
  let ds := digitsText d.digits
  (ds, d.exponent + ds.length - 1)

/-- Positional notation of digits whose first one has exponent `order`. -/
def Decimal.positional (ds : List Char) (order : Int) (wholeMark : Bool) : List Char :=
  if order < 0 then '0' :: '.' :: List.replicate (-order - 1).toNat '0' ++ ds
  else
    let n := order.toNat + 1
    if ds.length ≤ n then
      ds ++ List.replicate (n - ds.length) '0' ++ (if wholeMark then ['.', '0'] else [])
    else ds.take n ++ '.' :: ds.drop n

/-- Notation with an exponent of digits whose first one has exponent `order`. -/
def Decimal.scientific (ds : List Char) (order : Int) (width : Nat) : List Char :=
  let mantissa := match ds with
    | d :: rest@(_ :: _) => d :: '.' :: rest
    | _ => ds
  let power := digitsText order.natAbs
  mantissa ++ 'e' :: (if order < 0 then '-' else '+') ::
    List.replicate (width - power.length) '0' ++ power

/-- The text of a double in a format. -/
def Double.format (f : DoubleFormat) (x : Double) : List Char :=
  let sign := if x.isNegative then ['-'] else []
  match x.view with
  | .nan => f.nanText.toList
  | .infinite => sign ++ f.infinityText.toList
  | .finite m q =>
    let (ds, order) := if m = 0 then (['0'], 0) else (Decimal.shortest m q).leading
    if f.positionalFrom ≤ order ∧ order < f.scientificFrom then
      sign ++ Decimal.positional ds order f.wholeMark
    else sign ++ Decimal.scientific ds order f.exponentWidth

/-- The plain format: positional from `1e-4` up to `1e16`, exponents of two digits at least, whole
numbers marked by `.0`. -/
def DoubleFormat.plain : DoubleFormat where
  positionalFrom := -4
  scientificFrom := 16
  exponentWidth := 2
  wholeMark := true
  infinityText := "inf"
  nanText := "nan"

/-- The plain text of a double. -/
def Double.text (x : Double) : List Char := x.format .plain

/-- A double with a fixed number of places. -/
def Double.fixedText (places : Nat) (x : Double) : List Char :=
  let sign := if x.isNegative then ['-'] else []
  match x.view with
  | .nan => DoubleFormat.plain.nanText.toList
  | .infinite => sign ++ DoubleFormat.plain.infinityText.toList
  | .finite m q => sign ++ Decimal.fixed places (Decimal.Ratio.scaled m 2 q)

/-- The text of a whole number. -/
def intText (n : Int) : List Char :=
  if n < 0 then '-' :: Decimal.digitsText n.natAbs else Decimal.digitsText n.natAbs

end ContentSchema

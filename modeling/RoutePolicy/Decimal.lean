/-!
# Decimal numbers

Natural numbers and integers as decimal text, the shortest decimal text of a float, and the texts
that are read as numbers.
-/

namespace RoutePolicy.Decimal

/-! ## Digits

Numbers are written without leading zeros. -/

def digitChar (d : Nat) : Char := Char.ofNat (0x30 + d)

def digitValue (c : Char) : Nat := c.toNat - 0x30

/-- The digits of a natural number, the most significant first. -/
def digits (n : Nat) : List Char :=
  if n < 10 then [digitChar n] else digits (n / 10) ++ [digitChar (n % 10)]

def ofInt (i : Int) : List Char :=
  if i < 0 then '-' :: digits i.natAbs else digits i.natAbs

/-! ## Shortest decimal text of a binary fraction

A finite float stands for `m * 2 ^ q`. Every real number between the middles towards its two
neighbours is read back as the same float; the middles themselves are so only if `m` is even.
`shortest` gives the decimal with the fewest digits in that interval, the nearer one of two, and
of two equally near ones the even one. All arithmetic is exact, on natural numbers. -/

/-- The number `coefficient * 10 ^ exponent`. -/
structure Scientific where
  coefficient : Nat
  exponent : Int
  deriving DecidableEq, Repr

/-- A positive float: `m * 2 ^ q`. The gap to the neighbour below is half as wide as the one above
where `m` is the smallest significand of a binade. -/
structure BinaryFraction where
  m : Nat
  q : Int
  narrowBelow : Bool
  deriving DecidableEq, Repr

/-- The interval of the reals that are read as one float, as numerators over one denominator. -/
structure Interval where
  low : Nat
  value : Nat
  high : Nat
  denominator : Nat
  closed : Bool
  deriving DecidableEq, Repr

def BinaryFraction.interval (x : BinaryFraction) : Interval :=
  let up := Nat.pow 2 (x.q - 2).toNat
  { low := (if x.narrowBelow then 4 * x.m - 1 else 4 * x.m - 2) * up
    value := 4 * x.m * up
    high := (4 * x.m + 2) * up
    denominator := Nat.pow 2 (2 - x.q).toNat
    closed := x.m % 2 == 0 }

namespace Interval

/-- Tells whether `n * 10 ^ k`, given over the denominator as `scaled`, lies in the interval. -/
def holds (i : Interval) (scaled : Nat) : Bool :=
  if i.closed then i.low ≤ scaled && scaled ≤ i.high else i.low < scaled && scaled < i.high

/-- The interval with every numerator and the denominator rescaled so that one unit of the grid of
`10 ^ k` is the denominator. -/
def rescaled (i : Interval) (k : Int) : Interval :=
  let widen := Nat.pow 10 (-k).toNat
  { i with
    low := i.low * widen
    value := i.value * widen
    high := i.high * widen
    denominator := i.denominator * Nat.pow 10 k.toNat }

/-- The multiple of `10 ^ k` that lies in the interval and is nearest to its value. -/
def nearest? (i : Interval) (k : Int) : Option Scientific :=
  let g := i.rescaled k
  let below := g.value / g.denominator
  let above := below + 1
  let toBelow := g.value - below * g.denominator
  let toAbove := above * g.denominator - g.value
  match g.holds (below * g.denominator), g.holds (above * g.denominator) with
  | true, true =>
    if toBelow < toAbove || (toBelow == toAbove && below % 2 == 0) then some ⟨below, k⟩
    else some ⟨above, k⟩
  | true, false => some ⟨below, k⟩
  | false, true => some ⟨above, k⟩
  | false, false => none

/-- Tries the grids of `10 ^ k`, `10 ^ (k - 1)` and so on, as many as told. -/
def firstGrid (i : Interval) (k : Int) : Nat → Scientific
  | 0 => ⟨0, 0⟩
  | tries + 1 =>
    match i.nearest? k with
    | some found => found
    | none => firstGrid i (k - 1) tries

end Interval

/-- The shortest decimal that is read as the given float. No float reaches `10 ^ 309`, and the grid
of `10 ^ -324` meets the interval of the smallest. -/
def shortest (x : BinaryFraction) : Scientific := x.interval.firstGrid 309 640

/-- The number of significands of one binade, `2 ^ 52`. -/
def binade : Nat := 4503599627370496

/-- The weight of the sign in the bits of a float, `2 ^ 63`. -/
def signWeight : Nat := 9223372036854775808

/-- The significand and the exponent in the bits of a finite, positive float. -/
def BinaryFraction.ofBits (bits : Nat) : BinaryFraction :=
  let fraction : Nat := bits % binade
  let exponent : Nat := bits / binade
  if exponent = 0 then ⟨fraction, -1074, false⟩
  else ⟨binade + fraction, (exponent : Int) - 1075, fraction == 0 && exponent != 1⟩

/-- A decimal as text. Numbers from `10 ^ -5` and below `10 ^ 16` are written out, with at least
one digit behind the point; all others have an exponent with its sign. -/
def Scientific.text (d : Scientific) : List Char :=
  let ds := digits d.coefficient
  let point : Int := ds.length + d.exponent
  if -4 ≤ point ∧ point ≤ 16 then
    if 0 ≤ d.exponent then ds ++ List.replicate d.exponent.toNat '0' ++ ['.', '0']
    else if 0 < point then ds.take point.toNat ++ '.' :: ds.drop point.toNat
    else '0' :: '.' :: List.replicate (-point).toNat '0' ++ ds
  else
    let mantissa : List Char :=
      match ds with
      | first :: rest@(_ :: _) => first :: '.' :: rest
      | single => single
    let sign := if point ≤ 0 then '-' else '+'
    mantissa ++ 'e' :: sign :: digits (point - 1).natAbs

/-- A finite float as text. -/
def ofFloat (x : Float) : List Char :=
  let bits := x.toBits.toNat
  let size := bits % signWeight
  let body := if size = 0 then ['0', '.', '0'] else (shortest (.ofBits size)).text
  if bits / signWeight = 1 then '-' :: body else body

/-! ## Numerals

Decimal numbers as they are written for machines: a sign or none, digits with a point or without,
and perhaps a power of ten; or, in any ASCII case, a name of infinity or of what is not a number. -/

def areDigits (s : List Char) : Bool := !s.isEmpty && s.all Char.isDigit

def unsigned (s : List Char) : List Char :=
  match s with
  | '+' :: s => s
  | '-' :: s => s
  | s => s

def isPlainNumeral (s : List Char) : Bool :=
  match s.splitOn '.' with
  | [digits] => areDigits digits
  | [before, behind] => areDigits (before ++ behind)
  | _ => false

def numberNames : List String := ["inf", "infinity", "nan"]

def isNumeral (s : List Char) : Bool :=
  let lower := (unsigned s).map Char.toLower
  numberNames.contains (String.ofList lower) ||
    match lower.splitOn 'e' with
    | [plain] => isPlainNumeral plain
    | [plain, power] => isPlainNumeral plain && areDigits (unsigned power)
    | _ => false

end RoutePolicy.Decimal

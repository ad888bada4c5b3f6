/-!
# Double precision numbers

A `Binary64` is a sign, a mantissa and a power of two, or an infinity, or not a number.  Arithmetic
takes the exact rational result and rounds it once, to the nearest double and from a tie to the even
mantissa, so that every definition here is ordinary integer arithmetic.

`Binary64.text` writes the shortest decimal that rounds back to the number, positionally for
magnitudes from `10 ^ -4` up to `10 ^ 16` and with an exponent outside.
-/

namespace PegPool

/-- A double precision number: `± mantissa · 2 ^ exponent`, an infinity, or not a number. -/
inductive Binary64 where
  | nan
  /-- Beyond every finite magnitude. -/
  | infinity (negative : Bool)
  /-- A finite number.  Canonical ones have a mantissa below `2 ^ 53` and the least exponent that
  allows it, but not below `-1074`. -/
  | finite (negative : Bool) (mantissa : Nat) (exponent : Int)
deriving DecidableEq, Repr

namespace Binary64

/-! ## Rounding -/

/-- The integer nearest to `num / den`; a tie goes to the even one. -/
def roundEven (num den : Nat) : Nat :=
  let q := num / den
  let r := num % den
  if 2 * r < den then q
  else if den < 2 * r then q + 1
  else q + q % 2

/-- The double nearest to `± num / den`. -/
def ofRatio (negative : Bool) (num den : Nat) : Binary64 :=
  if num = 0 then .finite negative 0 (-1074)
  else
    let guess : Int := (num.log2 : Int) - den.log2 - 52
    let scaled (e : Int) : Nat × Nat :=
      if 0 ≤ e then (num, den <<< e.toNat) else (num <<< (-e).toNat, den)
    let low := scaled guess
    let exact := if low.1 < low.2 <<< 52 then guess - 1 else guess
    let exponent := max exact (-1074)
    let ratio := scaled exponent
    let mantissa := roundEven ratio.1 ratio.2
    let (mantissa, exponent) :=
      if mantissa = 1 <<< 53 then (1 <<< 52, exponent + 1) else (mantissa, exponent)
    if 971 < exponent then .infinity negative else .finite negative mantissa exponent

def ofInt (z : Int) : Binary64 :=
  ofRatio (decide (z < 0)) z.natAbs 1

def digitCount (n : Nat) : Nat :=
  n.repr.length

/-- The double nearest to `± digits · 10 ^ exponent`.  Magnitudes far outside the range are settled
by their size alone, so that the exponent may be any integer. -/
def ofDecimal (negative : Bool) (digits : Nat) (exponent : Int) : Binary64 :=
  let top := exponent + digitCount digits
  if digits = 0 then .finite negative 0 (-1074)
  else if 400 < top then .infinity negative
  else if top < -400 then .finite negative 0 (-1074)
  else if 0 ≤ exponent then ofRatio negative (digits * Nat.pow 10 exponent.toNat) 1
  else ofRatio negative digits (Nat.pow 10 (-exponent).toNat)

/-! ## Exact value and order -/

def ratio (m : Nat) (e : Int) : Nat × Nat :=
  if 0 ≤ e then (m <<< e.toNat, 1) else (m, 1 <<< (-e).toNat)

def signed (negative : Bool) (n : Nat) : Int :=
  if negative then -(n : Int) else n

/-- Numerator and denominator of a finite number. -/
def fraction? : Binary64 → Option (Int × Nat)
  | finite s m e => let (n, d) := ratio m e; some (signed s n, d)
  | _ => none

def isFinite : Binary64 → Bool
  | finite .. => true
  | _ => false

/-- The integer that the number is, if it is one. -/
def toInt? (x : Binary64) : Option Int :=
  match x.fraction? with
  | some (n, d) => if n % d = 0 then some (n / d) else none
  | none => none

def isZero : Binary64 → Bool
  | finite _ m _ => m == 0
  | _ => false

def ltInt (x : Binary64) (z : Int) : Bool :=
  match x with
  | nan => false
  | infinity s => s
  | finite s m e => let (n, d) := ratio m e; decide (signed s n < z * d)

def gtInt (x : Binary64) (z : Int) : Bool :=
  match x with
  | nan => false
  | infinity s => !s
  | finite s m e => let (n, d) := ratio m e; decide (z * d < signed s n)

def eqInt (x : Binary64) (z : Int) : Bool :=
  match x with
  | finite s m e => let (n, d) := ratio m e; decide (signed s n = z * d)
  | _ => false

/-! ## Arithmetic -/

def neg : Binary64 → Binary64
  | nan => nan
  | infinity s => infinity (!s)
  | finite s m e => finite (!s) m e

/-- The rounded sum.  An exact zero is negative only if both operands are. -/
def add : Binary64 → Binary64 → Binary64
  | finite s m e, finite t n f =>
      let (a, b) := ratio m e
      let (c, d) := ratio n f
      let sum : Int := signed s a * d + signed t c * b
      if sum = 0 then finite (s && t) 0 (-1074)
      else ofRatio (decide (sum < 0)) sum.natAbs (b * d)
  | infinity s, infinity t => if s = t then infinity s else nan
  | infinity s, finite .. => infinity s
  | finite .., infinity t => infinity t
  | nan, _ => nan
  | _, nan => nan

def sub (x y : Binary64) : Binary64 :=
  x.add y.neg

def mul : Binary64 → Binary64 → Binary64
  | finite s m e, finite t n f =>
      let (a, b) := ratio m e
      let (c, d) := ratio n f
      ofRatio (s != t) (a * c) (b * d)
  | infinity s, infinity t => infinity (s != t)
  | infinity s, finite t n _ => if n = 0 then nan else infinity (s != t)
  | finite s m _, infinity t => if m = 0 then nan else infinity (s != t)
  | nan, _ => nan
  | _, nan => nan

/-! ## Decimal text -/

/-- `digits · 10 ^ exponent` rounds to the positive number `x`. -/
def readsBack (x : Binary64) (digits : Nat) (exponent : Int) : Bool :=
  ofDecimal false digits exponent == x

/-- Of the two neighbours of `num / den` among the multiples of `10 ^ e`, the nearer one that reads
back as `x`; a tie goes to the even one. -/
def neighbour? (x : Binary64) (num den : Nat) (e : Int) : Option Nat :=
  let (n, d) := if 0 ≤ e then (num, den * Nat.pow 10 e.toNat) else (num * Nat.pow 10 (-e).toNat, den)
  let near := roundEven n d
  let low := n / d
  let far := if near = low then low + 1 else low
  if x.readsBack near e then some near
  else if x.readsBack far e then some far
  else none

/-- The shortest decimal that reads back as `x`, tried on grids `10 ^ e`, `10 ^ (e - 1)`, …. -/
def shortestFrom (x : Binary64) (num den : Nat) (e : Int) : Nat → Nat × Int
  | 0 => (num / den, 0)
  | fuel + 1 => match neighbour? x num den e with
    | some digits => if digits = 0 then shortestFrom x num den (e - 1) fuel else (digits, e)
    | none => shortestFrom x num den (e - 1) fuel

/-- Drops the zeros at the end of `digits`, at most `fuel` of them. -/
def trimZeros (digits : Nat) (e : Int) : Nat → Nat × Int
  | 0 => (digits, e)
  | fuel + 1 => if digits ≠ 0 ∧ digits % 10 = 0 then trimZeros (digits / 10) (e + 1) fuel
    else (digits, e)

/-- The digits and the power of ten of the shortest decimal that reads back as `m · 2 ^ e`. -/
def shortest (m : Nat) (e : Int) : Nat × Int :=
  let x := finite false m e
  let (num, den) := ratio m e
  let top : Int := if den = 1 then digitCount num else ((digitCount num : Int) - digitCount den) + 1
  let (digits, exponent) := shortestFrom x num den top 24
  trimZeros digits exponent 24

def zeros (n : Nat) : String :=
  String.ofList (List.replicate n '0')

/-- Writes `digits · 10 ^ exponent` positionally for magnitudes in `[10 ^ -4, 10 ^ 16)`, otherwise
with one digit before the point and a signed exponent of at least two digits. -/
def decimalText (digits : Nat) (exponent : Int) : String :=
  let ds := Nat.toDigits 10 digits
  let top := exponent + ds.length
  if -4 < top ∧ top ≤ 16 then
    if 0 ≤ exponent then String.ofList ds ++ zeros exponent.toNat ++ ".0"
    else if 0 < top then
      String.ofList (ds.take top.toNat) ++ "." ++ String.ofList (ds.drop top.toNat)
    else "0." ++ zeros (-top).toNat ++ String.ofList ds
  else
    let fractional := if ds.length ≤ 1 then "" else "." ++ String.ofList (ds.drop 1)
    let power := top - 1
    let size := toString power.natAbs
    let padded := if size.length < 2 then "0" ++ size else size
    String.ofList (ds.take 1) ++ fractional ++ (if power < 0 then "e-" else "e+") ++ padded

def text : Binary64 → String
  | nan => "nan"
  | infinity s => if s then "-inf" else "inf"
  | finite s m e =>
      let sign := if s then "-" else ""
      if m = 0 then sign ++ "0.0"
      else
        let (digits, exponent) := shortest m e
        sign ++ decimalText digits exponent

end Binary64

end PegPool

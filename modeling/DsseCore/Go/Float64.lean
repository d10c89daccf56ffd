import DsseCore.Go.Strings

/-!
# IEEE 754 double precision numbers

JSON numbers reach the repository as `float64`.  A finite value is `± mant * 2 ^ exp` in its unique normal or
subnormal form; rounding, parsing and the shortest decimal form are computed with exact integers.
-/

namespace DsseCore.Go

structure FiniteFloat where
  neg : Bool
  mant : ℕ
  exp : Int
  wf : mant < 2 ^ 53 ∧ -1074 ≤ exp ∧ exp ≤ 971 ∧ (2 ^ 52 ≤ mant ∨ exp = -1074)
  deriving DecidableEq

inductive Float64 where
  | nan
  | inf (neg : Bool)
  | finite (f : FiniteFloat)
  deriving DecidableEq

namespace Float64

/-- Pack a sign, a mantissa and an exponent; what does not fit the exponent range is an infinity. -/
def pack (neg : Bool) (mant : ℕ) (exp : Int) : Float64 :=
  if h : mant < 2 ^ 53 ∧ -1074 ≤ exp ∧ exp ≤ 971 ∧ (2 ^ 52 ≤ mant ∨ exp = -1074) then
    .finite ⟨neg,mant,exp,h⟩
  else .inf neg

/-- `num / den * 2 ^ (-e)` as a fraction of natural numbers. -/
def scaled (num den : ℕ) (e : Int) : ℕ × ℕ :=
  if 0 ≤ e then (num,den * 2 ^ e.toNat) else (num * 2 ^ (-e).toNat,den)

def roundEven (num den : ℕ) : ℕ :=
  let q := num / den
  let r := num % den
  if 2 * r > den || (2 * r == den && q % 2 == 1) then q + 1 else q

/-- The double nearest to `± num / den`, ties to even. -/
def ofFraction (neg : Bool) (num den : ℕ) : Float64 :=
  if num = 0 then pack neg 0 (-1074)
  else
    -- one of two neighbouring exponents puts the quotient in `[2 ^ 52, 2 ^ 53)`
    let e₀ : Int := (num.log2 : Int) - (den.log2 : Int) - 53
    let s := scaled num den e₀
    let e := max (-1074) (if s.1 / s.2 < 2 ^ 53 then e₀ else e₀ + 1)
    let s := scaled num den e
    let m := roundEven s.1 s.2
    if m = 2 ^ 53 then pack neg (2 ^ 52) (e + 1) else pack neg m e

def magnitude (f : FiniteFloat) : ℕ × ℕ := scaled f.mant 1 (-f.exp)

def ofInt (n : Int) : Float64 := ofFraction (n < 0) n.natAbs 1

/-- `a <= b` on doubles; false as soon as one side is not a number. -/
def le : Float64 → Float64 → Bool
  | .nan, _ => false
  | _, .nan => false
  | .inf true, _ => true
  | _, .inf false => true
  | .inf false, _ => false
  | _, .inf true => false
  | .finite a, .finite b =>
    let x := magnitude a
    let y := magnitude b
    let l : Int := (if a.neg then -1 else 1) * (x.1 * y.2)
    let r : Int := (if b.neg then -1 else 1) * (y.1 * x.2)
    l ≤ r

/-- Go's conversion `int(f)`: truncation; a value outside `int64` gives the amd64 result. -/
def toInt : Float64 → Int
  | .finite f =>
    let x := magnitude f
    let n : Int := if f.neg then -(x.1 / x.2 : ℕ) else (x.1 / x.2 : ℕ)
    if -2 ^ 63 ≤ n ∧ n < 2 ^ 63 then n else -2 ^ 63
  | _ => -2 ^ 63

def digits (n : ℕ) : List Char := (toString n).toList

/-- The position of the decimal point: `10 ^ (dp - 1) ≤ num / den < 10 ^ dp`. -/
def decimalPoint (num den : ℕ) : Int :=
  if den ≤ num then (digits (num / den)).length
  else
    -- for `x < 1` count the zeros after the point
    let zeros := ((List.range 400).find? fun k => den ≤ num * 10 ^ (k + 1)).getD 400
    Int.negOfNat zeros

/-- The candidates of `n` significant digits around `num / den`, the nearer one first. -/
def decimalCandidates (num den n : ℕ) (dp : Int) : List ℕ :=
  let e := (n : Int) - dp
  let s := if 0 ≤ e then (num * 10 ^ e.toNat,den) else (num,den * 10 ^ (-e).toNat)
  let q := s.1 / s.2
  if 2 * (s.1 % s.2) > s.2 then [q + 1,q] else [q,q + 1]

/-- The shortest digits that read back as `f`, with the position of the decimal point. -/
def shortest (f : FiniteFloat) : List Char × Int :=
  let x := magnitude f
  let dp := decimalPoint x.1 x.2
  let reads (n d : ℕ) : Bool :=
    let e := dp - (n : Int)
    let back := if 0 ≤ e then ofFraction f.neg (d * 10 ^ e.toNat) 1 else ofFraction f.neg d (10 ^ (-e).toNat)
    back == .finite f
  let hit := (List.range 17).findSome? fun k =>
    ((decimalCandidates x.1 x.2 (k + 1) dp).find? (reads (k + 1))).map fun d => (k + 1,d)
  match hit with
  | some (n,d) =>
    let ds := digits d
    (ds.rdropWhile (· == '0'),dp + ((ds.length : Int) - n))
  | none => (['0'],1)

/-- `strconv.FormatFloat f 'g' (-1) 64`, which is also what `fmt` prints for `%v`. -/
def format : Float64 → String
  | .nan => "NaN"
  | .inf false => "+Inf"
  | .inf true => "-Inf"
  | .finite f =>
    let sign := if f.neg then "-" else ""
    if f.mant = 0 then sign ++ "0"
    else
      let (ds,dp) := shortest f
      let exp := dp - 1
      if exp < -4 || exp ≥ 6 then
        let mantissa := match ds with
          | [] => "0"
          | [d] => String.ofList [d]
          | d :: rest => String.ofList (d :: '.' :: rest)
        let pad := if exp.natAbs < 10 then "0" else ""
        sign ++ mantissa ++ "e" ++ (if exp < 0 then "-" else "+") ++ pad ++ toString exp.natAbs
      else if dp ≤ 0 then
        sign ++ "0." ++ String.ofList (List.replicate (-dp).toNat '0' ++ ds)
      else if (ds.length : Int) ≤ dp then
        sign ++ String.ofList (ds ++ List.replicate (dp.toNat - ds.length) '0')
      else
        sign ++ String.ofList (ds.take dp.toNat ++ '.' :: ds.drop dp.toNat)

/-- The digits of a number text in a base, with the count of those after the point. -/
structure Mantissa where
  value : ℕ
  fraction : ℕ
  seen : Bool

def hexValue? (c : Char) : Option ℕ :=
  if isDigit c then digitValue? c
  else if 97 ≤ c.toNat && c.toNat ≤ 102 then some (c.toNat - 87)
  else if 65 ≤ c.toNat && c.toNat ≤ 70 then some (c.toNat - 55)
  else none

/-- Read digits with at most one point; underscores are judged by `underscoreOK`. -/
def readMantissa (base : ℕ) (value? : Char → Option ℕ) (afterPoint : Bool) (acc : Mantissa) :
    List Char → Mantissa × List Char
  | [] => (acc,[])
  | c :: l =>
    if c = '_' then readMantissa base value? afterPoint acc l
    else if c = '.' then
      if afterPoint then (acc,c :: l) else readMantissa base value? true acc l
    else match value? c with
      | some d =>
        readMantissa base value? afterPoint
          ⟨base * acc.value + d,if afterPoint then acc.fraction + 1 else acc.fraction,true⟩ l
      | none => (acc,c :: l)

/-- Underscores may stand only between digits, or between a base mark and a digit. -/
def underscoreOK (value? : Char → Option ℕ) : Option Char → List Char → Bool
  | prev, '_' :: c :: l =>
    let sound := match prev with
      | some p => (value? p).isSome
      | none => false
    sound && (value? c).isSome && underscoreOK value? (some '_') (c :: l)
  | _, ['_'] => false
  | _, c :: l => underscoreOK value? (some c) l
  | _, [] => true

/-- The exponent part: a mark, an optional sign and decimal digits up to the end. -/
def readExponent (mark : Char) : List Char → Option Int
  | c :: l =>
    if runeToLower c ≠ mark then none
    else
      let (neg,l) := match l with
        | '+' :: l => (false,l)
        | '-' :: l => (true,l)
        | l => (false,l)
      if (l.headD '_') = '_' then none
      else (decimal? (l.filter (· ≠ '_'))).map fun n => if neg then -(n : Int) else (n : Int)
  | [] => none

/-- `num / den * base ^ e` as a double. -/
def scaleBy (neg : Bool) (num base : ℕ) (e : Int) : Float64 :=
  if 0 ≤ e then ofFraction neg (num * base ^ e.toNat) 1 else ofFraction neg num (base ^ (-e).toNat)

def foldedText (l : List Char) : String := String.ofList (l.map fun c => if c.toNat < 128 then runeToLower c else c)

/-- Exponents beyond this bound all give zero or infinity for the mantissas a text can hold. -/
def clampExponent (e : Int) : Int := max (-20000) (min 20000 e)

/-- `strconv.ParseFloat s 64`; a value that overflows is an error there and `none` here. -/
def parse (s : String) : Option Float64 :=
  let (neg,l) := match s.toList with
    | '+' :: l => (false,l)
    | '-' :: l => (true,l)
    | l => (false,l)
  let signed := l.length < s.toList.length
  if foldedText l = "inf" ∨ foldedText l = "infinity" then some (.inf neg)
  else if foldedText l = "nan" then if signed then none else some .nan
  else
    let (hex,body) := match l with
      | '0' :: x :: rest => if runeToLower x = 'x' && x.toNat < 128 then (true,rest) else (false,l)
      | _ => (false,l)
    let value? := if hex then hexValue? else digitValue?
    let (m,rest) := readMantissa (if hex then 16 else 10) value? false ⟨0,0,false⟩ body
    if ¬ m.seen then none
    else if ¬ underscoreOK value? (if hex then some '0' else none) body then none
    else
      let e? := match rest with
        | [] => if hex then none else some 0
        | _ => readExponent (if hex then 'p' else 'e') rest
      match e? with
      | none => none
      | some e =>
        let f := if hex then scaleBy neg m.value 2 (clampExponent e - 4 * (m.fraction : Int))
          else scaleBy neg m.value 10 (clampExponent e - (m.fraction : Int))
        match f with
        | .inf _ => none
        | f => some f

end Float64
end DsseCore.Go

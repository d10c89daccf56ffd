import DsseCore.Go.Float64

/-!
# Instants

A `time.Time` is an instant, modelled by its nanoseconds since the Unix epoch.  Locations never matter to the
repository: every comparison is between instants and every formatted instant is in UTC.
-/

namespace DsseCore.Go

abbrev Time := Int

namespace Time

def second : Int := 1000000000

/-- The zero `time.Time`, midnight of January 1 of year 1. -/
def zero : Time := -62135596800 * second

def isZero (t : Time) : Bool := t == zero

/-- Days from the epoch to a proleptic Gregorian date, counted in eras of 400 years that start in March. -/
def daysFromCivil (y m d : Int) : Int :=
  let y' := if m ≤ 2 then y - 1 else y
  let era := y'.fdiv 400
  let yoe := y' - era * 400
  let doy := (153 * (if 2 < m then m - 3 else m + 9) + 2) / 5 + d - 1
  let doe := yoe * 365 + yoe / 4 - yoe / 100 + doy
  era * 146097 + doe - 719468

def isLeap (y : ℕ) : Bool := y % 4 == 0 && (y % 100 != 0 || y % 400 == 0)

def daysIn (m y : ℕ) : ℕ :=
  if m = 2 then if isLeap y then 29 else 28
  else if m = 4 ∨ m = 6 ∨ m = 9 ∨ m = 11 then 30 else 31

/-- `getnum`: two digits, or one when the layout does not fix the width. -/
def getnum (fixed : Bool) : List Char → Option (ℕ × List Char)
  | c :: d :: l => do
    let a ← digitValue? c
    match digitValue? d with
    | some b => some (10 * a + b,l)
    | none => if fixed then none else some (a,d :: l)
  | [c] => if fixed then none else (digitValue? c).map fun a => (a,[])
  | [] => none

def literal (c : Char) : List Char → Option (List Char)
  | d :: l => if c = d then some l else none
  | [] => none

/-- A fraction of a second is read even though the layout has none; digits past the ninth are dropped. -/
def fraction (l : List Char) : ℕ × List Char :=
  match l with
  | c :: d :: _ =>
    if (c = '.' || c = ',') && isDigit d then
      let ds := l.tail.takeWhile isDigit
      (((decimal? ((ds ++ List.replicate 9 '0').take 9)).getD 0),l.drop (ds.length + 1))
    else (0,l)
  | _ => (0,l)

/-- The zone: `Z`, or a signed offset in hours and minutes; the result is the offset in seconds. -/
def zone (l : List Char) : Option Int :=
  match l with
  | ['Z'] => some 0
  | [s,h₁,h₂,':',m₁,m₂] => do
    let (h,_) ← getnum true [h₁,h₂]
    let (m,_) ← getnum true [m₁,m₂]
    if 24 < h || 60 < m then none
    else
      let off : Int := (h * 60 + m) * 60
      if s = '+' then some off else if s = '-' then some (-off) else none
  | _ => none

/-- `time.Parse(time.RFC3339, s)`. -/
def parseRFC3339 (s : String) : Option Time := do
  let l := s.toList
  let y ← decimal? (l.take 4)
  if l.length < 4 then none
  else
    let l ← literal '-' (l.drop 4)
    let (m,l) ← getnum true l
    let l ← literal '-' l
    let (d,l) ← getnum true l
    let l ← literal 'T' l
    let (hh,l) ← getnum false l
    let l ← literal ':' l
    let (mm,l) ← getnum true l
    let l ← literal ':' l
    let (ss,l) ← getnum true l
    let (ns,l) := fraction l
    let off ← zone l
    if m < 1 || 12 < m || d < 1 || daysIn m y < d || 24 ≤ hh || 60 ≤ mm || 60 ≤ ss then none
    else some (((daysFromCivil y m d * 24 + hh) * 60 + mm) * 60 + ss - off |> fun t => t * second + ns)

/-- The date of a day counted from the epoch, the inverse of `daysFromCivil`. -/
def civilFromDays (days : Int) : Int × Int × Int :=
  let z := days + 719468
  let era := z.fdiv 146097
  let doe := z - era * 146097
  let yoe := (doe - doe / 1460 + doe / 36524 - doe / 146096) / 365
  let doy := doe - (365 * yoe + yoe / 4 - yoe / 100)
  let mp := (5 * doy + 2) / 153
  let m := if mp < 10 then mp + 3 else mp - 9
  (if m ≤ 2 then yoe + era * 400 + 1 else yoe + era * 400,m,doy - (153 * mp + 2) / 5 + 1)

/-- A number with leading zeros up to a width, the sign in front. -/
def padded (width : ℕ) (n : Int) : String :=
  let ds := toString n.natAbs
  (if n < 0 then "-" else "") ++ String.ofList (List.replicate (width - ds.length) '0') ++ ds

/-- `t.UTC().Format(time.RFC3339)`. -/
def formatRFC3339 (t : Time) : String :=
  let secs := t.fdiv second
  let days := secs.fdiv 86400
  let clock := secs - days * 86400
  let (y,m,d) := civilFromDays days
  padded 4 y ++ "-" ++ padded 2 m ++ "-" ++ padded 2 d ++ "T" ++ padded 2 (clock / 3600) ++ ":" ++
    padded 2 (clock / 60 % 60) ++ ":" ++ padded 2 (clock % 60) ++ "Z"

/-- The fraction of a second without its trailing zeros, nothing when it is zero. -/
def fractionText (ns : Int) : String :=
  let ds := (padded 9 ns).toList.rdropWhile (· == '0')
  if ds = [] then "" else "." ++ String.ofList ds

/-- `t.UTC().Format(time.RFC3339Nano)`. -/
def formatRFC3339Nano (t : Time) : String :=
  let secs := t.fdiv second
  let days := secs.fdiv 86400
  let clock := secs - days * 86400
  let (y,m,d) := civilFromDays days
  padded 4 y ++ "-" ++ padded 2 m ++ "-" ++ padded 2 d ++ "T" ++ padded 2 (clock / 3600) ++ ":" ++
    padded 2 (clock / 60 % 60) ++ ":" ++ padded 2 (clock % 60) ++ fractionText (t - secs * second) ++ "Z"

/-- `t.Sub(u)`, saturating at the range of `time.Duration`. -/
def sub (t u : Time) : Int := max (-2 ^ 63) (min (2 ^ 63 - 1) (t - u))

/-- `int(d.Seconds())` of a duration: two roundings to a double, then truncation. -/
def wholeSeconds (d : Int) : Int :=
  let sec := d.tdiv second
  let nsec := d.tmod second
  match Float64.ofFraction (nsec < 0) nsec.natAbs 1000000000 with
  | .finite f =>
    let m := Float64.magnitude f
    (Float64.ofFraction (d < 0) (sec.natAbs * m.2 + m.1) m.2).toInt
  | _ => sec

end Time
end DsseCore.Go

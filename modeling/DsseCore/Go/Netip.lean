import DsseCore.Go.Float64

/-!
# IP addresses

`net/netip` as the repository uses it: parsing, the textual form, IPv4-mapped addresses, address classes and
prefixes.  An IPv6 address carries its zone.
-/

namespace DsseCore.Go

open String

inductive Addr where
  | v4 (bits : BitVec 32)
  | v6 (bits : BitVec 128) (zone : String)
  deriving DecidableEq

namespace Addr

/-- One decimal octet: no empty field, no leading zero, at most 255. -/
def octet? (l : List Char) : Option ℕ :=
  if 1 < l.length && l.head? == some '0' then none
  else (decimal? l).filter (· ≤ 255)

def octets? (s : List Char) : Option (List ℕ) := do
  let parts ← (splitList '.' s).mapM octet?
  if parts.length = 4 then some parts else none

def ofDigits (base : ℕ) (l : List ℕ) : ℕ := l.foldl (fun acc d => base * acc + d) 0

def isHex (c : Char) : Bool := (Float64.hexValue? c).isSome

def hexNumber (l : List Char) : ℕ := ofDigits 16 (l.filterMap Float64.hexValue?)

/-- The loop of `parseIPv6`: 16-bit groups so far, the position of `::`, and the text still to read.  The fuel
counts the groups that still fit. -/
def parseGroups : ℕ → List ℕ → Option ℕ → List Char → Option (List ℕ × Option ℕ × List Char)
  | 0, groups, ellipsis, s => some (groups,ellipsis,s)
  | fuel + 1, groups, ellipsis, s =>
    let hex := s.takeWhile isHex
    if hex.length = 0 || 4 < hex.length then none
    else
      let groups' := groups ++ [hexNumber hex]
      match s.drop hex.length with
      | '.' :: _ =>
        if (ellipsis.isNone && groups.length ≠ 6) || 6 < groups.length then none
        else match octets? s with
          | some [a,b,c,d] => some (groups ++ [256 * a + b,256 * c + d],ellipsis,[])
          | _ => none
      | [] => some (groups',ellipsis,[])
      | [':'] => none
      | ':' :: ':' :: rest =>
        if ellipsis.isSome then none
        else if rest.isEmpty then some (groups',some groups'.length,[])
        else parseGroups fuel groups' (some groups'.length) rest
      | ':' :: rest => parseGroups fuel groups' ellipsis rest
      | _ => none

/-- `::` stands for at least one group of zeros. -/
def expandGroups (groups : List ℕ) : Option ℕ → Option (List ℕ)
  | none => if groups.length = 8 then some groups else none
  | some k =>
    if groups.length < 8 then
      some (groups.take k ++ List.replicate (8 - groups.length) 0 ++ groups.drop k)
    else none

def parseIPv6 (s : List Char) : Option Addr := do
  let body := s.takeWhile (· ≠ '%')
  let zone := s.drop (body.length + 1)
  if s.contains '%' && zone.isEmpty then none
  else
    let (ellipsis,rest) := match body with
      | ':' :: ':' :: rest => (some 0,rest)
      | _ => (none,body)
    if ellipsis.isSome && rest.isEmpty then some (.v6 0 (ofList zone))
    else
      let (groups,ellipsis,rest) ← parseGroups 8 [] ellipsis rest
      if ¬ rest.isEmpty then none
      else
        let groups ← expandGroups groups ellipsis
        some (.v6 (BitVec.ofNat 128 (ofDigits 65536 groups)) (ofList zone))

/-- `netip.ParseAddr`. -/
def parse (s : String) : Option Addr :=
  match s.toList.find? (fun c => c = '.' || c = ':' || c = '%') with
  | some '.' => (octets? s.toList).map fun l => .v4 (BitVec.ofNat 32 (ofDigits 256 l))
  | some ':' => parseIPv6 s.toList
  | _ => none

def is4 : Addr → Bool
  | v4 _ => true
  | v6 _ _ => false

def hasZone : Addr → Bool
  | v4 _ => false
  | v6 _ z => z ≠ ""

/-- `Addr.Unmap`. -/
def unmap : Addr → Addr
  | v4 b => v4 b
  | v6 b z => if b >>> 32 == 0xffff#128 then v4 (b.setWidth 32) else v6 b z

@[simp] theorem unmap_unmap (a : Addr) : a.unmap.unmap = a.unmap := by
  cases a with
  | v4 b => rfl
  | v6 b z =>
    cases h : b >>> 32 == 0xffff#128 with
    | true => simp only [unmap,h,if_true]
    | false => simp only [unmap,h,Bool.false_eq_true,if_false]

def text4 (b : BitVec 32) : String :=
  let n := b.toNat
  join "." (([n / 2 ^ 24,n / 2 ^ 16 % 256,n / 2 ^ 8 % 256,n % 256] : List ℕ).map toString)

def hexText (n : ℕ) : String := ofList (Nat.toDigits 16 n)

def groups6 (b : BitVec 128) : List ℕ :=
  (List.range 8).map fun i => b.toNat / 65536 ^ (7 - i) % 65536

/-- The first longest run of at least two zero groups, as start and length. -/
def zeroRun (groups : List ℕ) : ℕ × ℕ :=
  (List.range 8).foldl (fun best i =>
    let l := ((groups.drop i).takeWhile (· == 0)).length
    if 2 ≤ l && best.2 < l then (i,l) else best) (0,0)

def text6 (b : BitVec 128) : String :=
  let groups := groups6 b
  let (start,len) := zeroRun groups
  if len = 0 then join ":" (groups.map hexText)
  else join ":" ((groups.take start).map hexText) ++ "::" ++ join ":" ((groups.drop (start + len)).map hexText)

/-- `Addr.String`. -/
def text : Addr → String
  | v4 b => text4 b
  | v6 b z =>
    let body := if b >>> 32 == 0xffff#128 then "::ffff:" ++ text4 (b.setWidth 32) else text6 b
    if z = "" then body else body ++ "%" ++ z

theorem mem_text6 (b : BitVec 128) : ':' ∈ (text6 b).toList := by
  unfold text6
  simp only
  split
  · simp [groups6,List.range_succ,join]
  · simp [toList_append]

theorem text_separator (a : Addr) : '.' ∈ a.text.toList ∨ ':' ∈ a.text.toList := by
  cases a with
  | v4 b => exact .inl (by simp [text,text4,join])
  | v6 b z =>
    right
    have hbody : ':' ∈ (if b >>> 32 == 0xffff#128 then "::ffff:" ++ text4 (b.setWidth 32) else text6 b).toList := by
      split
      · simp [toList_append]
      · exact mem_text6 b
    unfold text
    simp only
    split_ifs
    all_goals simp_all [toList_append]

/-- `Addr.IsLoopback`. -/
def isLoopback (a : Addr) : Bool :=
  match a.unmap with
  | v4 b => b >>> 24 == 127#32
  | v6 b _ => b == 1#128

/-- `Addr.IsPrivate`. -/
def isPrivate (a : Addr) : Bool :=
  match a.unmap with
  | v4 b => b >>> 24 == 10#32 || b >>> 20 == 0xac1#32 || b >>> 16 == 0xc0a8#32
  | v6 b _ => b >>> 121 == 0x7e#128

/-- `Addr.IsLinkLocalUnicast`. -/
def isLinkLocalUnicast (a : Addr) : Bool :=
  match a.unmap with
  | v4 b => b >>> 16 == 0xa9fe#32
  | v6 b _ => b >>> 118 == 0x3fa#128

/-- `Addr.IsLinkLocalMulticast`. -/
def isLinkLocalMulticast (a : Addr) : Bool :=
  match a.unmap with
  | v4 b => b >>> 8 == 0xe00000#32
  | v6 b _ => b >>> 120 == 0xff#128 && (b >>> 112) &&& 0xf == 2#128

/-- `Addr.IsInterfaceLocalMulticast`. -/
def isInterfaceLocalMulticast (a : Addr) : Bool :=
  match a.unmap with
  | v4 _ => false
  | v6 b _ => b >>> 120 == 0xff#128 && (b >>> 112) &&& 0xf == 1#128

/-- `Addr.IsUnspecified`. -/
def isUnspecified : Addr → Bool
  | v4 b => b == 0
  | v6 b z => b == 0 && z == ""

@[simp] theorem isLoopback_unmap (a : Addr) : a.unmap.isLoopback = a.isLoopback := by
  rw [isLoopback,unmap_unmap,isLoopback]

@[simp] theorem isPrivate_unmap (a : Addr) : a.unmap.isPrivate = a.isPrivate := by
  rw [isPrivate,unmap_unmap,isPrivate]

@[simp] theorem isLinkLocalUnicast_unmap (a : Addr) : a.unmap.isLinkLocalUnicast = a.isLinkLocalUnicast := by
  rw [isLinkLocalUnicast,unmap_unmap,isLinkLocalUnicast]

@[simp] theorem isLinkLocalMulticast_unmap (a : Addr) : a.unmap.isLinkLocalMulticast = a.isLinkLocalMulticast := by
  rw [isLinkLocalMulticast,unmap_unmap,isLinkLocalMulticast]

end Addr

/-- `netip.Prefix`; the length fits the address family. -/
inductive Prefix where
  | v4 (addr : BitVec 32) (bits : Fin 33)
  | v6 (addr : BitVec 128) (bits : Fin 129)

namespace Prefix

/-- `netip.ParsePrefix`. -/
def parse (s : String) : Option Prefix := do
  let l := s.toList
  let bits := (l.reverse.takeWhile (· ≠ '/')).reverse
  if ¬ l.contains '/' then none
  else
    let addr ← Addr.parse (ofList (l.take (l.length - bits.length - 1)))
    let n ← if 1 < bits.length && bits.head? == some '0' then none else decimal? bits
    match addr with
    | .v4 a => if h : n < 33 then some (v4 a ⟨n,h⟩) else none
    | .v6 a z => if z ≠ "" then none else if h : n < 129 then some (v6 a ⟨n,h⟩) else none

def is4 : Prefix → Bool
  | v4 _ _ => true
  | v6 _ _ => false

/-- `Prefix.Contains`, which looks at the leading bits only and so agrees with `Masked().Contains`. -/
def contains : Prefix → Addr → Bool
  | v4 p n, .v4 a => p >>> (32 - n.val) == a >>> (32 - n.val)
  | v6 p n, .v6 a z => z == "" && p >>> (128 - n.val) == a >>> (128 - n.val)
  | _, _ => false

end Prefix

/-- `net.ParseIP` succeeds on addresses without a zone. -/
def isIP (s : String) : Bool :=
  match Addr.parse s with
  | some a => !a.hasZone
  | none => false

end DsseCore.Go

import DsseCore.Dlp.Identifiers

/-!
# Options of a scan

What an operator adds to the identifiers: known-safe values that are not reported, datasets whose exact values are, and
custom classifiers.  Values are kept as salted digests; a set of digests is modelled by the question whether the digest
of given bytes is in it.
-/

namespace DsseCore.Dlp

open Go Lib

/-- Known-safe values.  `listed` is asked with the bytes that are hashed after the salt. -/
structure Allowlist where
  listed : List Byte → Bool
  empty : Bool
  not_listed : empty = true → ∀ value, listed value = false

/-- `formattedNumericAllowValue`: digits with the usual grouping, and nothing else. -/
def numericDigits : List (ℕ × List Byte) → Option (List Byte)
  | [] => some []
  | (r,_) :: l =>
    if 0x30 ≤ r ∧ r ≤ 0x39 then (numericDigits l).map (r.toUInt8 :: ·)
    else if isSpaceRune r ∨ r = 0x2D ∨ r = 0x28 ∨ r = 0x29 ∨ r = 0x2E then numericDigits l
    else none

def formattedNumericAllowValue (value : List Byte) : Option (List Byte) :=
  match numericDigits (runes value) with
  | some [] => none
  | digits => digits

def Allowlist.allowed (a : Allowlist) (typ : IdentifierType) (raw : List Byte) : Bool :=
  if a.empty then false
  else
    let value := trimSpaceBytes raw
    if typ = MyNumber ∨ typ = CorporateNumber ∨ typ = CreditCard ∨ typ = Phone then
      (formattedNumericAllowValue value).any fun digits => a.listed (ascii "numeric\x00" ++ digits)
    else if typ = Email then a.listed (ascii "email\x00" ++ toLowerBytes value)
    else a.listed (ascii "literal\x00" ++ value)

def edmMinTokenLen : ℕ := 5

def edmMaxTokenLen : ℕ := 128

/-- A dataset; `listed` is asked with the normalised value, which is hashed after the salt and the name. -/
structure Fingerprint where
  name : IdentifierType
  listed : List Byte → Bool

def edmTokenByte (b : Byte) : Bool :=
  asciiDigit b || asciiUpper b || asciiLower b || b == 0x2D || b == 0x5F || b == 0x2E || b == 0x40 || b == 0x2B

def edmNormalize (s : List Byte) : List Byte :=
  ((trimSpaceBytes s).filter fun c => !(c == 0x2D || c == 0x5F)).map lowerASCIIByte

def datasets (fps : List Fingerprint) (token : List Byte) : List IdentifierType :=
  if edmMinTokenLen ≤ token.length ∧ token.length ≤ edmMaxTokenLen ∧ edmMinTokenLen ≤ (edmNormalize token).length then
    (fps.filter fun f => f.listed (edmNormalize token)).map (·.name)
  else []

/-- One position of `FingerprintSet.scan`: a token is passed over as a whole. -/
def tokenStop (fps : List Fingerprint) : Stop Byte IdentifierType := fun _ s =>
  let token := s.takeWhile edmTokenByte
  if token = [] then ([],1) else ((datasets fps token).map fun t => (t,token.length),token.length)

def scanFingerprints (fps : List Fingerprint) (data : List Byte) : List (Match IdentifierType) :=
  if fps.isEmpty then [] else sweep (tokenStop fps) none 0 0 data

/-- A regular expression with the literals that gate it, or a dictionary of non-empty words. -/
inductive Matcher where
  | regex (re : Regexp) (lits : List (List Byte))
  | keyword (lits : List (List Byte))

structure CompiledClassifier where
  typ : IdentifierType
  matcher : Matcher

def Matcher.lits : Matcher → List (List Byte)
  | .regex _ lits => lits
  | .keyword lits => lits

def hasCandidate (data : List Byte) (literals : List (List Byte)) : Bool := literals.any (bytesContains data)

def CompiledClassifier.gate (c : CompiledClassifier) (data : List Byte) : Bool :=
  c.matcher.lits.isEmpty || hasCandidate data c.matcher.lits

def keywordStop (typ : IdentifierType) (kw : List Byte) : Stop Byte IdentifierType := fun _ s =>
  if kw.isPrefixOf s then ([(typ,kw.length)],kw.length) else ([],1)

structure Options where
  classifiers : List CompiledClassifier := []
  fingerprints : List Fingerprint := []
  allowlist : Option Allowlist := none

def Options.allowed (opts : Options) (typ : IdentifierType) (raw : List Byte) : Bool :=
  opts.allowlist.any fun a => a.allowed typ raw

end DsseCore.Dlp

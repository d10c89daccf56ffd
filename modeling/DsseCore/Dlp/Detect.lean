import DsseCore.Dlp.Options

/-!
# Detection in a buffer

The linear scans for numbers, the gated searches for credentials and phone numbers, and the part of a window that a
streaming scan may drop.
-/

namespace DsseCore.Dlp

open Go Lib

abbrev Found := Match IdentifierType

/-- One position of `scanDigitRuns`: a run of digits between bytes that are not part of a word. -/
def digitStop : Stop Byte IdentifierType := fun prev s =>
  let run := s.takeWhile asciiDigit
  if run = [] then ([],1)
  else
    let leftOK := !prev.any isWordByte
    let rightOK := !(s.drop run.length).head?.any isWordByte
    (if leftOK && rightOK then (classify run).map fun t => (t,run.length) else [],run.length)

def scanDigitRuns (data : List Byte) : List Found := sweep digitStop none 0 0 data

/-- Groups of digits that were read: the digits, the separators, the length, whether there are too many digits, and
whether a word boundary follows. -/
structure Groups where
  digits : List Byte
  seps : ℕ
  length : ℕ
  overflow : Bool
  rightOK : Bool

def isSeparator (c : Byte) : Bool := c == 0x20 || c == 0x2D

/-- Digit groups, joined by single separators; a separator belongs to them when a digit follows. -/
def readGroups (digits : List Byte) (seps length : ℕ) : List Byte → Groups
  | [] => ⟨digits,seps,length,false,true⟩
  | c :: rest =>
    if asciiDigit c then
      if digits.length ≥ 20 then ⟨digits,seps,length,true,!isWordByte c⟩
      else readGroups (digits ++ [c]) seps (length + 1) rest
    else if isSeparator c && rest.head?.any asciiDigit then readGroups digits (seps + 1) (length + 1) rest
    else ⟨digits,seps,length,false,!isWordByte c⟩

def separatedStop : Stop Byte IdentifierType := fun prev s =>
  if !s.head?.any asciiDigit || prev.any isWordByte then ([],1)
  else
    let g := readGroups [] 0 0 s
    (if !g.overflow && 1 ≤ g.seps && g.rightOK then (classify g.digits).map fun t => (t,g.length) else [],g.length)

def scanSeparatedRuns (data : List Byte) : List Found := sweep separatedStop none 0 0 data

def hasAPIKeyCandidate (data : List Byte) : Bool := hasCandidate data apiKeyLiterals

def scanNonEmail (data : List Byte) : List Found :=
  scanDigitRuns data ++ scanSeparatedRuns data ++
    (if hasAPIKeyCandidate data then apiKeyRE.findAll APIKey data else []) ++
    (if hasCandidate data phoneJPLiterals then phoneJPRE.findAll Phone data else [])

def suppressAllowlisted (opts : Options) (data : List Byte) (out : List Found) : List Found :=
  out.filter fun m => !opts.allowed m.typ (slice data m.start m.stop)

def scanBaseAll (opts : Options) (data : List Byte) : List Found :=
  suppressAllowlisted opts data (scanNonEmail data ++ scanFingerprints opts.fingerprints data)

def windowSize : ℕ := 4096

def chunkSize : ℕ := 32 * 1024

/-- One pass of the loop of `windowCommit`: a match across the boundary lowers it to where the match starts. -/
def lowerOnce (found : List Found) (dropTo : ℕ) : ℕ :=
  found.foldl (fun dropTo m => if m.start < dropTo ∧ m.stop > dropTo then m.start else dropTo) dropTo

/-- The loop of `windowCommit`, until a pass changes nothing. -/
def lowerFuel (found : List Found) : ℕ → ℕ → ℕ
  | 0, dropTo => dropTo
  | fuel + 1, dropTo =>
    if lowerOnce found dropTo = dropTo then dropTo else lowerFuel found fuel (lowerOnce found dropTo)

/-- How far the buffer may be dropped.  Every pass of the loop that changes something lowers the boundary. -/
def windowCommit (buf : List Byte) (found : List Found) (final : Bool) : ℕ :=
  if final then buf.length
  else lowerFuel found (buf.length - windowSize) (buf.length - windowSize)

end DsseCore.Dlp

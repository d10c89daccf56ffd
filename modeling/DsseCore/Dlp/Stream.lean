import DsseCore.Dlp.Detect

/-!
# Incremental matching

Email addresses and custom classifiers are not matched in the window of a streaming scan.  An address is followed byte by
byte from its `@` on, however long its domain is; every custom expression and every keyword keeps the end of its last
match, so that it does not start again inside it.
-/

namespace DsseCore.Dlp

open Go Lib

structure EmailCandidate where
  start : ℕ
  /-- The bytes that were hashed after the salt. -/
  hash : List Byte
  firstDomainByte : Bool := false
  segmentLen : ℕ := 0
  segmentAlpha : Bool := false
  hadDot : Bool := false
  acceptedEnd : ℕ := 0
  acceptedHash : List Byte := []
  deriving DecidableEq

structure EmailStream where
  position : ℕ := 0
  lastMatchEnd : ℕ := 0
  /-- The last bytes of a local part, at most 64. -/
  «local» : List Byte := []
  localStart : ℕ := 0
  candidate : Option EmailCandidate := none
  deriving DecidableEq

structure EmailStreamMatch where
  start : ℕ
  stop : ℕ
  allowed : Bool
  deriving DecidableEq

def emailLocalByte (b : Byte) : Bool :=
  asciiAlpha b || asciiDigit b || b == 0x2E || b == 0x5F || b == 0x25 || b == 0x2B || b == 0x2D

def emailLabelByte (b : Byte) : Bool := asciiAlpha b || asciiDigit b || b == 0x2D

namespace EmailCandidate

variable (c : EmailCandidate)

/-- A byte of a label that is accepted: a complete top-level domain ends here, for now. -/
def label (b : Byte) (position : ℕ) : EmailCandidate :=
  let segmentLen := c.segmentLen + 1
  let segmentAlpha := if segmentLen = 1 then asciiAlpha b else c.segmentAlpha && asciiAlpha b
  let hash := c.hash ++ [lowerASCIIByte b]
  let accepted := c.hadDot && segmentAlpha && 2 ≤ segmentLen && segmentLen ≤ 24
  { c with
    segmentLen := segmentLen
    segmentAlpha := segmentAlpha
    hash := hash
    acceptedEnd := if accepted then position + 1 else c.acceptedEnd
    acceptedHash := if accepted then hash else c.acceptedHash }

/-- `feedDomainByte`; `none` when the byte does not continue the domain. -/
def feedDomainByte (b : Byte) (position : ℕ) : Option EmailCandidate :=
  if !c.firstDomainByte then
    if !asciiAlpha b && !asciiDigit b then none
    else some { c with firstDomainByte := true,hash := c.hash ++ [lowerASCIIByte b] }
  else if b == 0x2E then some { c with hadDot := true,segmentLen := 0,segmentAlpha := true,hash := c.hash ++ [b] }
  else if !emailLabelByte b || c.segmentLen ≥ 62 then none
  else some (c.label b position)

end EmailCandidate

namespace EmailStream

variable (s : EmailStream)

/-- `startCandidate`: the local part before an `@`, after the last match. -/
def startCandidate : EmailStream :=
  if s.local.isEmpty then s
  else
    let start := max s.localStart s.lastMatchEnd
    let localOffset := start - s.localStart
    if localOffset ≥ s.local.length then s
    else
      let hash := ascii "email\x00" ++ (s.local.drop localOffset).map lowerASCIIByte ++ [0x40]
      { s with candidate := some { start := start,hash := hash } }

/-- `finishCandidate`: the candidate is given up; it is a match if a complete domain was read. -/
def finishCandidate (allowlist : Option Allowlist) : EmailStream × List EmailStreamMatch :=
  match s.candidate with
  | none => (s,[])
  | some c =>
    if c.acceptedEnd ≤ c.start then ({ s with candidate := none },[])
    else
      let allowed := allowlist.any fun a => a.listed c.acceptedHash
      ({ s with candidate := none,lastMatchEnd := c.acceptedEnd },[⟨c.start,c.acceptedEnd,allowed⟩])

def feed (allowlist : Option Allowlist) (b : Byte) : EmailStream × List EmailStreamMatch :=
  match s.candidate with
  | none => (s,[])
  | some c =>
    match c.feedDomainByte b s.position with
    | some c' => ({ s with candidate := some c' },[])
    | none => s.finishCandidate allowlist

def pushLocal (b : Byte) : EmailStream :=
  if emailLocalByte b then
    let shifted := if s.local.length = 64 then s.local.drop 1 else s.local
    let start := if s.local.length = 64 then s.localStart + 1 else s.localStart
    { s with
      «local» := shifted ++ [b]
      localStart := if shifted.isEmpty then s.position else start }
  else { s with «local» := [],localStart := s.position + 1 }

def writeByte (allowlist : Option Allowlist) (b : Byte) : EmailStream × List EmailStreamMatch :=
  let (fed, found) := s.feed allowlist b
  let started := if b == 0x40 && fed.candidate.isNone then fed.startCandidate else fed
  let pushed := started.pushLocal b
  ({ pushed with position := pushed.position + 1 },found)

def write (allowlist : Option Allowlist) : EmailStream → List Byte → EmailStream × List EmailStreamMatch
  | s, [] => (s,[])
  | s, b :: p =>
    let (s', found) := s.writeByte allowlist b
    let (s'', later) := write allowlist s' p
    (s'',found ++ later)

def finish (allowlist : Option Allowlist) : EmailStream × List EmailStreamMatch := s.finishCandidate allowlist

/-- `pendingStart`: where an unfinished address starts. -/
def pendingStart : Option ℕ := s.candidate.map (·.start)

end EmailStream

/-- The end of the last match, by classifier and, for a dictionary, by keyword. -/
structure CustomStreamState where
  nextEnd : ℕ → ℕ → ℕ

structure StableCustomMatch where
  found : Found
  classifier : ℕ
  /-- The number of the keyword; expressions have none. -/
  keyword : Option ℕ
  absoluteEnd : ℕ
  allowed : Bool
  deriving DecidableEq

def maxCustomMatchLen : ℕ := 512

def newCustomStreamState : CustomStreamState := ⟨fun _ _ => 0⟩

namespace CustomStreamState

variable (s : CustomStreamState)

def resume (origin classifier slot : ℕ) : ℕ := s.nextEnd classifier slot - origin

/-- The matches from `from` on that start before `dropTo`. -/
def window (stop : Stop Byte IdentifierType) (data : List Byte) («from» dropTo : ℕ) : List Found :=
  ((sweep stop none 0 0 (data.drop «from»)).map (Match.shift «from»)).takeWhile fun m => m.start < dropTo

def stableOf (opts : Options) (data : List Byte) (origin dropTo : ℕ) (c : CompiledClassifier) (ci : ℕ) :
    List StableCustomMatch :=
  let mk (ki : Option ℕ) (m : Found) : StableCustomMatch :=
    ⟨m,ci,ki,origin + m.stop,opts.allowed c.typ (slice data m.start m.stop)⟩
  if !c.gate data then []
  else match c.matcher with
    | .regex re _ =>
      ((window (re.findStop c.typ) data (s.resume origin ci 0) dropTo).filter
        fun m => m.stop - m.start ≤ maxCustomMatchLen).map (mk none)
    | .keyword lits =>
      lits.zipIdx.flatMap fun kw =>
        (window (keywordStop c.typ kw.1) data (s.resume origin ci kw.2) dropTo).map (mk (some kw.2))

def stable (opts : Options) (data : List Byte) (origin dropTo : ℕ) : List StableCustomMatch :=
  if dropTo = 0 then []
  else opts.classifiers.zipIdx.flatMap fun c => s.stableOf opts data origin dropTo c.1 c.2

def commit (m : StableCustomMatch) : CustomStreamState :=
  ⟨fun ci ki => if ci = m.classifier ∧ ki = m.keyword.getD 0 then m.absoluteEnd else s.nextEnd ci ki⟩

end CustomStreamState

end DsseCore.Dlp

import DsseCore.Dlp.Scanner
import DsseCore.Dlp.Spill
import DsseCore.Go.Sort

/-!
# Guarded reading

The guard reads an upload and hands out the bytes that the scan has cleared.  It holds the window at the end, and from
the start of an unfinished address on it keeps cleared bytes in a spill.  When an identifier reaches its threshold the
guard stops for good.
-/

namespace DsseCore.Dlp

open Go Lib

inductive SourceStatus where
  | more
  | eof
  | failed
  deriving DecidableEq

structure SourceRead where
  bytes : List Byte
  status : SourceStatus
  fits : bytes.length ≤ chunkSize

structure Occurrence where
  typ : IdentifierType
  start : ℕ
  stop : ℕ
  deriving DecidableEq

/-- Why a guard stopped.  The error of a blocked upload does not name the occurrence; it is the one whose count reached
the threshold. -/
inductive ReadError where
  | blocked (by' : Occurrence)
  | inspectionFailed
  | retentionLimit
  | source
  deriving DecidableEq

structure Failure where
  err : ReadError
  cleanupFailed : Bool
  deriving DecidableEq

/-- What a guard is made with: the options of the scan, the thresholds of the identifier types, and the cipher of its
spill. -/
structure GuardConfig where
  opts : Options := {}
  trip : Map ℤ
  cipher : Cipher

structure GuardReader where
  counts : Counts := ∅
  hold : List Byte := []
  origin : ℕ := 0
  custom : CustomStreamState := newCustomStreamState
  email : EmailStream := {}
  spool : Option EncryptedSpill := none
  ready : List Byte := []
  eof : Bool := false
  failed : Option Failure := none
  world : List Bool := []

structure Event where
  found : Found
  custom : Option StableCustomMatch

namespace GuardReader

variable (k : GuardConfig) (g : GuardReader)

def answer : Bool × List Bool :=
  match g.world with
  | [] => (true,[])
  | ok :: w => (ok,w)

def closeSpool : GuardReader × Bool :=
  match g.spool with
  | none => (g,true)
  | some _ => ({ g with spool := none,world := g.answer.2 },g.answer.1)

/-- The window and the ready bytes are given up.  The email and custom states, which are given up too, are not read
again. -/
def releaseWorking : GuardReader := { g with hold := [],ready := [] }

def fail (err : ReadError) : GuardReader :=
  let (closed, ok) := g.closeSpool
  { closed.releaseWorking with failed := some ⟨err,!ok⟩ }

/-- A new guard has failed when no retention is left for it. -/
def new (world : List Bool) : GuardReader :=
  let g : GuardReader := { world := world }
  let started : GuardReader := { world := g.answer.2 }
  if g.answer.1 then started else { started with failed := some ⟨.retentionLimit,false⟩ }

/-- One more occurrence; the guard blocks when the threshold of its type is reached. -/
def count (occ : Occurrence) : GuardReader :=
  let counted := { g with counts := g.counts.incr occ.typ }
  match k.trip[occ.typ]? with
  | some th => if th ≤ (counted.counts.of occ.typ : ℤ) then counted.fail (.blocked occ) else counted
  | none => counted

def countEmailMatch (m : EmailStreamMatch) : GuardReader :=
  if g.failed.isSome ∨ m.allowed then g else g.count k ⟨Email,m.start,m.stop⟩

def countEmail (found : List EmailStreamMatch) : GuardReader := found.foldl (countEmailMatch k) g

def countEvent (ev : Event) : GuardReader :=
  if g.failed.isSome then g
  else
    let occ : Occurrence := ⟨ev.found.typ,g.origin + ev.found.start,g.origin + ev.found.stop⟩
    match ev.custom with
    | none => g.count k occ
    | some m =>
      let committed := { g with custom := g.custom.commit m }
      if m.allowed then committed else committed.count k occ

/-- The matches before a boundary, in the order of their positions. -/
def events (found : List Found) (dropTo : ℕ) : List Event :=
  sliceStable (fun a b => a.found.start < b.found.start)
    ((found.filter (·.stop ≤ dropTo)).map (fun m => ⟨m,none⟩) ++
      (g.custom.stable k.opts g.hold g.origin dropTo).map fun m => ⟨m.found,some m⟩)

def dropHold (dropTo : ℕ) : GuardReader := { g with hold := g.hold.drop dropTo,origin := g.origin + dropTo }

def addReady (bytes : List Byte) : GuardReader := { g with ready := g.ready ++ bytes }

def dropReady (n : ℕ) : GuardReader := { g with ready := g.ready.drop n }

def answered (w : List Bool) : GuardReader := { g with world := w }

def asked : GuardReader := g.answered g.answer.2

def spillError : SpillError → ReadError
  | .retention => .retentionLimit
  | _ => .inspectionFailed

def appendSpool (sp : EncryptedSpill) (p : List Byte) (dropTo : ℕ) : GuardReader :=
  match sp.append k.cipher p g.world with
  | (.error err, w) => { g with spool := some sp,world := w }.fail (spillError err)
  | (.ok sp', w) => { g with spool := some sp',world := w }.dropHold dropTo

/-- The cleared bytes go to the caller, or to the spill from the start of an unfinished address on. -/
def clear (dropTo : ℕ) : GuardReader :=
  let stable := g.hold.take dropTo
  match g.spool with
  | some sp => if sp.endPos ≠ g.origin then g.fail .inspectionFailed else g.appendSpool k sp stable dropTo
  | none =>
    match g.email.pendingStart with
    | none => (g.addReady stable).dropHold dropTo
    | some pending =>
      if pending < g.origin + dropTo then
        if pending < g.origin then g.fail .inspectionFailed
        else
          let cleared := g.addReady (stable.take (pending - g.origin))
          -- the spill is created
          if cleared.answer.1 = false then cleared.asked.fail .inspectionFailed
          else cleared.asked.appendSpool k (newEncryptedSpill pending) (stable.drop (pending - g.origin)) dropTo
      else (g.addReady stable).dropHold dropTo

def advance (final : Bool) : GuardReader :=
  let found := scanBaseAll k.opts g.hold
  let dropTo := windowCommit g.hold found final
  if dropTo = 0 then g
  else
    let counted := (g.events k found dropTo).foldl (countEvent k) g
    if counted.failed.isSome then counted else counted.clear k dropTo

def take (bytes : List Byte) : GuardReader :=
  let r := g.email.write k.opts.allowlist bytes
  { g with hold := g.hold ++ bytes,email := r.1 }.countEmail k r.2

def finish : GuardReader :=
  let r := g.email.finish k.opts.allowlist
  let counted := { g with eof := true,email := r.1 }.countEmail k r.2
  if counted.failed.isSome then counted else counted.advance k true

def receive (r : SourceRead) : GuardReader :=
  let taken := g.take k r.bytes
  if taken.failed.isSome then taken
  else match r.status with
    | .eof => taken.finish k
    | .failed => taken.fail .source
    | .more => if r.bytes = [] then taken else taken.advance k false

def safeUntil (sp : EncryptedSpill) : ℕ :=
  match g.email.pendingStart with
  | none => sp.endPos
  | some pending => min pending sp.endPos

def settle (sp : EncryptedSpill) : GuardReader :=
  let g' := { g with spool := some sp }
  if sp.readPos = sp.endPos then
    if g'.closeSpool.2 then g'.closeSpool.1 else g'.closeSpool.1.fail .inspectionFailed
  else g'

def drain (room : ℕ) : List Byte × GuardReader :=
  match g.spool with
  | none => ([],g)
  | some sp =>
    if g.safeUntil sp < sp.readPos then ([],g.fail .inspectionFailed)
    else match sp.readSafe k.cipher room (g.safeUntil sp) g.world with
      | (.error _, w) => ([],(g.answered w).fail .inspectionFailed)
      | (.ok (out, sp'), w) => (out,(g.answered w).settle sp')

inductive ReadOutcome where
  | bytes (out : List Byte)
  | eof
  | failed (f : Failure)
  /-- The source has not answered yet. -/
  | pending
  deriving DecidableEq

/-- One round of the loop of `Read`, up to the next read of the source: the outcome, if there is one. -/
def offer (room : ℕ) : Option ReadOutcome × GuardReader :=
  match g.failed with
  | some f => (some (.failed f),g)
  | none =>
    if g.ready ≠ [] then (some (.bytes (g.ready.take room)),g.dropReady room)
    else
      let (out, drained) := g.drain k room
      match drained.failed with
      | some f => (some (.failed f),drained)
      | none =>
        if out ≠ [] then (some (.bytes out),drained)
        else if drained.eof then (some .eof,drained.releaseWorking)
        else (none,drained)

def read (room : ℕ) : List SourceRead → GuardReader → ReadOutcome × GuardReader × List SourceRead
  | [], g =>
    if room = 0 then (.bytes [],g,[])
    else match g.offer k room with
      | (some outcome, g') => (outcome,g',[])
      | (none, g') => (.pending,g',[])
  | r :: rest, g =>
    if room = 0 then (.bytes [],g,r :: rest)
    else match g.offer k room with
      | (some outcome, g') => (outcome,g',r :: rest)
      | (none, g') => read room rest (g'.receive k r)

end GuardReader

end DsseCore.Dlp

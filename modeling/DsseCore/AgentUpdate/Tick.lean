import DsseCore.AgentUpdate.Runner

/-!
# One pass of the updater

A pass first puts on the outbox what the journal still owes the fleet, closes an attempt that has landed, and only then
looks for a release and runs it.  The outbox is the history of the reports that were put on it.
-/

namespace DsseCore.AgentUpdate

open Go Lib Proc

structure Pass where
  exec : Exec
  outbox : List Report := []
  /-- How the next reports are put on the outbox. -/
  appends : List SaveAnswer := []
  /-- The fingerprint of the last refusal that was reported. -/
  lastRefusal : String := ""
  /-- The outcomes that were marked as reported; nothing reads it. -/
  marked : List String := []
  deriving DecidableEq

namespace Pass

variable (s : Pass)

def onExec (f : Exec → Exec) : Pass := { s with exec := f s.exec }

def change (f : Journal → Journal) : Pass := s.onExec (·.change f)

def save (dry : Bool) : Pass := if dry then s else s.onExec fun e => e.write.2

def appended (r : Report) (a : SaveAnswer) (rest : List SaveAnswer) : Pass :=
  { s with outbox := if a.lands then s.outbox ++ [r] else s.outbox,appends := rest }

def append (r : Report) : Bool × Pass :=
  if trimSpace r.at = "" then (false,s)
  else match s.appends with
    | [] => (true,s.appended r .saved [])
    | a :: rest => (a == .saved,s.appended r a rest)

def mark : Pass := { s with marked := s.marked ++ [s.exec.journal.outcomeFingerprint] }

def setRefusal (fingerprint : String) : Pass := { s with lastRefusal := fingerprint }

end Pass

def Journal.flushed (j : Journal) : Journal := j.clearReportPending.clearReportQueueFailures.markOutcomeReported

def Journal.notQueued (clock : Time) (j : Journal) : Journal :=
  (j.recordReportQueueFailure "the outbox refused the report" DefaultReportMaxAttempts clock).1

def flushPendingReport (dry : Bool) (clock : Time) (s : Pass) : Pass :=
  match s.exec.journal.pendingReport with
  | none => s
  | some r =>
    if dry then s
    else
      let (queued, t) := s.append r
      if queued then (t.mark.change (·.flushed)).save false else (t.change (·.notQueued clock)).save false

/-- What a pass takes from the rollout; the sentence that says why a wave is withheld is `planHold`. -/
structure Resolved where
  frozen : Bool
  eligibleSince : Time
  planHold : String
  planGeneratedAt : Time
  window : Option MaintenanceWindow

inductive FetchError where
  | noManifest
  /-- The digest of the document that was rejected, if there is one. -/
  | unusable (digest err : String)

inductive StageError where
  | notOurs
  | failed (err : String)

structure TickDeps where
  locked : Bool := true
  readable : Bool := true
  running : Except VersionError String
  fetch : Except FetchError Manifest
  resolve : Option (Manifest → Resolved) := none
  stage : Manifest → Except StageError Unit
  platform : Platform
  config : Config
  now : Time
  clock : Time
  digest : String → String

inductive TickOutcome where
  | notEvaluating
  | unreadable
  | notRecorded
  | reportWaits
  | noManifest
  | unusable (err : String)
  | notNewer
  | notOurs
  | notStaged (err : String)
  | ran (r : Result)

abbrev TickStep := Proc Pass TickOutcome

section Tick

variable (d : TickDeps)

namespace TickDeps

def dry : Bool := d.config.dryRun

def runningText : String := d.running.toOption.getD ""

def recovered (version «at» : String) : String := d.digest (version ++ "\x00" ++ «at»)

end TickDeps

def Pass.load (s : Pass) : Pass := s.change fun _ => s.exec.saved.loaded d.recovered d.clock

/-- `Reconcile`: the attempt that the running version shows to have landed. -/
def Journal.reconcile (j : Journal) (running : Except VersionError String) (now : Time) : Option Journal :=
  match running with
  | .error _ => none
  | .ok v => if j.phase.interrupted && sameVersion v j.targetVersion then some (j.recordSuccess now) else none

def landedNote (j : Journal) : String :=
  if j.isRollback then "ROLLED BACK to " ++ j.targetVersion ++ ": this device is running it again, and \"" ++
    j.fromVersion ++ "\" stays refused on this device until a different version is published"
  else "attempt at " ++ j.targetVersion ++ " completed: this device is now running it (the installer finished " ++
    "after the updater that started it was replaced)"

def Journal.reportLanded (id running : String) (now : Time) (j : Journal) : Journal :=
  j.markReportPending
    (j.reportOutcome id (if j.isRollback then .rolledBack else .installed) running (landedNote j) now)

def Journal.reportOwed (id running : String) (now : Time) (j : Journal) : Journal :=
  if j.owesOutcomeReport then
    j.markReportPendingIfFree (j.reportOutcome id j.terminalReportStatus running j.lastFailureReason now)
  else j

def Pass.nextID (s : Pass) : String := newReportID d.now (s.exec.reportSeq + 1)

def flush : TickStep Unit := modify (flushPendingReport d.dry d.clock)

def Pass.landing (s : Pass) (landed : Journal) : Pass :=
  (s.change fun _ => landed.reportLanded (s.nextID d) d.runningText d.now).onExec (·.nameReport)

def recordLanded (s : Pass) (a : SaveAnswer) : Except TickOutcome Unit × Pass :=
  if a = .saved then (.ok (),(flushPendingReport false d.clock s).setRefusal "") else (.error .notRecorded,s)

def closeLanded : TickStep Unit := fun s =>
  match s.exec.journal.reconcile d.running d.now with
  | none => (.ok (),s)
  | some landed =>
    if d.dry then (.ok (),flushPendingReport true d.clock (s.landing d landed))
    else
      let w := (s.landing d landed).exec.write
      recordLanded d ((s.landing d landed).onExec fun _ => w.2) w.1

/-- An outcome that is owed becomes pending, and is saved so. -/
def Pass.pledge (s : Pass) : Pass :=
  if s.exec.journal.owesOutcomeReport then
    ((s.change (·.reportOwed (s.nextID d) d.runningText d.now)).onExec (·.nameReport)).save d.dry
  else s

def refusalFingerprint (version reason : String) : String :=
  d.digest (trimSpace version ++ "\x00" ++ trimSpace reason)

/-- `refuse`: a refusal is put on the outbox unless it was the last one reported. -/
def Pass.refuse (version digest reason : String) (s : Pass) : Pass :=
  let fingerprint := refusalFingerprint d (version ++ digest) reason
  if s.lastRefusal = fingerprint then s
  else
    let r : Report :=
      { s.exec.journal.reportOutcome (s.nextID d) .refused d.runningText reason d.now with
        fingerprint := fingerprint
        targetVersion := trimSpace version
        fromVersion := ""
        rejectedDigest := digest
        -- a refusal is not about an outcome of the journal
        outcome := "" }
    let (queued, t) := (s.onExec (·.nameReport)).append r
    if queued then t.setRefusal fingerprint else t

def fetchManifest : TickStep Manifest :=
  match d.fetch with
  | .ok m => pure m
  | .error .noManifest => leave .noManifest
  | .error (.unusable digest err) => do
    onlyIf (d.dry = false)
      (modify (·.refuse d "" digest ("the update manifest could not be used: " ++ err)))
    leave (.unusable err)

/-- The plan is folded into the configuration, and its time is accepted. -/
def applyRollout (m : Manifest) : TickStep Config :=
  match d.resolve with
  | none => pure d.config
  | some resolve => do
    modify fun s =>
      if (s.exec.journal.acceptPlanFloor (resolve m).planGeneratedAt).2 then
        (s.change fun j => (j.acceptPlanFloor (resolve m).planGeneratedAt).1).save d.dry
      else s
    pure
      { d.config with
        frozen := (resolve m).frozen
        eligibleSince := (resolve m).eligibleSince
        planHold := (resolve m).planHold
        window := (resolve m).window.getD d.config.window }

def stageArtifact (k : Config) (m : Manifest) : TickStep Unit :=
  if k.frozen then pure ()
  else match d.stage m with
    | .ok () => pure ()
    | .error .notOurs => leave .notOurs
    | .error (.failed err) => do
      onlyIf (d.dry = false) (modify (·.refuse d m.version "" ("could not stage " ++ m.version ++ ": " ++ err)))
      leave (.notStaged err)

def runUpdate (k : Config) (m : Manifest) : TickStep Result := fun s =>
  let (r, e) := run k d.platform m d.now s.exec
  (.ok r,s.onExec fun _ => e)

def settleOutcomes : TickStep Unit := do
  modify (·.load d)
  flush d
  closeLanded d
  modify (·.pledge d)
  flush d
  let s ← get
  leaveIf (s.exec.journal.pendingReport.isSome = true ∧ d.dry = false) .reportWaits

def tickBody : TickStep TickOutcome := do
  leaveIf (d.locked = false) .notEvaluating
  leaveIf (d.readable = false) .unreadable
  settleOutcomes d
  let m ← fetchManifest d
  let k ← applyRollout d m
  leaveIf (m.applicable d.runningText d.config.platform d.config.arch = .error .notAnUpgrade) .notNewer
  stageArtifact d k m
  let r ← runUpdate d k m
  modify (·.pledge d)
  flush d
  pure (.ran r)

def tick (s : Pass) : TickOutcome × Pass := (tickBody d).outcome s

end Tick

end DsseCore.AgentUpdate

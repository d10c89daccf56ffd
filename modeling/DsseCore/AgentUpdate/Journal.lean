import DsseCore.AgentUpdate.Version
import DsseCore.Go.Time
import DsseCore.Go.Value

/-!
# The update journal

The journal is what the updater remembers across its own death.  It is written before each step of an attempt, counts
failures for each target version, and holds the outcome that the fleet has still to hear about.
-/

namespace DsseCore.AgentUpdate

open Go

inductive Phase where
  | idle
  | verified
  | snapshotted
  | disarmed
  | executing
  | rollingBack
  | observing
  | completed
  | pendingReboot
  | failed
  | rolledBack
  | unrecoverable
  deriving DecidableEq

namespace Phase

/-- `interruptedPhases`: a fresh start in one of them means that the previous attempt died. -/
def interrupted : Phase → Bool
  | snapshotted | disarmed | executing | rollingBack | observing => true
  | _ => false

/-- `inFlightPhases`: the attempt has started to change the machine. -/
def inFlight : Phase → Bool
  | disarmed | executing | rollingBack => true
  | _ => false

def reported : Phase → Bool
  | completed | rolledBack | failed => true
  | _ => false

def text : Phase → String
  | idle => "idle"
  | verified => "verified"
  | snapshotted => "snapshotted"
  | disarmed => "disarmed"
  | executing => "executing"
  | rollingBack => "rolling_back"
  | observing => "observing"
  | completed => "completed"
  | pendingReboot => "pending_reboot"
  | failed => "failed"
  | rolledBack => "rolled_back"
  | unrecoverable => "unrecoverable"

end Phase

inductive AttemptKind where
  | update
  | rollback
  deriving DecidableEq

inductive ReportStatus where
  | installed
  | failed
  | rolledBack
  | refused
  deriving DecidableEq

def ReportStatus.text : ReportStatus → String
  | installed => "installed"
  | failed => "failed"
  | rolledBack => "rolled_back"
  | refused => "refused"

structure Report where
  id : String
  fromVersion : String := ""
  targetVersion : String := ""
  runningVersion : String := ""
  status : ReportStatus
  kind : Option AttemptKind := none
  reason : String := ""
  «at» : String := ""
  fingerprint : String := ""
  rejectedDigest : String := ""
  /-- The fingerprint of the journal when the report was built.  It is not part of the document; it says which outcome
  the report is about. -/
  outcome : String := ""
  deriving DecidableEq

structure QuarantinedReport where
  id : String
  status : ReportStatus
  version : String
  «at» : String
  attempts : ℕ
  reason : String
  /-- Not part of the document, as in `Report`. -/
  outcome : String := ""
  deriving DecidableEq

structure Journal where
  targetVersion : String := ""
  fromVersion : String := ""
  phase : Phase := .idle
  updatedAt : String := ""
  attemptStartedAt : String := ""
  inFlightSince : String := ""
  failures : Map ℕ := ∅
  poisoned : Map String := ∅
  lastWaitReason : String := ""
  lastFailureReason : String := ""
  restoreMaterial : List String := []
  planGeneratedAt : String := ""
  pendingReport : Option Report := none
  droppedOwedOutcomes : ℕ := 0
  lastDroppedOwedOutcome : String := ""
  pendingReportAttempts : ℕ := 0
  quarantined : List QuarantinedReport := []
  reportedOutcomeEarned : Bool := false
  reportedOutcomeAssumed : Bool := false
  reportedOutcomeForgotten : Bool := false
  reportedOutcome : String := ""
  terminalSeq : ℕ := 0
  attemptKind : AttemptKind := .update
  deriving DecidableEq

def DefaultMaxAttempts : ℕ := 3

def DefaultReportMaxAttempts : ℕ := 10

def InstallGrace : Int := 600 * Time.second

/-- A time as the journal keeps it, `t.UTC().Format(time.RFC3339)`. -/
@[irreducible] def stamp (t : Time) : String := t.formatRFC3339

def newJournal : Journal := {}

namespace Journal

variable (j : Journal)

def isRollback : Bool := j.attemptKind == .rollback

def acceptedPlanFloor : Time := (Time.parseRFC3339 j.planGeneratedAt).getD Time.zero

def acceptPlanFloor (generated : Time) : Journal × Bool :=
  if generated.isZero || !decide (j.acceptedPlanFloor < generated) then (j,false)
  else ({ j with planGeneratedAt := stamp generated },true)

def needsNetworkRecovery : Bool := j.phase == .disarmed || j.phase == .executing || j.phase == .rollingBack

def begin (target «from» : String) (now : Time) : Journal :=
  { j with
    targetVersion := target
    fromVersion := «from»
    attemptStartedAt := stamp now
    inFlightSince := ""
    phase := .verified
    updatedAt := stamp now
    attemptKind := .update }

def beginRollback (target «from» : String) (now : Time) : Journal :=
  { j.begin target «from» now with attemptKind := .rollback }

def refuse (version reason : String) : Journal :=
  if trimSpace version = "" then j else { j with poisoned := j.poisoned.insert (trimSpace version) reason }

/-- `Enter`: a transition into a phase that the fleet hears about is counted. -/
def enter (p : Phase) (now : Time) : Journal :=
  { j with
    terminalSeq := if j.phase ≠ p ∧ p.reported then j.terminalSeq + 1 else j.terminalSeq
    inFlightSince := if p.inFlight ∧ j.inFlightSince = "" then stamp now else j.inFlightSince
    phase := p
    updatedAt := stamp now }

def recordWait (reason : String) (now : Time) : Journal :=
  { j with lastWaitReason := reason,updatedAt := stamp now }

def failuresOf (v : String) : ℕ := j.failures[v]?.getD 0

/-- The ceiling on failed attempts; without a positive setting it is the default. -/
def ceiling (maxAttempts : Int) : Int := if maxAttempts ≤ 0 then DefaultMaxAttempts else maxAttempts

def countFailure (v reason : String) (maxAttempts : Int) : Journal :=
  let n := j.failuresOf v + 1
  { j with
    failures := j.failures.insert v n
    poisoned :=
      if (n : Int) < ceiling maxAttempts then j.poisoned
      else j.poisoned.insert v s!"failed {n} times; last: {reason}" }

def setFailureReason (reason : String) : Journal := { j with lastFailureReason := reason }

def clearFailures (v : String) : Journal := { j with failures := j.failures.erase v }

def recordFailure (reason : String) (maxAttempts : Int) (now : Time) : Journal :=
  let v := trimSpace j.targetVersion
  let failed := (j.setFailureReason reason).enter .failed now
  if v = "" then failed else failed.countFailure v reason maxAttempts

def outcomeFingerprint : String :=
  match j.phase with
  | .completed | .rolledBack => j.phase.text ++ "|" ++ j.targetVersion ++ "|" ++ toString j.terminalSeq
  | .failed =>
    j.phase.text ++ "|" ++ j.targetVersion ++ "|" ++ toString (j.failuresOf j.targetVersion) ++ "|" ++
      toString j.terminalSeq
  | _ => ""

def owesOutcomeReport : Bool := j.outcomeFingerprint ≠ "" && j.outcomeFingerprint ≠ j.reportedOutcome

def markOutcomeReported : Journal :=
  { j with reportedOutcome := j.outcomeFingerprint,reportedOutcomeEarned := true,reportedOutcomeAssumed := false }

def markReportPending (r : Report) : Journal := { j with pendingReport := some r }

/-- `MarkReportPendingIfFree`: an outcome that finds the slot taken is counted. -/
def markReportPendingIfFree (r : Report) : Journal :=
  match j.pendingReport with
  | some _ =>
    { j with
      droppedOwedOutcomes := j.droppedOwedOutcomes + 1
      lastDroppedOwedOutcome := trimSpace (r.status.text ++ " " ++ r.targetVersion) }
  | none => j.markReportPending r

def clearReportPending : Journal := { j with pendingReport := none }

def clearReportQueueFailures : Journal := { j with pendingReportAttempts := 0 }

/-- The owed outcome is given up: it is kept as quarantined, and no longer owed. -/
def quarantine (r : Report) (reason : String) (attempts : ℕ) (now : Time) : Journal :=
  let label := if trimSpace r.id = "" then r.status.text else trimSpace r.id
  { j with
    quarantined := j.quarantined ++
      [⟨label,r.status,trimSpace r.targetVersion,stamp now,attempts,trimSpace reason,r.outcome⟩]
    reportedOutcome := j.outcomeFingerprint
    reportedOutcomeEarned := false
    reportedOutcomeAssumed := false
    pendingReport := none
    pendingReportAttempts := 0 }

def setAttempts (n : ℕ) : Journal := { j with pendingReportAttempts := n }

def recordReportQueueFailure (reason : String) (maxAttempts : ℕ) (now : Time) : Journal × Bool :=
  match j.pendingReport with
  | none => (j,false)
  | some r =>
    let attempts := j.pendingReportAttempts + 1
    if attempts < (if maxAttempts = 0 then DefaultReportMaxAttempts else maxAttempts) then
      (j.setAttempts attempts,false)
    else (j.quarantine r reason attempts now,true)

def recordSuccess (now : Time) : Journal :=
  let v := trimSpace j.targetVersion
  let cleared := if v = "" then j else j.clearFailures v
  if j.isRollback then cleared.enter .rolledBack now else cleared.enter .completed now

def isPoisoned (version : String) : Option String :=
  match j.poisoned[trimSpace version]? with
  | some reason => some reason
  | none => (j.poisoned.toList.find? fun e => sameVersion e.1 version).map Prod.snd

def attemptStarted : Time := (Time.parseRFC3339 j.attemptStartedAt).getD Time.zero

def installStarted : Time := (Time.parseRFC3339 j.inFlightSince).getD j.attemptStarted

def installYoungerThan (d : Int) (now : Time) : Bool :=
  !j.installStarted.isZero && decide (now.sub j.installStarted < d)

def terminal : Bool :=
  match j.phase with
  | .completed | .rolledBack | .failed | .unrecoverable => true
  | _ => false

def terminalReportStatus : ReportStatus :=
  match j.phase with
  | .rolledBack => .rolledBack
  | .failed => .failed
  | _ => .installed

/-- `ReportOutcome`; the caller supplies the identifier. -/
def reportOutcome (id : String) (status : ReportStatus) (running reason : String) (now : Time) : Report :=
  { id := id
    status := status
    reason := reason
    kind := some j.attemptKind
    «at» := stamp now
    fromVersion := j.fromVersion
    targetVersion := j.targetVersion
    runningVersion := running
    outcome := j.outcomeFingerprint }

end Journal

section Load

variable (j : Journal)

/-- `adoptLegacyReportedOutcome`: a terminal journal without a counter is taken to have been reported. -/
def Journal.adoptLegacyReportedOutcome : Journal :=
  if j.reportedOutcome ≠ "" ∨ j.pendingReport.isSome ∨ j.terminalSeq ≠ 0 ∨ j.reportedOutcomeForgotten then j
  else if j.outcomeFingerprint = "" then j
  else { j with reportedOutcome := j.outcomeFingerprint,reportedOutcomeAssumed := true }

def Journal.flagLegacyReportedOutcomeAsAssumed : Journal :=
  if j.reportedOutcome = "" ∨ j.reportedOutcomeAssumed ∨ j.terminalSeq ≠ 0 ∨ j.reportedOutcomeEarned ∨
    j.reportedOutcomeForgotten then j
  else { j with reportedOutcomeAssumed := true }

/-- What an older build's pending report could not carry.  `recovered` names the report, `clock` is the time now. -/
def Journal.completeLegacyPendingReport (recovered : String → String → String) (clock : Time) : Journal :=
  match j.pendingReport with
  | none => j
  | some r =>
    let «at» :=
      if trimSpace r.at ≠ "" then r.at
      else if trimSpace j.updatedAt ≠ "" then trimSpace j.updatedAt else stamp clock
    let id := if trimSpace r.id ≠ "" then r.id else "aue_recovered_" ++ recovered j.targetVersion «at»
    let target := if trimSpace r.targetVersion ≠ "" then r.targetVersion else j.targetVersion
    { j with
      pendingReport := some
        { r with «at» := «at»,id := id,targetVersion := target,kind := some (r.kind.getD j.attemptKind) } }

/-- What `LoadJournal` does to a journal that was read. -/
def Journal.loaded (recovered : String → String → String) (clock : Time) : Journal :=
  (j.completeLegacyPendingReport recovered clock).flagLegacyReportedOutcomeAsAssumed.adoptLegacyReportedOutcome

/-- Loading changes what is reported, and nothing else. -/
theorem Journal.loaded_fields (recovered : String → String → String) (clock : Time) : ∃ pending outcome assumed,
    j.loaded recovered clock =
      { j with pendingReport := pending,reportedOutcome := outcome,reportedOutcomeAssumed := assumed } := by
  obtain ⟨pending, hpending⟩ : ∃ pending, j.completeLegacyPendingReport recovered clock =
      { j with pendingReport := pending } := by
    unfold completeLegacyPendingReport
    split
    · exact ⟨_,rfl⟩
    · exact ⟨_,rfl⟩
  unfold loaded flagLegacyReportedOutcomeAsAssumed adoptLegacyReportedOutcome
  rw [hpending]
  split_ifs <;> exact ⟨_,_,_,rfl⟩

end Load

end DsseCore.AgentUpdate

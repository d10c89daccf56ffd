import DsseCore.AgentUpdate.Gate
import DsseCore.AgentUpdate.Journal
import DsseCore.Lib.Proc

/-!
# Running an update and rolling one back

Both procedures write the journal before each step, may take steering down, and hand over to an installer that replaces
the process.  The platform and the disk answer as they like; what was asked of them is kept in order.
-/

namespace DsseCore.AgentUpdate

open Go Lib Proc

/-- How a save of the journal ends: the file can have been replaced although an error is returned. -/
inductive SaveAnswer where
  | saved
  | lost
  | unconfirmed
  deriving DecidableEq

def SaveAnswer.lands : SaveAnswer → Bool
  | saved | unconfirmed => true
  | lost => false

inductive VersionError where
  | unknown
  | notRunning
  | other (text : String)
  deriving DecidableEq

structure Platform where
  runningVersion : Except VersionError String
  conditions : DeviceConditions
  captureRestoreMaterial : Except String (List String)
  restoreMaterialFor : String → Except String String
  disarmBeforeUpdate : Bool
  /-- The error of the call, if there is one; so for the calls below. -/
  disarm : Option String
  rearm : Option String
  /-- The launch of the installer, for an update or for a rollback. -/
  execute : Option String

/-- What was asked of the platform and of the disk, and how it ended. -/
inductive Call where
  | save (j : Journal) (a : SaveAnswer)
  | material (kind : AttemptKind) (ok : Bool)
  | disarm (ok : Bool)
  | rearm (ok : Bool)
  | execute (kind : AttemptKind) (ok : Bool)
  deriving DecidableEq

structure Config where
  window : MaintenanceWindow
  maxAttempts : Int := 0
  platform : String := ""
  arch : String := ""
  steeringSurvivesAgent : Bool := false
  planHold : String := ""
  frozen : Bool := false
  eligibleSince : Time := Time.zero
  dryRun : Bool := false

inductive Action where
  | none
  | waiting
  | executing
  | wouldExecute
  | inProgress
  | refused
  | resumed
  | rollingBack
  | wouldRollBack
  deriving DecidableEq

/-- What is said about steering after a launch that failed. -/
inductive Steering where
  | untouched
  | restored
  | unconfirmed (err : String)
  deriving DecidableEq

/-- The sentence an outcome carries, without its wording. -/
inductive Reason where
  | mayStillRun (target : String) (phase : Phase)
  | neverFinished (kind : AttemptKind) (target : String) (phase : Phase) (needsNetwork steeringSurvives : Bool)
  | poisoned (version why : String)
  | versionUnknown (version : String)
  | agentNotRunning (version : String)
  | notApplicable (why : NotApplicable)
  | waits (reason : WaitReason)
  | nothingToRestore (version err : String)
  | dryRun (version : String)
  | notDisarmed (err : String)
  | notLaunched (err : String) (steering : Steering)
  | handedOver (version leaving : String)
  | steeringDown (err : String)
  | alreadyAbandoned (target «from» : String)
  | noPrevious
  | alreadyRunning (target : String)
  deriving DecidableEq

inductive Recording where
  | interruptedAttempt
  | attemptStart
  | fromVersion
  | wait
  | snapshot
  | rollback
  | disarm
  | disarmFailure
  | launch (kind : AttemptKind)
  | launchFailure (kind : AttemptKind)
  deriving DecidableEq

inductive Problem where
  | readVersion (err : String)
  | record (what : Recording)
  | launch (err : String)
  | steeringDown (err : String)
  | unrecorded
  deriving DecidableEq

structure Outcome where
  action : Action
  reason : Reason
  deriving DecidableEq

/-- An outcome, which is empty on most errors, and the parts of the error. -/
structure Result where
  outcome : Option Outcome := none
  err : List Problem := []
  deriving DecidableEq

def Result.of (action : Action) (reason : Reason) : Result := { outcome := some ⟨action,reason⟩ }

/-- One execution: the journal in memory and on disk, what the disk will answer, and what was asked. -/
structure Exec where
  journal : Journal
  saved : Journal
  saves : List SaveAnswer := []
  calls : List Call := []
  disarmed : Bool := false
  launched : Bool := false
  /-- The reports that this process has named. -/
  reportSeq : ℕ := 0
  deriving DecidableEq

namespace Exec

variable (e : Exec)

def change (f : Journal → Journal) : Exec := { e with journal := f e.journal }

def ask (c : Call) : Exec := { e with calls := e.calls ++ [c] }

def written (a : SaveAnswer) (rest : List SaveAnswer) : Exec :=
  { e with
    saved := if a.lands then e.journal else e.saved
    saves := rest
    calls := e.calls ++ [.save e.journal a] }

def write : SaveAnswer × Exec :=
  match e.saves with
  | [] => (.saved,e.written .saved [])
  | a :: rest => (a,e.written a rest)

def setDisarmed (b : Bool) : Exec := { e with disarmed := b }

def setLaunched (b : Bool) : Exec := { e with launched := b }

end Exec

abbrev Step := Proc Exec Result

namespace Step

def journal : Step Journal := fun e => (.ok e.journal,e)

def change (f : Journal → Journal) : Step Unit := modify (·.change f)

def ask (c : Call) : Step Unit := modify (·.ask c)

def trySave (dry : Bool) : Step Bool := fun e =>
  if dry then (.ok true,e) else (.ok (e.write.1 == .saved),e.write.2)

def save (dry : Bool) (what : Recording) : Step Unit := do
  let ok ← trySave dry
  leaveIf (ok = false) { err := [.record what] }

end Step

section Handover

/-- What an update and a rollback do differently when they hand over. -/
structure Handover where
  kind : AttemptKind
  disarmFailed : String → Journal → Journal
  /-- What an installer that did not start does to the journal, with the reason. -/
  launchFailed : String → Journal → Journal
  launchFailure : String
  unrecorded : String → Steering → Result
  started : Result

def AttemptKind.launchPhase : AttemptKind → Phase
  | update => .executing
  | rollback => .rollingBack

def failureWithSteering (reason : String) : Steering → String
  | .untouched | .restored => reason
  | .unconfirmed rerr => reason ++ "; ★ steering restoration could NOT be confirmed afterwards: " ++ rerr

namespace Journal

def setMaterial (j : Journal) (material : List String) : Journal := { j with restoreMaterial := material }

def setFrom (j : Journal) (version : String) : Journal := { j with fromVersion := version }

end Journal

variable (h : Handover) (p : Platform) (now : Time)

def takeDown : Step Unit := do
  Step.change (·.enter .disarmed now)
  Step.save false .disarm
  Step.ask (.disarm p.disarm.isNone)
  match p.disarm with
  | none => modify (·.setDisarmed true)
  | some derr => do
    Step.change (h.disarmFailed derr)
    Step.save false .disarmFailure
    leave (.of .refused (.notDisarmed derr))

def restoreSteering : Step Steering := do
  let e ← get
  if e.disarmed then do
    Step.ask (.rearm p.rearm.isNone)
    modify (·.setDisarmed false)
    match p.rearm with
    | none => pure .restored
    | some rerr => pure (.unconfirmed rerr)
  else pure .untouched

def launchFailed (xerr : String) : Step Result := do
  let steering ← restoreSteering p
  Step.change (h.launchFailed (failureWithSteering (h.launchFailure ++ xerr) steering))
  let ok ← Step.trySave false
  leaveIf (ok = false) (h.unrecorded xerr steering)
  pure (.of .refused (.notLaunched xerr steering))

def launch : Step Result := do
  Step.change (·.enter h.kind.launchPhase now)
  Step.save false (.launch h.kind)
  Step.ask (.execute h.kind p.execute.isNone)
  match p.execute with
  | none => do
    modify (·.setLaunched true)
    pure h.started
  | some xerr => launchFailed h p xerr

/-- What is deferred: steering that was taken down is put back unless the installer runs. -/
def rearmDeferred (r : Result) (e : Exec) : Result × Exec :=
  if e.disarmed = true ∧ e.launched = false then
    let asked := e.ask (.rearm p.rearm.isNone)
    match p.rearm with
    | none => (r,asked)
    | some rerr =>
      let (a, t) := (asked.change fun j => j.setFailureReason (failureWithSteering j.lastFailureReason (.unconfirmed rerr))).write
      ({ outcome := some ⟨.refused,.steeringDown rerr⟩
         err := [.steeringDown rerr] ++ (if a = .saved then [] else [.unrecorded]) ++ r.err },t)
  else (r,e)

def handOver : Step Result := fun e =>
  let body : Step Result := do
    onlyIf (p.disarmBeforeUpdate = true) (takeDown h p now)
    launch h p now
  let (r, t) := body.outcome ((e.setDisarmed false).setLaunched false)
  let (r', t') := rearmDeferred p r t
  (.ok r',t')

end Handover

section Run

variable (k : Config) (p : Platform) (m : Manifest) (now : Time)

def updateHandover : Handover where
  kind := .update
  disarmFailed derr j :=
    j.recordFailure ("disarm failed: " ++ derr ++ "; steering may already have been cleared; " ++
      "inspect the driver and normal network before another update attempt") k.maxAttempts now
  launchFailed reason j := j.recordFailure reason k.maxAttempts now
  launchFailure := "execute failed: "
  unrecorded xerr steering :=
    { outcome := some ⟨.refused,.notLaunched xerr steering⟩
      err := [.record (.launchFailure .update),.launch xerr] ++
        match steering with
        | .unconfirmed rerr => [.steeringDown rerr]
        | .untouched | .restored => [] }
  started := .of .executing (.handedOver m.version "")

/-- An attempt that stopped without an end is recorded as failed. -/
def closeInterrupted : Step Unit := do
  let j ← Step.journal
  Step.change (·.enter .failed now)
  Step.save k.dryRun .interruptedAttempt
  leave (.of .resumed
    (.neverFinished j.attemptKind j.targetVersion j.phase j.needsNetworkRecovery k.steeringSurvivesAgent))

def requireRunning : Step String :=
  match p.runningVersion with
  | .ok running => pure running
  | .error .unknown => leave (.of .refused (.versionUnknown m.version))
  | .error .notRunning => leave (.of .refused (.agentNotRunning m.version))
  | .error (.other err) => leave { err := [.readVersion err] }

def requireApplicable (running : String) : Step Unit :=
  match m.applicable running k.platform k.arch with
  | .ok () => pure ()
  | .error why => leave (.of .none (.notApplicable why))

def beginAttempt (running : String) : Step Unit := do
  let j ← Step.journal
  if j.targetVersion ≠ m.version ∨ j.attemptStartedAt = "" ∨ j.terminal then do
    Step.change (·.begin m.version running now)
    Step.save k.dryRun .attemptStart
  else if running ≠ "" ∧ j.fromVersion ≠ running then do
    Step.change (·.setFrom running)
    Step.save k.dryRun .fromVersion
  else pure ()

def conditionsFor (j : Journal) : DeviceConditions :=
  let c := p.conditions
  let eligible := if k.eligibleSince.isZero then c.eligibleSince else k.eligibleSince
  { c with
    frozen := k.frozen || c.frozen
    planHold := k.planHold
    eligibleSince := if eligible.isZero then (Time.parseRFC3339 j.attemptStartedAt).getD eligible else eligible }

def passGate : Step Unit := do
  let j ← Step.journal
  match evaluateGate k.window (conditionsFor k p j) with
  | .proceed _ => pure ()
  | .wait reason => do
    Step.change (·.recordWait reason.text now)
    Step.save k.dryRun .wait
    leave (.of .waiting (.waits reason))

def captureMaterial : Step Unit := do
  Step.ask (.material .update p.captureRestoreMaterial.isOk)
  match p.captureRestoreMaterial with
  | .error cerr => leave (.of .refused (.nothingToRestore m.version cerr))
  | .ok material => do
    Step.change fun j => (j.setMaterial material).enter .snapshotted now
    Step.save k.dryRun .snapshot

def prepare : Step Unit := do
  let running ← requireRunning p m
  requireApplicable k m running
  beginAttempt k m now running
  passGate k p now
  captureMaterial k p m now

def runBody : Step Result := do
  let j ← Step.journal
  leaveIf (j.phase.interrupted = true ∧ j.installYoungerThan InstallGrace now = true)
    (.of .inProgress (.mayStillRun j.targetVersion j.phase))
  onlyIf (j.phase.interrupted = true) (closeInterrupted k now)
  leaveIf ((j.isPoisoned m.version).isSome = true)
    (.of .refused (.poisoned m.version ((j.isPoisoned m.version).getD "")))
  prepare k p m now
  leaveIf (k.dryRun = true) (.of .wouldExecute (.dryRun m.version))
  handOver (updateHandover k m now) p now

def keepJournal (dry : Bool) (before : Exec) (r : Result × Exec) : Result × Exec :=
  if dry then (r.1,r.2.change fun _ => before.journal) else r

def run (e : Exec) : Result × Exec := keepJournal k.dryRun e ((runBody k p m now).outcome e)

end Run

section Rollback

structure RollbackRequest where
  toVersion : String := ""
  leavingVersion : String := ""

variable (k : Config) (p : Platform) (req : RollbackRequest) (now : Time)

def newReportID (now : Time) (seq : ℕ) : String := "aue_" ++ Time.padded 19 now ++ "_" ++ Time.padded 9 seq

def erasedReason (j : Journal) : String :=
  "an attempt at " ++ j.targetVersion ++ " was interrupted in phase \"" ++ j.phase.text ++
    "\" and never completed; it is recorded here because the rollback that follows would otherwise erase it"

def Journal.closeForRollback (j : Journal) : Journal :=
  if j.isRollback then (j.setFailureReason (erasedReason j)).enter .failed now
  else (j.recordFailure (erasedReason j) DefaultMaxAttempts now).enter .failed now

/-- The outcome that the rollback would erase becomes the pending report. -/
def Journal.keepEarlier (id : String) (j : Journal) : Journal :=
  if j.owesOutcomeReport then
    j.markReportPendingIfFree (j.reportOutcome id j.terminalReportStatus "" j.lastFailureReason now)
  else if j.phase.interrupted then
    let closed := j.closeForRollback now
    closed.markReportPendingIfFree (closed.reportOutcome id .failed "" closed.lastFailureReason now)
  else j

def leavingVersion : String :=
  match p.runningVersion with
  | .ok running => running
  | .error _ => trimSpace req.leavingVersion

def rollbackTarget (j : Journal) : String :=
  if trimSpace req.toVersion = "" then trimSpace j.fromVersion else trimSpace req.toVersion

/-- The rollback begins; what it leaves is refused from now on, unless it is what is restored. -/
def Journal.startRollback (target leaving : String) (j : Journal) : Journal :=
  let started := j.beginRollback target leaving now
  if leaving = "" then started
  else if sameVersion leaving target then
    started.recordWait ("rolled back to " ++ target ++ ", which is also the version this device reports as installed; " ++
      "nothing is refused, because refusing it would make the version being restored unavailable") now
  else
    started.refuse leaving ("rolled back to " ++ target ++ " on " ++ stamp now ++
      " by an operator; this device will not take " ++ leaving ++ " again until a different version is published")

def rollbackHandover (target leaving : String) : Handover where
  kind := .rollback
  disarmFailed _ j := j.enter .failed now
  launchFailed reason j := (j.setFailureReason reason).enter .failed now
  launchFailure := "rollback launch failed: "
  unrecorded _ _ := { err := [.record (.launchFailure .rollback)] }
  started := .of .rollingBack (.handedOver target leaving)

def findMaterial (target : String) : Step Unit := do
  Step.ask (.material .rollback (p.restoreMaterialFor target).isOk)
  match p.restoreMaterialFor target with
  | .ok _ => pure ()
  | .error perr => leave (.of .refused (.nothingToRestore target perr))

def Exec.nameReport (e : Exec) : Exec := { e with reportSeq := e.reportSeq + 1 }

def Exec.keepEarlier (e : Exec) : Exec :=
  if e.journal.owesOutcomeReport = true ∨ e.journal.phase.interrupted = true then
    (e.change (·.keepEarlier now (newReportID now (e.reportSeq + 1)))).nameReport
  else e

/-- What a rollback does once it knows the version to go back to; `j` is the journal it was read from. -/
def goBack (j : Journal) (target : String) : Step Result := do
  leaveIf (trimSpace req.toVersion = "" ∧ j.isRollback = true)
    (.of .refused (.alreadyAbandoned j.targetVersion j.fromVersion))
  leaveIf (target = "") (.of .refused .noPrevious)
  let running := p.runningVersion.toOption.getD ""
  leaveIf (running ≠ "" ∧ sameVersion target running = true) (.of .none (.alreadyRunning target))
  findMaterial p target
  leaveIf (k.dryRun = true) (.of .wouldRollBack (.dryRun target))
  Step.change (·.startRollback now target (leavingVersion p req))
  Step.save k.dryRun .rollback
  handOver (rollbackHandover now target (leavingVersion p req)) p now

def rollbackBody : Step Result := do
  let j ← Step.journal
  leaveIf (j.phase.interrupted = true ∧ j.installYoungerThan InstallGrace now = true)
    (.of .refused (.mayStillRun j.targetVersion j.phase))
  modify (·.keepEarlier now)
  let j ← Step.journal
  goBack k p req now j (rollbackTarget req j)

def rollback (e : Exec) : Result × Exec := keepJournal k.dryRun e ((rollbackBody k p req now).outcome e)

end Rollback

variable {e : Exec} {dry : Bool} {what : Recording} {R : Result → Exec → Prop}

theorem Exec.write_eq (e : Exec) : ∃ a rest, e.write = (a,e.written a rest) := by
  unfold Exec.write
  cases e.saves with
  | nil => exact ⟨.saved,[],rfl⟩
  | cons a rest => exact ⟨a,rest,rfl⟩

theorem Step.ends_trySave {Q : Bool → Exec → Prop} (hdry : dry = true → Q true e)
    (hsave : dry = false → ∀ a rest, Q (a == .saved) (e.written a rest)) : (Step.trySave dry).Ends e Q R := by
  unfold Step.trySave Ends
  cases dry with
  | true => exact hdry rfl
  | false =>
    obtain ⟨a, rest, hw⟩ := e.write_eq
    simp only [hw]
    exact hsave rfl a rest

theorem Step.ends_save {Q : Unit → Exec → Prop} (hdry : dry = true → Q () e)
    (hok : dry = false → ∀ rest, Q () (e.written .saved rest))
    (herr : dry = false → ∀ a rest, a ≠ .saved → R { err := [.record what] } (e.written a rest)) :
    (Step.save dry what).Ends e Q R := by
  unfold Step.save
  rw [ends_bind]
  refine Step.ends_trySave (fun h => ?_) fun h a rest => ?_
  · exact .leaveIf (by simp) fun _ => hdry h
  refine .leaveIf (fun ha => herr h a rest fun hs => ?_) fun ha => ?_
  · simp [hs] at ha
  · rw [beq_eq_false_iff_ne,not_not] at ha
    exact ha ▸ hok h rest

/-- What neither a call to the platform nor a save changes. -/
structure Kept (I : Exec → Prop) : Prop where
  written : ∀ e a rest, I e → I (e.written a rest)
  material : ∀ e kind ok, I e → I (e.ask (.material kind ok))
  disarm : ∀ e ok, I e → I (e.ask (.disarm ok))
  rearm : ∀ e ok, I e → I (e.ask (.rearm ok))
  execute : ∀ e kind ok, I e → I (e.ask (.execute kind ok))
  setDisarmed : ∀ e b, I e → I (e.setDisarmed b)
  setLaunched : ∀ e b, I e → I (e.setLaunched b)

variable {I J L : Exec → Prop}

@[simp] theorem Step.ends_journal {Q : Journal → Exec → Prop} : Step.journal.Ends e Q R ↔ Q e.journal e := Iff.rfl

theorem Step.meets_save (hw : dry = false → ∀ e a rest, I e → I (e.written a rest)) (hl : ∀ e, I e → L e) :
    Meets I I L (Step.save dry what) :=
  ⟨fun e h => Step.ends_save (fun _ => h) (fun hd rest => hw hd e _ rest h) fun hd a rest _ => hl _ (hw hd e a rest h)⟩

theorem Step.meets_change {f : Journal → Journal} (h : ∀ e, I e → J (e.change f)) :
    Meets I J L (Step.change f) := ⟨h⟩

theorem Step.meets_ask {c : Call} (h : ∀ e, I e → J (e.ask c)) : Meets I J L (Step.ask c) := ⟨h⟩

theorem Step.meets_journal (h : ∀ e, I e → J e) : Meets I J L Step.journal := ⟨h⟩

variable {k : Config} {p : Platform} {m : Manifest} {now : Time}

theorem closeInterrupted_meets (hw : k.dryRun = false → ∀ e a rest, L e → L (e.written a rest))
    (hfailed : ∀ e, I e → L (e.change (·.enter .failed now))) : Meets I J L (closeInterrupted k now) := by
  refine .bind (Step.meets_journal fun _ h => h) fun j => ?_
  refine .bind (Step.meets_change hfailed) fun _ => ?_
  exact .bind (Step.meets_save hw fun _ h => h) fun _ => .leave fun _ h => h

theorem requireRunning_meets (hl : ∀ e, I e → L e) : Meets I I L (requireRunning p m) := by
  unfold requireRunning
  split
  · exact .pure fun _ h => h
  all_goals exact .leave hl

theorem requireApplicable_meets {running : String} (hl : ∀ e, I e → L e) :
    Meets I I L (requireApplicable k m running) := by
  unfold requireApplicable
  split
  · exact .pure fun _ h => h
  · exact .leave hl

section

variable (hw : k.dryRun = false → ∀ e a rest, I e → I (e.written a rest)) (hl : ∀ e, I e → L e)
include hw hl

theorem beginAttempt_meets {running : String} (hbegin : ∀ e, I e → I (e.change (·.begin m.version running now)))
    (hfrom : ∀ e, I e → I (e.change (·.setFrom running))) : Meets I I L (beginAttempt k m now running) := by
  refine .bind (Step.meets_journal fun _ h => h) fun j => ?_
  split
  · exact .bind (Step.meets_change hbegin) fun _ => Step.meets_save hw hl
  split
  · exact .bind (Step.meets_change hfrom) fun _ => Step.meets_save hw hl
  · exact .pure fun _ h => h

theorem passGate_meets (hwait : ∀ e reason, I e → I (e.change (·.recordWait reason now))) :
    Meets I I L (passGate k p now) := by
  refine .bind (Step.meets_journal fun _ h => h) fun j => ?_
  split
  · exact .pure fun _ h => h
  · refine .bind (Step.meets_change fun e => hwait e _) fun _ => ?_
    exact .bind (Step.meets_save hw hl) fun _ => .leave hl

end

theorem captureMaterial_meets (hw : k.dryRun = false → ∀ e a rest, J e → J (e.written a rest)) (hl : ∀ e, J e → L e)
    (hnone : ∀ e, I e → L (e.ask (.material .update false)))
    (hsome : ∀ e material, I e →
      J ((e.ask (.material .update true)).change fun j => (j.setMaterial material).enter .snapshotted now)) :
    Meets I J L (captureMaterial k p m now) := by
  unfold captureMaterial
  cases p.captureRestoreMaterial with
  | error err =>
    constructor
    intro e h
    exact hnone e h
  | ok material =>
    constructor
    intro e h
    exact (Step.meets_save hw hl).ends _ (hsome e material h)

/-- What an assertion `I` of an attempt that is prepared, one `J` once the restore material is there and one `L` of an
execution that returns must stand. -/
structure Prepares (k : Config) (m : Manifest) (now : Time) (I J L : Exec → Prop) : Prop where
  going : k.dryRun = false → ∀ e a rest, I e → I (e.written a rest)
  ready : k.dryRun = false → ∀ e a rest, J e → J (e.written a rest)
  done : k.dryRun = false → ∀ e a rest, L e → L (e.written a rest)
  goingDone : ∀ e, I e → L e
  readyDone : ∀ e, J e → L e
  failed : ∀ e, I e → L (e.change (·.enter .failed now))
  begin : ∀ e running, I e → I (e.change (·.begin m.version running now))
  setFrom : ∀ e running, I e → I (e.change (·.setFrom running))
  wait : ∀ e reason, I e → I (e.change (·.recordWait reason now))
  notCaptured : ∀ e, I e → L (e.ask (.material .update false))
  captured : ∀ e material, I e →
    J ((e.ask (.material .update true)).change fun j => (j.setMaterial material).enter .snapshotted now)

theorem prepare_meets (hp : Prepares k m now I J L) : Meets I J L (prepare k p m now) := by
  refine .bind (requireRunning_meets hp.goingDone) fun running => ?_
  refine .bind (requireApplicable_meets hp.goingDone) fun _ => ?_
  refine .bind (beginAttempt_meets hp.going hp.goingDone (fun e => hp.begin e running) fun e => hp.setFrom e running)
    fun _ => ?_
  refine .bind (passGate_meets hp.going hp.goingDone hp.wait) fun _ => ?_
  exact captureMaterial_meets hp.ready hp.readyDone hp.notCaptured hp.captured

theorem runBody_meets (hp : Prepares k m now I J L)
    (hh : k.dryRun = false → Meets J L L (handOver (updateHandover k m now) p now)) :
    Meets I L L (runBody k p m now) := by
  refine .bind (Step.meets_journal fun _ h => h) fun j => ?_
  refine .bind (.leaveIf hp.goingDone) fun _ => ?_
  refine .bind (.onlyIf (closeInterrupted_meets hp.done hp.failed) fun _ h => h) fun _ => ?_
  refine .bind (.leaveIf hp.goingDone) fun _ => ?_
  refine .bind (prepare_meets hp) fun _ => ?_
  cases hd : k.dryRun with
  | true => exact ⟨fun e he => hp.readyDone e he⟩
  | false => exact .bind (.leaveIf hp.readyDone) fun _ => hh hd

variable {h : Handover}

/-- What an assertion `I` of an attempt under way, and one `L` of an attempt that is over, must stand. -/
structure Handover.Fits (h : Handover) (now : Time) (I L : Exec → Prop) : Prop where
  going : Kept I
  done : Kept L
  ended : ∀ e, I e → L e
  disarmed : ∀ e, I e → I (e.change (·.enter .disarmed now))
  disarmFailed : ∀ e derr, I e → L (e.change (h.disarmFailed derr))
  launching : ∀ e, I e → I (e.change (·.enter h.kind.launchPhase now))
  launchFailed : ∀ e reason, I e → L (e.change (h.launchFailed reason))
  steering : ∀ e (f : Journal → String), L e → L (e.change fun j => j.setFailureReason (f j))

section

variable (hf : h.Fits now I L)
include hf

theorem takeDown_meets : Meets I I L (takeDown h p now) := by
  refine .bind (Step.meets_change hf.disarmed) fun _ => ?_
  refine .bind (Step.meets_save (fun _ => hf.going.written) hf.ended) fun _ => ?_
  refine .bind (Step.meets_ask fun e => hf.going.disarm e _) fun _ => ?_
  cases p.disarm with
  | none => exact .modify fun e => hf.going.setDisarmed e true
  | some derr =>
    refine .bind (Step.meets_change fun e => hf.disarmFailed e derr) fun _ => ?_
    exact .bind (Step.meets_save (fun _ => hf.done.written) fun _ hl => hl) fun _ => .leave fun _ hl => hl

theorem restoreSteering_meets : Meets I I L (restoreSteering p) := by
  constructor
  intro e he
  unfold restoreSteering
  simp only [ends_bind,ends_get]
  split
  · have hasked := fun ok => hf.going.setDisarmed _ false (hf.going.rearm e ok he)
    cases p.rearm with
    | none => exact hasked true
    | some rerr => exact hasked false
  · exact he

theorem launch_meets : Meets I L L (launch h p now) := by
  refine .bind (Step.meets_change hf.launching) fun _ => ?_
  refine .bind (Step.meets_save (fun _ => hf.going.written) hf.ended) fun _ => ?_
  refine .bind (Step.meets_ask fun e => hf.going.execute e _ _) fun _ => ?_
  cases p.execute with
  | none => exact .bind (.modify fun e => hf.going.setLaunched e true) fun _ => .pure hf.ended
  | some xerr =>
    refine .bind (restoreSteering_meets hf) fun steering => ?_
    refine .bind (Step.meets_change fun e => hf.launchFailed e _) fun _ => ?_
    refine .bind (J := L) ⟨fun e hl => Step.ends_trySave (fun _ => hl) fun _ a rest => hf.done.written e a rest hl⟩
      fun ok => ?_
    exact .bind (.leaveIf fun _ hl => hl) fun _ => .pure fun _ hl => hl

theorem rearmDeferred_keeps {r : Result} (he : L e) : L (rearmDeferred p r e).2 := by
  unfold rearmDeferred
  split
  · have hasked := fun ok => hf.done.rearm e ok he
    cases p.rearm with
    | none => exact hasked true
    | some rerr =>
      have hnoted := hf.steering _ (fun j => failureWithSteering j.lastFailureReason (.unconfirmed rerr)) (hasked false)
      obtain ⟨a, rest, hw⟩ := Exec.write_eq ((e.ask (.rearm false)).change fun j =>
        j.setFailureReason (failureWithSteering j.lastFailureReason (.unconfirmed rerr)))
      dsimp only [Option.isNone]
      rw [hw]
      exact hf.done.written _ a rest hnoted
  · exact he

theorem handOver_meets : Meets I L L (handOver h p now) := by
  constructor
  intro e he
  have hstart := hf.going.setLaunched _ false (hf.going.setDisarmed e false he)
  have hbody : Meets I L L (do
      onlyIf (p.disarmBeforeUpdate = true) (takeDown h p now)
      launch h p now) :=
    .bind (.onlyIf (takeDown_meets hf) fun _ h => h) fun _ => launch_meets hf
  exact rearmDeferred_keeps hf (hbody.outcome hstart)

end

variable {req : RollbackRequest} {T : String → Prop} {K : Exec → Prop}

/-- The same for a rollback that knows the version to go back to, one with `T`: `I` until the package is found, `J` until
the rollback begins and `K` from then on. -/
structure GoesBack (now : Time) (leaving : String) (T : String → Prop) (I J K L : Exec → Prop) : Prop where
  written : ∀ e a rest, K e → K (e.written a rest)
  goingDone : ∀ e, I e → L e
  readyDone : ∀ e, J e → L e
  begunDone : ∀ e, K e → L e
  notFound : ∀ e, I e → L (e.ask (.material .rollback false))
  found : ∀ e, I e → J (e.ask (.material .rollback true))
  start : ∀ e target, T target → J e → K (e.change (·.startRollback now target leaving))

structure RollsBack (req : RollbackRequest) (now : Time) (leaving : String) (T : String → Prop) (I J K L : Exec → Prop) :
    Prop extends GoesBack now leaving T I J K L where
  keep : ∀ e, I e → I (e.keepEarlier now)
  target : ∀ e, I e → T (rollbackTarget req e.journal)

theorem findMaterial_meets {target : String} (hnone : ∀ e, I e → L (e.ask (.material .rollback false)))
    (hsome : ∀ e, I e → J (e.ask (.material .rollback true))) : Meets I J L (findMaterial p target) := by
  unfold findMaterial
  cases p.restoreMaterialFor target with
  | ok pkg => exact ⟨hsome⟩
  | error perr => exact ⟨hnone⟩

theorem goBack_meets (hr : GoesBack now (leavingVersion p req) T I J K L) {j : Journal} {target : String}
    (ht : T target)
    (hh : k.dryRun = false → Meets K L L (handOver (rollbackHandover now target (leavingVersion p req)) p now)) :
    Meets I L L (goBack k p req now j target) := by
  refine .bind (.leaveIf hr.goingDone) fun _ => ?_
  refine .bind (.leaveIf hr.goingDone) fun _ => ?_
  refine .bind (.leaveIf hr.goingDone) fun _ => ?_
  refine .bind (findMaterial_meets hr.notFound hr.found) fun _ => ?_
  cases hd : k.dryRun with
  | true => exact ⟨fun e he => hr.readyDone e he⟩
  | false =>
    refine .bind (.leaveIf hr.readyDone) fun _ => ?_
    refine .bind (Step.meets_change fun e he => hr.start e target ht he) fun _ => ?_
    exact .bind (Step.meets_save (fun _ => hr.written) hr.begunDone) fun _ => hh hd

theorem rollbackBody_meets (hr : RollsBack req now (leavingVersion p req) T I J K L)
    (hh : ∀ target, T target → k.dryRun = false → Meets K L L (handOver (rollbackHandover now target (leavingVersion p req)) p now)) :
    Meets I L L (rollbackBody k p req now) := by
  refine .bind (Step.meets_journal fun _ h => h) fun j => ?_
  refine .bind (.leaveIf hr.goingDone) fun _ => ?_
  refine .bind (.modify hr.keep) fun _ => ?_
  constructor
  intro e he
  have ht := hr.target e he
  rw [ends_bind,Step.ends_journal]
  exact (goBack_meets hr.toGoesBack ht (hh _ ht)).ends e he

end DsseCore.AgentUpdate

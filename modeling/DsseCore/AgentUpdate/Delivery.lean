import DsseCore.AgentUpdate.Outcomes
import DsseCore.Lib.Run

/-!
# Outcomes over the life of a device

A device evaluates in passes, is told to roll back, and is restarted; the disk and the outbox may fail at any point.
A process that dies is one whose later saves and appends are all lost.
-/

namespace DsseCore.AgentUpdate

open Go Lib Journal Proc

structure RollbackCommand where
  locked : Bool := true
  readable : Bool := true
  request : RollbackRequest
  config : Config
  platform : Platform
  now : Time
  clock : Time
  /-- The identifiers of recovered reports. -/
  recovered : String → String → String

inductive Event where
  | tick (d : TickDeps) (saves appends : List SaveAnswer)
  | rollback (c : RollbackCommand) (saves : List SaveAnswer)
  | restart

namespace Pass

variable (s : Pass)

/-- The procedure begins with these answers of the disk and of the outbox. -/
def wake (saves appends : List SaveAnswer) : Pass :=
  { s with exec := { s.exec with saves := saves,disarmed := false,launched := false },appends := appends }

def loadFor (c : RollbackCommand) : Exec := s.exec.change fun _ => s.exec.saved.loaded c.recovered c.clock

/-- The rollback command: the lock, then the journal, then `Rollback`. -/
def runRollback (c : RollbackCommand) : Pass :=
  if c.locked = false ∨ c.readable = false then s
  else s.onExec fun _ => (AgentUpdate.rollback c.config c.platform c.request c.now (s.loadFor c)).2

def restarted : Pass := { s with exec := { s.exec with reportSeq := 0 },lastRefusal := "" }

def after : Event → Pass
  | .tick d saves appends => (AgentUpdate.tick d (s.wake saves appends)).2
  | .rollback c saves => (s.wake saves []).runRollback c
  | .restart => s.restarted

end Pass

def newDevice : Pass := { exec := { journal := newJournal,saved := newJournal } }

/-- Nothing waits to be reported when a rollback begins, and no attempt is in the middle. -/
def Event.Quiet (s : Pass) : Event → Prop
  | .rollback c _ => c.config.dryRun = false → Settled s.exec.saved ∧ s.exec.saved.phase.interrupted = false
  | .tick _ _ _ | .restart => True

def Happens (s : Pass) (e : Event) (t : Pass) : Prop := t = s.after e

variable {s t : Pass} {d : TickDeps} {before saved : List Journal} {q j : Journal} {outbox : List Report} {r : Report}

/-- Of the outcomes of these journals, which were saved before the pass, each is on the outbox or was given up. -/
def AllTold (before : List Journal) (q : Journal) (outbox : List Report) : Prop :=
  ∀ x ∈ before, x.outcomeFingerprint ≠ "" → Told outbox q x.outcomeFingerprint

def TellsAll (before : List Journal) (q : Journal) (s : Pass) : Prop := AllTold before q s.outbox

/-- Each is on the outbox, was given up, is the dated pending report, or is owed. -/
structure Due (before : List Journal) (q : Journal) (s : Pass) : Prop where
  sane : Sane false s
  appends : s.appends = []
  dated : ∀ r, s.exec.journal.pendingReport = some r → trimSpace r.at ≠ ""
  due : ∀ x ∈ before, x.outcomeFingerprint ≠ "" → Told s.outbox q x.outcomeFingerprint ∨
    s.exec.journal.outcomeFingerprint = x.outcomeFingerprint ∧
      (s.exec.journal.owesOutcomeReport = true ∨ s.exec.journal.pendingReport.isSome = true)

theorem stamp_dated (t : Time) : trimSpace (stamp t) ≠ "" := by
  refine trimSpace_ne_empty (c := 'Z') ?_ (by decide)
  unfold stamp Time.formatRFC3339
  rw [String.toList_append]
  exact List.mem_append_right _ (by decide)

theorem AllTold.mono {outbox' : List Report} (h : AllTold before q outbox) (ho : outbox ⊆ outbox') :
    AllTold before q outbox' :=
  fun x hx hne => (h x hx hne).mono ho fun _ hq => hq

theorem Due.queue (h : Due before q s) (hr : s.exec.journal.pendingReport = some r) :
    AllTold before q (s.outbox ++ [r]) := by
  intro x hx hne
  rcases h.due x hx hne with ht | ⟨he, -⟩
  · exact ht.mono (List.subset_append_left _ _) fun _ hq => hq
  · have hout := ((h.sane.held.memory rfl).pending r hr).1
    exact .inl ⟨r,by simp,hout.trans he⟩

theorem save_outbox (s : Pass) (dry : Bool) : (s.save dry).outbox = s.outbox := by
  unfold Pass.save
  split
  · rfl
  · rfl

theorem flush_pending (h : Due before q s) (hr : s.exec.journal.pendingReport = some r) (clock : Time) :
    flushPendingReport false clock s = ((s.appended r .saved []).mark.change (·.flushed)).save false := by
  unfold flushPendingReport
  rw [hr]
  dsimp only
  rw [if_neg Bool.false_ne_true,Pass.append,if_neg (h.dated r hr),h.appends]
  rfl

theorem Due.flush (h : Due before q s) (clock : Time) :
    Due before q (flushPendingReport false clock s) ∧
      (flushPendingReport false clock s).exec.journal.pendingReport = none ∧
      (s.exec.journal.pendingReport.isSome = true → AllTold before q (flushPendingReport false clock s).outbox) := by
  have hsane := (flush_sane h.sane clock).1
  cases hr : s.exec.journal.pendingReport with
  | none =>
    have hsame : flushPendingReport false clock s = s := by
      unfold flushPendingReport
      rw [hr]
    rw [hsame]
    exact ⟨h,hr,nofun⟩
  | some r =>
    have htold := h.queue hr
    rw [flush_pending h hr] at hsane ⊢
    have hnone : (((s.appended r .saved []).mark.change (·.flushed)).save false).exec.journal.pendingReport = none := by
      rw [save_journal]
      rfl
    refine ⟨⟨hsane,?_,?_,?_⟩,hnone,fun _ => ?_⟩
    · rfl
    · intro r' hr'
      rw [hnone] at hr'
      cases hr'
    · exact fun x hx hne => .inl (htold x hx hne)
    · exact htold

theorem subset_flush (s : Pass) (dry : Bool) (clock : Time) : s.outbox ⊆ (flushPendingReport dry clock s).outbox := by
  unfold flushPendingReport
  split
  · exact fun _ h => h
  rename_i r hr
  split
  · exact fun _ h => h
  rcases append_eq s r with ha | ⟨a, rest, ha⟩
  · rw [ha]
    exact fun _ h => h
  rw [ha]
  dsimp only
  split
  · exact subset_appended s r a rest
  · exact subset_appended s r a rest

theorem subset_refuse (s : Pass) (d : TickDeps) (version digest reason : String) :
    s.outbox ⊆ (s.refuse d version digest reason).outbox := by
  unfold Pass.refuse
  dsimp only
  split
  · exact fun _ h => h
  rcases append_eq (s.onExec (·.nameReport)) _ with ha | ⟨a, rest, ha⟩
  · rw [ha]
    exact fun _ h => h
  rw [ha]
  split
  · exact subset_appended _ _ a rest
  · exact subset_appended _ _ a rest

theorem loaded_dated (h : Accounted outbox saved j) (recovered : String → String → String) (clock : Time)
    (hr : (j.loaded recovered clock).pendingReport = some r) : trimSpace r.at ≠ "" := by
  have hflag : ∀ i : Journal, i.flagLegacyReportedOutcomeAsAssumed.pendingReport = i.pendingReport := by
    intro i
    unfold flagLegacyReportedOutcomeAsAssumed
    split
    · rfl
    · rfl
  rw [h.loaded_eq,hflag,completeLegacyPendingReport] at hr
  split at hr
  · rename_i hnone
    rw [hnone] at hr
    cases hr
  cases hr
  dsimp only
  split
  · assumption
  split
  · rwa [trimSpace_trimSpace]
  · exact stamp_dated clock

theorem Due.load (h : OnDisk s) (ha : s.appends = []) (hd : d.dry = false) :
    Due (landed s.exec.calls) s.exec.saved (s.load d) := by
  have hsane := load_sane (d := d) h
  rw [hd] at hsane
  refine ⟨hsane,ha,fun r hr => loaded_dated h.disk _ _ hr,fun x hx hne => ?_⟩
  have hsame := h.disk.same_loaded d.recovered d.clock
  rcases (h.disk.loaded d.recovered d.clock).covers x hx hne with ht | ⟨r, hr, he⟩ | ⟨he, howes⟩
  · exact .inl (ht.of_eq hsame.quarantined.symm)
  · have hpending := ((h.disk.loaded d.recovered d.clock).pending r hr).1
    exact .inr ⟨hpending.symm.trans he,.inr (by rw [Pass.load]; exact Option.isSome_of_eq_some hr)⟩
  · exact .inr ⟨he,.inl howes⟩

theorem Due.told_of_interrupted (h : Due before q s) (hi : s.exec.journal.phase.interrupted = true) :
    AllTold before q s.outbox := by
  intro x hx hne
  rcases h.due x hx hne with ht | ⟨he, -⟩
  · exact ht
  refine absurd he.symm fun he' => ?_
  have := reported_of_fingerprint.mp (he' ▸ hne)
  exact Bool.false_ne_true ((not_reported_of_interrupted hi).symm.trans this)

theorem interrupted_of_reconcile {j' : Journal} {running : Except VersionError String} {now : Time}
    (h : j.reconcile running now = some j') : j.phase.interrupted = true := by
  unfold reconcile at h
  split at h
  · cases h
  split at h
  · rename_i hc
    exact (Bool.and_eq_true_iff.mp hc).1
  · cases h

/-- No report is pending, and what is due is told or owed. -/
def Free (before : List Journal) (q : Journal) (s : Pass) : Prop :=
  Due before q s ∧ s.exec.journal.pendingReport = none

theorem recordLanded_due (h : Due before q s) (htold : AllTold before q s.outbox) (a : SaveAnswer) :
    Ends (fun s => recordLanded d s a) s (fun _ t => Free before q t) fun _ t => AllTold before q t.outbox := by
  cases a with
  | saved =>
    obtain ⟨⟨hsane, happends, hdated, hdue⟩, hnone, -⟩ := h.flush d.clock
    exact ⟨⟨⟨hsane.held,hsane.marked⟩,happends,hdated,hdue⟩,hnone⟩
  | lost => exact htold
  | unconfirmed => exact htold

theorem closeLanded_due (hd : d.dry = false) :
    Meets (Free before q) (Free before q) (TellsAll before q) (closeLanded d) := by
  constructor
  rintro s ⟨h, hnone⟩
  unfold Ends closeLanded
  cases hrec : s.exec.journal.reconcile d.running d.now with
  | none => exact ⟨h,hnone⟩
  | some j' =>
    have htold := h.told_of_interrupted (interrupted_of_reconcile hrec)
    have hsane : Sane d.dry s := by
      rw [hd]
      exact h.sane
    have hlanding := hsane.landing hrec
    rw [hd] at hlanding
    obtain ⟨a, rest, hw⟩ := (s.landing d j').exec.write_eq
    have hwritten : Due before q ((s.landing d j').onExec fun _ => (s.landing d j').exec.written a rest) := by
      refine ⟨⟨hlanding.held.written a rest,hlanding.marked⟩,h.appends,fun r hr => ?_,fun x hx hne => .inl (htold x hx hne)⟩
      cases hr
      exact stamp_dated d.now
    dsimp only
    rw [hd,hw]
    exact recordLanded_due (d := d) hwritten htold a

theorem Free.pledge (hd : d.dry = false) (hs : Free before q s) :
    Due before q (s.pledge d) ∧
      ((s.pledge d).exec.journal.owesOutcomeReport = true → (s.pledge d).exec.journal.pendingReport.isSome = true) := by
  obtain ⟨h, hfree⟩ := hs
  have hsane : Sane d.dry s := by
    rw [hd]
    exact h.sane
  obtain ⟨hsane', hpledged⟩ := hsane.pledge
  rw [hd] at hsane' hpledged
  refine ⟨⟨hsane',?_,?_,?_⟩,hpledged rfl⟩
  · unfold Pass.pledge
    split
    · unfold Pass.save
      split <;> exact h.appends
    · exact h.appends
  · unfold Pass.pledge
    split
    · rename_i howes
      rw [save_journal]
      intro r hr
      change (s.exec.journal.reportOwed _ _ _).pendingReport = some r at hr
      rw [reportOwed,if_pos howes,markReportPendingIfFree,hfree] at hr
      cases hr
      exact stamp_dated d.now
    · exact h.dated
  · unfold Pass.pledge
    split
    · rename_i howes
      rw [save_journal,save_outbox]
      intro x hx hne
      refine (h.due x hx hne).imp id fun ⟨he, _⟩ => ⟨?_,.inr ?_⟩
      · change (s.exec.journal.reportOwed _ _ _).outcomeFingerprint = _
        rw [reportOwed,if_pos howes,markReportPendingIfFree,hfree]
        exact he
      change (s.exec.journal.reportOwed _ _ _).pendingReport.isSome = true
      rw [reportOwed,if_pos howes,markReportPendingIfFree,hfree]
      rfl
    · exact h.due

theorem Due.told (h : Due before q s) (hnone : s.exec.journal.pendingReport = none)
    (howes : s.exec.journal.owesOutcomeReport = false) : AllTold before q s.outbox := by
  intro x hx hne
  rcases h.due x hx hne with ht | ⟨-, ho | hp⟩
  · exact ht
  · exact absurd (howes.symm.trans ho) Bool.false_ne_true
  · rw [hnone] at hp
    cases hp

theorem Free.settle (hd : d.dry = false) (h : Free before q s) :
    AllTold before q (flushPendingReport false d.clock (s.pledge d)).outbox := by
  obtain ⟨hdue, hpledged⟩ := h.pledge hd
  obtain ⟨-, -, htold⟩ := hdue.flush d.clock
  cases hp : (s.pledge d).exec.journal.pendingReport with
  | some r => exact htold (Option.isSome_of_eq_some hp)
  | none =>
    refine (hdue.told hp ?_).mono (subset_flush _ _ _)
    rw [← Bool.not_eq_true]
    intro ho
    have := hpledged ho
    rw [hp] at this
    cases this

theorem settleOutcomes_told (hd : d.dry = false) (h : OnDisk s) (ha : s.appends = []) :
    (settleOutcomes d).Ends s (fun _ t => AllTold (landed s.exec.calls) s.exec.saved t.outbox)
      fun _ t => AllTold (landed s.exec.calls) s.exec.saved t.outbox := by
  unfold settleOutcomes flush
  rw [ends_bind,ends_modify,ends_bind,ends_modify,ends_bind,hd]
  obtain ⟨hdue, hnone, -⟩ := (Due.load h ha hd).flush d.clock
  refine ((closeLanded_due hd).ends _ ⟨hdue,hnone⟩).mono (fun _ t ht => ?_) fun _ _ ht => ht
  have htold := ht.settle hd
  rw [ends_bind,ends_modify,ends_bind]
  exact .leaveIf (fun _ => htold) fun _ => htold

theorem fetchManifest_keeps :
    Meets (TellsAll before q) (TellsAll before q) (TellsAll before q) (fetchManifest d) := by
  unfold fetchManifest
  split
  · exact .pure fun _ h => h
  · exact .leave fun _ h => h
  · exact .bind (.onlyIf (.modify fun s h => h.mono (subset_refuse s d _ _ _)) fun _ h => h) fun _ => .leave fun _ h => h

theorem applyRollout_keeps (m : Manifest) :
    Meets (TellsAll before q) (TellsAll before q) (TellsAll before q) (applyRollout d m) := by
  unfold applyRollout
  split
  · exact .pure fun _ h => h
  refine .bind (.modify fun s h => ?_) fun _ => .pure fun _ h => h
  split
  · rw [TellsAll,save_outbox]
    exact h
  · exact h

theorem stageArtifact_keeps (k : Config) (m : Manifest) :
    Meets (TellsAll before q) (TellsAll before q) (TellsAll before q) (stageArtifact d k m) := by
  unfold stageArtifact
  split
  · exact .pure fun _ h => h
  split
  · exact .pure fun _ h => h
  · exact .leave fun _ h => h
  · exact .bind (.onlyIf (.modify fun s h => h.mono (subset_refuse s d _ _ _)) fun _ h => h) fun _ => .leave fun _ h => h

theorem runUpdate_keeps (k : Config) (m : Manifest) :
    Meets (TellsAll before q) (TellsAll before q) (TellsAll before q) (runUpdate d k m) := ⟨fun _ h => h⟩

theorem TellsAll.pledge (h : TellsAll before q s) : TellsAll before q (s.pledge d) := by
  rw [TellsAll,Pass.pledge]
  split
  · rw [save_outbox]
    exact h
  · exact h

theorem tick_told (h : OnDisk s) (ha : s.appends = []) (hl : d.locked = true) (hr : d.readable = true)
    (hd : d.dry = false) : AllTold (landed s.exec.calls) s.exec.saved (tick d s).2.outbox := by
  refine Proc.Ends.outcome (R := fun _ t => TellsAll (landed s.exec.calls) s.exec.saved t) ?_
  unfold tickBody
  rw [hl,hr]
  refine .bind (Q := fun _ t => t = s) (.leaveIf (fun hc => absurd hc nofun) fun _ => rfl) fun _ t ht => ?_
  subst ht
  refine .bind (Q := fun _ u => u = t) (.leaveIf (fun hc => absurd hc nofun) fun _ => rfl) fun _ u hu => ?_
  subst hu
  refine (settleOutcomes_told hd h ha).bind fun _ v hv => ?_
  refine Proc.Meets.ends (I := TellsAll _ _) (J := TellsAll _ _) (L := TellsAll _ _) ?_ v hv
  refine .bind fetchManifest_keeps fun m => ?_
  refine .bind (applyRollout_keeps m) fun k => ?_
  refine .bind (.leaveIf fun _ h => h) fun _ => ?_
  refine .bind (stageArtifact_keeps k m) fun _ => ?_
  refine .bind (runUpdate_keeps k m) fun r => ?_
  refine .bind (.modify fun _ h => TellsAll.pledge h) fun _ => ?_
  exact .bind (.modify fun s h => h.mono (subset_flush s _ _)) fun _ => .pure fun _ h => h

theorem OnDisk.wake (h : OnDisk s) (saves appends : List SaveAnswer) : OnDisk (s.wake saves appends) :=
  ⟨h.disk,h.marked⟩

theorem OnDisk.runRollback (h : OnDisk s) (c : RollbackCommand) (saves : List SaveAnswer)
    (hq : (Event.rollback c saves).Quiet s) : OnDisk (s.runRollback c) := by
  unfold Pass.runRollback
  split
  · exact h
  have hsame := h.disk.same_loaded c.recovered c.clock
  have hidle : Idle s.outbox c.config.dryRun (s.loadFor c) := by
    refine ⟨⟨⟨h.disk,fun _ => h.disk.loaded _ _⟩,fun hd => ?_⟩,fun hd => ?_⟩
    · exact hsame.settled (hq hd).1
    · exact (congrArg Phase.interrupted (loaded_phase _ _ _)).trans (hq hd).2
  exact ⟨rollback_held c.request hidle,h.marked⟩

theorem OnDisk.after (h : OnDisk s) {e : Event} (hq : e.Quiet s) : OnDisk (s.after e) := by
  cases e with
  | tick d saves appends => exact tickBody_meets.outcome (h.wake saves appends)
  | rollback c saves => exact (h.wake saves []).runRollback c saves hq
  | restart => exact ⟨h.disk,h.marked⟩

theorem newDevice_onDisk : OnDisk newDevice where
  disk :=
    { pending := fun _ hr => absurd hr (Option.some_ne_none _).symm
      reported := fun hne => absurd rfl hne
      counted := fun _ => rfl
      covers := fun _ hx => absurd hx List.not_mem_nil
      above := fun _ hx => absurd hx List.not_mem_nil
      ordered := .nil }
  marked := fun _ ho => absurd ho List.not_mem_nil

structure Delivered (s : Pass) : Prop where
  /-- Every outcome that was saved is on the outbox, given up visibly, pending, or owed by the journal on disk. -/
  covered : ∀ x ∈ landed s.exec.calls, x.outcomeFingerprint ≠ "" → Covers s.outbox s.exec.saved x.outcomeFingerprint
  marked : MarksTold s
  /-- Two outcomes with other work between them are told apart. -/
  apart : ∀ x y z, [x, y, z].Sublist (landed s.exec.calls) → x.outcomeFingerprint ≠ "" → y.outcomeFingerprint = "" →
    z.outcomeFingerprint ≠ "" → x.outcomeFingerprint ≠ z.outcomeFingerprint
  /-- The next pass that evaluates tells all of them, if the outbox takes them. -/
  told : ∀ d saves, d.locked = true → d.readable = true → d.dry = false →
    AllTold (landed s.exec.calls) s.exec.saved (s.after (.tick d saves [])).outbox

theorem Accounted.apart {x y z : Journal} (h : Accounted outbox saved j) (hsub : [x, y, z].Sublist saved)
    (hx : x.outcomeFingerprint ≠ "") (hy : y.outcomeFingerprint = "") (hz : z.outcomeFingerprint ≠ "") :
    x.outcomeFingerprint ≠ z.outcomeFingerprint := by
  have hordered := h.ordered.sublist hsub
  simp only [List.pairwise_cons,List.mem_cons,List.not_mem_nil,or_false] at hordered
  have hxy := hordered.1 y (.inl rfl)
  have hyz := hordered.2.1 z rfl
  obtain ⟨a, ha⟩ := fingerprint_number hx
  obtain ⟨b, hb⟩ := fingerprint_number hz
  intro he
  have hnumber := Nat.repr_injective (append_sep_inj (by decide) (bar_not_mem_digits _) (bar_not_mem_digits _)
    (ha.symm.trans (he.trans hb)))
  have hlt := hyz.2 hy hz
  have hle := hxy.1
  omega

/-- On a device where every rollback begins with nothing to report and no attempt in the middle, no outcome is lost or
taken for another, whatever the disk and the outbox do. -/
theorem outcomes_delivered {events : List Event}
    (h : Run (fun s e t => e.Quiet s ∧ Happens s e t) newDevice events s) : Delivered s := by
  have hdisk : OnDisk s := by
    refine h.inv newDevice_onDisk fun s e t hs => ?_
    rintro ⟨hq, rfl⟩
    exact hs.after hq
  refine ⟨hdisk.disk.covers,hdisk.marked,fun x y z => hdisk.disk.apart,fun d saves hl hr hd => ?_⟩
  exact tick_told (hdisk.wake saves []) rfl hl hr hd

/-- A device that runs 1.0.0, and whose installer cannot be started. -/
def stuckPlatform : Platform :=
  { runningVersion := .ok "1.0.0"
    conditions := { localNow := 1900000000 * Time.second,minuteOfDay := 0 }
    captureRestoreMaterial := .ok ["agent-1.0.0.msi"]
    restoreMaterialFor := fun version => .ok version
    disarmBeforeUpdate := false
    disarm := none
    rearm := none
    execute := some "the installer could not be started" }

def allDay : Config := { window := { localStart := "00:00",localEnd := "00:00" } }

def stuckPass (now : Time) (fetch : Except FetchError Manifest) : TickDeps :=
  { running := .ok "1.0.0",fetch := fetch,stage := fun _ => .ok (),platform := stuckPlatform,config := allDay
    now := now,clock := now,digest := id }

/-- The update to 2.0.0 fails; that it did is the last save that lands, and the outbox takes nothing. -/
def failedUpdate : Event :=
  .tick (stuckPass (1800000000 * Time.second) (.ok { version := "2.0.0" }))
    [.saved, .saved, .saved, .saved, .lost, .lost, .lost] [.lost]

def failedRollback : Event :=
  .rollback
    { request := { toVersion := "0.9.0" },config := allDay,platform := stuckPlatform,now := 1800000060 * Time.second
      clock := 1800000060 * Time.second,recovered := fun version «at» => version ++ «at» }
    []

def idlePass : Event := .tick (stuckPass (1800000120 * Time.second) (.error .noManifest)) [] []

def Pass.afterAll (s : Pass) (events : List Event) : Pass := events.foldl Pass.after s

/-- The failed rollback is marked as reported when the report of the update goes out, and nothing is left that could tell
about it. -/
theorem failed_rollback_not_reported :
    let s := newDevice.afterAll [failedUpdate, failedRollback, idlePass]
    Run Happens newDevice [failedUpdate, failedRollback, idlePass] s ∧ ¬ MarksTold s ∧
      (∃ x ∈ landed s.exec.calls, x.outcomeFingerprint ≠ "" ∧ ¬ Covers s.outbox s.exec.saved x.outcomeFingerprint) ∧
      s.exec.saved.droppedOwedOutcomes = 0 := by
  refine ⟨?_,?_,?_⟩
  · exact ((Run.nil newDevice).snoc rfl).snoc rfl |>.snoc rfl
  · decide +kernel
  · decide +kernel

/-- With a pass in between, both are told. -/
theorem outcomes_delivered_in_turn :
    Delivered (newDevice.afterAll [failedUpdate, idlePass, failedRollback, idlePass]) := by
  have hquiet : failedRollback.Quiet ((newDevice.after failedUpdate).after idlePass) := fun _ => by decide +kernel
  refine @outcomes_delivered _ ([] ++ [failedUpdate] ++ [idlePass] ++ [failedRollback] ++ [idlePass]) ?_
  exact .snoc (.snoc (.snoc (.snoc (.nil _) ⟨trivial,rfl⟩) ⟨trivial,rfl⟩) ⟨hquiet,rfl⟩) ⟨trivial,rfl⟩

end DsseCore.AgentUpdate

import DsseCore.AgentUpdate.Tick
import DsseCore.Lib.Run

/-!
# Terminal outcomes reach the fleet

Every outcome of the journal is told to the fleet, waits in the journal, or is owed by it, and an outcome is marked as
reported only once its report is on the outbox.  This holds as long as a rollback starts from a journal that owes
nothing: a rollback that fails after it took over an earlier outcome has its own outcome marked by the earlier report.
-/

namespace DsseCore.AgentUpdate

open Go Lib Journal List

theorem reported_of_fingerprint {j : Journal} : j.outcomeFingerprint ≠ "" ↔ j.phase.reported = true := by
  have hbar : ∀ a b : String, a ++ "|" ++ b ≠ "" := by
    intro a b h
    have := congrArg String.length h
    simp at this
  cases hp : j.phase with
  | completed | rolledBack | failed => exact ⟨fun _ => rfl,fun _ => by rw [outcomeFingerprint,hp]; exact hbar _ _⟩
  | _ => simp [outcomeFingerprint,hp,Phase.reported]

theorem fingerprint_number {j : Journal} (h : j.outcomeFingerprint ≠ "") :
    ∃ before, j.outcomeFingerprint = before ++ "|" ++ toString j.terminalSeq := by
  cases hp : j.phase with
  | completed | rolledBack | failed => exact ⟨_,by rw [outcomeFingerprint,hp]⟩
  | _ => exact absurd (by simp [outcomeFingerprint,hp]) h

theorem bar_not_mem_digits (n : ℕ) : '|' ∉ (toString n).toList := by
  intro h
  rw [show toString n = n.repr from rfl,Nat.repr_eq_ofList_toDigits,String.toList_ofList] at h
  have hdigit := Nat.isDigit_of_mem_toDigits (b := 10) (by omega) (by omega) h
  exact absurd hdigit (by decide)

/-- The outcome is on the outbox, or was given up visibly. -/
def Told (outbox : List Report) (j : Journal) (outcome : String) : Prop :=
  (∃ r ∈ outbox, r.outcome = outcome) ∨ ∃ q ∈ j.quarantined, q.outcome = outcome

/-- The outcome is told, waits as the pending report, or is owed by the journal. -/
def Covers (outbox : List Report) (j : Journal) (outcome : String) : Prop :=
  Told outbox j outcome ∨ (∃ r, j.pendingReport = some r ∧ r.outcome = outcome) ∨
    (j.outcomeFingerprint = outcome ∧ j.owesOutcomeReport = true)

def Settled (j : Journal) : Prop := j.pendingReport = none ∧ j.owesOutcomeReport = false

instance (outbox : List Report) (j : Journal) (outcome : String) : Decidable (Told outbox j outcome) :=
  inferInstanceAs (Decidable (_ ∨ _))

instance (outbox : List Report) (j : Journal) (outcome : String) : Decidable (Covers outbox j outcome) :=
  decidable_of_iff (Told outbox j outcome ∨ j.pendingReport.map Report.outcome = some outcome ∨
      (j.outcomeFingerprint = outcome ∧ j.owesOutcomeReport = true)) (by rw [Option.map_eq_some_iff]; rfl)

instance : DecidablePred Settled := fun _ => inferInstanceAs (Decidable (_ ∧ _))

/-- A later journal has counted every outcome since the earlier one. -/
def Precedes (x y : Journal) : Prop :=
  x.terminalSeq ≤ y.terminalSeq ∧ (x.outcomeFingerprint = "" → y.outcomeFingerprint ≠ "" → x.terminalSeq < y.terminalSeq)

/-- What is true of a journal, after the journals `saved` have been on disk. -/
structure Accounted (outbox : List Report) (saved : List Journal) (j : Journal) : Prop where
  /-- The pending report is about the present outcome. -/
  pending : ∀ r, j.pendingReport = some r → r.outcome = j.outcomeFingerprint ∧ j.outcomeFingerprint ≠ ""
  reported : j.reportedOutcome ≠ "" → Told outbox j j.reportedOutcome
  counted : j.terminalSeq = 0 → j.outcomeFingerprint = ""
  covers : ∀ x ∈ saved, x.outcomeFingerprint ≠ "" → Covers outbox j x.outcomeFingerprint
  above : ∀ x ∈ saved, Precedes x j
  ordered : saved.Pairwise Precedes

variable {outbox outbox' : List Report} {r : Report} {saved : List Journal} {j j' : Journal} {outcome : String}

theorem Told.mono (h : Told outbox j outcome) (ho : outbox ⊆ outbox') (hq : j.quarantined ⊆ j'.quarantined) :
    Told outbox' j' outcome := by
  rcases h with ⟨r, hr, he⟩ | ⟨q, hmem, he⟩
  · exact .inl ⟨r,ho hr,he⟩
  · exact .inr ⟨q,hq hmem,he⟩

theorem Told.of_eq (h : Told outbox j outcome) (hq : j'.quarantined = j.quarantined) : Told outbox j' outcome := by
  rw [Told,hq]
  exact h

theorem owes_iff : j.owesOutcomeReport = true ↔ j.outcomeFingerprint ≠ "" ∧ j.outcomeFingerprint ≠ j.reportedOutcome := by
  simp [owesOutcomeReport]

theorem Settled.told (hs : Settled j) (h : Covers outbox j outcome) : Told outbox j outcome := by
  rcases h with h | ⟨r, hr, -⟩ | ⟨-, ho⟩
  · exact h
  · rw [hs.1] at hr
    cases hr
  · rw [hs.2] at ho
    cases ho

namespace Accounted

theorem covers_self (h : Accounted outbox saved j) (hne : j.outcomeFingerprint ≠ "") :
    Covers outbox j j.outcomeFingerprint := by
  by_cases he : j.outcomeFingerprint = j.reportedOutcome
  · exact .inl (he ▸ h.reported (he ▸ hne))
  · exact .inr (.inr ⟨rfl,owes_iff.mpr ⟨hne,he⟩⟩)

theorem land (h : Accounted outbox saved j) : Accounted outbox (saved ++ [j]) j where
  pending := h.pending
  reported := h.reported
  counted := h.counted
  covers x hx hne := by
    rcases mem_append.mp hx with hx | hx
    · exact h.covers x hx hne
    · rw [mem_singleton.mp hx] at hne ⊢
      exact h.covers_self hne
  above x hx := by
    rcases mem_append.mp hx with hx | hx
    · exact h.above x hx
    · rw [mem_singleton.mp hx]
      exact ⟨le_rfl,fun he hne => absurd he hne⟩
  ordered := by
    rw [pairwise_append]
    refine ⟨h.ordered,pairwise_singleton _ _,fun x hx y hy => ?_⟩
    rw [mem_singleton.mp hy]
    exact h.above x hx

theorem mono (h : Accounted outbox saved j) (ho : outbox ⊆ outbox') : Accounted outbox' saved j where
  pending := h.pending
  reported hne := (h.reported hne).mono ho fun _ hq => hq
  counted := h.counted
  covers x hx hne := (h.covers x hx hne).imp (fun ht => ht.mono ho fun _ hq => hq) id
  above := h.above
  ordered := h.ordered

end Accounted

/-- A change that leaves alone what is reported, and counts a new outcome. -/
structure Move (j j' : Journal) : Prop where
  pending : j'.pendingReport = j.pendingReport
  reported : j'.reportedOutcome = j.reportedOutcome
  quarantined : j'.quarantined = j.quarantined
  seq : j.terminalSeq ≤ j'.terminalSeq
  fresh : j'.phase.reported = true → j.phase.reported = true ∨ j.terminalSeq < j'.terminalSeq

structure Same (j j' : Journal) : Prop where
  pending : j'.pendingReport.map Report.outcome = j.pendingReport.map Report.outcome
  reported : j'.reportedOutcome = j.reportedOutcome
  quarantined : j'.quarantined = j.quarantined
  seq : j'.terminalSeq = j.terminalSeq
  outcome : j'.outcomeFingerprint = j.outcomeFingerprint

theorem Move.trans {j'' : Journal} (h : Move j j') (h' : Move j' j'') : Move j j'' where
  pending := h'.pending.trans h.pending
  reported := h'.reported.trans h.reported
  quarantined := h'.quarantined.trans h.quarantined
  seq := h.seq.trans h'.seq
  fresh hr := by
    rcases h'.fresh hr with hr' | hlt
    · rcases h.fresh hr' with hr | hlt
      · exact .inl hr
      · exact .inr (hlt.trans_le h'.seq)
    · exact .inr (h.seq.trans_lt hlt)

theorem Accounted.move (h : Accounted outbox saved j) (hs : Settled j) (hm : Move j j') : Accounted outbox saved j' where
  pending r hr := by
    rw [hm.pending,hs.1] at hr
    cases hr
  reported hne := by
    rw [hm.reported] at hne ⊢
    exact (h.reported hne).of_eq hm.quarantined
  counted hseq := by
    by_contra hne
    rcases hm.fresh (reported_of_fingerprint.mp hne) with hr | hlt
    · have := h.counted (Nat.le_zero.mp (hseq ▸ hm.seq))
      exact reported_of_fingerprint.mpr hr this
    · omega
  covers x hx hne := .inl ((hs.told (h.covers x hx hne)).of_eq hm.quarantined)
  above x hx := by
    obtain ⟨hle, hlt⟩ := h.above x hx
    refine ⟨hle.trans hm.seq,fun he hne => ?_⟩
    rcases hm.fresh (reported_of_fingerprint.mp hne) with hr | hseq
    · exact (hlt he (reported_of_fingerprint.mpr hr)).trans_le hm.seq
    · exact hle.trans_lt hseq
  ordered := h.ordered

theorem Same.owes (h : Same j j') : j'.owesOutcomeReport = j.owesOutcomeReport := by
  rw [owesOutcomeReport,owesOutcomeReport,h.outcome,h.reported]

theorem Same.pending_some (h : Same j j') (hr : j.pendingReport = some r) :
    ∃ r', j'.pendingReport = some r' ∧ r'.outcome = r.outcome := by
  have hp := h.pending
  rw [hr] at hp
  exact Option.map_eq_some_iff.mp hp

theorem Same.symm (h : Same j j') : Same j' j :=
  ⟨h.pending.symm,h.reported.symm,h.quarantined.symm,h.seq.symm,h.outcome.symm⟩

theorem Same.settled (h : Same j j') (hs : Settled j) : Settled j' := by
  refine ⟨?_,h.owes.trans hs.2⟩
  have hp := h.pending
  rw [hs.1] at hp
  exact Option.map_eq_none_iff.mp hp

theorem Accounted.same (h : Accounted outbox saved j) (hm : Same j j') : Accounted outbox saved j' where
  pending r hr := by
    obtain ⟨r', hr', he⟩ := hm.symm.pending_some hr
    rw [hm.outcome,← he]
    exact h.pending r' hr'
  reported hne := by
    rw [hm.reported] at hne ⊢
    exact (h.reported hne).of_eq hm.quarantined
  counted hseq := by
    rw [hm.outcome]
    exact h.counted (hm.seq ▸ hseq)
  covers x hx hne := by
    rcases h.covers x hx hne with ht | ⟨r, hr, he⟩ | ⟨he, ho⟩
    · exact .inl (ht.of_eq hm.quarantined)
    · obtain ⟨r', hr', he'⟩ := hm.pending_some hr
      exact .inr (.inl ⟨r',hr',he'.trans he⟩)
    · exact .inr (.inr ⟨hm.outcome.trans he,hm.owes.trans ho⟩)
  above x hx := by
    rw [Precedes,hm.seq,hm.outcome]
    exact h.above x hx
  ordered := h.ordered

section Moves

variable (j)

theorem move_enter (p : Phase) (now : Time) : Move j (j.enter p now) := by
  refine ⟨rfl,rfl,rfl,?_,fun hr => ?_⟩
  · change _ ≤ if j.phase ≠ p ∧ p.reported then j.terminalSeq + 1 else j.terminalSeq
    split
    · exact Nat.le_succ _
    · exact le_rfl
  · by_cases hp : j.phase = p
    · exact .inl (hp ▸ hr)
    refine .inr ?_
    change _ < if j.phase ≠ p ∧ p.reported then j.terminalSeq + 1 else j.terminalSeq
    rw [if_pos ⟨hp,hr⟩]
    exact Nat.lt_succ_self _

theorem move_of_phase {j' : Journal} (hp : j'.pendingReport = j.pendingReport)
    (hr : j'.reportedOutcome = j.reportedOutcome) (hq : j'.quarantined = j.quarantined)
    (hs : j'.terminalSeq = j.terminalSeq) (hph : j'.phase = j.phase) : Move j j' :=
  ⟨hp,hr,hq,hs.ge,fun h => .inl (hph ▸ h)⟩

theorem move_capture (material : List String) (now : Time) : Move j ((j.setMaterial material).enter .snapshotted now) := by
  have hset : Move j (j.setMaterial material) := move_of_phase j rfl rfl rfl rfl rfl
  exact hset.trans (move_enter _ .snapshotted now)

theorem move_failed (reason : String) (now : Time) : Move j ((j.setFailureReason reason).enter .failed now) := by
  have hset : Move j (j.setFailureReason reason) := move_of_phase j rfl rfl rfl rfl rfl
  exact hset.trans (move_enter _ .failed now)

theorem move_recordFailure (reason : String) (n : Int) (now : Time) : Move j (j.recordFailure reason n now) := by
  have hfailed := move_failed j reason now
  unfold recordFailure
  dsimp only
  split
  · exact hfailed
  · exact hfailed.trans (move_of_phase _ rfl rfl rfl rfl rfl)

theorem move_recordSuccess (now : Time) : Move j (j.recordSuccess now) := by
  have hcleared : Move j (if trimSpace j.targetVersion = "" then j else j.clearFailures (trimSpace j.targetVersion)) := by
    split
    · exact move_of_phase j rfl rfl rfl rfl rfl
    · exact move_of_phase j rfl rfl rfl rfl rfl
  unfold recordSuccess
  split
  · exact hcleared.trans (move_enter _ _ _)
  · exact hcleared.trans (move_enter _ _ _)

theorem move_refuse (version reason : String) : Move j (j.refuse version reason) := by
  unfold refuse
  split
  · exact move_of_phase j rfl rfl rfl rfl rfl
  · exact move_of_phase j rfl rfl rfl rfl rfl

theorem move_startRollback (now : Time) (target leaving : String) : Move j (j.startRollback now target leaving) := by
  have hbegin : Move j (j.beginRollback target leaving now) := ⟨rfl,rfl,rfl,le_rfl,nofun⟩
  unfold startRollback
  split
  · exact hbegin
  split
  · exact hbegin.trans (move_of_phase _ rfl rfl rfl rfl rfl)
  · exact hbegin.trans (move_refuse _ _ _)

theorem startRollback_not_reported (now : Time) (target leaving : String) :
    (j.startRollback now target leaving).phase.reported = false := by
  unfold startRollback
  split
  · rfl
  split
  · rfl
  unfold refuse
  split
  · rfl
  · rfl

theorem fingerprint_congr {j j' : Journal} (hp : j'.phase = j.phase) (ht : j'.targetVersion = j.targetVersion)
    (hf : j'.failures = j.failures) (hs : j'.terminalSeq = j.terminalSeq) :
    j'.outcomeFingerprint = j.outcomeFingerprint := by
  rw [outcomeFingerprint,outcomeFingerprint,failuresOf,failuresOf,hp,ht,hf,hs]

theorem same_acceptPlanFloor (t : Time) : Same j (j.acceptPlanFloor t).1 := by
  unfold acceptPlanFloor
  split
  · exact ⟨rfl,rfl,rfl,rfl,rfl⟩
  · exact ⟨rfl,rfl,rfl,rfl,by apply fingerprint_congr <;> rfl⟩

variable {j}

theorem Settled.move (hs : Settled j) (hm : Move j j') (hp : j'.phase.reported = false) : Settled j' := by
  refine ⟨hm.pending.trans hs.1,?_⟩
  rw [owesOutcomeReport]
  have : j'.outcomeFingerprint = "" := by
    by_contra hne
    rw [reported_of_fingerprint.mp hne] at hp
    cases hp
  simp [this]

end Moves

def landed (calls : List Call) : List Journal :=
  calls.filterMap fun c => match c with
    | .save j a => if a.lands then some j else none
    | .material _ _ | .disarm _ | .rearm _ | .execute _ _ => none

/-- What holds during an execution: the journal on disk is accounted for and, unless the run is dry, so is the one in
memory. -/
structure Held (outbox : List Report) (dry : Bool) (e : Exec) : Prop where
  disk : Accounted outbox (landed e.calls) e.saved
  memory : dry = false → Accounted outbox (landed e.calls) e.journal

structure Going (outbox : List Report) (dry : Bool) (e : Exec) : Prop extends Held outbox dry e where
  settled : dry = false → Settled e.journal

variable {dry : Bool} {e : Exec}

theorem landed_snoc_save (calls : List Call) (j : Journal) (a : SaveAnswer) :
    landed (calls ++ [.save j a]) = landed calls ++ if a.lands then [j] else [] := by
  cases a <;> simp [landed,SaveAnswer.lands]

theorem Held.ask {c : Call} (h : Held outbox dry e) (hc : landed [c] = []) : Held outbox dry (e.ask c) := by
  have hsame : landed (e.ask c).calls = landed e.calls := by
    unfold Exec.ask landed at *
    rw [filterMap_append,hc,append_nil]
  exact ⟨by rw [hsame]; exact h.disk,fun hd => by rw [hsame]; exact h.memory hd⟩

theorem Going.ask {c : Call} (h : Going outbox dry e) (hc : landed [c] = []) : Going outbox dry (e.ask c) :=
  ⟨h.toHeld.ask hc,h.settled⟩

theorem Held.written (h : Held outbox false e) (a : SaveAnswer) (rest : List SaveAnswer) :
    Held outbox false (e.written a rest) := by
  have hmemory := h.memory rfl
  cases ha : a.lands with
  | true =>
    have hland : landed (e.written a rest).calls = landed e.calls ++ [e.journal] := by
      rw [Exec.written,landed_snoc_save,ha,if_pos rfl]
    have hsaved : (e.written a rest).saved = e.journal := by rw [Exec.written,ha,if_pos rfl]
    exact ⟨by rw [hland,hsaved]; exact hmemory.land,fun _ => by rw [hland]; exact hmemory.land⟩
  | false =>
    have hland : landed (e.written a rest).calls = landed e.calls := by
      rw [Exec.written,landed_snoc_save,ha,if_neg Bool.false_ne_true,append_nil]
    have hsaved : (e.written a rest).saved = e.saved := by rw [Exec.written,ha,if_neg Bool.false_ne_true]
    exact ⟨by rw [hland,hsaved]; exact h.disk,fun _ => by rw [hland]; exact hmemory⟩

theorem Going.written (h : Going outbox false e) (a : SaveAnswer) (rest : List SaveAnswer) :
    Going outbox false (e.written a rest) :=
  ⟨h.toHeld.written a rest,h.settled⟩

theorem Going.change {f : Journal → Journal} (h : Going outbox dry e) (hm : Move e.journal (f e.journal)) :
    Held outbox dry (e.change f) :=
  ⟨h.disk,fun hd => (h.memory hd).move (h.settled hd) hm⟩

theorem Going.move {f : Journal → Journal} (h : Going outbox dry e) (hm : Move e.journal (f e.journal))
    (hp : (f e.journal).phase.reported = false) : Going outbox dry (e.change f) :=
  ⟨h.change hm,fun hd => (h.settled hd).move hm hp⟩

theorem Held.same {f : Journal → Journal} (h : Held outbox dry e) (hm : Same e.journal (f e.journal)) :
    Held outbox dry (e.change f) :=
  ⟨h.disk,fun hd => (h.memory hd).same hm⟩

theorem Going.same {f : Journal → Journal} (h : Going outbox dry e) (hm : Same e.journal (f e.journal)) :
    Going outbox dry (e.change f) :=
  ⟨h.toHeld.same hm,fun hd => hm.settled (h.settled hd)⟩

theorem Going.captured (h : Going outbox dry e) (material : List String) (now : Time) :
    Going outbox dry ((e.ask (.material .update true)).change fun j => (j.setMaterial material).enter .snapshotted now) := by
  have hasked := h.ask (c := .material .update true) rfl
  exact hasked.move (move_capture _ material now) rfl

theorem held_kept : Kept (Held outbox false) where
  written _ a rest h := h.written a rest
  material _ _ _ h := h.ask rfl
  disarm _ _ h := h.ask rfl
  rearm _ _ h := h.ask rfl
  execute _ _ _ h := h.ask rfl
  setDisarmed _ _ h := ⟨h.disk,h.memory⟩
  setLaunched _ _ h := ⟨h.disk,h.memory⟩

theorem going_kept : Kept (Going outbox false) where
  written _ a rest h := h.written a rest
  material _ _ _ h := h.ask rfl
  disarm _ _ h := h.ask rfl
  rearm _ _ h := h.ask rfl
  execute _ _ _ h := h.ask rfl
  setDisarmed _ _ h := ⟨⟨h.disk,h.memory⟩,h.settled⟩
  setLaunched _ _ h := ⟨⟨h.disk,h.memory⟩,h.settled⟩

theorem fits_of_moves {h : Handover} {now : Time} (hd : ∀ derr j, Move j (h.disarmFailed derr j))
    (hl : ∀ reason j, Move j (h.launchFailed reason j)) : h.Fits now (Going outbox false) (Held outbox false) where
  going := going_kept
  done := held_kept
  ended _ h := h.toHeld
  disarmed _ h := h.move (move_enter _ _ _) rfl
  disarmFailed _ derr h := h.change (hd derr _)
  launching _ hg := hg.move (move_enter _ _ _) (by cases h.kind <;> rfl)
  launchFailed _ reason h := h.change (hl reason _)
  steering _ _ h := h.same ⟨rfl,rfl,rfl,rfl,by apply fingerprint_congr <;> rfl⟩

variable {k : Config} {p : Platform} {now : Time}

theorem runBody_held (p : Platform) (now : Time) (m : Manifest) :
    Proc.Meets (Going outbox k.dryRun) (Held outbox k.dryRun) (Held outbox k.dryRun) (runBody k p m now) := by
  have hp : Prepares k m now (Going outbox k.dryRun) (Going outbox k.dryRun) (Held outbox k.dryRun) :=
    { going := fun hd => by rw [hd]; exact going_kept.written
      ready := fun hd => by rw [hd]; exact going_kept.written
      done := fun hd => by rw [hd]; exact held_kept.written
      goingDone := fun _ h => h.toHeld
      readyDone := fun _ h => h.toHeld
      failed := fun _ h => h.change (move_enter _ _ _)
      begin := fun _ running h => h.move ⟨rfl,rfl,rfl,le_rfl,nofun⟩ rfl
      setFrom := fun _ running h => h.same ⟨rfl,rfl,rfl,rfl,by apply fingerprint_congr <;> rfl⟩
      wait := fun _ reason h => h.same ⟨rfl,rfl,rfl,rfl,by apply fingerprint_congr <;> rfl⟩
      notCaptured := fun _ h => (h.ask rfl).toHeld
      captured := fun e material h => (h.captured material now) }
  refine runBody_meets hp fun hd => ?_
  rw [hd]
  refine handOver_meets (fits_of_moves (fun derr j => ?_) fun reason j => ?_)
  all_goals
    dsimp only [updateHandover]
    exact move_recordFailure _ _ _ _

theorem run_held (p : Platform) (now : Time) (m : Manifest) (h : Going outbox k.dryRun e) : Held outbox k.dryRun (run k p m now e).2 := by
  have hbody := (runBody_held p now m).outcome h
  unfold run keepJournal
  split
  · rename_i hd
    exact ⟨hbody.disk,fun hf => absurd (hd.symm.trans hf) (by decide)⟩
  · exact hbody

structure Idle (outbox : List Report) (dry : Bool) (e : Exec) : Prop extends Going outbox dry e where
  idle : dry = false → e.journal.phase.interrupted = false

theorem Idle.keepEarlier (h : Idle outbox dry e) : Idle outbox dry (e.keepEarlier now) := by
  unfold Exec.keepEarlier
  split
  · rename_i hkeep
    have hd : dry = true := by
      cases dry with
      | true => rfl
      | false =>
        rw [(h.settled rfl).2,h.idle rfl] at hkeep
        simp at hkeep
    subst hd
    exact ⟨⟨⟨h.disk,nofun⟩,nofun⟩,nofun⟩
  · exact h

theorem rollbackBody_held (p : Platform) (now : Time) (req : RollbackRequest) :
    Proc.Meets (Idle outbox k.dryRun) (Held outbox k.dryRun) (Held outbox k.dryRun) (rollbackBody k p req now) := by
  have hask : ∀ e ok, Idle outbox k.dryRun e → Going outbox k.dryRun (e.ask (.material .rollback ok)) :=
    fun _ _ h => h.toGoing.ask rfl
  cases hd : k.dryRun with
  | true =>
    rw [hd] at hask
    refine .bind (Step.meets_journal fun _ h => h) fun j => ?_
    refine .bind (.leaveIf fun _ h => h.toHeld) fun _ => ?_
    refine .bind (.modify fun _ h => h.keepEarlier) fun _ => ?_
    refine .bind (Step.meets_journal fun _ h => h) fun j => ?_
    refine .bind (.leaveIf fun _ h => h.toHeld) fun _ => ?_
    refine .bind (.leaveIf fun _ h => h.toHeld) fun _ => ?_
    refine .bind (.leaveIf fun _ h => h.toHeld) fun _ => ?_
    refine .bind (J := Held outbox true) (findMaterial_meets (fun e h => (hask e _ h).toHeld) fun e h => (hask e _ h).toHeld)
      fun _ => ?_
    rw [hd]
    exact ⟨fun _ h => h⟩
  | false =>
    rw [hd] at hask
    have hr : RollsBack req now (leavingVersion p req) (fun _ => True) (Idle outbox false) (Going outbox false)
        (Going outbox false) (Held outbox false) :=
      { written := going_kept.written
        goingDone := fun _ h => h.toHeld
        readyDone := fun _ h => h.toHeld
        begunDone := fun _ h => h.toHeld
        keep := fun _ h => h.keepEarlier
        target := fun _ _ => trivial
        notFound := fun e h => (hask e _ h).toHeld
        found := fun e h => hask e _ h
        start := fun _ target _ h => h.move (move_startRollback _ now target _) (startRollback_not_reported _ _ _ _) }
    exact rollbackBody_meets hr fun target _ _ => handOver_meets (h := rollbackHandover now target _)
      (fits_of_moves (fun _ _ => move_enter _ _ _) fun _ _ => move_failed _ _ _)

theorem rollback_held (req : RollbackRequest) (h : Idle outbox k.dryRun e) :
    Accounted outbox (landed (rollback k p req now e).2.calls) (rollback k p req now e).2.saved := by
  have hbody := (rollbackBody_held p now req).outcome h
  unfold rollback keepJournal
  split
  · exact hbody.disk
  · exact hbody.disk

theorem notQueued_eq (hr : j.pendingReport = some r) (clock : Time) :
    j.notQueued clock = if j.pendingReportAttempts + 1 < DefaultReportMaxAttempts then
      j.setAttempts (j.pendingReportAttempts + 1)
    else j.quarantine r "the outbox refused the report" (j.pendingReportAttempts + 1) clock := by
  unfold notQueued recordReportQueueFailure
  rw [hr]
  dsimp only
  rw [if_neg (show ¬ DefaultReportMaxAttempts = 0 by decide)]
  split
  · rfl
  · rfl

section

variable (h : Accounted outbox saved j)
include h

theorem Accounted.markReportPending (hfree : j.pendingReport = none) (hr : r.outcome = j.outcomeFingerprint)
    (hne : j.outcomeFingerprint ≠ "") : Accounted outbox saved (j.markReportPending r) where
  pending r' hr' := by
    cases hr'
    exact ⟨hr,hne⟩
  reported := h.reported
  counted := h.counted
  covers x hx hx' := by
    rcases h.covers x hx hx' with ht | ⟨r', hr', -⟩ | ho
    · exact .inl ht
    · rw [hfree] at hr'
      cases hr'
    · exact .inr (.inr ho)
  above := h.above
  ordered := h.ordered

theorem Accounted.reportOwed (id running : String) (now : Time) :
    Accounted outbox saved (j.reportOwed id running now) ∧
      ((j.reportOwed id running now).owesOutcomeReport = true → (j.reportOwed id running now).pendingReport.isSome) := by
  unfold Journal.reportOwed
  split
  · rename_i howes
    unfold markReportPendingIfFree
    split
    · rename_i r hr
      exact ⟨h.same ⟨rfl,rfl,rfl,rfl,by apply fingerprint_congr <;> rfl⟩,fun _ => by simp [hr]⟩
    · rename_i hfree
      exact ⟨h.markReportPending hfree rfl (owes_iff.mp howes).1,fun _ => rfl⟩
  · rename_i howes
    exact ⟨h,fun ho => absurd ho howes⟩

section

variable (hr : j.pendingReport = some r)
include hr

/-- The pending report is told, and the journal marks the outcome. -/
theorem Accounted.settle (ho : outbox ⊆ outbox') (hq : j.quarantined ⊆ j'.quarantined)
    (hpending : j'.pendingReport = none) (hreported : j'.reportedOutcome = j.outcomeFingerprint)
    (hseq : j'.terminalSeq = j.terminalSeq) (hsame : j'.outcomeFingerprint = j.outcomeFingerprint)
    (htold : Told outbox' j' r.outcome) : Accounted outbox' saved j' ∧ Settled j' := by
  rw [(h.pending r hr).1] at htold
  refine ⟨⟨fun r' hr' => ?_,fun _ => ?_,fun hs => ?_,fun x hx hx' => .inl ?_,fun x hx => ?_,h.ordered⟩,hpending,?_⟩
  · rw [hpending] at hr'
    cases hr'
  · rw [hreported]
    exact htold
  · rw [hsame]
    exact h.counted (hseq ▸ hs)
  · rcases h.covers x hx hx' with ht | ⟨r', hr', he'⟩ | ⟨he', -⟩
    · exact ht.mono ho hq
    · cases hr.symm.trans hr'
      rw [← he',(h.pending r hr).1]
      exact htold
    · exact he' ▸ htold
  · rw [Precedes,hsame,hseq]
    exact h.above x hx
  · rw [owesOutcomeReport,hreported,hsame]
    simp

theorem Accounted.flushed : Accounted (outbox ++ [r]) saved j.flushed ∧ Settled j.flushed :=
  h.settle hr (subset_append_left _ _) (fun _ hq => hq) rfl (fingerprint_congr rfl rfl rfl rfl) rfl
    (fingerprint_congr rfl rfl rfl rfl) (.inl ⟨r,by simp,rfl⟩)

theorem Accounted.quarantine (reason : String) (attempts : ℕ) (now : Time) :
    Accounted outbox saved (j.quarantine r reason attempts now) ∧ Settled (j.quarantine r reason attempts now) :=
  h.settle hr (fun _ hr => hr) (subset_append_left _ _) rfl rfl rfl (fingerprint_congr rfl rfl rfl rfl)
    (.inr ⟨_,mem_append_right _ (mem_singleton.mpr rfl),rfl⟩)

theorem Accounted.notQueued (clock : Time) : Accounted outbox saved (j.notQueued clock) ∧
      ((j.notQueued clock).pendingReport = some r ∨ Settled (j.notQueued clock)) := by
  rw [notQueued_eq hr]
  split
  · exact ⟨h.same ⟨rfl,rfl,rfl,rfl,by apply fingerprint_congr <;> rfl⟩,.inl hr⟩
  · obtain ⟨ha, hs⟩ := h.quarantine hr "the outbox refused the report" (j.pendingReportAttempts + 1) clock
    exact ⟨ha,.inr hs⟩

end

end

theorem same_completeLegacy (j : Journal) (recovered : String → String → String) (clock : Time) :
    Same j (j.completeLegacyPendingReport recovered clock) := by
  unfold completeLegacyPendingReport
  split
  · exact ⟨rfl,rfl,rfl,rfl,rfl⟩
  rename_i r hr
  refine ⟨?_,rfl,rfl,rfl,by apply fingerprint_congr <;> rfl⟩
  rw [hr]
  rfl

theorem same_flagLegacy (j : Journal) : Same j j.flagLegacyReportedOutcomeAsAssumed := by
  unfold flagLegacyReportedOutcomeAsAssumed
  split
  · exact ⟨rfl,rfl,rfl,rfl,rfl⟩
  · exact ⟨rfl,rfl,rfl,rfl,by apply fingerprint_congr <;> rfl⟩

theorem adoptLegacy_eq (h : j.terminalSeq = 0 → j.outcomeFingerprint = "") : j.adoptLegacyReportedOutcome = j := by
  unfold adoptLegacyReportedOutcome
  split
  · rfl
  rename_i hlegacy
  push Not at hlegacy
  rw [if_pos (h hlegacy.2.2.1)]

theorem Same.trans {j' j'' : Journal} (h : Same j j') (h' : Same j' j'') : Same j j'' :=
  ⟨h'.pending.trans h.pending,h'.reported.trans h.reported,h'.quarantined.trans h.quarantined,h'.seq.trans h.seq,
    h'.outcome.trans h.outcome⟩

section

variable (h : Accounted outbox saved j) (recovered : String → String → String) (clock : Time)
include h recovered clock

theorem Accounted.loaded_eq :
    j.loaded recovered clock = (j.completeLegacyPendingReport recovered clock).flagLegacyReportedOutcomeAsAssumed := by
  have hsame := (same_completeLegacy j recovered clock).trans (same_flagLegacy _)
  exact adoptLegacy_eq (h.same hsame).counted

theorem Accounted.same_loaded : Same j (j.loaded recovered clock) := by
  rw [h.loaded_eq]
  exact (same_completeLegacy j recovered clock).trans (same_flagLegacy _)

theorem Accounted.loaded : Accounted outbox saved (j.loaded recovered clock) :=
  h.same (h.same_loaded recovered clock)

end

theorem loaded_phase (j : Journal) (recovered : String → String → String) (clock : Time) :
    (j.loaded recovered clock).phase = j.phase := by
  obtain ⟨_, _, _, hloaded⟩ := j.loaded_fields recovered clock
  rw [hloaded]

/-- An outcome is marked only when its report is on the outbox. -/
def MarksTold (s : Pass) : Prop := ∀ o ∈ s.marked, ∃ r ∈ s.outbox, r.outcome = o

instance : DecidablePred MarksTold := fun s => inferInstanceAs (Decidable (∀ o ∈ s.marked, _))

structure OnDisk (s : Pass) : Prop where
  disk : Accounted s.outbox (landed s.exec.calls) s.exec.saved
  marked : MarksTold s

structure Sane (dry : Bool) (s : Pass) : Prop where
  held : Held s.outbox dry s.exec
  marked : MarksTold s

/-- What holds once the outcomes of the journal are dealt with. -/
structure Cleared (dry : Bool) (s : Pass) : Prop extends Sane dry s where
  settled : dry = false → Settled s.exec.journal

def Pledged (dry : Bool) (s : Pass) : Prop :=
  dry = false → s.exec.journal.owesOutcomeReport = true → s.exec.journal.pendingReport.isSome = true

variable {s : Pass}

theorem Sane.onDisk (h : Sane dry s) : OnDisk s := ⟨h.held.disk,h.marked⟩

theorem Held.mono (h : Held outbox dry e) (ho : outbox ⊆ outbox') : Held outbox' dry e :=
  ⟨h.disk.mono ho,fun hd => (h.memory hd).mono ho⟩

theorem Sane.nameReport (h : Sane dry s) : Sane dry (s.onExec (·.nameReport)) := ⟨⟨h.held.disk,h.held.memory⟩,h.marked⟩

theorem save_journal (s : Pass) (dry : Bool) : (s.save dry).exec.journal = s.exec.journal := by
  unfold Pass.save
  split
  · rfl
  obtain ⟨a, rest, hw⟩ := s.exec.write_eq
  rw [Pass.onExec,hw]
  rfl

theorem Sane.save (h : Sane dry s) : Sane dry (s.save dry) := by
  unfold Pass.save
  cases dry with
  | true => exact h
  | false =>
    obtain ⟨a, rest, hw⟩ := s.exec.write_eq
    rw [Pass.onExec,hw]
    exact ⟨h.held.written a rest,h.marked⟩

theorem subset_appended (s : Pass) (r : Report) (a : SaveAnswer) (rest : List SaveAnswer) :
    s.outbox ⊆ (s.appended r a rest).outbox := by
  unfold Pass.appended
  split
  · exact subset_append_left _ _
  · exact fun _ h => h

theorem Sane.appended (h : Sane dry s) (r : Report) (a : SaveAnswer) (rest : List SaveAnswer) :
    Sane dry (s.appended r a rest) := by
  have hsub := subset_appended s r a rest
  refine ⟨h.held.mono hsub,fun o ho => ?_⟩
  obtain ⟨r', hr', he⟩ := h.marked o ho
  exact ⟨r',hsub hr',he⟩

theorem append_eq (s : Pass) (r : Report) :
    s.append r = (false,s) ∨ ∃ a rest, s.append r = (a == .saved,s.appended r a rest) := by
  unfold Pass.append
  split
  · exact .inl rfl
  refine .inr ?_
  cases s.appends with
  | nil => exact ⟨.saved,[],rfl⟩
  | cons a rest => exact ⟨a,rest,rfl⟩

theorem Sane.queued (h : Sane false s) (hr : s.exec.journal.pendingReport = some r) (rest : List SaveAnswer) :
    Cleared false (((s.appended r .saved rest).mark.change (·.flushed)).save false) := by
  obtain ⟨hf, hs⟩ := (h.held.memory rfl).flushed hr
  have hmarked : MarksTold ((s.appended r .saved rest).mark.change (·.flushed)) := by
    intro o ho
    rcases mem_append.mp ho with ho | ho
    · exact (h.appended r .saved rest).marked o ho
    · rw [mem_singleton.mp ho]
      exact ⟨r,mem_append_right _ (mem_singleton.mpr rfl),((h.held.memory rfl).pending r hr).1⟩
  have hheld : Held (s.outbox ++ [r]) false (s.exec.change (·.flushed)) :=
    ⟨h.held.disk.mono (subset_append_left _ _),fun _ => hf⟩
  refine ⟨Sane.save ⟨hheld,hmarked⟩,fun _ => ?_⟩
  rw [save_journal]
  exact hs

theorem Sane.notQueued (h : Sane false s) (hr : s.exec.journal.pendingReport = some r) (clock : Time) :
    Sane false ((s.change (·.notQueued clock)).save false) ∧ Pledged false ((s.change (·.notQueued clock)).save false) := by
  obtain ⟨ha, hor⟩ := (h.held.memory rfl).notQueued hr clock
  refine ⟨Sane.save ⟨⟨h.held.disk,fun _ => ha⟩,h.marked⟩,fun _ howes => ?_⟩
  rw [save_journal] at howes ⊢
  rcases hor with hp | hs
  · change (s.exec.journal.notQueued clock).pendingReport.isSome = true
    rw [hp]
    rfl
  · exact absurd (hs.2.symm.trans howes) Bool.false_ne_true

theorem flush_sane (h : Sane dry s) (clock : Time) :
    Sane dry (flushPendingReport dry clock s) ∧ (Pledged dry s → Pledged dry (flushPendingReport dry clock s)) := by
  unfold flushPendingReport
  cases hr : s.exec.journal.pendingReport with
  | none => exact ⟨h,fun hp => hp⟩
  | some r =>
    cases dry with
    | true => exact ⟨h,fun hp => hp⟩
    | false =>
      dsimp only
      rcases append_eq s r with ha | ⟨a, rest, ha⟩
      · rw [ha]
        obtain ⟨hsane, hpledged⟩ := h.notQueued hr clock
        exact ⟨hsane,fun _ => hpledged⟩
      rw [ha]
      cases a with
      | saved =>
        have hq := h.queued hr rest
        exact ⟨hq.toSane,fun _ _ howes => absurd ((hq.settled rfl).2.symm.trans howes) Bool.false_ne_true⟩
      | lost | unconfirmed =>
        obtain ⟨hsane, hpledged⟩ := (h.appended r _ rest).notQueued hr clock
        exact ⟨hsane,fun _ => hpledged⟩

variable {d : TickDeps}

theorem Sane.pledge (h : Sane d.dry s) : Sane d.dry (s.pledge d) ∧ Pledged d.dry (s.pledge d) := by
  unfold Pass.pledge
  split
  · have hreported := fun hd => (h.held.memory hd).reportOwed (s.nextID d) d.runningText d.now
    refine ⟨Sane.save ⟨⟨h.held.disk,fun hd => (hreported hd).1⟩,h.marked⟩,fun hd ho => ?_⟩
    rw [save_journal] at ho ⊢
    exact (hreported hd).2 ho
  · rename_i howes
    exact ⟨h,fun _ ho => absurd ho howes⟩

theorem not_reported_of_interrupted {p : Phase} (h : p.interrupted = true) : p.reported = false := by
  cases p with
  | completed | rolledBack | failed => cases h
  | _ => rfl

theorem Accounted.settled_of_interrupted (h : Accounted outbox saved j) (hi : j.phase.interrupted = true) :
    Settled j := by
  have hempty : j.outcomeFingerprint = "" := by
    by_contra hne
    exact Bool.false_ne_true ((not_reported_of_interrupted hi).symm.trans (reported_of_fingerprint.mp hne))
  refine ⟨?_,?_⟩
  · cases hr : j.pendingReport with
    | none => rfl
    | some r => exact absurd hempty (h.pending r hr).2
  · simp [owesOutcomeReport,hempty]

theorem Accounted.landed (h : Accounted outbox saved j) {running : Except VersionError String} {now : Time}
    (hrec : j.reconcile running now = some j') (id text : String) :
    Accounted outbox saved (j'.reportLanded id text now) := by
  unfold reconcile at hrec
  split at hrec
  · cases hrec
  split at hrec
  · rename_i hc
    have hi := (Bool.and_eq_true_iff.mp hc).1
    obtain rfl := Option.some.inj hrec
    have hs := h.settled_of_interrupted hi
    have hmoved := h.move hs (move_recordSuccess j now)
    have hreported : (j.recordSuccess now).phase.reported = true := by
      unfold recordSuccess
      split <;> rfl
    have hne := reported_of_fingerprint.mpr hreported
    exact hmoved.markReportPending ((move_recordSuccess j now).pending.trans hs.1) rfl hne
  · cases hrec

theorem Sane.landing {j' : Journal} (h : Sane d.dry s) (hrec : s.exec.journal.reconcile d.running d.now = some j') :
    Sane d.dry (s.landing d j') :=
  ⟨⟨h.held.disk,fun hd => (h.held.memory hd).landed hrec (s.nextID d) d.runningText⟩,h.marked⟩

theorem recordLanded_sane (h : Sane false s) (a : SaveAnswer) :
    Proc.Ends (fun s => recordLanded d s a) s (fun _ t => Sane false t) fun _ t => OnDisk t := by
  cases a with
  | saved =>
    have hflushed := (flush_sane h d.clock).1
    exact ⟨hflushed.held,hflushed.marked⟩
  | lost | unconfirmed => exact h.onDisk

theorem closeLanded_meets : Proc.Meets (Sane d.dry) (Sane d.dry) OnDisk (closeLanded d) := by
  constructor
  intro s h
  unfold Proc.Ends closeLanded
  cases hrec : s.exec.journal.reconcile d.running d.now with
  | none => exact h
  | some j' =>
    have hsane := h.landing hrec
    dsimp only
    cases hd : d.dry with
    | true =>
      rw [hd] at hsane
      exact (flush_sane hsane d.clock).1
    | false =>
      rw [hd] at hsane
      obtain ⟨a, rest, hw⟩ := (s.landing d j').exec.write_eq
      have hwritten : Sane false ((s.landing d j').onExec fun _ => (s.landing d j').exec.written a rest) :=
        ⟨hsane.held.written a rest,hsane.marked⟩
      rw [hw]
      exact recordLanded_sane (d := d) hwritten a

theorem load_sane (h : OnDisk s) : Sane d.dry (s.load d) :=
  ⟨⟨h.disk,fun _ => h.disk.loaded d.recovered d.clock⟩,h.marked⟩

theorem settleOutcomes_meets : Proc.Meets OnDisk (Cleared d.dry) OnDisk (settleOutcomes d) := by
  refine .bind (.modify fun _ h => load_sane h) fun _ => ?_
  refine .bind (.modify fun _ h => (flush_sane h d.clock).1) fun _ => ?_
  refine .bind closeLanded_meets fun _ => ?_
  refine .bind (J := fun s => Sane d.dry s ∧ Pledged d.dry s) (.modify fun _ h => h.pledge) fun _ => ?_
  refine .bind (J := fun s => Sane d.dry s ∧ Pledged d.dry s) (.modify fun _ h => ?_) fun _ => ?_
  · obtain ⟨hsane, hpledged⟩ := flush_sane h.1 d.clock
    exact ⟨hsane,hpledged h.2⟩
  constructor
  rintro s ⟨hsane, hpledged⟩
  refine .leaveIf (fun _ => hsane.onDisk) fun hfree => ⟨hsane,fun hd => ?_⟩
  have hnone : s.exec.journal.pendingReport = none := by
    rw [not_and_or] at hfree
    rcases hfree with hfree | hfree
    · simpa using hfree
    · exact absurd hd hfree
  refine ⟨hnone,?_⟩
  cases ho : s.exec.journal.owesOutcomeReport with
  | false => rfl
  | true =>
    have := hpledged hd ho
    rw [hnone] at this
    cases this

theorem Cleared.onDisk (h : Cleared dry s) : OnDisk s := h.toSane.onDisk

theorem Cleared.refuse (h : Cleared d.dry s) (version digest reason : String) : Cleared d.dry (s.refuse d version digest reason) := by
  unfold Pass.refuse
  dsimp only
  split
  · exact h
  generalize hr : ({ s.exec.journal.reportOutcome (s.nextID d) .refused d.runningText reason d.now with
      fingerprint := refusalFingerprint d (version ++ digest) reason
      targetVersion := trimSpace version
      fromVersion := ""
      rejectedDigest := digest
      outcome := "" } : Report) = r
  have hnamed := h.toSane.nameReport
  rcases append_eq (s.onExec (·.nameReport)) r with ha | ⟨a, rest, ha⟩
  · rw [ha]
    exact ⟨hnamed,h.settled⟩
  have happended := hnamed.appended r a rest
  rw [ha]
  split
  · exact ⟨⟨happended.held,happended.marked⟩,h.settled⟩
  · exact ⟨happended,h.settled⟩

theorem fetchManifest_meets : Proc.Meets (Cleared d.dry) (Cleared d.dry) OnDisk (fetchManifest d) := by
  unfold fetchManifest
  split
  · exact .pure fun _ h => h
  · exact .leave fun _ h => h.onDisk
  · refine .bind (.onlyIf (.modify fun _ h => h.refuse _ _ _) fun _ h => h) fun _ => .leave fun _ h => h.onDisk

theorem stageArtifact_meets (k : Config) (m : Manifest) :
    Proc.Meets (Cleared d.dry) (Cleared d.dry) OnDisk (stageArtifact d k m) := by
  unfold stageArtifact
  split
  · exact .pure fun _ h => h
  split
  · exact .pure fun _ h => h
  · exact .leave fun _ h => h.onDisk
  · refine .bind (.onlyIf (.modify fun _ h => h.refuse _ _ _) fun _ h => h) fun _ => .leave fun _ h => h.onDisk

theorem Cleared.acceptFloor (h : Cleared d.dry s) (t : Time) :
    Cleared d.dry ((s.change fun j => (j.acceptPlanFloor t).1).save d.dry) := by
  have hsame := same_acceptPlanFloor s.exec.journal t
  have hheld : Held s.outbox d.dry (s.exec.change fun j => (j.acceptPlanFloor t).1) := h.held.same hsame
  refine ⟨Sane.save ⟨hheld,h.marked⟩,fun hd => ?_⟩
  rw [save_journal]
  exact hsame.settled (h.settled hd)

theorem applyRollout_ends (m : Manifest) (h : Cleared d.dry s) :
    (applyRollout d m).Ends s (fun k t => k.dryRun = d.dry ∧ Cleared d.dry t) fun _ t => OnDisk t := by
  unfold applyRollout
  split
  · exact ⟨rfl,h⟩
  rw [Proc.ends_bind,Proc.ends_modify]
  refine ⟨rfl,?_⟩
  split
  · exact h.acceptFloor _
  · exact h

theorem runUpdate_ends {k : Config} (m : Manifest) (hk : k.dryRun = d.dry) (h : Cleared d.dry s) :
    (runUpdate d k m).Ends s (fun _ t => Sane d.dry t) fun _ t => OnDisk t := by
  have hgoing : Going s.outbox k.dryRun s.exec := by
    rw [hk]
    exact ⟨h.held,h.settled⟩
  have hheld := run_held d.platform d.now m hgoing
  rw [hk] at hheld
  exact ⟨hheld,h.marked⟩

theorem tickBody_meets : Proc.Meets OnDisk OnDisk OnDisk (tickBody d) := by
  refine .bind (.leaveIf fun _ h => h) fun _ => ?_
  refine .bind (.leaveIf fun _ h => h) fun _ => ?_
  refine .bind settleOutcomes_meets fun _ => ?_
  refine .bind fetchManifest_meets fun m => ?_
  constructor
  intro s h
  refine (applyRollout_ends m h).bind fun k t ⟨hk, ht⟩ => ?_
  refine (Proc.Ends.leaveIf (Q := fun _ t => Cleared d.dry t) (fun _ => ht.onDisk) fun _ => ht).bind fun _ t ht => ?_
  refine ((stageArtifact_meets k m).ends t ht).bind fun _ t ht => ?_
  refine (runUpdate_ends m hk ht).bind fun r t ht => ?_
  exact (flush_sane ht.pledge.1 d.clock).1.onDisk

end DsseCore.AgentUpdate

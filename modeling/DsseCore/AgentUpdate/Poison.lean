import DsseCore.AgentUpdate.Tick
import DsseCore.Lib.Run

/-!
# Versions that are given up

A version is poisoned on a device when its attempts failed too often, or when a rollback left it.  The entry names the
version as it was written then; a later manifest is refused when it is the same release.
-/

namespace DsseCore.AgentUpdate

open Go Lib Journal

variable {v : String} {j j' : Journal} {now : Time} {e : Exec} {k : Config} {p : Platform}

inductive Op where
  | run (k : Config) (p : Platform) (m : Manifest) (now : Time) (saves : List SaveAnswer)
  | rollback (k : Config) (p : Platform) (req : RollbackRequest) (now : Time) (saves : List SaveAnswer)
  | reconcile (running : Except VersionError String) (now : Time)
  | recordFailure (reason : String) (maxAttempts : Int) (now : Time)
  | recordSuccess (now : Time)
  | save (a : SaveAnswer)
  | reload (recovered : String → String → String) (clock : Time)

def Op.isReload : Op → Bool
  | reload _ _ => true
  | run _ _ _ _ _ | rollback _ _ _ _ _ | reconcile _ _ | recordFailure _ _ _ | recordSuccess _ | save _ => false

def Exec.answers (e : Exec) (saves : List SaveAnswer) : Exec := { e with saves := saves }

def Exec.after (e : Exec) : Op → Exec
  | .run k p m now saves => (AgentUpdate.run k p m now (e.answers saves)).2
  | .rollback k p req now saves => (AgentUpdate.rollback k p req now (e.answers saves)).2
  | .reconcile running now => e.change fun j => (j.reconcile running now).getD j
  | .recordFailure reason maxAttempts now => e.change (·.recordFailure reason maxAttempts now)
  | .recordSuccess now => e.change (·.recordSuccess now)
  | .save a => e.written a e.saves
  | .reload recovered clock => e.change fun _ => e.saved.loaded recovered clock

def installs (calls : List Call) : List Call :=
  calls.filter fun c => match c with
    | .execute _ _ => true
    | .save _ _ | .material _ _ | .disarm _ | .rearm _ => false

def Journal.Refuses (j : Journal) (version : String) : Prop := (j.isPoisoned version).isSome = true

instance (j : Journal) (version : String) : Decidable (j.Refuses version) := inferInstanceAs (Decidable (_ = true))

/-- The rollback finds an update that was interrupted, long enough ago, and whose version has then failed too often. -/
structure Journal.LastAttempt (j : Journal) (now : Time) : Prop where
  interrupted : j.phase.interrupted = true
  old : j.installYoungerThan InstallGrace now = false
  update : j.isRollback = false
  named : trimSpace j.targetVersion ≠ ""
  spent : DefaultMaxAttempts ≤ j.failuresOf (trimSpace j.targetVersion) + 1

variable {w : String}

def Journal.lists (j : Journal) (key : String) : Bool := j.poisoned[key]?.isSome

theorem refuses_iff : j.Refuses v ↔ ∃ key, j.lists key = true ∧ (key = trimSpace v ∨ sameVersion key v = true) := by
  unfold Refuses isPoisoned lists
  cases hv : j.poisoned[trimSpace v]? with
  | some reason => simp only [Option.isSome_some,true_iff]; exact ⟨_,by rw [hv]; rfl,.inl rfl⟩
  | none =>
    simp only [Option.isSome_map,List.find?_isSome]
    constructor
    · rintro ⟨⟨key, reason⟩, hmem, hsame⟩
      rw [Std.ExtTreeMap.mem_toList_iff_getElem?_eq_some] at hmem
      exact ⟨key,by rw [hmem]; rfl,.inr hsame⟩
    rintro ⟨key, hkey, rfl | hsame⟩
    · rw [hv] at hkey
      cases hkey
    · obtain ⟨reason, hr⟩ := Option.isSome_iff_exists.mp hkey
      exact ⟨(key,reason),Std.ExtTreeMap.mem_toList_iff_getElem?_eq_some.mpr hr,hsame⟩

theorem matches_iff {key : String} (hk : trimSpace key ≠ "") :
    (trimSpace key = trimSpace v ∨ sameVersion (trimSpace key) v = true) ↔ sameVersion key v = true := by
  rw [sameVersion_trim_left]
  exact ⟨fun h => h.elim (sameVersion_of_trim hk) id,.inr⟩

theorem Journal.Refuses.same (h : j.Refuses v) (hw : sameVersion v w = true) : j.Refuses w := by
  obtain ⟨key, hkey, he | hsame⟩ := refuses_iff.mp h
  · refine refuses_iff.mpr ⟨key,hkey,.inr ?_⟩
    rw [he,sameVersion_trim_left]
    exact hw
  · exact refuses_iff.mpr ⟨key,hkey,.inr (sameVersion_trans hsame hw)⟩

theorem lists_insert {key : String} {m : Map String} {reason : String} :
    ((m.insert v reason)[key]?.isSome = true) ↔ m[key]?.isSome = true ∨ key = v := by
  rw [Map.getElem?_insert_eq]
  split
  · rename_i he
    simp [he]
  · rename_i hne
    simp [Ne.symm hne]

theorem lists_refuse (reason key : String) :
    (j.refuse v reason).lists key = true ↔ j.lists key = true ∨ trimSpace v ≠ "" ∧ key = trimSpace v := by
  unfold refuse lists
  split
  · rename_i hv
    simp [hv]
  rename_i hv
  rw [lists_insert]
  simp [hv]

theorem lists_countFailure (reason : String) (maxAttempts : Int) (key : String) :
    (j.countFailure v reason maxAttempts).lists key = true ↔
      j.lists key = true ∨ ceiling maxAttempts ≤ ((j.failuresOf v + 1 : ℕ) : Int) ∧ key = v := by
  unfold countFailure lists
  dsimp only
  split
  · rename_i hlt
    simp only [not_le.mpr hlt,false_and,or_false]
  rename_i hle
  rw [lists_insert]
  simp only [not_lt.mp hle,true_and]

def Grows (j j' : Journal) : Prop := ∀ key, j.lists key = true → j'.lists key = true

theorem grows_of_eq (h : j'.poisoned = j.poisoned) : Grows j j' := by
  intro key hkey
  rwa [lists,h]

theorem Grows.trans {j'' : Journal} (h : Grows j j') (h' : Grows j' j'') : Grows j j'' := fun key hkey => h' key (h key hkey)

theorem Grows.refuses (h : Grows j j') (hv : j.Refuses v) : j'.Refuses v := by
  obtain ⟨key, hkey, hm⟩ := refuses_iff.mp hv
  exact refuses_iff.mpr ⟨key,h key hkey,hm⟩

section

variable (j)

theorem grows_enter (p : Phase) (now : Time) : Grows j (j.enter p now) := grows_of_eq rfl

theorem grows_failed (reason : String) (now : Time) :
    Grows j ((j.setFailureReason reason).enter .failed now) := grows_of_eq rfl

theorem grows_recordFailure (reason : String) (maxAttempts : Int) (now : Time) :
    Grows j (j.recordFailure reason maxAttempts now) := by
  unfold recordFailure
  dsimp only
  split
  · exact grows_failed j reason now
  · exact (grows_failed j reason now).trans fun key hkey => (lists_countFailure _ _ _).mpr (.inl hkey)

theorem recordSuccess_poisoned (now : Time) : (j.recordSuccess now).poisoned = j.poisoned := by
  unfold recordSuccess
  dsimp only
  split
  all_goals split
  all_goals rfl

theorem grows_reconcile (running : Except VersionError String) (now : Time) :
    Grows j ((j.reconcile running now).getD j) := by
  unfold reconcile
  split
  · exact grows_of_eq rfl
  split
  · exact grows_of_eq (recordSuccess_poisoned j now)
  · exact grows_of_eq rfl

theorem loaded_poisoned (recovered : String → String → String) (clock : Time) :
    (j.loaded recovered clock).poisoned = j.poisoned := by
  obtain ⟨_, _, _, hloaded⟩ := j.loaded_fields recovered clock
  rw [hloaded]

theorem grows_startRollback (now : Time) (target leaving : String) :
    Grows j (j.startRollback now target leaving) := by
  have hstarted : Grows j (j.beginRollback target leaving now) := grows_of_eq rfl
  unfold startRollback
  split
  · exact hstarted
  split
  · exact hstarted.trans (grows_of_eq rfl)
  · exact hstarted.trans fun key hkey => (lists_refuse _ _).mpr (.inl hkey)

theorem markReportPendingIfFree_kept (r : Report) : (j.markReportPendingIfFree r).poisoned = j.poisoned ∧
    (j.markReportPendingIfFree r).fromVersion = j.fromVersion := by
  unfold markReportPendingIfFree
  split
  · exact ⟨rfl,rfl⟩
  · exact ⟨rfl,rfl⟩

theorem grows_keepEarlier (now : Time) (id : String) : Grows j (j.keepEarlier now id) := by
  have hclosed : Grows j (j.closeForRollback now) := by
    unfold closeForRollback
    split
    · exact grows_failed j _ now
    · exact (grows_recordFailure j _ _ now).trans (grows_enter _ _ _)
  unfold keepEarlier
  split
  · exact grows_of_eq (markReportPendingIfFree_kept _ _).1
  split
  · exact hclosed.trans (grows_of_eq (markReportPendingIfFree_kept _ _).1)
  · exact grows_of_eq rfl

end

variable {disk : Prop}

/-- The version is given up in the journal and, if that is on disk, in the journal there. -/
structure Remembers (v : String) (disk : Prop) (e : Exec) : Prop where
  memory : e.journal.Refuses v
  saved : disk → e.saved.Refuses v

theorem Remembers.change {f : Journal → Journal} (h : Remembers v disk e) (hg : Grows e.journal (f e.journal)) :
    Remembers v disk (e.change f) :=
  ⟨hg.refuses h.memory,h.saved⟩

theorem Remembers.written (h : Remembers v disk e) (a : SaveAnswer) (rest : List SaveAnswer) :
    Remembers v disk (e.written a rest) := by
  refine ⟨h.memory,fun hd => ?_⟩
  unfold Exec.written
  split
  · exact h.memory
  · exact h.saved hd

theorem remembers_kept : Kept (Remembers v disk) where
  written _ a rest h := h.written a rest
  material _ _ _ h := ⟨h.memory,h.saved⟩
  disarm _ _ h := ⟨h.memory,h.saved⟩
  rearm _ _ h := ⟨h.memory,h.saved⟩
  execute _ _ _ h := ⟨h.memory,h.saved⟩
  setDisarmed _ _ h := ⟨h.memory,h.saved⟩
  setLaunched _ _ h := ⟨h.memory,h.saved⟩

theorem fits_of_grows {h : Handover} (hd : ∀ derr j, Grows j (h.disarmFailed derr j))
    (hl : ∀ reason j, Grows j (h.launchFailed reason j)) : h.Fits now (Remembers v disk) (Remembers v disk) where
  going := remembers_kept
  done := remembers_kept
  ended _ h := h
  disarmed _ h := h.change (grows_enter _ _ _)
  disarmFailed _ derr h := h.change (hd derr _)
  launching _ h := h.change (grows_enter _ _ _)
  launchFailed _ reason h := h.change (hl reason _)
  steering _ _ h := h.change (grows_of_eq rfl)

theorem Remembers.keepJournal {dry : Bool} {r : Result × Exec} (h : Remembers v disk e)
    (hr : Remembers v disk r.2) : Remembers v disk (keepJournal dry e r).2 := by
  unfold AgentUpdate.keepJournal
  split
  · exact ⟨h.memory,hr.saved⟩
  · exact hr

theorem Remembers.run (h : Remembers v disk e) (m : Manifest) : Remembers v disk (run k p m now e).2 := by
  have hp : Prepares k m now (Remembers v disk) (Remembers v disk) (Remembers v disk) :=
    { going := fun _ => remembers_kept.written
      ready := fun _ => remembers_kept.written
      done := fun _ => remembers_kept.written
      goingDone := fun _ h => h
      readyDone := fun _ h => h
      failed := fun _ h => h.change (grows_enter _ _ _)
      begin := fun _ _ h => h.change (grows_of_eq rfl)
      setFrom := fun _ _ h => h.change (grows_of_eq rfl)
      wait := fun _ _ h => h.change (grows_of_eq rfl)
      notCaptured := fun _ h => ⟨h.memory,h.saved⟩
      captured := fun _ _ h => ⟨h.memory,h.saved⟩ }
  have hbody : Proc.Meets (Remembers v disk) (Remembers v disk) (Remembers v disk) (runBody k p m now) := by
    refine runBody_meets hp fun _ => handOver_meets (fits_of_grows (fun derr j => ?_) fun reason j => ?_)
    all_goals
      dsimp only [updateHandover]
      exact grows_recordFailure j _ _ _
  exact h.keepJournal (hbody.outcome h)

theorem Remembers.rollback (h : Remembers v disk e) (req : RollbackRequest) :
    Remembers v disk (rollback k p req now e).2 := by
  have hr : RollsBack req now (leavingVersion p req) (fun _ => True) (Remembers v disk) (Remembers v disk)
      (Remembers v disk) (Remembers v disk) :=
    { written := remembers_kept.written
      goingDone := fun _ h => h
      readyDone := fun _ h => h
      begunDone := fun _ h => h
      keep := fun e h => by
        unfold Exec.keepEarlier
        split
        · exact ⟨(h.change (grows_keepEarlier e.journal now _)).memory,h.saved⟩
        · exact h
      target := fun _ _ => trivial
      notFound := fun _ h => ⟨h.memory,h.saved⟩
      found := fun _ h => ⟨h.memory,h.saved⟩
      start := fun _ target _ h => h.change (grows_startRollback _ now target _) }
  have hbody : Proc.Meets (Remembers v disk) (Remembers v disk) (Remembers v disk) (rollbackBody k p req now) :=
    rollbackBody_meets hr fun target _ _ => handOver_meets (h := rollbackHandover now target _)
      (fits_of_grows (fun _ j => grows_enter j .failed now) fun reason j => grows_failed j reason now)
  exact h.keepJournal (hbody.outcome h)

theorem Remembers.after (h : Remembers v disk e) {o : Op} (ho : disk ∨ o.isReload = false) :
    Remembers v disk (e.after o) := by
  have hanswers : ∀ saves, Remembers v disk (e.answers saves) := fun _ => ⟨h.memory,h.saved⟩
  cases o with
  | run k p m now saves => exact (hanswers saves).run m
  | rollback k p req now saves => exact (hanswers saves).rollback req
  | reconcile running now =>
    exact h.change (f := fun j => (j.reconcile running now).getD j) (grows_reconcile _ _ _)
  | recordFailure reason maxAttempts now =>
    exact h.change (f := (·.recordFailure reason maxAttempts now)) (grows_recordFailure _ _ _ _)
  | recordSuccess now =>
    exact h.change (f := (·.recordSuccess now)) (grows_of_eq (recordSuccess_poisoned _ _))
  | save a => exact h.written a e.saves
  | reload recovered clock =>
    have hd : disk := ho.resolve_right Bool.noConfusion
    exact ⟨(grows_of_eq (loaded_poisoned e.saved recovered clock)).refuses (h.saved hd),h.saved⟩

variable {m : Manifest}

theorem run_installs (h : e.journal.Refuses m.version) : installs (run k p m now e).2.calls = installs e.calls := by
  have hbody : Proc.Ends (runBody k p m now) e (fun _ t => installs t.calls = installs e.calls)
      fun _ t => installs t.calls = installs e.calls := by
    unfold runBody
    rw [Proc.ends_bind]
    refine .bind (Q := fun _ t => t = e) (.leaveIf (fun _ => rfl) fun _ => rfl) fun _ t ht => ?_
    subst ht
    refine .bind (Q := fun _ u => installs u.calls = installs t.calls) (.onlyIf (fun _ => ?_) fun _ => rfl) fun _ u hu => ?_
    · refine (closeInterrupted_meets (I := fun u => installs u.calls = installs t.calls)
        (L := fun u => installs u.calls = installs t.calls) (fun _ v a rest hv => ?_) fun _ hv => hv).ends t rfl
      simpa [installs,Exec.written] using hv
    · exact .bind (Q := fun _ _ => False) (.leaveIf (fun _ => hu) fun hc => absurd h hc) fun _ _ hf => hf.elim
  have := hbody.outcome
  unfold run keepJournal
  split
  · exact this
  · exact this

theorem recordFailure_refuses (hv : trimSpace j.targetVersion ≠ "") {maxAttempts : Int}
    (hn : ceiling maxAttempts ≤ ((j.failuresOf (trimSpace j.targetVersion) + 1 : ℕ) : Int)) (reason : String)
    (now : Time) : (j.recordFailure reason maxAttempts now).Refuses j.targetVersion := by
  refine refuses_iff.mpr ⟨trimSpace j.targetVersion,?_,.inl rfl⟩
  unfold recordFailure
  rw [if_neg hv]
  exact (lists_countFailure _ _ _).mpr (.inr ⟨hn,rfl⟩)

theorem lists_startRollback (j : Journal) (now : Time) (target leaving key : String) :
    (j.startRollback now target leaving).lists key = true ↔ j.lists key = true ∨
      trimSpace leaving ≠ "" ∧ sameVersion leaving target = false ∧ key = trimSpace leaving := by
  have hstarted : (j.beginRollback target leaving now).lists key = j.lists key := rfl
  unfold startRollback
  split
  · rename_i hempty
    rw [hstarted,hempty]
    simp
  split
  · rename_i hsame
    have hwaits : ∀ reason, ((j.beginRollback target leaving now).recordWait reason now).lists key = j.lists key :=
      fun _ => rfl
    rw [hwaits,hsame]
    simp
  · rename_i hsame
    rw [lists_refuse,hstarted]
    simp [hsame]

theorem startRollback_target (j : Journal) (now : Time) (target leaving : String) :
    (j.startRollback now target leaving).Refuses target ↔ j.Refuses target := by
  refine ⟨fun h => ?_,(grows_startRollback j now target leaving).refuses⟩
  obtain ⟨key, hkey, hm⟩ := refuses_iff.mp h
  rcases (lists_startRollback _ _ _ _ _).mp hkey with hkey | ⟨hl, hne, rfl⟩
  · exact refuses_iff.mpr ⟨key,hkey,hm⟩
  · exact absurd ((matches_iff hl).mp hm) (by simp [hne])

theorem refuses_congr (h : j'.poisoned = j.poisoned) : j'.Refuses v ↔ j.Refuses v := by
  unfold Refuses isPoisoned
  rw [h]

theorem owes_of_interrupted (h : j.phase.interrupted = true) : j.owesOutcomeReport = false := by
  unfold owesOutcomeReport outcomeFingerprint
  cases hp : j.phase with
  | completed | rolledBack | failed => simp [hp,Phase.interrupted] at h
  | _ => rfl

theorem lists_closeForRollback (j : Journal) (now : Time) (key : String) :
    (j.closeForRollback now).lists key = true ↔ j.lists key = true ∨ j.isRollback = false ∧
      trimSpace j.targetVersion ≠ "" ∧ DefaultMaxAttempts ≤ j.failuresOf (trimSpace j.targetVersion) + 1 ∧
      key = trimSpace j.targetVersion := by
  unfold closeForRollback
  split
  · rename_i hr
    have hsame : ∀ reason, ((j.setFailureReason reason).enter .failed now).lists key = j.lists key := fun _ => rfl
    rw [hsame,hr]
    simp
  · rename_i hr
    have hentered : ∀ i : Journal, (i.enter .failed now).lists key = i.lists key := fun _ => rfl
    have hset : ∀ (i : Journal) (reason : String), (i.setFailureReason reason).lists key = i.lists key := fun _ _ => rfl
    rw [hentered]
    unfold recordFailure
    dsimp only
    split
    · rename_i hempty
      rw [hentered,hset,hempty]
      simp
    rename_i hnamed
    have hcount : ∀ reason, ((j.setFailureReason reason).enter .failed now).failuresOf (trimSpace j.targetVersion) =
        j.failuresOf (trimSpace j.targetVersion) := fun _ => rfl
    have hceiling : ceiling DefaultMaxAttempts = DefaultMaxAttempts := by decide
    rw [lists_countFailure,hentered,hset,hcount,hceiling,Nat.cast_le]
    simp [hr,hnamed]

section

variable (hold : ¬ (j.phase.interrupted = true ∧ j.installYoungerThan InstallGrace now = true))
include hold

theorem keepEarlier_lists (id key : String) : (j.keepEarlier now id).lists key = true ↔ j.lists key = true ∨
      j.LastAttempt now ∧ key = trimSpace j.targetVersion := by
  have hmark : ∀ (i : Journal) (r : Report), (i.markReportPendingIfFree r).lists key = i.lists key := by
    intro i r
    rw [lists,(markReportPendingIfFree_kept i r).1]
    rfl
  unfold keepEarlier
  split
  · rename_i howes
    rw [hmark]
    refine ⟨.inl,fun h => h.resolve_right fun hl => ?_⟩
    exact Bool.false_ne_true ((owes_of_interrupted hl.1.interrupted).symm.trans howes)
  · split
    · rename_i hi
      rw [hmark,lists_closeForRollback]
      refine or_congr_right ⟨fun ⟨hr, hn, hs, hk⟩ => ⟨⟨hi,?_,hr,hn,hs⟩,hk⟩,fun ⟨hl, hk⟩ => ⟨hl.update,hl.named,hl.spent,hk⟩⟩
      rw [← Bool.not_eq_true]
      exact fun hy => hold ⟨hi,hy⟩
    · rename_i hi
      exact ⟨.inl,fun h => h.resolve_right fun hl => hi hl.1.interrupted⟩

theorem keepEarlier_refuses (id v : String) : (j.keepEarlier now id).Refuses v ↔ j.Refuses v ∨
      j.LastAttempt now ∧ sameVersion j.targetVersion v = true := by
  rw [refuses_iff,refuses_iff]
  simp only [keepEarlier_lists hold]
  constructor
  · rintro ⟨key, hkey | ⟨hl, rfl⟩, hm⟩
    · exact .inl ⟨key,hkey,hm⟩
    · exact .inr ⟨hl,(matches_iff hl.named).mp hm⟩
  rintro (⟨key, hkey, hm⟩ | ⟨hl, hs⟩)
  · exact ⟨key,.inl hkey,hm⟩
  · exact ⟨_,.inr ⟨hl,rfl⟩,(matches_iff hl.named).mpr hs⟩

end

theorem keepEarlier_from (j : Journal) (now : Time) (id : String) : (j.keepEarlier now id).fromVersion = j.fromVersion := by
  unfold keepEarlier
  split
  · exact (markReportPendingIfFree_kept _ _).2
  split
  · rw [(markReportPendingIfFree_kept _ _).2]
    unfold closeForRollback recordFailure
    dsimp only
    split
    · rfl
    split
    · rfl
    · rfl
  · rfl

variable {req : RollbackRequest}

theorem exec_keepEarlier_journal (e : Exec) (now : Time) :
    ∃ id, (e.keepEarlier now).journal = e.journal.keepEarlier now id := by
  unfold Exec.keepEarlier
  split
  · exact ⟨_,rfl⟩
  rename_i hneither
  rw [not_or] at hneither
  refine ⟨"",?_⟩
  rw [keepEarlier,if_neg hneither.1,if_neg hneither.2]

theorem fits_refuses {c : Prop} (target leaving : String) :
    (rollbackHandover now target leaving).Fits now (fun t => t.journal.Refuses v ↔ c)
      fun t => t.journal.Refuses v ↔ c := by
  have hkept : Kept fun t => t.journal.Refuses v ↔ c :=
    { written := fun _ _ _ h => h
      material := fun _ _ _ h => h
      disarm := fun _ _ h => h
      rearm := fun _ _ h => h
      execute := fun _ _ _ h => h
      setDisarmed := fun _ _ h => h
      setLaunched := fun _ _ h => h }
  exact
    { going := hkept
      done := hkept
      ended := fun _ h => h
      disarmed := fun _ h => (refuses_congr rfl).trans h
      disarmFailed := fun _ _ h => (refuses_congr rfl).trans h
      launching := fun _ h => (refuses_congr rfl).trans h
      launchFailed := fun _ _ h => (refuses_congr rfl).trans h
      steering := fun _ _ h => (refuses_congr rfl).trans h }

/-- After a rollback the version it goes back to is given up if it was before, or if the rollback found the attempt that
was its last. -/
theorem rollback_refuses (hd : k.dryRun = false) :
    (rollback k p req now e).2.journal.Refuses (rollbackTarget req e.journal) ↔
      e.journal.Refuses (rollbackTarget req e.journal) ∨
      e.journal.LastAttempt now ∧ sameVersion e.journal.targetVersion (rollbackTarget req e.journal) = true := by
  generalize hv : rollbackTarget req e.journal = v
  generalize hc : (e.journal.Refuses v ∨ e.journal.LastAttempt now ∧ sameVersion e.journal.targetVersion v = true) = c
  have hgo : GoesBack now (leavingVersion p req) (· = v) (fun t => t.journal.Refuses v ↔ c)
      (fun t => t.journal.Refuses v ↔ c) (fun t => t.journal.Refuses v ↔ c) (fun t => t.journal.Refuses v ↔ c) :=
    { written := fun _ _ _ h => h
      goingDone := fun _ h => h
      readyDone := fun _ h => h
      begunDone := fun _ h => h
      notFound := fun _ h => h
      found := fun _ h => h
      start := fun t target ht h => by
        subst ht
        exact (startRollback_target t.journal now target _).trans h }
  have hbody : Proc.Ends (rollbackBody k p req now) e (fun _ t => t.journal.Refuses v ↔ c)
      fun _ t => t.journal.Refuses v ↔ c := by
    unfold rollbackBody
    rw [Proc.ends_bind,Step.ends_journal]
    refine .bind (Q := fun _ t => t = e ∧ ¬ (t.journal.phase.interrupted = true ∧
        t.journal.installYoungerThan InstallGrace now = true))
      (.leaveIf (fun hyoung => ?_) fun hold => ⟨rfl,hold⟩) fun _ t ⟨ht, hold⟩ => ?_
    · rw [← hc]
      refine ⟨.inl,fun h => h.resolve_right fun hl => ?_⟩
      exact Bool.false_ne_true (hl.1.old.symm.trans hyoung.2)
    subst ht
    rw [Proc.ends_bind,Proc.ends_modify,Proc.ends_bind,Step.ends_journal]
    obtain ⟨id, hj⟩ := exec_keepEarlier_journal t now
    have htarget : rollbackTarget req (t.keepEarlier now).journal = v := by
      rw [hj,rollbackTarget,keepEarlier_from]
      exact hv
    refine (goBack_meets hgo htarget fun _ => handOver_meets (fits_refuses _ _)).ends _ ?_
    rw [hj,← hc]
    exact keepEarlier_refuses hold id v
  have := hbody.outcome
  unfold rollback keepJournal
  rw [if_neg (by simp [hd])]
  exact this

def Does (e : Exec) (o : Op) (t : Exec) : Prop := t = e.after o

/-- The version that a rollback restores is given up by it exactly when it finds the last attempt at it.  A version that is
given up is not installed again: whatever is done with the journal afterwards, no run launches an installer for the same
release.  A version is given up by the attempt that reaches the ceiling and by the rollback that leaves it. -/
theorem given_up_versions (e : Exec) (k : Config) (p : Platform) (req : RollbackRequest) (now later : Time)
    (hd : k.dryRun = false) :
    (((rollback k p req now e).2.journal.recordSuccess later).Refuses (rollbackTarget req e.journal) ↔
      e.journal.Refuses (rollbackTarget req e.journal) ∨
      e.journal.LastAttempt now ∧ sameVersion e.journal.targetVersion (rollbackTarget req e.journal) = true) ∧
    (∀ ops t v, Run Does e ops t → e.journal.Refuses v → (e.saved.Refuses v ∨ ∀ o ∈ ops, o.isReload = false) →
      ∀ k p m now saves, sameVersion v m.version = true →
        installs (t.after (.run k p m now saves)).calls = installs t.calls) ∧
    (∀ reason maxAttempts now, trimSpace e.journal.targetVersion ≠ "" →
      ceiling maxAttempts ≤ ((e.journal.failuresOf (trimSpace e.journal.targetVersion) + 1 : ℕ) : Int) →
        (e.journal.recordFailure reason maxAttempts now).Refuses e.journal.targetVersion) ∧
    ∀ now target leaving, trimSpace leaving ≠ "" → sameVersion leaving target = false →
      (e.journal.startRollback now target leaving).Refuses leaving := by
  refine ⟨(refuses_congr (recordSuccess_poisoned _ _)).trans (rollback_refuses hd),?_,
    fun reason n now hv hn => recordFailure_refuses hv hn reason now,
    fun now target leaving hl hne =>
      refuses_iff.mpr ⟨trimSpace leaving,(lists_startRollback _ _ _ _ _).mpr (.inr ⟨hl,hne,rfl⟩),.inl rfl⟩⟩
  intro ops t v hrun hv hor k p m now saves hsame
  have hstart : Remembers v (e.saved.Refuses v) e := ⟨hv,id⟩
  have hlater : Remembers v (e.saved.Refuses v) t := by
    refine hrun.inv_mem hstart fun s o u ho hs => ?_
    rintro rfl
    exact hs.after (hor.imp_right fun hnone => hnone o ho)
  exact run_installs (e := t.answers saves) (hlater.memory.same hsame)

def olderPlatform (execute : Option String) : Platform :=
  { runningVersion := .ok "1.0.0"
    conditions := { localNow := 1900000000 * Time.second,minuteOfDay := 0 }
    captureRestoreMaterial := .ok ["agent-1.0.0.msi"]
    restoreMaterialFor := fun version => .ok version
    disarmBeforeUpdate := false
    disarm := none
    rearm := none
    execute := execute }

def attempt (execute : Option String) (seconds : Int) : Op :=
  .run { window := { localStart := "00:00",localEnd := "00:00" } } (olderPlatform execute) { version := "2.0.0" }
    (seconds * Time.second) []

def toSame : RollbackRequest := { toVersion := "2.0.0" }

def backToSame : Op :=
  .rollback { window := { localStart := "00:00",localEnd := "00:00" } } (olderPlatform none) toSame
    (1800100000 * Time.second) []

def newExec : Exec := { journal := newJournal,saved := newJournal }

/-- Two attempts at 2.0.0 failed and the third was interrupted. -/
def interruptedThird : Exec :=
  [attempt (some "no installer") 1800000000,attempt (some "no installer") 1800000060,attempt none 1800000120].foldl
    Exec.after newExec

/-- The rollback to 2.0.0 launches it, counts the third failure of 2.0.0, and leaves it given up when it has landed. -/
theorem restored_version_given_up :
    let s := interruptedThird.after backToSame
    let t := s.after (.reconcile (.ok "2.0.0") (1800100600 * Time.second))
    ¬ interruptedThird.journal.Refuses "2.0.0" ∧ Call.execute .rollback true ∈ s.calls ∧
      t.journal.phase = .rolledBack ∧ t.journal.targetVersion = "2.0.0" ∧ t.journal.Refuses "2.0.0" := by
  decide +kernel

def failedThird : Exec :=
  [attempt (some "no installer") 1800000000,attempt (some "no installer") 1800000060,
    attempt (some "no installer") 1800000120].foldl Exec.after newExec

/-- After three failures 2.0.0 is not launched again, also not as another build. -/
theorem third_failure_gives_up :
    installs (failedThird.after (.run { window := { localStart := "00:00",localEnd := "00:00" } } (olderPlatform none)
      { version := "2.0.0+7" } (1800000180 * Time.second) [])).calls = installs failedThird.calls := by
  have hthird := given_up_versions failedThird { window := { localStart := "00:00",localEnd := "00:00" } }
    (olderPlatform none) toSame 0 0 rfl
  refine hthird.2.1 [] failedThird "2.0.0" (.nil _) ?_ (.inr ?_) _ _ _ _ _ ?_
  · decide +kernel
  · exact fun _ ho => absurd ho List.not_mem_nil
  · decide +kernel

end DsseCore.AgentUpdate

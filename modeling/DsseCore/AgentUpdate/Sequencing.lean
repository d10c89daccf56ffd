import DsseCore.AgentUpdate.Runner

/-!
# The order of an update's steps

In every execution steering is taken down and an installer is launched only after the journal says so on disk, steering
that was taken down is put back once unless an installer runs, and a dry run touches nothing.
-/

namespace DsseCore.AgentUpdate

open Go Lib List Exec Proc

namespace Call

def steers : Call → Bool
  | disarm _ | rearm _ | execute _ _ => true
  | save _ _ | material _ _ => false

def isRearm : Call → Bool
  | rearm _ => true
  | save _ _ | material _ _ | disarm _ | execute _ _ => false

end Call

/-- The last thing that was done is a save, which succeeded, of a journal in this phase. -/
def JustSaved (phase : Phase) (done : List Call) : Prop := ∃ j, done.getLast? = some (.save j .saved) ∧ j.phase = phase

def Allowed (done : List Call) : Call → Prop
  | .disarm _ => JustSaved .disarmed done
  | .execute kind _ => JustSaved kind.launchPhase done ∧ .material kind true ∈ done
  | .rearm _ => .disarm true ∈ done
  | .save _ _ | .material _ _ => True

def Sequenced (calls : List Call) : Prop := ∀ done c rest, calls = done ++ c :: rest → Allowed done c

def rearms (calls : List Call) : ℕ := calls.countP Call.isRearm

variable {calls : List Call} {c : Call}

theorem sequenced_snoc (h : Sequenced calls) (hc : Allowed calls c) : Sequenced (calls ++ [c]) := by
  intro done d rest he
  rcases eq_nil_or_concat rest with rfl | ⟨rest', d', rfl⟩
  · obtain ⟨rfl, hd⟩ := append_inj' he rfl
    cases hd
    exact hc
  · rw [concat_eq_append,← cons_append,← append_assoc] at he
    exact h done d rest' (append_inj' he rfl).1

theorem sequenced_of_quiet (h : ∀ c ∈ calls, c.steers = false) : Sequenced calls := by
  rintro done c rest rfl
  have hc := h c (by simp)
  cases c with
  | save => trivial
  | material => trivial
  | disarm => cases hc
  | rearm => cases hc
  | execute => cases hc

@[simp] theorem rearms_snoc (calls : List Call) (c : Call) :
    rearms (calls ++ [c]) = rearms calls + if c.isRearm then 1 else 0 := by
  simp [rearms]

theorem rearms_of_quiet (h : ∀ c ∈ calls, c.steers = false) : rearms calls = 0 := by
  rw [rearms,countP_eq_zero]
  intro c hc
  cases c with
  | rearm => cases h _ hc
  | save => exact Bool.false_ne_true
  | material => exact Bool.false_ne_true
  | disarm => exact Bool.false_ne_true
  | execute => exact Bool.false_ne_true

def Quiet (e : Exec) : Prop := ∀ c ∈ e.calls, c.steers = false

variable {e : Exec}

theorem Quiet.snoc (h : Quiet e) (hc : c.steers = false) : Quiet (e.ask c) := by
  intro d hd
  rcases mem_append.mp hd with hd | hd
  · exact h d hd
  · rw [mem_singleton.mp hd]
    exact hc

theorem Quiet.written (h : Quiet e) (a : SaveAnswer) (rest : List SaveAnswer) : Quiet (e.written a rest) :=
  h.snoc (c := .save e.journal a) rfl

theorem Quiet.material (h : Quiet e) (kind : AttemptKind) (ok : Bool) : Quiet (e.ask (.material kind ok)) :=
  h.snoc rfl

theorem Quiet.change (h : Quiet e) (f : Journal → Journal) : Quiet (e.change f) := h

/-- Nothing has touched the machine, and what a rollback needs is there. -/
def Ready (kind : AttemptKind) (e : Exec) : Prop := Quiet e ∧ .material kind true ∈ e.calls

structure Steered (kind : AttemptKind) (e : Exec) : Prop where
  sequenced : Sequenced e.calls
  material : .material kind true ∈ e.calls
  down : e.disarmed = true → .disarm true ∈ e.calls ∧ rearms e.calls = 0
  restored : e.disarmed = false → .disarm true ∈ e.calls → rearms e.calls = 1
  running : e.launched = true → ∃ kind, .execute kind true ∈ e.calls

variable {kind : AttemptKind} {e : Exec}

theorem Ready.steered (h : Ready kind e) : Steered kind ((e.setDisarmed false).setLaunched false) where
  sequenced := sequenced_of_quiet h.1
  material := h.2
  down := nofun
  restored _ hd := absurd (h.1 _ hd) (by decide)
  running := nofun

namespace Steered

theorem change (h : Steered kind e) (f : Journal → Journal) : Steered kind (e.change f) :=
  ⟨h.sequenced,h.material,h.down,h.restored,h.running⟩

theorem ask (h : Steered kind e) (hc : Allowed e.calls c) (hd : c ≠ .disarm true) (hr : c.isRearm = false) :
    Steered kind (e.ask c) where
  sequenced := sequenced_snoc h.sequenced hc
  material := mem_append_left _ h.material
  down hdown := by
    have := h.down hdown
    refine ⟨mem_append_left _ this.1,?_⟩
    simp [Exec.ask,hr,this.2]
  restored hdown hmem := by
    have hmem : .disarm true ∈ e.calls := by
      rcases mem_append.mp hmem with hmem | hmem
      · exact hmem
      · exact absurd (mem_singleton.mp hmem).symm hd
    simp [Exec.ask,hr,h.restored hdown hmem]
  running hl := by
    obtain ⟨kind, hmem⟩ := h.running hl
    exact ⟨kind,mem_append_left _ hmem⟩

theorem written (h : Steered kind e) (a : SaveAnswer) (rest : List SaveAnswer) : Steered kind (e.written a rest) := by
  have := h.ask (c := .save e.journal a) trivial (by simp) rfl
  exact ⟨this.sequenced,this.material,this.down,this.restored,this.running⟩

theorem launch (h : Steered kind e) (hs : JustSaved kind.launchPhase e.calls) :
    Steered kind ((e.ask (.execute kind true)).setLaunched true) := by
  have := h.ask (c := .execute kind true) ⟨hs,h.material⟩ (by simp) rfl
  exact ⟨this.sequenced,this.material,this.down,this.restored,fun _ => ⟨kind,by simp [Exec.ask,Exec.setLaunched]⟩⟩

theorem rearm (h : Steered kind e) (hd : e.disarmed = true) (ok : Bool) :
    Steered kind ((e.ask (.rearm ok)).setDisarmed false) where
  sequenced := sequenced_snoc h.sequenced (h.down hd).1
  material := mem_append_left _ h.material
  down := nofun
  restored _ _ := by simp [Exec.ask,Exec.setDisarmed,(h.down hd).2,Call.isRearm]
  running hl := by
    obtain ⟨kind, hmem⟩ := h.running hl
    exact ⟨kind,mem_append_left _ hmem⟩

end Steered

theorem justSaved_written (e : Exec) (rest : List SaveAnswer) : JustSaved e.journal.phase (e.written .saved rest).calls :=
  ⟨e.journal,getLast?_concat,rfl⟩

variable {h : Handover} {p : Platform} {now : Time}

theorem takeDown_steered (he : Ready h.kind e) (hl : e.launched = false) (hd : e.disarmed = false) :
    (takeDown h p now).Ends e (fun _ t => Steered h.kind t ∧ t.launched = false) (fun _ t => Steered h.kind t) := by
  have hready : Ready h.kind (e.change (·.enter .disarmed now)) := ⟨he.1.change _,he.2⟩
  have hsteered : Steered h.kind (e.change (·.enter .disarmed now)) := by
    have := he.steered
    exact ⟨this.sequenced,this.material,fun h => absurd h (by simp [change,hd]),fun _ => this.restored rfl,
      fun h => absurd h (by simp [change,hl])⟩
  unfold takeDown
  simp only [ends_bind]
  refine Step.ends_save (by simp) (fun _ rest => ?_) fun _ a rest _ => hsteered.written a rest
  have hsaved := justSaved_written (e.change (·.enter .disarmed now)) rest
  have hquiet := hready.1.written .saved rest
  have hwritten := hsteered.written .saved rest
  cases p.disarm with
  | none =>
    refine ⟨⟨sequenced_snoc hwritten.sequenced hsaved,mem_append_left _ hwritten.material,fun _ => ?_,?_,?_⟩,hl⟩
    · refine ⟨by simp [ask,setDisarmed],?_⟩
      simp [ask,setDisarmed,rearms_of_quiet hquiet,Call.isRearm]
    · exact fun h => by cases h
    · exact fun h => absurd h (by simp [setDisarmed,ask,written,change,hl])
  | some derr =>
    have hasked := (hwritten.ask (c := .disarm false) hsaved (by simp) rfl).change (h.disarmFailed derr)
    simp only [ends_bind]
    exact Step.ends_save (by simp) (fun _ rest => hasked.written .saved rest) fun _ a rest _ => hasked.written a rest

theorem restoreSteering_steered (he : Steered kind e) :
    (restoreSteering p).Ends e (fun _ t => Steered kind t) (fun _ t => Steered kind t) := by
  unfold restoreSteering
  simp only [ends_bind,ends_get]
  split
  · have hasked := he.rearm ‹_›
    cases p.rearm with
    | none => exact hasked true
    | some rerr => exact hasked false
  · exact he

theorem launch_steered (he : Steered h.kind e) :
    (launch h p now).Ends e (fun _ t => Steered h.kind t) (fun _ t => Steered h.kind t) := by
  have hentered := he.change (·.enter h.kind.launchPhase now)
  unfold launch
  simp only [ends_bind]
  refine Step.ends_save (by simp) (fun _ rest => ?_) fun _ a rest _ => hentered.written a rest
  have hsaved := justSaved_written (e.change (·.enter h.kind.launchPhase now)) rest
  have hwritten := hentered.written .saved rest
  cases p.execute with
  | none => exact hwritten.launch hsaved
  | some xerr =>
    have hasked := hwritten.ask (c := .execute h.kind false) ⟨hsaved,hwritten.material⟩ (by simp) rfl
    refine (restoreSteering_steered hasked).bind fun steering t ht => ?_
    have hfailed := ht.change (h.launchFailed (failureWithSteering (h.launchFailure ++ xerr) steering))
    simp only [Step.change,ends_bind,ends_modify]
    refine Step.ends_trySave (by simp) fun _ a rest => ?_
    exact .leaveIf (fun _ => hfailed.written a rest) fun _ => hfailed.written a rest

theorem rearmDeferred_steered (he : Steered kind e) (r : Result) : Sequenced (rearmDeferred p r e).2.calls ∧
      (.disarm true ∈ (rearmDeferred p r e).2.calls → (∃ kind, .execute kind true ∈ (rearmDeferred p r e).2.calls) ∨
        rearms (rearmDeferred p r e).2.calls = 1) := by
  unfold rearmDeferred
  split
  · rename_i hd
    have hasked := fun ok => he.rearm hd.1 ok
    cases p.rearm with
    | none => exact ⟨(hasked true).sequenced,fun h => .inr ((hasked true).restored rfl h)⟩
    | some rerr =>
      obtain ⟨a, rest, hw⟩ := write_eq ((e.ask (.rearm false)).change fun j =>
        j.setFailureReason (failureWithSteering j.lastFailureReason (.unconfirmed rerr)))
      have hwritten := ((hasked false).change fun j =>
        j.setFailureReason (failureWithSteering j.lastFailureReason (.unconfirmed rerr))).written a rest
      dsimp only [Option.isNone]
      rw [hw]
      exact ⟨hwritten.sequenced,fun h => .inr (hwritten.restored rfl h)⟩
  · rename_i hd
    refine ⟨he.sequenced,fun hmem => ?_⟩
    cases hdown : e.disarmed with
    | false => exact .inr (he.restored hdown hmem)
    | true =>
      refine .inl (he.running ?_)
      simpa [hdown] using hd

def Returned (e : Exec) : Prop :=
  Sequenced e.calls ∧ (.disarm true ∈ e.calls → (∃ kind, .execute kind true ∈ e.calls) ∨ rearms e.calls = 1)

theorem Quiet.returned (he : Quiet e) : Returned e :=
  ⟨sequenced_of_quiet he,fun h => absurd (he _ h) (by decide)⟩

theorem Ready.returned (he : Ready kind e) : Returned e := he.1.returned

theorem Ready.written (e : Exec) (a : SaveAnswer) (rest : List SaveAnswer) (he : Ready kind e) :
    Ready kind (e.written a rest) := ⟨he.1.written a rest,mem_append_left _ he.2⟩

theorem handOver_returned : Meets (Ready h.kind) Returned Returned (handOver h p now) := by
  constructor
  intro e he
  have hready : Ready h.kind ((e.setDisarmed false).setLaunched false) := he
  have hbody : Ends (do
      onlyIf (p.disarmBeforeUpdate = true) (takeDown h p now)
      launch h p now) ((e.setDisarmed false).setLaunched false) (fun _ t => Steered h.kind t)
        (fun _ t => Steered h.kind t) := by
    refine Proc.Ends.bind (Proc.Ends.onlyIf (fun _ => ?_) fun _ => he.steered) fun _ t ht => launch_steered ht
    exact (takeDown_steered hready rfl rfl).mono (fun _ _ ht => ht.1) fun _ _ ht => ht
  exact rearmDeferred_steered hbody.outcome _

section Execution

variable (k : Config) (p : Platform) (now : Time)

theorem Returned.written (he : Returned e) (a : SaveAnswer) (rest : List SaveAnswer) :
    Returned (e.written a rest) := by
  refine ⟨sequenced_snoc he.1 trivial,fun hd => ?_⟩
  have hd : .disarm true ∈ e.calls := by simpa [Exec.written] using hd
  rcases he.2 hd with ⟨kind, hl⟩ | hr
  · exact .inl ⟨kind,mem_append_left _ hl⟩
  · refine .inr ?_
    simp [Exec.written,hr,Call.isRearm]

theorem runBody_returned (m : Manifest) : Meets Quiet Returned Returned (runBody k p m now) := by
  have hp : Prepares k m now Quiet (Ready .update) Returned :=
    { going := fun _ _ a rest h => h.written a rest
      ready := fun _ => Ready.written
      done := fun _ _ a rest h => h.written a rest
      goingDone := fun _ => Quiet.returned
      readyDone := fun _ => Ready.returned
      failed := fun _ h => (h.change _).returned
      begin := fun _ _ h => h.change _
      setFrom := fun _ _ h => h.change _
      wait := fun _ _ h => h.change _
      notCaptured := fun _ h => (h.material _ _).returned
      captured := fun _ _ h => ⟨(h.material _ _).change _,by simp [ask,change]⟩ }
  exact runBody_meets hp fun _ => handOver_returned (h := updateHandover k m now)

theorem Quiet.keepEarlier (h : Quiet e) : Quiet (e.keepEarlier now) := by
  unfold Exec.keepEarlier
  split
  · exact h.change (·.keepEarlier now (newReportID now (e.reportSeq + 1)))
  · exact h

theorem rollbackBody_returned (req : RollbackRequest) :
    Meets Quiet Returned Returned (rollbackBody k p req now) := by
  have hr : RollsBack req now (leavingVersion p req) (fun _ => True) Quiet (Ready .rollback) (Ready .rollback) Returned :=
    { written := Ready.written
      goingDone := fun _ => Quiet.returned
      readyDone := fun _ => Ready.returned
      begunDone := fun _ => Ready.returned
      keep := fun _ h => h.keepEarlier now
      target := fun _ _ => trivial
      notFound := fun _ h => (h.material _ _).returned
      found := fun _ h => ⟨h.material _ _,by simp [ask]⟩
      start := fun _ _ _ h => ⟨h.1.change _,h.2⟩ }
  exact rollbackBody_meets hr fun target _ _ => handOver_returned (h := rollbackHandover now target _)

end Execution

section DryRun

variable {k : Config} (p : Platform) (now : Time) {saved : Journal}

/-- A dry run has touched neither the machine nor the disk. -/
def Untouched (saved : Journal) (e : Exec) : Prop := Quiet e ∧ e.saved = saved

theorem Untouched.change (h : Untouched saved e) (f : Journal → Journal) : Untouched saved (e.change f) := h

theorem Untouched.material (h : Untouched saved e) (kind : AttemptKind) (ok : Bool) :
    Untouched saved (e.ask (.material kind ok)) := ⟨h.1.material kind ok,h.2⟩

theorem Untouched.keepEarlier (h : Untouched saved e) : Untouched saved (e.keepEarlier now) := by
  refine ⟨h.1.keepEarlier now,?_⟩
  unfold Exec.keepEarlier
  split
  · exact h.2
  · exact h.2

theorem runBody_dry (m : Manifest) (hd : k.dryRun = true) :
    Meets (Untouched saved) (Untouched saved) (Untouched saved) (runBody k p m now) := by
  have hwet : ∀ {P : Prop}, k.dryRun = false → P := fun h => absurd (hd.symm.trans h) (by decide)
  have hp : Prepares k m now (Untouched saved) (Untouched saved) (Untouched saved) :=
    { going := fun h => hwet h
      ready := fun h => hwet h
      done := fun h => hwet h
      goingDone := fun _ h => h
      readyDone := fun _ h => h
      failed := fun _ h => h.change _
      begin := fun _ _ h => h.change _
      setFrom := fun _ _ h => h.change _
      wait := fun _ _ h => h.change _
      notCaptured := fun _ h => h.material _ _
      captured := fun _ _ h => (h.material _ _).change _ }
  exact runBody_meets hp fun h => hwet h

theorem rollbackBody_dry (req : RollbackRequest) (hd : k.dryRun = true) :
    Meets (Untouched saved) (Untouched saved) (Untouched saved) (rollbackBody k p req now) := by
  refine .bind (Step.meets_journal fun _ h => h) fun j => ?_
  refine .bind (.leaveIf fun _ h => h) fun _ => ?_
  refine .bind (.modify fun _ h => h.keepEarlier now) fun _ => ?_
  refine .bind (Step.meets_journal fun _ h => h) fun j => ?_
  refine .bind (.leaveIf fun _ h => h) fun _ => ?_
  refine .bind (.leaveIf fun _ h => h) fun _ => ?_
  refine .bind (.leaveIf fun _ h => h) fun _ => ?_
  refine .bind (findMaterial_meets (fun _ h => h.material _ _) fun _ h => h.material _ _) fun _ => ?_
  -- a dry run returns here
  rw [hd]
  exact ⟨fun _ h => h⟩

theorem keepJournal_returned {dry : Bool} {before : Exec} {x : Result × Exec} (hr : Returned x.2)
    (hd : dry = true → Untouched saved x.2) :
    Returned (keepJournal dry before x).2 ∧
      (dry = true → Untouched saved (keepJournal dry before x).2 ∧ (keepJournal dry before x).2.journal = before.journal) := by
  cases dry with
  | true => exact ⟨hr,fun _ => ⟨(hd rfl).change _,rfl⟩⟩
  | false => exact ⟨hr,nofun⟩

end DryRun

inductive Command where
  | run (m : Manifest)
  | rollback (req : RollbackRequest)

def Command.execute (k : Config) (p : Platform) (now : Time) : Command → Exec → Result × Exec
  | run m, e => AgentUpdate.run k p m now e
  | rollback req, e => AgentUpdate.rollback k p req now e

def Exec.start (journal saved : Journal) (saves : List SaveAnswer) (reportSeq : ℕ) : Exec :=
  { journal := journal,saved := saved,saves := saves,reportSeq := reportSeq }

/-- Whatever the platform and the disk answer, the calls of an execution of `Run` or `Rollback` come in their order:
steering is taken down right after the phase that says so was saved, an installer starts right after its phase was saved
and with the restore material at hand, steering that was taken down is put back exactly once unless an installer
started, and a dry run does neither and leaves both journals as they were. -/
theorem steps_in_order (c : Command) (k : Config) (p : Platform) (now : Time) (journal saved : Journal)
    (saves : List SaveAnswer) (reportSeq : ℕ) :
    let t := (c.execute k p now (.start journal saved saves reportSeq)).2
    Sequenced t.calls ∧
      (.disarm true ∈ t.calls → (∀ kind, .execute kind true ∉ t.calls) → rearms t.calls = 1) ∧
      (k.dryRun = true → (∀ ok, .disarm ok ∉ t.calls) ∧ (∀ kind ok, .execute kind ok ∉ t.calls) ∧
        t.journal = journal ∧ t.saved = saved) := by
  intro t
  have hquiet : Quiet (.start journal saved saves reportSeq) := fun c hc => absurd hc not_mem_nil
  have hcalls : Returned t ∧ (k.dryRun = true → Untouched saved t ∧ t.journal = journal) := by
    cases c with
    | run m =>
      exact keepJournal_returned ((runBody_returned k p now m).outcome hquiet)
        fun hd => (runBody_dry p now m hd).outcome ⟨hquiet,rfl⟩
    | rollback req =>
      exact keepJournal_returned ((rollbackBody_returned k p now req).outcome hquiet)
        fun hd => (rollbackBody_dry p now req hd).outcome ⟨hquiet,rfl⟩
  obtain ⟨⟨hseq, hrearm⟩, hdry⟩ := hcalls
  refine ⟨hseq,fun hd hl => ?_,fun hd => ?_⟩
  · rcases hrearm hd with ⟨kind, hk⟩ | hr
    · exact absurd hk (hl kind)
    · exact hr
  obtain ⟨⟨hq, hs⟩, hj⟩ := hdry hd
  exact ⟨fun ok hmem => Bool.noConfusion (hq _ hmem),
    fun kind ok hmem => Bool.noConfusion (hq _ hmem),hj,hs⟩

end DsseCore.AgentUpdate

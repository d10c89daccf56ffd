import DsseCore.AgentUpdate.Journal
import DsseCore.AgentUpdate.Rollout
import DsseCore.Go.TimeFormat

/-!
# The replay floor

The device keeps the time of the newest plan it accepted and hands it back with the next load.  The time is kept as text,
in whole seconds.
-/

namespace DsseCore.AgentUpdate

open Go Time

section Model

structure Reader where
  codec : Codec
  keys : List String
  identity : String
  tenant : String

structure Load where
  now : Time
  file : PlanFile
  version : String := ""
  maxAge : Int := 0

variable (d : Reader) (j : Journal) (l : Load)

def Load.expectation : RolloutExpectation :=
  { version := l.version
    notBefore := j.acceptedPlanFloor
    maxAge := l.maxAge
    deviceIdentity := d.identity
    tenantID := d.tenant }

def Load.rollout : Rollout := loadRollout l.now (l.expectation d j) d.codec d.keys l.file

def afterLoad : Journal := (j.acceptPlanFloor (l.rollout d j).planGeneratedAt).1

def afterLoads (loads : List Load) : Journal := loads.foldl (afterLoad d) newJournal

def Load.Finds (p : RolloutPlan) : Prop := Holds d.codec d.keys l.file p

def Reader.owns (p : RolloutPlan) : Prop := addressedElsewhere p (l.expectation d j) = false

/-- A plan for this device that a load accepts: it is dated, and not past the tolerance. -/
structure Accepts (p : RolloutPlan) : Prop where
  finds : l.Finds d p
  owns : d.owns newJournal l p
  dated : p.generated ≠ zero
  past : fromFuture p l.now = false

def startOfSecond (t : Int) : Int := t.fdiv second * second

end Model

variable {d : Reader} {j : Journal} {l : Load} {p : RolloutPlan}

theorem startOfSecond_le (t : Int) : startOfSecond t ≤ t := by
  rw [startOfSecond,second,Int.fdiv_eq_ediv_of_nonneg _ (by omega)]
  omega

theorem startOfSecond_mono {t u : Int} (h : t ≤ u) : startOfSecond t ≤ startOfSecond u := by
  rw [startOfSecond,startOfSecond,second,Int.fdiv_eq_ediv_of_nonneg _ (by omega),
    Int.fdiv_eq_ediv_of_nonneg _ (by omega)]
  omega

@[simp] theorem startOfSecond_idem (t : Int) : startOfSecond (startOfSecond t) = startOfSecond t := by
  simp only [startOfSecond,second,Int.fdiv_eq_ediv_of_nonneg _ (show (0 : Int) ≤ 1000000000 by omega)]
  omega

theorem startOfSecond_zero : startOfSecond zero = zero := by decide

theorem acceptedPlanFloor_written {t : Time} (ht : zero < t) :
    ({ j with planGeneratedAt := stamp t } : Journal).acceptedPlanFloor =
      if Writable t then startOfSecond t else zero := by
  unfold Journal.acceptedPlanFloor stamp
  split
  · rename_i hw
    rw [parse_formatRFC3339 hw]
    rfl
  rename_i hw
  rw [parse_formatRFC3339_late (late_of_not_writable ht hw)]
  rfl

theorem acceptPlanFloor_floor (j : Journal) (t : Time) (h0 : zero ≤ j.acceptedPlanFloor) :
    (j.acceptPlanFloor t).1.acceptedPlanFloor =
      if j.acceptedPlanFloor < t then if Writable t then startOfSecond t else zero else j.acceptedPlanFloor := by
  unfold Journal.acceptPlanFloor
  by_cases ht : j.acceptedPlanFloor < t
  · have hzero : t.isZero = false := by
      rw [isZero,beq_eq_false_iff_ne]
      exact (lt_of_le_of_lt h0 ht).ne'
    rw [if_pos ht,hzero,if_neg (by simp [ht])]
    exact acceptedPlanFloor_written (lt_of_le_of_lt h0 ht)
  · rw [if_neg ht,if_pos (by simp [ht])]

theorem planGeneratedAt_cases (d : Reader) (j : Journal) (l : Load) :
    (l.rollout d j).planGeneratedAt = zero ∨
      ∃ p, Accepts d l p ∧ replayed p (l.expectation d j) = false ∧ (l.rollout d j).planGeneratedAt = p.generated := by
  unfold Load.rollout
  rcases loadRollout_cases d.codec d.keys l.file l.now (l.expectation d j) with h | ⟨p, hp⟩ | ⟨why, hwhy⟩
  · exact .inl (by rw [h]; rfl)
  · obtain ⟨since, -, hd⟩ := decideRollout_of_holds l.now (l.expectation d j) hp
    rw [hp.loadRollout,hd]
    split
    · exact .inl rfl
    rename_i hf
    split
    · exact .inl rfl
    rename_i hr
    dsimp only
    split
    · exact .inl rfl
    rename_i helsewhere
    have howns : d.owns newJournal l p := Bool.eq_false_iff.mpr helsewhere
    by_cases hzero : p.generated = zero
    · exact .inl hzero
    · exact .inr ⟨p,⟨hp,howns,hzero,by simpa using hf⟩,by simpa using hr,rfl⟩
  · exact .inl (by rw [hwhy]; rfl)

theorem planGeneratedAt_of_accepts (h : Accepts d l p) (hr : replayed p (l.expectation d j) = false) :
    (l.rollout d j).planGeneratedAt = p.generated := by
  obtain ⟨since, -, hd⟩ := decideRollout_of_holds l.now (l.expectation d j) h.finds
  have howns : addressedElsewhere p (l.expectation d j) = false := h.owns
  rw [Load.rollout,Holds.loadRollout h.finds,hd,h.past,hr,howns]
  rfl

theorem replay_iff (hp : l.Finds d p) (howns : d.owns j l p) :
    (l.rollout d j).err = some .replay ↔ p.generated ≠ zero ∧ fromFuture p l.now = false ∧
      j.acceptedPlanFloor ≠ zero ∧ p.generated < j.acceptedPlanFloor := by
  obtain ⟨since, -, hd⟩ := decideRollout_of_holds l.now (l.expectation d j) hp
  have hreplayed : replayed p (l.expectation d j) = true ↔
      j.acceptedPlanFloor ≠ zero ∧ p.generated ≠ zero ∧ p.generated < j.acceptedPlanFloor := by
    have hfloor : (l.expectation d j).notBefore = j.acceptedPlanFloor := rfl
    rw [replayed,howns,hfloor]
    simp only [Bool.not_false,Bool.true_and,Bool.and_eq_true,Bool.not_eq_true',isZero,beq_eq_false_iff_ne,
      decide_eq_true_iff,and_assoc]
  rw [Load.rollout,Holds.loadRollout hp,hd]
  cases hf : fromFuture p l.now with
  | true => simp
  | false =>
    cases hr : replayed p (l.expectation d j) with
    | true =>
      obtain ⟨h0, hz, hlt⟩ := hreplayed.mp hr
      simp [frozenBy,h0,hz,hlt]
    | false =>
      have : ¬ (j.acceptedPlanFloor ≠ zero ∧ p.generated ≠ zero ∧ p.generated < j.acceptedPlanFloor) := by
        rw [← hreplayed,hr]
        exact Bool.false_ne_true
      constructor
      · intro h
        cases h
      · rintro ⟨hz, -, h0, hlt⟩
        exact absurd ⟨h0,hz,hlt⟩ this

section Sequence

variable (d : Reader)

structure Floor (done : List Load) (j : Journal) : Prop where
  /-- The floor is a second, not before the zero time. -/
  second : startOfSecond j.acceptedPlanFloor = j.acceptedPlanFloor
  low : zero ≤ j.acceptedPlanFloor
  /-- It is that of an accepted plan. -/
  from' : j.acceptedPlanFloor = zero ∨
    ∃ l ∈ done, ∃ p, Accepts d l p ∧ j.acceptedPlanFloor = startOfSecond p.generated
  /-- No accepted plan is from a later second, as long as their years can be written. -/
  high : (∀ l ∈ done, ∀ p, Accepts d l p → Writable p.generated) →
    ∀ l ∈ done, ∀ p, Accepts d l p → startOfSecond p.generated ≤ j.acceptedPlanFloor

theorem floor_new : Floor d [] newJournal := by
  have h : newJournal.acceptedPlanFloor = zero := by decide +kernel
  exact ⟨by rw [h,startOfSecond_zero],h.ge,.inl h,fun _ l hl => absurd hl List.not_mem_nil⟩

variable {d} {done : List Load}

theorem Floor.stay {j' : Journal} (h : Floor d done j) (hj : j'.acceptedPlanFloor = j.acceptedPlanFloor)
    (hl : (∀ p, Accepts d l p → Writable p.generated) → ∀ p, Accepts d l p → startOfSecond p.generated ≤ j.acceptedPlanFloor) :
    Floor d (done ++ [l]) j' := by
  refine ⟨by rw [hj,h.second],by rw [hj]; exact h.low,?_,fun hw l' hl' p hp => ?_⟩
  · rw [hj]
    refine h.from'.imp id ?_
    rintro ⟨l', hl', p, hp⟩
    exact ⟨l',List.mem_append_left _ hl',p,hp⟩
  · rw [hj]
    rcases List.mem_append.mp hl' with hl' | hl'
    · exact h.high (fun l' hl' => hw l' (List.mem_append_left _ hl')) l' hl' p hp
    · rw [List.mem_singleton.mp hl'] at hp
      exact hl (hw l (by simp)) p hp

theorem Accepts.unique {q : RolloutPlan} (h : Accepts d l p) (h' : Accepts d l q) : p = q :=
  holds_unique h.finds h'.finds

theorem Floor.load (h : Floor d done j) (l : Load) : Floor d (done ++ [l]) (afterLoad d j l) := by
  have hafter : (afterLoad d j l).acceptedPlanFloor = _ :=
    acceptPlanFloor_floor j (l.rollout d j).planGeneratedAt h.low
  by_cases hlt : j.acceptedPlanFloor < (l.rollout d j).planGeneratedAt
  · -- the floor moves to the second of the plan
    rw [if_pos hlt] at hafter
    rcases planGeneratedAt_cases d j l with h0 | ⟨p, hp, -, hgen⟩
    · exact absurd hlt (by rw [h0]; exact not_lt.mpr h.low)
    rw [hgen] at hafter hlt
    have hsecond : j.acceptedPlanFloor ≤ startOfSecond p.generated := h.second ▸ startOfSecond_mono hlt.le
    split at hafter
    · refine ⟨by rw [hafter,startOfSecond_idem],by rw [hafter]; exact h.low.trans hsecond,
        .inr ⟨l,by simp,p,hp,hafter⟩,fun hw l' hl' q hq => ?_⟩
      rw [hafter]
      rcases List.mem_append.mp hl' with hl' | hl'
      · exact (h.high (fun l' hl' => hw l' (List.mem_append_left _ hl')) l' hl' q hq).trans hsecond
      · rw [List.mem_singleton.mp hl'] at hq
        rw [hq.unique hp]
    · rename_i hnot
      refine ⟨by rw [hafter,startOfSecond_zero],hafter.ge,.inl hafter,fun hw => ?_⟩
      exact absurd (hw l (by simp) p hp) hnot
  · rw [if_neg hlt] at hafter
    refine h.stay hafter fun _ p hp => ?_
    cases hr : replayed p (l.expectation d j) with
    | false =>
      rw [planGeneratedAt_of_accepts hp hr,not_lt] at hlt
      exact (startOfSecond_le _).trans hlt
    | true =>
      have hbefore : p.generated < j.acceptedPlanFloor := by
        simp only [replayed,Bool.and_eq_true,decide_eq_true_eq] at hr
        exact hr.2
      exact (startOfSecond_le _).trans hbefore.le

theorem floor_afterLoads (d : Reader) (done : List Load) : Floor d done (afterLoads d done) := by
  induction done using List.reverseRecOn with
  | nil => exact floor_new d
  | append_singleton done l ih =>
    rw [afterLoads,List.foldl_append]
    exact ih.load l

def Outdated (d : Reader) (done : List Load) (p : RolloutPlan) : Prop :=
  ∃ l ∈ done, ∃ q, Accepts d l q ∧ p.generated < q.generated

/-- A plan of this device's past that the floor can tell apart: it is dated, not past the tolerance when it is loaded, and
from before the second of a plan that was accepted. -/
def Recognised (d : Reader) (done : List Load) (l : Load) (p : RolloutPlan) : Prop :=
  p.generated ≠ zero ∧ fromFuture p l.now = false ∧
    ∃ e ∈ done, ∃ q, Accepts d e q ∧ zero < startOfSecond q.generated ∧ p.generated < startOfSecond q.generated

/-- Whatever was loaded before, a plan for this device that is at least as new as every accepted one is never frozen as
a replay.  When the years of the accepted plans can be written, a plan older than an accepted one is frozen as a replay
exactly when the floor can tell it apart. -/
theorem replay_floor (d : Reader) (done : List Load) (l : Load) (p : RolloutPlan) (hp : l.Finds d p)
    (howns : d.owns newJournal l p) :
    ((∀ e ∈ done, ∀ q, Accepts d e q → q.generated ≤ p.generated) →
      (l.rollout d (afterLoads d done)).err ≠ some .replay) ∧
    ((∀ e ∈ done, ∀ q, Accepts d e q → Writable q.generated) →
      ((Outdated d done p → (l.rollout d (afterLoads d done)).err = some .replay) ↔
        (Outdated d done p → Recognised d done l p))) := by
  have hfloor := floor_afterLoads d done
  have hiff := replay_iff (j := afterLoads d done) hp howns
  refine ⟨fun hnewest hreplay => ?_,fun hw => ?_⟩
  · obtain ⟨-, -, h0, hlt⟩ := hiff.mp hreplay
    rcases hfloor.from' with hz | ⟨e, he, q, hq, hfrom⟩
    · exact h0 hz
    · rw [hfrom] at hlt
      exact absurd (hnewest e he q hq) (not_le.mpr (hlt.trans_le (startOfSecond_le _)))
  · have hrecognised : (l.rollout d (afterLoads d done)).err = some .replay ↔ Recognised d done l p := by
      rw [hiff]
      refine and_congr_right fun _ => and_congr_right fun _ => ⟨?_,?_⟩
      · rintro ⟨h0, hlt⟩
        rcases hfloor.from' with hz | ⟨e, he, q, hq, hfrom⟩
        · exact absurd hz h0
        · rw [hfrom] at hlt
          exact ⟨e,he,q,hq,hfrom ▸ lt_of_le_of_ne hfloor.low h0.symm,hlt⟩
      · rintro ⟨e, he, q, hq, hpos, hlt⟩
        have hle := hfloor.high hw e he q hq
        exact ⟨(hpos.trans_le hle).ne',hlt.trans_le hle⟩
    rw [hrecognised]

/-- A document is its own time: a bare plan with nothing else in it. -/
def datedCodec : Codec where
  json raw := some (.obj [("schema_version",.str RolloutPlanSchema), ("generated_at",.str raw)])
  base64 _ := none
  acceptedKey _ := false
  verify _ _ := none

def datedReader : Reader := ⟨datedCodec,[],"device-1","tenant-1"⟩

def datedPlan (at' : String) : RolloutPlan := { schemaVersion := RolloutPlanSchema,generatedAt := at' }

def datedLoad (at' : String) : Load := { now := 1786449600 * second,file := .content at' }

theorem finds_dated (at' : String) (hplan : decodeRolloutPlan datedCodec at' = some (datedPlan at'))
    (hform : decodeEnvelope datedCodec at' = none) (hdate : (parseRFC3339 at').isSome = true) :
    (datedLoad at').Finds datedReader (datedPlan at') := .bare hform hplan (.inr hdate)

/-- A plan of 10:00:00.2 is outdated by one of 10:00:00.5 and is not frozen. -/
theorem same_second_not_frozen :
    Outdated datedReader [datedLoad "2026-08-11T10:00:00.5Z"] (datedPlan "2026-08-11T10:00:00.2Z") ∧
      (datedLoad "2026-08-11T10:00:00.2Z").Finds datedReader (datedPlan "2026-08-11T10:00:00.2Z") ∧
      ((datedLoad "2026-08-11T10:00:00.2Z").rollout datedReader
        (afterLoads datedReader [datedLoad "2026-08-11T10:00:00.5Z"])).frozen = false := by
  refine ⟨⟨_,List.mem_singleton.mpr rfl,datedPlan "2026-08-11T10:00:00.5Z",⟨?_,?_,?_,?_⟩,?_⟩,?_,?_⟩
  · exact finds_dated _ (by decide +kernel) (by decide +kernel) (by decide +kernel)
  · exact (by decide +kernel :
      addressedElsewhere (datedPlan "2026-08-11T10:00:00.5Z") ((datedLoad "").expectation datedReader newJournal) = false)
  · decide +kernel
  · decide +kernel
  · decide +kernel
  · exact finds_dated _ (by decide +kernel) (by decide +kernel) (by decide +kernel)
  · decide +kernel

/-- A plan of the second before is frozen. -/
theorem replay_floor_second_before :
    (datedLoad "2026-08-11T09:59:59.9Z").Finds datedReader (datedPlan "2026-08-11T09:59:59.9Z") ∧
      ((Outdated datedReader [datedLoad "2026-08-11T10:00:00.5Z"] (datedPlan "2026-08-11T09:59:59.9Z") →
        ((datedLoad "2026-08-11T09:59:59.9Z").rollout datedReader
          (afterLoads datedReader [datedLoad "2026-08-11T10:00:00.5Z"])).err = some .replay) ↔
      (Outdated datedReader [datedLoad "2026-08-11T10:00:00.5Z"] (datedPlan "2026-08-11T09:59:59.9Z") →
        Recognised datedReader [datedLoad "2026-08-11T10:00:00.5Z"] (datedLoad "2026-08-11T09:59:59.9Z")
          (datedPlan "2026-08-11T09:59:59.9Z"))) := by
  have hfinds := finds_dated "2026-08-11T09:59:59.9Z" (by decide +kernel) (by decide +kernel) (by decide +kernel)
  have howns : datedReader.owns newJournal (datedLoad "2026-08-11T09:59:59.9Z") (datedPlan "2026-08-11T09:59:59.9Z") :=
    (by decide +kernel :
      addressedElsewhere (datedPlan "2026-08-11T09:59:59.9Z") ((datedLoad "").expectation datedReader newJournal) = false)
  refine ⟨hfinds,(replay_floor datedReader [datedLoad "2026-08-11T10:00:00.5Z"] _ _ hfinds howns).2 fun e he q hq => ?_⟩
  rw [List.mem_singleton.mp he] at hq
  have hq' := finds_dated "2026-08-11T10:00:00.5Z" (by decide +kernel) (by decide +kernel) (by decide +kernel)
  rw [holds_unique hq.finds hq']
  decide +kernel

end Sequence

end DsseCore.AgentUpdate

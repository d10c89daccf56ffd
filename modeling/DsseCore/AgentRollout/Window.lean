import DsseCore.AgentRollout.Plan

/-!
# The maintenance window of a plan

The window of a plan is folded over the window of the device and never makes its conditions easier.  The gate then lets
an update through as the window says, as long as its idle time and its deadline fit the 64 bits of a duration.
-/

namespace DsseCore.AgentRollout

open Go AgentUpdate Option

def raiseWindow (device : MaintenanceWindow) (plan : PlanWindow) : MaintenanceWindow where
  localStart := if trimSpace plan.localStart ≠ "" then plan.localStart else device.localStart
  localEnd := if trimSpace plan.localEnd ≠ "" then plan.localEnd else device.localEnd
  requireIdleMinutes :=
    if device.requireIdleMinutes < plan.requireIdleMinutes then plan.requireIdleMinutes else device.requireIdleMinutes
  requireUnattended := if plan.requireUnattended then true else device.requireUnattended
  requireACPower := if plan.requireACPower then true else device.requireACPower
  deadlineDays := if 0 < plan.deadlineDays then plan.deadlineDays else device.deadlineDays

/-- Nothing holds the update back, and its wave has started. -/
structure Free (c : DeviceConditions) : Prop where
  hold : trimSpace c.planHold = ""
  frozen : c.frozen = false
  started : c.eligibleSince.isZero = true ∨ c.eligibleSince ≤ c.localNow

/-- The conditions on the device, each known and satisfied. -/
structure Met (w : MaintenanceWindow) (c : DeviceConditions) : Prop where
  idle : 0 < w.requireIdleMinutes → c.idleKnown = true ∧ w.requireIdleMinutes * minute ≤ c.idleFor
  unattended : w.requireUnattended = true → c.inUseKnown = true ∧ c.inUse = false
  power : w.requireACPower = true → c.powerKnown = true ∧ c.onACPower = true

/-- The minute lies between the ends, past midnight if they are so ordered; equal ends are the whole day. -/
def Between (start stop minute : Int) : Prop := (minute - start) % 1440 < (stop - start - 1) % 1440 + 1

structure GateExact (w : MaintenanceWindow) (c : DeviceConditions) : Prop where
  proceeds : evaluateGate w c = .proceed false → Free c ∧ Met w c ∧ ∃ start stop, parseHHMM w.localStart = some start ∧
    parseHHMM w.localEnd = some stop ∧ Between start stop c.minuteOfDay
  forced : evaluateGate w c = .proceed true → Free c ∧ w.deadlineDays * (24 * hour) ≤ c.localNow - c.eligibleSince

/-- A device in the window that was idle for the time the gate computes. -/
def idleDevice (w : MaintenanceWindow) (start : Int) : DeviceConditions where
  localNow := Time.zero
  minuteOfDay := start
  idleFor := duration w.requireIdleMinutes minute
  idleKnown := true
  inUseKnown := true
  onACPower := true
  powerKnown := true

variable {w device : MaintenanceWindow} {plan : PlanWindow} {c : DeviceConditions}

theorem duration_eq {n unit : Int} (h0 : 0 ≤ n * unit) (h : n * unit < 2 ^ 63) : duration n unit = n * unit := by
  unfold duration
  rw [Int.bmod_def]
  omega

theorem evaluateGate_proceed {forced : Bool} (h : evaluateGate w c = .proceed forced) :
    Free c ∧ if forced then deadlinePassed w c = true else windowHolds w c = none := by
  unfold evaluateGate at h
  split at h
  · cases h
  rename_i hhold
  split at h
  · cases h
  rename_i hfrozen
  split at h
  · cases h
  rename_i hstarted
  have hfree : Free c := by
    refine ⟨not_not.mp hhold,by simpa using hfrozen,?_⟩
    simpa [or_iff_not_imp_left] using hstarted
  split at h
  · rename_i hnone
    cases h
    exact ⟨hfree,hnone⟩
  split at h
  · rename_i hpassed
    cases h
    exact ⟨hfree,hpassed⟩
  · cases h

theorem windowHolds_none : windowHolds w c = none ↔ inLocalWindow w.localStart w.localEnd c.minuteOfDay = some true ∧
    (0 < w.requireIdleMinutes → c.idleKnown = true ∧ duration w.requireIdleMinutes minute ≤ c.idleFor) ∧
    (w.requireUnattended = true → c.inUseKnown = true ∧ c.inUse = false) ∧
    (w.requireACPower = true → c.powerKnown = true ∧ c.onACPower = true) := by
  unfold windowHolds
  simp only [ite_eq_iff,reduceCtorEq,and_false,false_or,ne_eq,not_not,Bool.and_eq_true,decide_eq_true_eq,
    Bool.not_eq_true',not_and,Bool.not_eq_false,not_lt,and_true]
  grind

theorem parseHHMM_bounds {v : String} {n : Int} (h : parseHHMM v = some n) : 0 ≤ n ∧ n < 1440 := by
  unfold parseHHMM at h
  simp only [bind_eq_bind,bind_eq_some_iff,ite_none_left_eq_some,Bool.or_eq_true,decide_eq_true_eq,
    not_or,not_lt,some.injEq] at h
  obtain ⟨_, _, hh, _, mm, _, hbounds, rfl⟩ := h
  omega

theorem inLocalWindow_true {start stop : String} {cur : Int} (h : inLocalWindow start stop cur = some true)
    (h0 : 0 ≤ cur) (h1 : cur < 1440) :
    ∃ s e, parseHHMM start = some s ∧ parseHHMM stop = some e ∧ Between s e cur := by
  unfold inLocalWindow at h
  simp only [bind_eq_bind,bind_eq_some_iff] at h
  obtain ⟨s, hs, e, he, h⟩ := h
  have hs' := parseHHMM_bounds hs
  have he' := parseHHMM_bounds he
  refine ⟨s,e,hs,he,?_⟩
  unfold Between
  split at h
  · omega
  split at h
  · simp at h
    omega
  · simp at h
    omega

theorem decimal?_colon {l : List Char} (h : ':' ∈ l) : decimal? l = none := by
  obtain ⟨s, t, rfl⟩ := List.append_of_mem h
  have hcolon : ∀ acc, addDigit acc ':' = none := fun acc => by cases acc <;> rfl
  rw [decimal?_eq (by simp),List.foldl_append,List.foldl_cons,hcolon]
  exact List.foldl_fixed' (fun _ => rfl) t

theorem atoi_colon {s : String} (h : ':' ∈ s.toList) : atoi s = none := by
  unfold atoi
  split
  · rename_i l hl
    rw [decimal?_colon (by simpa [hl] using h)]
    rfl
  · rename_i l hl
    rw [decimal?_colon (by simpa [hl] using h)]
    rfl
  · rw [decimal?_colon h]
    rfl

theorem isLocalClock_parse {v : String} (h : isLocalClock v = true) : trimSpace v ≠ "" ∧ ∃ n, parseHHMM v = some n := by
  unfold isLocalClock at h
  split at h
  · rename_i h₁ h₂ m₁ m₂ hv
    rw [Bool.and_eq_true,any_eq_true,any_eq_true] at h
    obtain ⟨⟨hh, hhour, hh'⟩, mm, hminute, hm'⟩ := h
    have hno : ':' ∉ [h₁,h₂] := by
      intro hmem
      rw [atoi_colon (by rwa [String.toList_ofList])] at hhour
      cases hhour
    have hcut : cut (trimSpace v) ":" = some (String.ofList [h₁,h₂],String.ofList [m₁,m₂]) := by
      simp only [List.mem_cons,not_or] at hno
      simp [cut,cutList,hv,hno]
    refine ⟨fun he => ?_,hh * 60 + mm,?_⟩
    · rw [he] at hv
      cases hv
    rw [Bool.and_eq_true,decide_eq_true_eq,decide_eq_true_eq] at hh' hm'
    simp only [parseHHMM,hcut,bind_eq_bind,bind_some,hhour,hminute]
    rw [if_neg]
    simp only [Bool.or_eq_true,decide_eq_true_eq]
    omega
  · cases h

theorem raiseWindow_ends (h : validateWindow (some plan) = .ok ()) : ∃ start stop,
    parseHHMM (raiseWindow device plan).localStart = some start ∧ parseHHMM (raiseWindow device plan).localEnd = some stop := by
  have hclock : isLocalClock plan.localStart = true ∧ isLocalClock plan.localEnd = true := by
    by_contra hc
    rw [validateWindow] at h
    grind
  obtain ⟨hne, start, hstart⟩ := isLocalClock_parse hclock.1
  obtain ⟨hne', stop, hstop⟩ := isLocalClock_parse hclock.2
  exact ⟨start,stop,(congrArg parseHHMM (if_pos hne)).trans hstart,(congrArg parseHHMM (if_pos hne')).trans hstop⟩

theorem Met.of_raise (h : Met (raiseWindow device plan) c) : Met device c := by
  refine ⟨fun hidle => ?_,fun hu => h.unattended ?_,fun hp => h.power ?_⟩
  · have hle : device.requireIdleMinutes ≤ (raiseWindow device plan).requireIdleMinutes := by
      unfold raiseWindow
      dsimp only
      split
      · omega
      · exact le_rfl
    obtain ⟨hknown, hfor⟩ := h.idle (by omega)
    have hmul : device.requireIdleMinutes * minute ≤ (raiseWindow device plan).requireIdleMinutes * minute :=
      Int.mul_le_mul_of_nonneg_right hle (by decide)
    exact ⟨hknown,hmul.trans hfor⟩
  · unfold raiseWindow
    rw [hu,ite_self]
  unfold raiseWindow
  rw [hp,ite_self]

def nightly (idle : Int) : PlanWindow := { localStart := "22:00",localEnd := "04:00",requireIdleMinutes := idle }

def atMidnight : DeviceConditions := { localNow := Time.zero,minuteOfDay := 0,idleKnown := true }

end DsseCore.AgentRollout

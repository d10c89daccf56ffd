import DsseCore.Go.Numbers
import DsseCore.Go.Value
import DsseCore.Lib.SharedRow

/-!
# Seats allocated from a licensed pool

Any number of processes allocate the seats of one pool to organisations, each in a transaction on the row they share.
The seats are added up in the 64 bits of an `int`.
-/

namespace DsseCore.SeatAllocation

open Go Lib List

structure Allocation where
  tenantID : String
  seats : Int
  updatedAt : String := ""
  updatedBy : String := ""
  note : String := ""
  deriving DecidableEq

structure Policy where
  poolSeats : Int
  allowOversubscription : Bool

inductive SeatError where
  | noTenant
  | negative
  | poolExceeded (total poolSeats : Int)
  | persistence
  deriving DecidableEq

/-- What a stored document is read as; `none` is one that is not a snapshot of this schema. -/
abbrev Document := Option (Map Allocation)

def decodeAllocations (doc : Document) : Option (Map Allocation) :=
  doc.filter fun rows => rows.toList.all fun r => r.1 != "" && trimSpace r.2.tenantID == r.1 && decide (0 ≤ r.2.seats)

/-- The row the processes share, and the allocations that each of them shows. -/
structure Deployment where
  row : Option Document
  visible : ℕ → Map Allocation

variable {d d' : Deployment} {i : ℕ} {e : Ending} {policy : Policy} {tenantID : String} {seats : Int}

namespace Deployment

variable (d : Deployment) (i : ℕ) (e : Ending)

def candidate : Option (Map Allocation) :=
  match d.row with
  | some doc => decodeAllocations doc
  | none => if (d.visible i).isEmpty then some ∅ else none

def mutateLocked (edit : Map Allocation → Except SeatError (Map Allocation)) : Option SeatError × Deployment :=
  let t := transact e d.row fun _ => (d.candidate i).bind fun rows => (edit rows).toOption.map fun next => (some next,next)
  match t.ran, t.confirmed with
  | some next, true => (none,{ row := t.row, visible := Function.update d.visible i next })
  | _, _ =>
    (some (match (if e = .refused then none else d.candidate i).map edit with
      | some (.error err) => err
      | _ => .persistence),{ d with row := t.row })

def allocatedToOthers (rows : Map Allocation) (tenantID : String) : Int :=
  addInts ((rows.toList.filter fun r => r.1 ≠ tenantID).map fun r => r.2.seats)

def allocateContext (policy : Policy) (tenantID : String) (seats : Int) (by_ note now : String) :
    Except SeatError Allocation × Deployment :=
  let tenantID := trimSpace tenantID
  if tenantID = "" then (.error .noTenant,d)
  else if seats < 0 then (.error .negative,d)
  else
    let a : Allocation := { tenantID, seats, updatedAt := now, updatedBy := trimSpace by_, note := trimSpace note }
    match d.mutateLocked i e fun rows =>
      let total := allocatedToOthers rows tenantID
      if !policy.allowOversubscription && decide (policy.poolSeats < addInts [total,seats]) then
        .error (.poolExceeded total policy.poolSeats)
      else .ok (rows.insert tenantID a) with
    | (none, d') => (.ok a,d')
    | (some err, d') => (.error err,d')

/-- `RemoveConfirmedContext`, without whether the organisation had seats. -/
def removeConfirmedContext (tenantID : String) : Option SeatError × Deployment :=
  d.mutateLocked i e fun rows => .ok (rows.erase (trimSpace tenantID))

/-- `ReloadFromStore`; `readable` is whether the store answers. -/
def reloadFromStore (readable : Bool) : Option SeatError × Deployment :=
  match (if readable then d.candidate i else none) with
  | some rows => (none,{ d with visible := Function.update d.visible i rows })
  | none => (some .persistence,d)

end Deployment

open Deployment

/-- The allocations added up as numbers. -/
def sum (l : List (String × Allocation)) : Int := (l.map fun r => r.2.seats).sum

theorem sum_insert (rows : Map Allocation) (k : String) (a : Allocation) :
    sum (rows.insert k a).toList = a.seats + sum (rows.toList.filter fun r => r.1 ≠ k) := by
  have hperm : (rows.insert k a).toList.Perm ((k,a) :: rows.toList.filter fun r => r.1 ≠ k) := by
    refine (perm_ext_iff_of_nodup (Map.nodup_toList_keys _).of_map ?_).mpr fun r => ?_
    · refine nodup_cons.mpr ⟨fun h => ?_,(Map.nodup_toList_keys rows).of_map.filter _⟩
      simpa using (mem_filter.mp h).2
    · obtain ⟨j, b⟩ := r
      rw [Std.ExtTreeMap.mem_toList_iff_getElem?_eq_some,Map.getElem?_insert_eq,mem_cons,mem_filter,
        Std.ExtTreeMap.mem_toList_iff_getElem?_eq_some]
      by_cases hj : k = j
      · simp [hj,eq_comm]
      · simp [hj,Ne.symm hj]
  rw [sum,(hperm.map _).sum_eq]
  rfl

theorem candidate_sum_nonneg {rows : Map Allocation} (h : d.candidate i = some rows) (k : String) :
    0 ≤ sum (rows.toList.filter fun r => r.1 ≠ k) := by
  refine List.sum_nonneg fun n hn => ?_
  obtain ⟨r, hr, rfl⟩ := mem_map.mp hn
  have hr := mem_of_mem_filter hr
  unfold candidate at h
  split at h
  · have hall := all_eq_true.mp (Option.filter_eq_some_iff.mp h).2 r hr
    exact of_decide_eq_true (Bool.and_eq_true_iff.mp hall).2
  · split_ifs at h
    cases h
    cases hr

theorem mutateLocked_cases (d : Deployment) (i : ℕ) (e : Ending) (edit : Map Allocation → Except SeatError (Map Allocation)) :
    (∃ rows next, d.candidate i = some rows ∧ edit rows = .ok next ∧
      d.mutateLocked i e edit = (none,{ row := some (some next), visible := Function.update d.visible i next })) ∨
    ∃ err row, (e ≠ .unconfirmed → row = d.row) ∧ d.mutateLocked i e edit = (some err,{ d with row }) := by
  unfold mutateLocked
  dsimp only
  have hspec := transact_spec e d.row fun _ =>
    (d.candidate i).bind fun rows => (edit rows).toOption.map fun next => (some next,next)
  generalize transact e d.row _ = t at hspec ⊢
  cases hspec with
  | stopped => exact .inr ⟨_,_,fun _ => rfl,rfl⟩
  | failed _ hrow he =>
    refine .inr ⟨_,_,fun hne => ?_,rfl⟩
    exact hrow.elim (·.1) fun h => absurd (he h.2) hne
  | committed h =>
    obtain ⟨rows, hrows, h⟩ := Option.bind_eq_some_iff.mp h
    obtain ⟨next, hnext, hpair⟩ := Option.map_eq_some_iff.mp h
    cases hpair
    cases hedit : edit rows with
    | error => rw [hedit] at hnext; cases hnext
    | ok n =>
      rw [hedit] at hnext
      cases hnext
      exact .inl ⟨rows,_,hrows,hedit,rfl⟩

variable {by_ note now : String} {a : Allocation}

/-- A call that reports an error leaves the allocations as they were, with a transaction that does what it reports. -/
theorem failed_unchanged (he : e ≠ .unconfirmed) :
    (∀ err, d.allocateContext i e policy tenantID seats by_ note now = (.error err,d') → d' = d) ∧
      (∀ err, d.removeConfirmedContext i e tenantID = (some err,d') → d' = d) ∧
      ∀ readable err, d.reloadFromStore i readable = (some err,d') → d' = d := by
  have hmut : ∀ {edit err}, d.mutateLocked i e edit = (some err,d') → d' = d := by
    intro edit err h
    obtain ⟨rows, next, -, -, h'⟩ | ⟨err', row, hrow, h'⟩ := mutateLocked_cases d i e edit
    · cases h'.symm.trans h
    · cases h'.symm.trans h
      rw [hrow he]
  refine ⟨fun err h => ?_,fun err h => hmut h,fun readable err h => ?_⟩
  · unfold allocateContext at h
    dsimp only at h
    split_ifs at h with htenant hseats
    · exact (Prod.mk.inj h).2.symm
    · exact (Prod.mk.inj h).2.symm
    · split at h
      · cases h
      · next hm =>
        cases h
        exact hmut hm
  · unfold reloadFromStore at h
    split at h
    · cases h
    · exact (Prod.mk.inj h).2.symm

theorem allocateContext_ok (h : d.allocateContext i e policy tenantID seats by_ note now = (.ok a,d')) :
    0 ≤ seats ∧ a.seats = seats ∧ ∃ rows, d.candidate i = some rows ∧
      d'.row = some (some (rows.insert (trimSpace tenantID) a)) ∧
      (policy.allowOversubscription = false →
        addInts [allocatedToOthers rows (trimSpace tenantID),seats] ≤ policy.poolSeats) := by
  unfold allocateContext at h
  dsimp only at h
  split_ifs at h with htenant hseats
  · cases h
  · cases h
  split at h
  · next hm =>
    cases h
    refine ⟨not_lt.mp hseats,rfl,?_⟩
    obtain ⟨rows, next, hrows, hedit, h'⟩ | ⟨err, row, -, h'⟩ := mutateLocked_cases d i e _
    · cases h'.symm.trans hm
      refine ⟨rows,hrows,?_⟩
      split_ifs at hedit with hpool
      cases hedit
      exact ⟨rfl,fun hover => by simpa [hover] using hpool⟩
    · cases h'.symm.trans hm
  · cases h

def others (rows : Map Allocation) (tenantID : String) : List (String × Allocation) :=
  rows.toList.filter fun r => r.1 ≠ trimSpace tenantID

/-- A call that allocates within the pool leaves at most the pool allocated exactly when the seats of the other
organisations and those asked for add up in an `int`, and a call that fails leaves the row and every process as they
were.  Nothing is said of how the deployment came about, so it holds after any interleaving. -/
theorem allocated_within_pool_iff (d : Deployment) (i : ℕ) (e : Ending) (policy : Policy) (tenantID : String)
    (seats : Int) (by_ note now : String) (hpool : policy.poolSeats < 2 ^ 63) :
    (∀ a d', d.allocateContext i e policy tenantID seats by_ note now = (.ok a,d') →
      policy.allowOversubscription = false → ∃ rows stored, d.candidate i = some rows ∧ d'.row = some (some stored) ∧
        (sum stored.toList ≤ policy.poolSeats ↔ sum (others rows tenantID) + seats < 2 ^ 63)) ∧
      (e ≠ .unconfirmed → ∀ d',
        (∀ err, d.allocateContext i e policy tenantID seats by_ note now = (.error err,d') → d' = d) ∧
        (∀ err, d.removeConfirmedContext i e tenantID = (some err,d') → d' = d) ∧
        ∀ readable err, d.reloadFromStore i readable = (some err,d') → d' = d) := by
  refine ⟨fun a d' h hover => ?_,fun he d' => failed_unchanged he⟩
  obtain ⟨hseats, ha, rows, hrows, hrow, hle⟩ := allocateContext_ok h
  refine ⟨rows,_,hrows,hrow,?_⟩
  have hsum := sum_insert rows (trimSpace tenantID) a
  have hothers : 0 ≤ sum (others rows tenantID) := candidate_sum_nonneg hrows _
  have hwrap : (sum (others rows tenantID) + seats).bmod (2 ^ 64) ≤ policy.poolSeats := by
    have h := hle hover
    rw [allocatedToOthers,addInts_eq,addInts_eq,sum_cons,sum_singleton,Int.bmod_add_bmod] at h
    exact h
  rw [hsum,ha]
  change seats + sum (others rows tenantID) ≤ _ ↔ _
  constructor
  · omega
  · intro hlt
    rw [Int.bmod_eq_of_le_mul_two (by omega) (by omega)] at hwrap
    omega

def unallocated : Deployment := ⟨none,fun _ => ∅⟩

theorem three_seats_within_pool : ∃ stored,
    (unallocated.allocateContext 0 .committed ⟨10,false⟩ "acme" 3 "" "" "").2.row = some (some stored) ∧
      sum stored.toList ≤ 10 := by
  obtain ⟨rows, stored, hrows, hrow, hiff⟩ :=
    (allocated_within_pool_iff unallocated 0 .committed ⟨10,false⟩ "acme" 3 "" "" "" (by decide)).1 _ _ rfl rfl
  cases hrows
  exact ⟨stored,hrow,hiff.mpr (by decide)⟩

/-- One process allocates the greatest `int` where that is permitted, another then one seat within a pool of ten. -/
def wrapped : Except SeatError Allocation × Deployment :=
  (unallocated.allocateContext 0 .committed ⟨10,true⟩ "acme" (2 ^ 63 - 1) "" "" "").2.allocateContext 1 .committed
    ⟨10,false⟩ "globex" 1 "" "" ""

theorem wrapped_exceeds_pool : wrapped.1.toOption.map (·.seats) = some 1 ∧
    wrapped.2.row.map (·.map fun rows => sum rows.toList) = some (some (2 ^ 63)) := by
  decide +kernel

end DsseCore.SeatAllocation

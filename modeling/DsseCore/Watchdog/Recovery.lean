import DsseCore.Go.Time
import DsseCore.Lib.Run

/-!
# The bound on recoveries

The watchdog recovers a box at most `Max` times in a rolling window.  The limiter forgets the recoveries that left the
window; those it keeps are, for every later time, the ones of the whole history that count.
-/

namespace DsseCore.Watchdog

open Go Lib List

structure RecoveryLimiter where
  max : Int
  window : Int
  times : List Time := []

/-- What a refusal tells: the number of recoveries inside the window, and the window. -/
structure Refusal where
  recovered : ℕ
  window : Int

/-- `none` is the permission to proceed. -/
def RecoveryLimiter.allow (l : RecoveryLimiter) (now : Time) : Option Refusal × RecoveryLimiter :=
  if l.max ≤ 0 then (none,l)
  else
    let cutoff := now + -l.window
    let kept := l.times.filter (cutoff < ·)
    if l.max ≤ kept.length then (some ⟨kept.length,l.window⟩,{ l with times := kept })
    else (none,{ l with times := kept ++ [now] })

/-- A call at a time, and whether it was allowed. -/
def Call (l : RecoveryLimiter) (c : Int × Bool) (l' : RecoveryLimiter) : Prop :=
  (l.allow c.1).1.isNone = c.2 ∧ l' = (l.allow c.1).2

def allowed (calls : List (Int × Bool)) : List Int := (calls.filter (·.2)).map (·.1)

variable {max window now : Int} {calls : List (Int × Bool)} {times : List Int} {l : RecoveryLimiter} {ok : Bool}

theorem allowed_snoc : allowed (calls ++ [(now,ok)]) = allowed calls ++ if ok then [now] else [] := by
  cases ok <;> simp [allowed]

/-- After the calls, the kept times are those that count in every later window. -/
structure Exact (max window : Int) (calls : List (Int × Bool)) (times : List Int) : Prop where
  bound : times.length ≤ max
  counts : ∀ cutoff, (∀ c ∈ calls, c.1 - window ≤ cutoff) →
    times.filter (cutoff < ·) = (allowed calls).filter (cutoff < ·)
  spread : ∀ start, (allowed calls).countP (fun t => start ≤ t ∧ t < start + window) ≤ max

theorem Exact.kept (h : Exact max window calls times) (hlast : ∀ c ∈ calls, c.1 ≤ now) :
    times.filter (now + -window < ·) = (allowed calls).filter (now + -window < ·) :=
  h.counts _ fun c hc => Int.sub_le_sub_right (hlast c hc) window

theorem Exact.refused (h : Exact max window calls times) (hlast : ∀ c ∈ calls, c.1 ≤ now)
    (hr : (RecoveryLimiter.allow ⟨max,window,times⟩ now).1.isSome = true) :
    (allowed calls).countP (now - window < ·) = max := by
  have hle := length_filter_le (now + -window < ·) times
  have hbound := h.bound
  unfold RecoveryLimiter.allow at hr
  dsimp only at hr
  rw [h.kept hlast] at hr hle
  rw [countP_eq_length_filter,Int.sub_eq_add_neg]
  split at hr
  · cases hr
  split at hr
  · omega
  · cases hr

theorem Exact.call (hmax : 0 < max) (h : Exact max window calls times) (hlast : ∀ c ∈ calls, c.1 ≤ now)
    (hcall : Call ⟨max,window,times⟩ (now,ok) l) :
    ∃ times, l = ⟨max,window,times⟩ ∧ Exact max window (calls ++ [(now,ok)]) times := by
  obtain ⟨hok, rfl⟩ := hcall
  have hkept := h.kept hlast
  -- a later cutoff keeps less
  have hcounts : ∀ cutoff, (∀ c ∈ calls ++ [(now,ok)], c.1 - window ≤ cutoff) →
      (times.filter (now + -window < ·)).filter (cutoff < ·) = (allowed calls).filter (cutoff < ·) := by
    intro cutoff hcut
    have hnow := hcut (now,ok) (mem_append_right _ mem_cons_self)
    rw [hkept,filter_filter]
    refine filter_congr fun t _ => ?_
    simp only [Bool.and_eq_left_iff_imp,decide_eq_true_eq]
    exact fun ht => lt_of_le_of_lt hnow ht
  unfold RecoveryLimiter.allow at hok ⊢
  rw [if_neg (not_le.mpr hmax)] at hok ⊢
  dsimp only at hok ⊢
  split at hok
  · next hfull =>
    obtain rfl : false = ok := hok
    rw [if_pos hfull]
    refine ⟨_,rfl,?_,fun cutoff hcut => ?_,fun start => ?_⟩
    · exact le_trans (Int.ofNat_le.mpr (length_filter_le _ _)) h.bound
    · rw [hcounts cutoff hcut,allowed_snoc]
      simp
    · rw [allowed_snoc]
      simpa using h.spread start
  · next hroom =>
    obtain rfl : true = ok := hok
    rw [if_neg hroom]
    have hroom : (times.filter (now + -window < ·)).length < max := not_le.mp hroom
    refine ⟨_,rfl,?_,fun cutoff hcut => ?_,fun start => ?_⟩
    · rw [length_append]
      exact hroom
    · rw [filter_append,hcounts cutoff hcut,allowed_snoc,if_pos rfl,filter_append]
    · rw [allowed_snoc,if_pos rfl,countP_append,countP_singleton]
      split
      · next hin =>
        -- the earlier ones of the interval were counted before this one was allowed
        have hle : (allowed calls).countP (fun t => start ≤ t ∧ t < start + window) ≤
            (allowed calls).countP (now + -window < ·) := by
          refine countP_mono_left fun t _ ht => ?_
          simp only [decide_eq_true_eq] at hin ht ⊢
          omega
        rw [countP_eq_length_filter,countP_eq_length_filter,← hkept,← countP_eq_length_filter] at hle
        omega
      · exact h.spread start

theorem exact_of_run (hmax : 0 < max) (hrun : Run Call ⟨max,window,[]⟩ calls l)
    (hsorted : (calls.map Prod.fst).Pairwise (· ≤ ·)) : ∃ times, l = ⟨max,window,times⟩ ∧ Exact max window calls times := by
  generalize hnew : RecoveryLimiter.mk max window [] = new at hrun
  induction hrun with
  | nil => exact ⟨[],hnew.symm,hmax.le,fun _ _ => rfl,fun _ => hmax.le⟩
  | snoc hrun hcall ih =>
    rw [map_append,pairwise_append] at hsorted
    obtain ⟨times, rfl, h⟩ := ih hsorted.1
    exact h.call hmax (fun c hc => hsorted.2.2 c.1 (mem_map_of_mem hc) _ mem_cons_self) hcall

/-- Whenever the calls come, no interval of the length of the window has more than `max` allowed ones, and a call is
refused only where `max` of them lie less than a window before it. -/
theorem recovery_window_exact (hmax : 0 < max) (hrun : Run Call ⟨max,window,[]⟩ calls l)
    (hsorted : (calls.map Prod.fst).Pairwise (· ≤ ·)) :
    (∀ start, (allowed calls).countP (fun t => start ≤ t ∧ t < start + window) ≤ max) ∧
      ∀ now, (∀ c ∈ calls, c.1 ≤ now) → (l.allow now).1.isSome = true →
        (allowed calls).countP (now - window < ·) = max := by
  obtain ⟨times, rfl, h⟩ := exact_of_run hmax hrun hsorted
  exact ⟨h.spread,fun _ => h.refused⟩

theorem third_recovery_refused : ∃ l, Run Call ⟨2,10,[]⟩ [(0,true),(4,true),(10,true)] l ∧
    (l.allow 13).1.isSome = true ∧ (allowed [(0,true),(4,true),(10,true)]).countP (13 - 10 < ·) = (2 : Int) := by
  have hrun : Run Call ⟨2,10,[]⟩ [(0,true),(4,true),(10,true)] ⟨2,10,[4,10]⟩ :=
    (((Run.nil _).snoc ⟨rfl,rfl⟩).snoc ⟨rfl,rfl⟩).snoc ⟨rfl,rfl⟩
  exact ⟨_,hrun,rfl,(recovery_window_exact (by decide) hrun (by decide)).2 13 (by decide) rfl⟩

end DsseCore.Watchdog

import Mathlib.Data.List.Basic
import Mathlib.Data.Nat.Notation

/-!
# Left-to-right scans

A scan stops at a position, looks at the element before it and at the rest of the input, reports what it finds there and
moves on by at least one.  A scan of `l ++ r` is a scan of `l` and a scan of `r` when no stop in `l` looks across the
seam and the first stop in `r` does not look back over it.
-/

namespace DsseCore.Lib

open List

variable {α τ : Type*}

structure Match (τ : Type*) where
  typ : τ
  start : ℕ
  stop : ℕ
  deriving DecidableEq

def Match.shift (k : ℕ) (m : Match τ) : Match τ := ⟨m.typ,m.start + k,m.stop + k⟩

@[simp] theorem Match.shift_start (k : ℕ) (m : Match τ) : (m.shift k).start = m.start + k := rfl

@[simp] theorem Match.shift_stop (k : ℕ) (m : Match τ) : (m.shift k).stop = m.stop + k := rfl

/-- What a scan does at one position: from the element before it and the rest of the input, the kinds and lengths that
are found there, and how far to move. -/
abbrev Stop (α τ : Type*) := Option α → List α → List (τ × ℕ) × ℕ

/-- The scan at position `pos`, after `skip` more elements. -/
def sweep (step : Stop α τ) : Option α → ℕ → ℕ → List α → List (Match τ)
  | _, _, _, [] => []
  | _, pos, skip + 1, a :: rest => sweep step (some a) (pos + 1) skip rest
  | prev, pos, 0, a :: rest =>
    ((step prev (a :: rest)).1.map fun f => ⟨f.1,pos,pos + f.2⟩) ++
      sweep step (some a) (pos + 1) ((step prev (a :: rest)).2 - 1) rest

variable {step : Stop α τ} {prev : Option α} {l r : List α}

@[simp] theorem sweep_nil (prev : Option α) (pos skip : ℕ) : sweep step prev pos skip [] = [] := by
  cases skip <;> rfl

theorem sweep_shift (k : ℕ) (prev : Option α) (pos skip : ℕ) (l : List α) :
    sweep step prev (pos + k) skip l = (sweep step prev pos skip l).map (Match.shift k) := by
  induction l generalizing prev pos skip with
  | nil => simp
  | cons a l ih =>
    cases skip with
    | succ skip =>
      simp only [sweep]
      rw [← ih,Nat.add_right_comm]
    | zero =>
      simp only [sweep,map_append,map_map]
      rw [← ih,Nat.add_right_comm pos 1 k]
      congr 1
      refine map_congr_left fun f _ => ?_
      simp [Match.shift,Nat.add_right_comm]

theorem mem_sweep {m : Match τ} {pos skip : ℕ} (h : m ∈ sweep step prev pos skip l) :
    ∃ k p, k < l.length ∧ m.start = pos + k ∧ ∃ n, m.stop = m.start + n ∧ (m.typ,n) ∈ (step p (l.drop k)).1 := by
  induction l generalizing prev pos skip with
  | nil => simp at h
  | cons a l ih =>
    have hlater : ∀ {prev' skip'}, m ∈ sweep step prev' (pos + 1) skip' l → ∃ k p, k < (a :: l).length ∧
        m.start = pos + k ∧ ∃ n, m.stop = m.start + n ∧ (m.typ,n) ∈ (step p ((a :: l).drop k)).1 := by
      intro prev' skip' h'
      obtain ⟨k, p, hk, hstart, hn⟩ := ih h'
      exact ⟨k + 1,p,Nat.succ_lt_succ hk,by rw [hstart]; omega,hn⟩
    cases skip with
    | succ skip => exact hlater h
    | zero =>
      rcases mem_append.mp h with h | h
      · obtain ⟨f, hf, rfl⟩ := mem_map.mp h
        exact ⟨0,prev,Nat.succ_pos _,rfl,f.2,rfl,hf⟩
      · exact hlater h

theorem pairwise_sweep (prev : Option α) (pos skip : ℕ) (l : List α) :
    (sweep step prev pos skip l).Pairwise fun a b => a.start ≤ b.start := by
  induction l generalizing prev pos skip with
  | nil => simp
  | cons a l ih =>
    cases skip with
    | succ skip => exact ih (some a) (pos + 1) skip
    | zero =>
      refine pairwise_append.mpr ⟨?_,ih _ _ _,?_⟩
      · rw [pairwise_map]
        exact pairwise_of_forall fun _ _ => Nat.le_refl _
      intro x hx y hy
      obtain ⟨f, -, rfl⟩ := mem_map.mp hx
      obtain ⟨k, -, -, hstart, -⟩ := mem_sweep hy
      dsimp only
      omega

/-- No stop in `l` looks across the seam between `l` and `r`. -/
def Stop.Ahead (step : Stop α τ) (l r : List α) : Prop :=
  ∀ prev a b, l = b ++ a → a ≠ [] → step prev (a ++ r) = step prev a ∧ (step prev a).2 ≤ a.length

theorem Stop.Ahead.of_cons {x : α} (h : step.Ahead (x :: l) r) : step.Ahead l r :=
  fun prev a b hl ha => h prev a (x :: b) (by rw [hl]; rfl) ha

theorem sweep_append_from (hahead : step.Ahead l r) {pos skip : ℕ} (hskip : skip ≤ l.length)
    (hback : r ≠ [] → step (l.getLast?.or prev) r = step none r) :
    sweep step prev pos skip (l ++ r) = sweep step prev pos skip l ++ sweep step none (pos + l.length) 0 r := by
  induction l generalizing prev pos skip with
  | nil =>
    obtain rfl : skip = 0 := Nat.le_zero.mp hskip
    cases r with
    | nil => simp
    | cons a r =>
      have hstep : step prev (a :: r) = step none (a :: r) := hback (cons_ne_nil a r)
      simp [sweep,hstep]
  | cons x l ih =>
    have hback' : r ≠ [] → step (l.getLast?.or (some x)) r = step none r := by
      intro hr
      have h := hback hr
      cases l with
      | nil => simpa using h
      | cons y l => simpa [getLast?_cons_cons,getLast?_eq_some_getLast (cons_ne_nil y l)] using h
    have hpos : pos + 1 + l.length = pos + (x :: l).length := by
      rw [length_cons]
      omega
    cases skip with
    | succ skip =>
      rw [cons_append,sweep,sweep,ih hahead.of_cons (Nat.le_of_succ_le_succ hskip) hback',hpos]
    | zero =>
      obtain ⟨hstep, hadvance⟩ := hahead prev (x :: l) [] rfl (cons_ne_nil x l)
      have hle : (step prev (x :: l)).2 - 1 ≤ l.length := by
        omega
      rw [cons_append] at hstep
      rw [cons_append,sweep,sweep,hstep,ih hahead.of_cons hle hback',hpos,append_assoc]

theorem sweep_append (hahead : step.Ahead l r) (hback : l ≠ [] → r ≠ [] → step l.getLast? r = step none r) :
    sweep step none 0 0 (l ++ r) = sweep step none 0 0 l ++ (sweep step none 0 0 r).map (Match.shift l.length) := by
  have hback' : r ≠ [] → step (l.getLast?.or none) r = step none r := by
    intro hr
    cases l with
    | nil => rfl
    | cons x l => exact hback (cons_ne_nil x l) hr
  rw [sweep_append_from hahead (Nat.zero_le _) hback',sweep_shift l.length none 0 0 r]

end DsseCore.Lib

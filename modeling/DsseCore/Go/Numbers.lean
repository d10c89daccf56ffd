import DsseCore.Go.Strings

/-!
# Numbers

`strconv.Atoi` reads back what `strconv.Itoa` wrote, and an `int` is added up modulo 2^64.
-/

namespace DsseCore.Go

open Nat

def addDigit (acc : Option ℕ) (c : Char) : Option ℕ := acc.bind fun n => (digitValue? c).map (10 * n + ·)

theorem decimal?_eq {l : List Char} (h : l ≠ []) : decimal? l = l.foldl addDigit (some 0) := by
  unfold decimal?
  split
  · contradiction
  · rfl

theorem digitValue?_digitChar : ∀ k < 10, digitValue? (digitChar k) = some k := by decide

theorem foldl_toDigits (n : ℕ) : (toDigits 10 n).foldl addDigit (some 0) = some n := by
  induction n using Nat.strong_induction_on with
  | _ n ih =>
    by_cases hn : n < 10
    · rw [toDigits_of_lt_base hn]
      simp [addDigit,digitValue?_digitChar n hn]
    rw [toDigits_of_base_le (by omega) (by omega),List.foldl_append,ih (n / 10) (by omega)]
    simp only [List.foldl_cons,List.foldl_nil,addDigit,Option.bind_some,
      digitValue?_digitChar _ (mod_lt n (show 0 < 10 by omega)),Option.map_some]
    congr 1
    omega

theorem decimal?_toDigits (n : ℕ) : decimal? (toDigits 10 n) = some n := by
  rw [decimal?_eq (toDigits_ne_nil),foldl_toDigits]

theorem toList_toString (n : ℕ) : (toString n).toList = toDigits 10 n := by
  rw [show toString n = n.repr from rfl,repr_eq_ofList_toDigits,String.toList_ofList]

theorem head_toDigits (n : ℕ) : ∀ c ∈ toDigits 10 n, c ≠ '+' ∧ c ≠ '-' := by
  intro c hc
  have hdigit := isDigit_of_mem_toDigits (b := 10) (by omega) (by omega) hc
  constructor
  · rintro rfl
    exact absurd hdigit (by decide)
  · rintro rfl
    exact absurd hdigit (by decide)

theorem atoi_itoa (n : Int) : atoi (itoa n) = (some n).filter fun n => -2 ^ 63 ≤ n && n < 2 ^ 63 := by
  unfold atoi itoa
  dsimp only
  congr 1
  cases n with
  | ofNat n =>
    have hlist : (toString (Int.ofNat n)).toList = toDigits 10 n := toList_toString n
    rw [hlist]
    split
    · rename_i l hl
      exact absurd rfl (head_toDigits n '+' (hl ▸ List.mem_cons_self)).1
    · rename_i l hl
      exact absurd rfl (head_toDigits n '-' (hl ▸ List.mem_cons_self)).2
    · rw [decimal?_toDigits]
      rfl
  | negSucc n =>
    have hlist : (toString (Int.negSucc n)).toList = '-' :: toDigits 10 (n + 1) := by
      rw [show toString (Int.negSucc n) = "-" ++ toString (n + 1) from rfl,String.toList_append,toList_toString]
      rfl
    rw [hlist]
    change (decimal? (toDigits 10 (n + 1))).map (fun n => -Int.ofNat n) = _
    rw [decimal?_toDigits]
    rfl

theorem eq_of_atoi_itoa {n k : Int} (h : atoi (itoa n) = some k) : k = n := by
  rw [atoi_itoa] at h
  obtain ⟨hk, -⟩ := Option.filter_eq_some_iff.mp h
  exact (Option.some.inj hk).symm

def addInts (l : List Int) : Int := l.foldl (fun total n => (total + n).bmod (2 ^ 64)) 0

theorem addInts_eq (l : List Int) : addInts l = l.sum.bmod (2 ^ 64) := by
  have hfold : ∀ n : Int, l.foldl (fun total n => (total + n).bmod (2 ^ 64)) (n.bmod (2 ^ 64)) =
      (n + l.sum).bmod (2 ^ 64) := by
    induction l with
    | nil => simp
    | cons a l ih =>
      intro n
      rw [List.foldl_cons,Int.bmod_add_bmod,ih,List.sum_cons,Int.add_assoc]
  simpa [addInts] using hfold 0

end DsseCore.Go

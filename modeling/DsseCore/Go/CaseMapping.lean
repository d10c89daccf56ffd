import DsseCore.Go.Strings

/-!
# Lower case and white space

The lower-case form of a character is its own lower-case form, and it is white space only if the character is.  So a
string that was trimmed and lowered stays as it is when that is done again.
-/

namespace DsseCore.Go

open CaseRange List

/-- The lower-case form of the first and of the last code point of a range. -/
def CaseRange.first (r : CaseRange) : ℕ := ((r.lo : Int) + r.delta).toNat

def CaseRange.last (r : CaseRange) : ℕ := ((r.hi : Int) + r.delta).toNat

/-- No lower-case form of a range lies in another one: they are apart, or interleave. -/
def CaseRange.misses (first last : ℕ) (r r' : CaseRange) : Bool :=
  Nat.blt last r'.lo || Nat.blt r'.hi first ||
    (Nat.beq r'.stride 2 && (Nat.beq r.stride 2 || Nat.beq r.lo r.hi) && Nat.beq ((first + r'.lo) % 2) 1)

/-- White space, the upper-case letters of ASCII, and what is no character. -/
def unlowered : List CaseRange :=
  [⟨9,13,1,0⟩, ⟨0x20,0x20,1,0⟩, ⟨65,90,1,0⟩, ⟨0x85,0x85,1,0⟩, ⟨0xA0,0xA0,1,0⟩, ⟨0x1680,0x1680,1,0⟩,
  ⟨0x2000,0x200a,1,0⟩, ⟨0x2028,0x2029,1,0⟩, ⟨0x202f,0x202f,1,0⟩, ⟨0x205f,0x205f,1,0⟩, ⟨0x3000,0x3000,1,0⟩,
  ⟨0xd800,0xdfff,1,0⟩]

/-- A range of letters, none of which is white space, with lower-case forms that are lower case. -/
def CaseRange.sound (r : CaseRange) : Bool :=
  decide (128 ≤ r.lo) && decide (0 ≤ (r.lo : Int) + r.delta) && Nat.ble r.last 0x10ffff &&
    unlowered.all (fun r' => Nat.blt r.hi r'.lo || Nat.blt r'.hi r.lo) &&
    unlowered.all (misses r.first r.last r) && caseRanges.all (misses r.first r.last r)

theorem caseRanges_sound : caseRanges.all sound = true := by decide +kernel

variable {r : CaseRange} {n : ℕ}

theorem CaseRange.covers_iff : r.covers n = true ↔ r.lo ≤ n ∧ n ≤ r.hi ∧ (n - r.lo) % r.stride = 0 := by
  simp [covers,and_assoc]

theorem CaseRange.not_covers {r' : CaseRange} (h : misses r.first r.last r r' = true) (hn : r.covers n = true)
    (hpos : 0 ≤ (r.lo : Int) + r.delta) : r'.covers ((n : Int) + r.delta).toNat = false := by
  obtain ⟨hlo, hhi, hstride⟩ := covers_iff.mp hn
  rw [← Bool.not_eq_true,covers_iff]
  rintro ⟨hlo', hhi', hstride'⟩
  unfold misses first last at h
  simp only [Bool.or_eq_true,Bool.and_eq_true,Nat.blt_eq,Nat.beq_eq] at h
  rcases h with (h | h) | ⟨⟨h2, hparity⟩, hodd⟩
  · omega
  · omega
  rw [h2] at hstride'
  rcases hparity with h2' | hsingle
  · rw [h2'] at hstride
    omega
  · omega

/-- A lower-case form is a character that is neither an upper-case letter nor white space. -/
structure Lowered (n : ℕ) : Prop where
  valid : n.isValidChar
  apart : ∀ r ∈ unlowered, r.covers n = false
  lower : ∀ r ∈ caseRanges, r.covers n = false

theorem CaseRange.lowered (hr : r ∈ caseRanges) (hn : r.covers n = true) :
    Lowered ((n : Int) + r.delta).toNat ∧ 128 ≤ n ∧ ∀ r' ∈ unlowered, r'.covers n = false := by
  have hsound := all_eq_true.mp caseRanges_sound r hr
  unfold sound at hsound
  simp only [Bool.and_eq_true,decide_eq_true_eq,all_eq_true,Nat.ble_eq] at hsound
  obtain ⟨⟨⟨⟨⟨h128, hpos⟩, hlast⟩, hapart⟩, hunlowered⟩, hlower⟩ := hsound
  obtain ⟨hlo, hhi, -⟩ := covers_iff.mp hn
  have hmiss : ∀ r' ∈ unlowered, r'.covers ((n : Int) + r.delta).toNat = false :=
    fun r' h => not_covers (hunlowered r' h) hn hpos
  refine ⟨⟨?_,hmiss,fun r' h => not_covers (hlower r' h) hn hpos⟩,h128.trans hlo,fun r' h => ?_⟩
  · -- not a surrogate, and not above the last character
    have hsurrogate := hmiss ⟨0xd800,0xdfff,1,0⟩ (by simp [unlowered])
    rw [← Bool.not_eq_true,covers_iff] at hsurrogate
    unfold last at hlast
    simp only at hsurrogate
    omega
  · have h' := hapart r' h
    simp only [Bool.or_eq_true,Nat.blt_eq] at h'
    rw [← Bool.not_eq_true,covers_iff]
    rintro ⟨hlo', hhi', -⟩
    omega

theorem isSpace_eq (c : Char) : isSpace c = (unlowered.filter fun r => r.lo ≠ 65 ∧ r.lo ≠ 0xd800).any (·.covers c.toNat) := by
  rw [Bool.eq_iff_iff]
  simp [isSpace,unlowered,covers,Nat.mod_one]
  omega

theorem isSpace_of_apart {c : Char} (h : ∀ r ∈ unlowered, r.covers c.toNat = false) : isSpace c = false := by
  rw [isSpace_eq,any_eq_false]
  intro r hr
  rw [h r (mem_filter.mp hr).1]
  exact Bool.false_ne_true

theorem toNat_ofNat_valid (h : n.isValidChar) : (Char.ofNat n).toNat = n := by
  simp [Char.ofNat,h,Char.ofNatAux]

theorem runeToLower_cases (c : Char) : runeToLower c = c ∨
    (Lowered (runeToLower c).toNat ∧ isSpace c = false) := by
  unfold runeToLower
  dsimp only
  split
  · next h128 =>
    split
    · next hupper =>
      simp only [Bool.and_eq_true,decide_eq_true_eq] at hupper
      have hvalid : (c.toNat + 32).isValidChar := by
        omega
      refine .inr ⟨?_,?_⟩
      · rw [toNat_ofNat_valid hvalid]
        refine ⟨hvalid,fun r hr => ?_,fun r hr => ?_⟩
        · simp only [unlowered,mem_cons,not_mem_nil,or_false] at hr
          rw [← Bool.not_eq_true,covers_iff]
          rcases hr with rfl | rfl | rfl | rfl | rfl | rfl | rfl | rfl | rfl | rfl | rfl | rfl <;> dsimp only <;> omega
        have hsound := all_eq_true.mp caseRanges_sound r hr
        unfold sound at hsound
        simp only [Bool.and_eq_true,decide_eq_true_eq] at hsound
        rw [← Bool.not_eq_true,covers_iff]
        rintro ⟨hlo, -⟩
        omega
      · simp [isSpace]
        omega
    · exact .inl rfl
  · split
    · next r hfind =>
      have hr := mem_of_find?_eq_some hfind
      have hcovers := find?_some hfind
      obtain ⟨hl, -, hapart⟩ := lowered hr hcovers
      rw [toNat_ofNat_valid hl.valid]
      exact .inr ⟨hl,isSpace_of_apart hapart⟩
    · exact .inl rfl

@[simp] theorem runeToLower_runeToLower (c : Char) : runeToLower (runeToLower c) = runeToLower c := by
  rcases runeToLower_cases c with h | ⟨h, -⟩
  · rw [h,h]
  generalize runeToLower c = d at h
  unfold runeToLower
  dsimp only
  split
  · have hupper := h.apart ⟨65,90,1,0⟩ (by simp [unlowered])
    rw [← Bool.not_eq_true,covers_iff] at hupper
    simp only [Nat.mod_one] at hupper
    rw [if_neg (by simpa using hupper)]
  · rw [find?_eq_none.mpr fun r hr => by rw [h.lower r hr]; exact Bool.false_ne_true]

theorem isSpace_runeToLower (c : Char) : isSpace (runeToLower c) = isSpace c := by
  rcases runeToLower_cases c with h | ⟨h, hc⟩
  · rw [h]
  · rw [hc]
    exact isSpace_of_apart h.apart

@[simp] theorem toLower_toLower (s : String) : toLower (toLower s) = toLower s := by
  simp [toLower,Function.comp_def]

theorem trimSpace_toLower (s : String) : trimSpace (toLower s) = toLower (trimSpace s) := by
  have hdrop : ∀ l : List Char, (l.map runeToLower).dropWhile isSpace = (l.dropWhile isSpace).map runeToLower := by
    intro l
    induction l with
    | nil => rfl
    | cons c l ih =>
      rw [map_cons,dropWhile_cons,dropWhile_cons,isSpace_runeToLower]
      split
      · exact ih
      · rfl
  simp [trimSpace,toLower,trimList,rdropWhile,hdrop,← map_reverse]

end DsseCore.Go

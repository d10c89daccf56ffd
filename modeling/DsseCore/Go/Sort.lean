import Mathlib.Data.List.Sort

/-!
# Stable sorting

`sort.SliceStable` sorts by a `less` function and keeps the order of equivalent elements.  For a strict weak
order the result is determined, so insertion sort stands for it.
-/

namespace DsseCore.Go

open List

variable {α : Type}

/-- What Go asks of a `less` function. -/
structure StrictWeak (less : α → α → Bool) : Prop where
  asymm : ∀ a b, less a b = true → less b a = false
  incomp_trans : ∀ a b c, less b a = false → less c b = false → less c a = false

/-- `sort.SliceStable`. -/
def sliceStable (less : α → α → Bool) (l : List α) : List α :=
  l.insertionSort fun a b => less b a = false

section Stable

variable {less : α → α → Bool} {l : List α} {a : α}

@[simp] theorem mem_sliceStable : a ∈ sliceStable less l ↔ a ∈ l :=
  mem_insertionSort _

theorem sliceStable_perm (l : List α) : (sliceStable less l).Perm l := perm_insertionSort _ l

theorem sliceStable_eq (h : l.Pairwise fun a b => less b a = false) : sliceStable less l = l :=
  h.insertionSort_eq

variable (hless : StrictWeak less) {p : α → Bool}

include hless

theorem pairwise_sliceStable (l : List α) :
    (sliceStable less l).Pairwise fun a b => less b a = false := by
  have : Std.Total fun a b => less b a = false := ⟨fun a b => by
    cases h : less b a with
    | false => exact .inl rfl
    | true => exact .inr (hless.asymm _ _ h)⟩
  have : IsTrans α fun a b => less b a = false := ⟨hless.incomp_trans⟩
  exact pairwise_insertionSort _ l

/-- Inserting before a selection: an element that is not selected leaves no trace, and a selected one lands at
the same place among the selected ones. -/
theorem filter_orderedInsert (p : α → Bool) (a : α) (hl : l.Pairwise fun a b => less b a = false) :
    (l.orderedInsert (fun a b => less b a = false) a).filter p =
      if p a then (l.filter p).orderedInsert (fun a b => less b a = false) a else l.filter p := by
  induction l with
  | nil => cases h : p a <;> simp [h]
  | cons b l ih =>
    obtain ⟨hb, hl⟩ := pairwise_cons.mp hl
    by_cases hab : less b a = false
    · rw [orderedInsert_cons_of_le (fun a b => less b a = false) l hab,filter_cons]
      cases h : p a with
      | false => simp
      | true =>
        -- `a` precedes everything that follows, so it heads the selected part as well
        have hall : ∀ c ∈ (b :: l).filter p, less c a = false := by
          intro c hc
          rcases mem_cons.mp (mem_of_mem_filter hc) with rfl | hc
          · exact hab
          · exact hless.incomp_trans _ _ _ hab (hb c hc)
        cases hf : (b :: l).filter p with
        | nil => simp
        | cons c m =>
          have hca := hall c (by simp [hf])
          simp [hca]
    · rw [orderedInsert_of_not_le (fun a b => less b a = false) l hab,filter_cons,ih hl]
      cases hp : p b <;> cases ha : p a <;> simp [hp,hab]

theorem filter_sliceStable (p : α → Bool) (l : List α) :
    (sliceStable less l).filter p = sliceStable less (l.filter p) := by
  induction l with
  | nil => rfl
  | cons a l ih =>
    have hstep := filter_orderedInsert hless p a (pairwise_sliceStable hless l)
    rw [ih] at hstep
    have hcons : sliceStable less (a :: l) =
        (sliceStable less l).orderedInsert (fun a b => less b a = false) a := rfl
    rw [hcons,hstep,filter_cons]
    cases p a <;> rfl

theorem find?_sliceStable_minimal (h : (sliceStable less l).find? p = some a) : ∀ b ∈ l, p b → less b a = false := by
  intro b hb hpb
  rw [← head?_filter,filter_sliceStable hless] at h
  cases hs : sliceStable less (l.filter p) with
  | nil => simp [hs] at h
  | cons c m =>
    have hc : c = a := by simpa [hs] using h
    subst c
    have hmem : b ∈ a :: m := by
      rw [← hs]
      simp [hb,hpb]
    rcases mem_cons.mp hmem with rfl | hm
    · cases hbb : less b b with
      | false => rfl
      | true => exact (hless.asymm _ _ hbb ▸ hbb.symm)
    have hpw := pairwise_sliceStable hless (l.filter p)
    rw [hs] at hpw
    exact (pairwise_cons.mp hpw).1 b hm

/-- The selected element that a stable sort brings to the front: no selected element is less, and those before it in
the list are greater. -/
structure FirstSelected (less : α → α → Bool) (p : α → Bool) (l : List α) (i : ℕ) (a : α) : Prop where
  found : l[i]? = some a
  selected : p a = true
  minimal : ∀ (j : ℕ) b, l[j]? = some b → p b = true → less b a = false
  earliest : ∀ (j : ℕ) b, l[j]? = some b → p b = true → j < i → less a b = true

omit hless in
theorem FirstSelected.unique {i j : ℕ} {b : α} (ha : FirstSelected less p l i a) (hb : FirstSelected less p l j b) :
    a = b := by
  rcases lt_trichotomy i j with h | h | h
  · have hab := hb.earliest i a ha.found ha.selected h
    rw [ha.minimal j b hb.found hb.selected] at hab
    exact absurd hab Bool.false_ne_true
  · subst h
    exact Option.some.inj (ha.found.symm.trans hb.found)
  have hba := ha.earliest j b hb.found hb.selected h
  rw [hb.minimal i a ha.found ha.selected] at hba
  exact absurd hba Bool.false_ne_true

theorem find?_sliceStable_cons (p : α → Bool) (x : α) (l : List α) :
    (sliceStable less (x :: l)).find? p =
      match (sliceStable less l).find? p with
      | none => if p x then some x else none
      | some b => if p x = true ∧ less b x = false then some x else some b := by
  have hcons : sliceStable less (x :: l) =
      (sliceStable less l).orderedInsert (fun a b => less b a = false) x := rfl
  rw [← head?_filter,← head?_filter,hcons,filter_orderedInsert hless p x (pairwise_sliceStable hless l)]
  cases hs : (sliceStable less l).filter p with
  | nil => cases p x <;> rfl
  | cons b m =>
    cases hx : p x with
    | false => simp
    | true =>
      by_cases hb : less b x = false
      · simp [hb]
      · simp [hb]

theorem firstSelected_of_find? (h : (sliceStable less l).find? p = some a) : ∃ i, FirstSelected less p l i a := by
  induction l generalizing a with
  | nil => exact absurd h (by simp [sliceStable])
  | cons x l ih =>
    rw [find?_sliceStable_cons hless] at h
    cases hl : (sliceStable less l).find? p with
    | none =>
      rw [hl] at h
      have hnone : ∀ b ∈ l, p b = false := by
        intro b hb
        simpa using find?_eq_none.mp hl b (mem_sliceStable.mpr hb)
      obtain ⟨hx, rfl⟩ : p x = true ∧ x = a := by simpa using h
      refine ⟨0,rfl,hx,?_,fun j b _ _ hj => absurd hj (Nat.not_lt_zero j)⟩
      intro j b hj hb
      cases j with
      | zero =>
        obtain rfl : x = b := by simpa using hj
        cases hxx : less x x with
        | false => rfl
        | true => exact hless.asymm x x hxx ▸ hxx.symm
      | succ j =>
        rw [hnone b (mem_of_getElem? hj)] at hb
        exact absurd hb Bool.false_ne_true
    | some b =>
      obtain ⟨i, hi⟩ := ih hl
      rw [hl] at h
      by_cases hx : p x = true ∧ less b x = false
      · -- the new element is not greater than the front so far
        obtain rfl : x = a := by simpa [hx] using h
        refine ⟨0,rfl,hx.1,?_,fun j c _ _ hj => absurd hj (Nat.not_lt_zero j)⟩
        intro j c hj hc
        cases j with
        | zero =>
          obtain rfl : x = c := by simpa using hj
          cases hxx : less x x with
          | false => rfl
          | true => exact hless.asymm x x hxx ▸ hxx.symm
        | succ j => exact hless.incomp_trans x b c hx.2 (hi.minimal j c hj hc)
      · obtain rfl : b = a := by simpa [hx] using h
        have hbx : p x = true → less b x = true := fun hp => by simpa [hp] using hx
        refine ⟨i + 1,hi.found,hi.selected,?_,?_⟩
        · intro j c hj hc
          cases j with
          | zero =>
            obtain rfl : x = c := by simpa using hj
            exact hless.asymm b x (hbx hc)
          | succ j => exact hi.minimal j c hj hc
        · intro j c hj hc hji
          cases j with
          | zero =>
            obtain rfl : x = c := by simpa using hj
            exact hbx hc
          | succ j => exact hi.earliest j c hj hc (Nat.lt_of_succ_lt_succ hji)

theorem find?_sliceStable_iff : (sliceStable less l).find? p = some a ↔ ∃ i, FirstSelected less p l i a := by
  constructor
  · exact firstSelected_of_find? hless
  rintro ⟨i, hi⟩
  cases hf : (sliceStable less l).find? p with
  | none =>
    have ha := find?_eq_none.mp hf a (mem_sliceStable.mpr (mem_of_getElem? hi.found))
    exact absurd hi.selected ha
  | some b =>
    obtain ⟨j, hj⟩ := firstSelected_of_find? hless hf
    rw [hi.unique hj]

end Stable
end DsseCore.Go

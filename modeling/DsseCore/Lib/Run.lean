import Mathlib.Data.Nat.Notation

/-!
# Runs of a labelled transition system

A run is a finite sequence of steps.  Properties of runs are proved from properties of one step: an invariant, a
relation that every step keeps, and a fact that holds from some step on.
-/

namespace DsseCore.Lib

variable {S L : Type*} {step : S → L → S → Prop} {s : S} {ls : List L}

/-- `Run step s ls t`: the steps labelled `ls`, taken in order, lead from `s` to `t`. -/
inductive Run (step : S → L → S → Prop) : S → List L → S → Prop
  | nil (s : S) : Run step s [] s
  | snoc {s t u : S} {ls : List L} {l : L} : Run step s ls t → step t l u → Run step s (ls ++ [l]) u

namespace Run

variable {P : S → Prop} {t : S}

theorem inv_mem (h : Run step s ls t) (h0 : P s) (hstep : ∀ s l t, l ∈ ls → P s → step s l t → P t) : P t := by
  induction h with
  | nil => exact h0
  | snoc _ hl ih =>
    have hprev := ih fun s l t hmem => hstep s l t (List.mem_append_left _ hmem)
    exact hstep _ _ _ (List.mem_append_right _ List.mem_cons_self) hprev hl

theorem inv (h : Run step s ls t) (h0 : P s) (hstep : ∀ s l t, P s → step s l t → P t) : P t :=
  h.inv_mem h0 fun s l t _ => hstep s l t

/-- A reflexive and transitive relation kept by every step, from states where an invariant holds, relates the ends
of a run. -/
theorem rel {R : S → S → Prop} (h : Run step s ls t) (h0 : P s) (hstep : ∀ s l t, P s → step s l t → P t)
    (hrefl : ∀ s, R s s) (htrans : ∀ s t u, R s t → R t u → R s u) (hrel : ∀ s l t, P s → step s l t → R s t) :
    R s t := by
  induction h with
  | nil => exact hrefl _
  | snoc h hl ih => exact htrans _ _ _ ih (hrel _ _ _ (h.inv h0 hstep) hl)

/-- A fact that every step keeps unless something particular happens in it: it holds at the end of a run, or that has
happened in one of the steps. -/
theorem inv_or {Q : S → L → Prop} (h : Run step s ls t) (h0 : P s) (hstep : ∀ s l t, P s → step s l t → P t ∨ Q s l) :
    P t ∨ ∃ ms l ns u v, ls = ms ++ l :: ns ∧ Run step s ms u ∧ step u l v ∧ Q u l := by
  induction h with
  | nil => exact .inl h0
  | @snoc t u ls l h hl ih =>
    rcases ih with hp | ⟨ms, l', ns, v, w, rfl, hv, hl', hq⟩
    · rcases hstep _ _ _ hp hl with hp | hq
      · exact .inl hp
      · exact .inr ⟨ls,l,[],t,u,rfl,h,hl,hq⟩
    · exact .inr ⟨ms,l',ns ++ [l],v,w,by simp,hv,hl',hq⟩

theorem append {u : S} {ms : List L} (h : Run step s ls t) (h' : Run step t ms u) : Run step s (ls ++ ms) u := by
  induction h' with
  | nil => rwa [List.append_nil]
  | snoc _ hl ih =>
    rw [← List.append_assoc]
    exact ih.snoc hl

theorem mono {step' : S → L → S → Prop} (h : Run step s ls t) (himp : ∀ s l t, step s l t → step' s l t) :
    Run step' s ls t := by
  induction h with
  | nil => exact .nil _
  | snoc _ hl ih => exact ih.snoc (himp _ _ _ hl)

theorem cons {u : S} {l : L} (hl : step s l t) (h : Run step t ls u) : Run step s (l :: ls) u :=
  ((Run.nil s).snoc hl).append h

end Run

variable {next : S → L → S} {guard : S → L → Prop}

/-- The labels can be taken one after the other, each where its guard holds. -/
def Guarded (next : S → L → S) (guard : S → L → Prop) : S → List L → Prop
  | _, [] => True
  | s, l :: ls => guard s l ∧ Guarded next guard (next s l) ls

instance Guarded.decidable [∀ s l, Decidable (guard s l)] : (s : S) → (ls : List L) → Decidable (Guarded next guard s ls)
  | _, [] => isTrue trivial
  | s, l :: ls => @instDecidableAnd _ _ inferInstance (Guarded.decidable (next s l) ls)

theorem Guarded.run (h : Guarded next guard s ls) :
    Run (fun s l t => guard s l ∧ t = next s l) s ls (ls.foldl next s) := by
  induction ls generalizing s with
  | nil => exact .nil s
  | cons l ls ih => exact .cons ⟨h.1,rfl⟩ (ih h.2)

end DsseCore.Lib

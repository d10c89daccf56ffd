import Mathlib.Tactic.Basic

/-!
# Procedures with early returns

A procedure changes a state and either goes on with a value or leaves with a result.  `Ends` says what holds when it
goes on and what holds when it leaves, and `Meets` says it of every state with a precondition.  There is one rule for
each way to build a procedure.
-/

namespace DsseCore.Lib

/-- A procedure over the state `σ` that may leave early with a result in `ρ`. -/
def Proc (σ ρ α : Type) : Type := σ → Except ρ α × σ

namespace Proc

variable {σ ρ α β : Type}

instance : Monad (Proc σ ρ) where
  pure a := fun s => (.ok a,s)
  bind x f := fun s =>
    match x s with
    | (.ok a, t) => f a t
    | (.error r, t) => (.error r,t)

def get : Proc σ ρ σ := fun s => (.ok s,s)

def modify (f : σ → σ) : Proc σ ρ Unit := fun s => (.ok (),f s)

def leave (r : ρ) : Proc σ ρ α := fun s => (.error r,s)

def leaveIf (c : Prop) [Decidable c] (r : ρ) : Proc σ ρ Unit := if c then leave r else pure ()

def onlyIf (c : Prop) [Decidable c] (x : Proc σ ρ Unit) : Proc σ ρ Unit := if c then x else pure ()

/-- The result of a procedure that returns one wherever it ends. -/
def outcome (x : Proc σ ρ ρ) (s : σ) : ρ × σ :=
  match x s with
  | (.ok r, t) => (r,t)
  | (.error r, t) => (r,t)

/-- From `s` the procedure goes on as `Q` says or leaves as `R` says. -/
def Ends (x : Proc σ ρ α) (s : σ) (Q : α → σ → Prop) (R : ρ → σ → Prop) : Prop :=
  match x s with
  | (.ok a, t) => Q a t
  | (.error r, t) => R r t

variable {x : Proc σ ρ α} {f : α → Proc σ ρ β} {s : σ} {R : ρ → σ → Prop} {Q : Unit → σ → Prop} {c : Prop} {r : ρ}
  {y : Proc σ ρ Unit}

@[simp] theorem ends_pure {a : α} {Q : α → σ → Prop} : (pure a : Proc σ ρ α).Ends s Q R ↔ Q a s := Iff.rfl

@[simp] theorem ends_get {Q : σ → σ → Prop} : (get : Proc σ ρ σ).Ends s Q R ↔ Q s s := Iff.rfl

@[simp] theorem ends_modify {g : σ → σ} : (modify g : Proc σ ρ Unit).Ends s Q R ↔ Q () (g s) := Iff.rfl

@[simp] theorem ends_leaveIf [Decidable c] :
    (leaveIf c r : Proc σ ρ Unit).Ends s Q R ↔ if c then R r s else Q () s := by
  unfold leaveIf
  split <;> exact Iff.rfl

@[simp] theorem ends_bind {Q : β → σ → Prop} :
    (x >>= f).Ends s Q R ↔ x.Ends s (fun a t => (f a).Ends t Q R) R := by
  unfold Ends
  change (match (match x s with
    | (.ok a, t) => f a t
    | (.error r, t) => (.error r,t)) with
    | (.ok a, t) => Q a t
    | (.error r, t) => R r t) ↔ _
  cases x s with
  | mk e t =>
    cases e with
    | ok a => exact Iff.rfl
    | error r => exact Iff.rfl

theorem Ends.mono {Q Q' : α → σ → Prop} {R' : ρ → σ → Prop} (h : x.Ends s Q R) (hQ : ∀ a t, Q a t → Q' a t)
    (hR : ∀ r t, R r t → R' r t) : x.Ends s Q' R' := by
  unfold Ends at h ⊢
  cases hx : x s with
  | mk e t =>
    rw [hx] at h
    cases e with
    | ok a => exact hQ a t h
    | error r => exact hR r t h

theorem Ends.bind {Q : α → σ → Prop} {Q' : β → σ → Prop} (h : x.Ends s Q R)
    (hf : ∀ a t, Q a t → (f a).Ends t Q' R) : (x >>= f).Ends s Q' R :=
  ends_bind.mpr (h.mono hf fun _ _ hr => hr)

theorem Ends.leaveIf [Decidable c] (hr : c → R r s) (hq : ¬ c → Q () s) :
    (leaveIf c r : Proc σ ρ Unit).Ends s Q R := by
  rw [ends_leaveIf]
  split
  · exact hr ‹_›
  · exact hq ‹_›

theorem Ends.onlyIf [Decidable c] (hy : c → y.Ends s Q R) (hq : ¬ c → Q () s) : (onlyIf c y).Ends s Q R := by
  unfold Proc.onlyIf
  split
  · exact hy ‹_›
  · exact hq ‹_›

theorem Ends.outcome {x : Proc σ ρ ρ} (h : x.Ends s R R) : R (x.outcome s).1 (x.outcome s).2 := by
  unfold Ends at h
  unfold Proc.outcome
  cases hx : x s with
  | mk e t =>
    rw [hx] at h
    cases e with
    | ok r => exact h
    | error r => exact h

variable {I J K : σ → Prop} {L : σ → Prop}

/-- From a state with `I` the procedure goes on with `J` or leaves with `L`. -/
structure Meets (I J L : σ → Prop) (x : Proc σ ρ α) : Prop where
  ends : ∀ s, I s → x.Ends s (fun _ t => J t) fun _ t => L t

namespace Meets

theorem pure {a : α} (h : ∀ s, I s → J s) : Meets I J L (pure a : Proc σ ρ α) := ⟨h⟩

theorem leave (h : ∀ s, I s → L s) : Meets I J L (leave r : Proc σ ρ α) := ⟨h⟩

theorem modify {g : σ → σ} (h : ∀ s, I s → J (g s)) : Meets I J L (modify g : Proc σ ρ Unit) := ⟨h⟩

theorem leaveIf [Decidable c] (h : ∀ s, I s → L s) : Meets I I L (leaveIf c r : Proc σ ρ Unit) :=
  ⟨fun s hs => .leaveIf (fun _ => h s hs) fun _ => hs⟩

theorem bind (hx : Meets I J L x) (hf : ∀ a, Meets J K L (f a)) : Meets I K L (x >>= f) :=
  ⟨fun s h => (hx.ends s h).bind fun a t ht => (hf a).ends t ht⟩

theorem onlyIf [Decidable c] (hy : Meets I J L y) (h : ∀ s, I s → J s) : Meets I J L (onlyIf c y) :=
  ⟨fun s hs => .onlyIf (fun _ => hy.ends s hs) fun _ => h s hs⟩

theorem outcome {x : Proc σ ρ ρ} (hx : Meets I L L x) (h : I s) : L (x.outcome s).2 :=
  Ends.outcome (hx.ends s h)

end Meets

end Proc

end DsseCore.Lib

import Mathlib.Tactic.Basic

/-!
# Computations that depend on the outside

A computation asks the outside whether a call succeeds, and may give up with an error.  The answers are a list; when it
is used up every call succeeds.
-/

namespace DsseCore.Lib

/-- A computation with a result or an error, and the answers that are left. -/
def Outside (ε α : Type) : Type := List Bool → Except ε α × List Bool

namespace Outside

variable {ε α β : Type} {x : Outside ε α} {f : α → Outside ε β} {b : β}

instance : Monad (Outside ε) where
  pure a := fun w => (.ok a,w)
  bind x f := fun w =>
    match x w with
    | (.ok a, w') => f a w'
    | (.error e, w') => (.error e,w')

def ask : Outside ε Bool
  | [] => (.ok true,[])
  | ok :: w => (.ok ok,w)

def fail (e : ε) : Outside ε α := fun w => (.error e,w)

def attempt (e : ε) : Outside ε Unit := ask >>= fun ok => if ok then pure () else fail e

def ensure (c : Prop) [Decidable c] (e : ε) : Outside ε Unit := if c then pure () else fail e

def Yields (x : Outside ε α) (a : α) : Prop := ∃ w w', x w = (.ok a,w')

theorem bind_ok {w w' : List Bool} : (x >>= f) w = (.ok b,w') ↔ ∃ a v, x w = (.ok a,v) ∧ f a v = (.ok b,w') := by
  change (match x w with
    | (.ok a, w') => f a w'
    | (.error e, w') => (.error e,w')) = _ ↔ _
  cases hx : x w with
  | mk r v =>
    cases r with
    | ok a =>
      refine ⟨fun h => ⟨a,v,rfl,h⟩,?_⟩
      rintro ⟨a', v', h, hf⟩
      cases h
      exact hf
    | error e => simp

theorem Yields.of_bind (h : (x >>= f).Yields b) : ∃ a, x.Yields a ∧ (f a).Yields b := by
  obtain ⟨w, w', h⟩ := h
  obtain ⟨a, v, hx, hf⟩ := bind_ok.mp h
  exact ⟨a,⟨w,v,hx⟩,⟨v,w',hf⟩⟩

/-- The result if every call succeeds. -/
def Succeeds (x : Outside ε α) (a : α) : Prop := x [] = (.ok a,[])

theorem Succeeds.bind {a : α} (hx : x.Succeeds a) (hf : (f a).Succeeds b) :
    (x >>= f).Succeeds b := bind_ok.mpr ⟨a,[],hx,hf⟩

theorem succeeds_attempt (e : ε) : (attempt e).Succeeds () := rfl

theorem Yields.of_pure {a b : α} (h : (pure a : Outside ε α).Yields b) : a = b := by
  obtain ⟨w, w', h⟩ := h
  cases h
  rfl

end Outside

end DsseCore.Lib

import Mathlib.Data.Nat.Notation

/-!
# Transactions on a shared row

A process edits a row that it shares with others inside a transaction.  The transaction may be refused before its
callback runs, it may be rolled back afterwards, and it may commit although the process is told that it failed.
-/

namespace DsseCore.Lib

/-- How a transaction ends: it commits, it is refused before its callback, it is rolled back after it, or it commits
while an error is reported. -/
inductive Ending where
  | committed
  | refused
  | aborted
  | unconfirmed
  deriving DecidableEq

/-- The ends after which the row holds what the callback wrote. -/
def Ending.Lands : Ending → Prop
  | committed => True
  | unconfirmed => True
  | _ => False

instance (e : Ending) : Decidable e.Lands := by
  cases e <;> unfold Ending.Lands <;> infer_instance

/-- The row after a transaction, what its callback left if it ran through, and whether the commit is confirmed. -/
structure Transaction (R A : Type*) where
  row : Option R
  ran : Option A
  confirmed : Bool

variable {R A : Type*}

/-- A transaction whose callback is shown the row and refuses, or gives the next row. -/
def transact (e : Ending) (row : Option R) (edit : Option R → Option (R × A)) : Transaction R A :=
  match e, edit row with
  | .refused, _ => ⟨row,none,false⟩
  | _, none => ⟨row,none,false⟩
  | .committed, some (next,a) => ⟨some next,some a,true⟩
  | .unconfirmed, some (next,a) => ⟨some next,some a,false⟩
  | .aborted, some (_,a) => ⟨row,some a,false⟩

inductive Transacts (e : Ending) (row : Option R) (edit : Option R → Option (R × A)) : Transaction R A → Prop
  | stopped (h : e = .refused ∨ edit row = none) : Transacts e row edit ⟨row,none,false⟩
  | failed {next : R} {a : A} {row' : Option R} (h : edit row = some (next,a))
      (hrow : row' = row ∧ ¬ e.Lands ∨ row' = some next ∧ e.Lands) (he : e.Lands → e = .unconfirmed) :
      Transacts e row edit ⟨row',some a,false⟩
  | committed {next : R} {a : A} (h : edit row = some (next,a)) (he : e = .committed) :
      Transacts e row edit ⟨some next,some a,true⟩

theorem transact_spec (e : Ending) (row : Option R) (edit : Option R → Option (R × A)) :
    Transacts e row edit (transact e row edit) := by
  unfold transact
  cases h : edit row with
  | none => cases e <;> exact .stopped (.inr h)
  | some r =>
    obtain ⟨next, a⟩ := r
    cases e with
    | refused => exact .stopped (.inl rfl)
    | committed => exact .committed h rfl
    | unconfirmed => exact .failed h (.inr ⟨rfl,trivial⟩) fun _ => rfl
    | aborted => exact .failed h (.inl ⟨rfl,fun h => h⟩) nofun

end DsseCore.Lib

import DsseCore.Authorization.Invariants
import DsseCore.Lib.Run

/-!
# Runs of an authorization store

What both stores are to their callers: operations that perform edits as the invariants ask, next to other processes
that write the shared row.
-/

namespace DsseCore.Authorization

open Go Lib

structure Machine (E P O : Type) where
  kind : Kind E P
  admits : Transition E
  touch : O → Touch E
  perform : Node E P → O → Ending → Node E P
  /-- the error that the operation reports -/
  error : Node E P → O → Ending → Option StoreError
  performs : ∀ {n : Node E P}, kind.Canonical n.records → ∀ op e, Performs kind admits (touch op) e n (perform n op e)
  /-- a removal that fails and has not committed leaves the store as it is -/
  failed : ∀ {n : Node E P} {op e t}, touch op = .erase t → error n op e ≠ none → e ≠ .unconfirmed →
    perform n op e = n ∨ perform n op e = n.learn
  revoked_admits : ∀ old r, kind.revoked old = true → admits old r → kind.revoked r = true

/-- What happens at a store: one of its operations, with the end of its save, or a write of another process to the
shared row. -/
inductive Label (E O : Type) where
  | own (op : O) (e : Ending)
  | peer (row : Option (Document E))

namespace Machine

variable {E P O : Type} (M : Machine E P O) {n n' : Node E P} {tenant id : String}

def next (n : Node E P) : Label E O → Node E P
  | .own op e => M.perform n op e
  | .peer row => { n with row }

def Step (n : Node E P) (l : Label E O) (n' : Node E P) : Prop := n' = M.next n l

/-- The operation is no removal of the tenant, or one that failed and has not committed. -/
def Spares (tenant : String) (n : Node E P) (op : O) (e : Ending) : Prop :=
  M.touch op = .erase tenant → M.error n op e ≠ none ∧ e ≠ .unconfirmed

variable {M} {ls : List (Label E O)} {Q : E → Prop}

theorem canonical_step {l : Label E O} (hn : M.kind.Canonical n.records) (h : M.Step n l n') :
    M.kind.Canonical n'.records := by
  rw [h]
  cases l with
  | own op e => exact (M.performs hn op e).canonical hn
  | peer row => exact hn

theorem canonical_run (hn : M.kind.Canonical n.records) (h : Run M.Step n ls n') : M.kind.Canonical n'.records :=
  h.inv hn fun _ _ _ hn hstep => canonical_step hn hstep

theorem canonical_of_run {capacity : Int} {p : Persister} {row : Option (Document E)}
    (h : Run M.Step ((Node.newStore capacity).setPersister M.kind p row) ls n) : M.kind.Canonical n.records :=
  canonical_run (Node.canonical_opened capacity p row) h

theorem settled_step {op : O} {e : Ending} (hvalid : validKey tenant id = true)
    (hQ : ∀ r, M.kind.revoked r = true → Q r) (hn : M.kind.Canonical n.records)
    (hput : ∀ r old, M.touch op = .put r → M.kind.tenantID r = tenant → M.kind.id r = id → Q old → M.admits old r → Q r)
    (hspares : M.Spares tenant n op e) (hs : Settled M.kind Q (recordKey tenant id) n) :
    Settled M.kind Q (recordKey tenant id) (M.perform n op e) := by
  by_cases herase : M.touch op = .erase tenant
  · obtain ⟨herror, he⟩ := hspares herase
    rcases M.failed herase herror he with heq | heq
    · exact heq.symm ▸ hs
    · exact heq.symm ▸ hs.learn
  · apply (M.performs hn op e).settled hn hvalid hQ hput _ hs
    rintro t ht rfl
    exact herase ht

theorem denied_step (op : O) (e : Ending) (hvalid : validKey tenant id = true) (hn : M.kind.Canonical n.records)
    (hspares : M.Spares tenant n op e) (hd : Denied M.kind (recordKey tenant id) n) :
    Denied M.kind (recordKey tenant id) (M.perform n op e) := by
  by_cases herase : M.touch op = .erase tenant
  · obtain ⟨herror, he⟩ := hspares herase
    rcases M.failed herase herror he with heq | heq
    · exact heq.symm ▸ hd
    · exact heq.symm ▸ hd.learn
  · apply (M.performs hn op e).denied hn hvalid M.revoked_admits _ hd
    rintro t ht rfl
    exact herase ht

def OrderlyStep (M : Machine E P O) (orderly : O → Prop) (tenant : String) (n : Node E P) (l : Label E O)
    (n' : Node E P) : Prop :=
  M.Step n l n' ∧ ∃ op e, l = .own op e ∧ M.Spares tenant n op e ∧ orderly op

theorem settled_of_orderly {orderly : O → Prop} (hvalid : validKey tenant id = true)
    (hQ : ∀ r, M.kind.revoked r = true → Q r)
    (hput : ∀ op r old, orderly op → M.touch op = .put r → M.kind.tenantID r = tenant → M.kind.id r = id → Q old → M.admits old r → Q r)
    (hn : M.kind.Canonical n.records) (hs : Settled M.kind Q (recordKey tenant id) n)
    (hrun : Run (M.OrderlyStep orderly tenant) n ls n') : Settled M.kind Q (recordKey tenant id) n' := by
  have hinv : M.kind.Canonical n'.records ∧ Settled M.kind Q (recordKey tenant id) n' := by
    apply hrun.inv ⟨hn,hs⟩
    rintro n l n' ⟨hn, hs⟩ ⟨hstep, op, e, rfl, hspares, horderly⟩
    exact ⟨canonical_step hn hstep,
      hstep ▸ settled_step hvalid hQ hn (fun r old => hput op r old horderly) hspares hs⟩
  exact hinv.2

/-- What keeps a denial in force: the store spares the tenant, and another process that writes the row once the latch
is released leaves the denial in it. -/
def Respects (M : Machine E P O) (tenant id : String) (n : Node E P) : Label E O → Prop
  | .own op e => M.Spares tenant n op e
  | .peer row => recordKey tenant id ∈ n.pendingRevocations ∨
      ∀ cur, row.bind (·.bind M.kind.decodeSnapshot) = some cur →
        At (fun r => M.kind.revoked r = true) cur (recordKey tenant id)

theorem denied_run (hvalid : validKey tenant id = true) (hn : M.kind.Canonical n.records)
    (hd : Denied M.kind (recordKey tenant id) n)
    (hrun : Run (fun n l n' => M.Step n l n' ∧ M.Respects tenant id n l) n ls n') :
    Denied M.kind (recordKey tenant id) n' := by
  have hinv : M.kind.Canonical n'.records ∧ Denied M.kind (recordKey tenant id) n' := by
    apply hrun.inv ⟨hn,hd⟩
    rintro n l n' ⟨hn, hd⟩ ⟨hstep, hrespects⟩
    refine ⟨canonical_step hn hstep,hstep ▸ ?_⟩
    cases l with
    | own op e => exact denied_step op e hvalid hn hrespects hd
    | peer row => exact hd.peer hrespects
  exact hinv.2

end Machine

end DsseCore.Authorization

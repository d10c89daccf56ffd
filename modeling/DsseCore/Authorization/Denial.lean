import DsseCore.Authorization.DelegatedGrant
import DsseCore.Authorization.HumanApproval

/-!
# Revocations that could not be saved

A revocation whose save failed is latched in the process, and the latch is laid over whatever other processes make of
the row until a save of this process has put the denial there.
-/

namespace DsseCore

open Go Lib Authorization

namespace HumanApproval

variable {s : Store} {e : Ending} {tenant id reason : String}

theorem revokeForTenantContext_denied (hs : events.Canonical s.records)
    (h : (s.revokeForTenantContext e tenant id reason).2.1 ≠ none) :
    validKey tenant id = true ∧ events.Canonical (s.revokeForTenantContext e tenant id reason).1.records ∧
      Denied events (recordKey tenant id) (s.revokeForTenantContext e tenant id reason).1 := by
  unfold Store.revokeForTenantContext at h ⊢
  split at h
  · exact absurd rfl h
  next hvalid =>
    rw [if_neg hvalid]
    have hvalid : validKey tenant id = true := by simpa using hvalid
    have hne := tenant_ne_empty_of_validKey hvalid
    have hspec := revokeContext_spec hs e tenant id reason
    exact ⟨hvalid,hspec.performs.canonical hs,hspec.denied hs hne h⟩

theorem not_active_of_revoked {event : Event} (h : events.revoked event = true) (now : Time) : isActive event now = false := by
  have hrevoked : event.approvalResult = "revoked" := beq_iff_eq.mp h
  unfold isActive
  rw [hrevoked]
  rfl

theorem not_active_of_denied (hs : events.Canonical s.records) (hvalid : validKey tenant id = true)
    (h : Denied events (recordKey tenant id) s) {loaded : Bool} {event : Event}
    (hevent : s.records[approvalKey tenant id]? = some event ∨ (s.getForTenant events loaded tenant id).2 = some event) (now : Time) :
    isActive event now = false := by
  rcases hevent with hevent | hevent
  · exact not_active_of_revoked (h.revoked hevent) now
  have hrefresh : Denied events (recordKey tenant id) (s.refreshShared events loaded).1 :=
    Machine.denied_step (M := machine) (.refresh loaded) .refused hvalid hs nofun h
  unfold Node.getForTenant at hevent
  dsimp only at hevent
  split at hevent
  · exact not_active_of_revoked (hrefresh.revoked hevent) now
  · contradiction

end HumanApproval

namespace DelegatedGrant

variable {s : Store} {e : Ending} {tenant id reason : String} {now : Time}

theorem revokeForTenantContext_denied (hs : grants.Canonical s.records)
    (h : (s.revokeForTenantContext e tenant id reason now).2.1 ≠ none) :
    validKey tenant id = true ∧ grants.Canonical (s.revokeForTenantContext e tenant id reason now).1.records ∧
      Denied grants (recordKey tenant id) (s.revokeForTenantContext e tenant id reason now).1 := by
  unfold Store.revokeForTenantContext at h ⊢
  split at h
  · exact absurd rfl h
  next hvalid =>
    rw [if_neg hvalid]
    have hvalid : validKey tenant id = true := by simpa using hvalid
    have hne := tenant_ne_empty_of_validKey hvalid
    have hspec := revokeContext_spec hs e tenant id reason now
    exact ⟨hvalid,hspec.performs.canonical hs,hspec.denied hs hne h⟩

theorem not_active_of_revoked {grant : Grant} (h : grants.revoked grant = true) (now : Time) : isActive grant now = false := by
  have hrevoked : grant.status = "revoked" := beq_iff_eq.mp h
  unfold isActive
  rw [hrevoked]
  rfl

theorem not_active_of_denied (hs : grants.Canonical s.records) (hvalid : validKey tenant id = true)
    (h : Denied grants (recordKey tenant id) s) {loaded : Bool} {grant : Grant}
    (hgrant : s.records[grantKey tenant id]? = some grant ∨ (s.getForTenant grants loaded tenant id).2 = some grant) (now : Time) :
    isActive grant now = false := by
  rcases hgrant with hgrant | hgrant
  · exact not_active_of_revoked (h.revoked hgrant) now
  have hrefresh : Denied grants (recordKey tenant id) (s.refreshShared grants loaded).1 :=
    Machine.denied_step (M := machine) (.refresh loaded) .refused hvalid hs nofun h
  unfold Node.getForTenant at hgrant
  dsimp only at hgrant
  split at hgrant
  · exact not_active_of_revoked (hrefresh.revoked hgrant) now
  · contradiction

end DelegatedGrant

namespace Authorization

private def approved (id : String) : HumanApproval.Event := ⟨id,"acme","approved",none,none,none⟩

private def revoked : HumanApproval.Event := ⟨"a1","acme","revoked",some "left",none,none⟩

/-- A row with the approval as another process writes it. -/
private def written : Option (Document HumanApproval.Event) :=
  some (some (Map.ofEntries [(HumanApproval.approvalKey "acme" "a1",approved "a1")]))

private def served : HumanApproval.Store :=
  (Node.newStore 0).setPersister HumanApproval.machine.kind .shared written

/-- After any operations and writes of other processes the records are a snapshot that is read back as it is. -/
def Machine.Reloads {E P O : Type} (M : Machine E P O) : Prop :=
  ∀ capacity p row ls, let n := List.foldl M.next ((Node.newStore capacity).setPersister M.kind p row) ls
    M.kind.decodeSnapshot n.records = some n.records

theorem snapshots_reload : HumanApproval.machine.Reloads ∧ DelegatedGrant.machine.Reloads := by
  have hreloads {E P O : Type} (M : Machine E P O) : M.Reloads := by
    intro capacity p row ls
    apply Kind.decodeSnapshot_canonical
    refine List.foldlRecOn ls _ (motive := fun n : Node E P => M.kind.Canonical n.records) ?_ fun n hn l _ => ?_
    · exact Node.canonical_opened capacity p row
    · exact Machine.canonical_step hn rfl
  exact ⟨hreloads _,hreloads _⟩

end Authorization

end DsseCore

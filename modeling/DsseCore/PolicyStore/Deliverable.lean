import DsseCore.PolicyStore.Evaluator
import DsseCore.PolicyStore.Layering

/-!
# Policies that survive a second normalization

The receiver of a bundle normalizes every policy again.  What the control plane normalized itself comes through
unchanged; the statement for arbitrary policies says what else has to hold.
-/

namespace DsseCore.PolicyStore

open Go Model Decision TenantRestriction List

def addNormalized (acc : List String) (v : String) : List String :=
  if trimSpace v = "" ∨ trimSpace v ∈ acc then acc else acc ++ [trimSpace v]

def CleanList (l : List String) : Prop := l.Nodup ∧ ∀ v ∈ l, trimSpace v = v ∧ v ≠ ""

theorem cleanList_foldl (l acc : List String) (h : CleanList acc) : CleanList (l.foldl addNormalized acc) := by
  induction l generalizing acc with
  | nil => exact h
  | cons v l ih =>
    apply ih
    unfold addNormalized
    split
    · exact h
    rename_i hv
    rw [not_or] at hv
    refine ⟨nodup_append.mpr ⟨h.1,nodup_singleton _,?_⟩,fun w hw => ?_⟩
    · intro a ha b hb hab
      rw [mem_singleton] at hb
      exact hv.2 (hb ▸ hab ▸ ha)
    rcases mem_append.mp hw with hw | hw
    · exact h.2 w hw
    rw [mem_singleton] at hw
    subst hw
    exact ⟨trimSpace_trimSpace v,hv.1⟩

theorem foldl_addNormalized_clean (l acc : List String) (h : CleanList (acc ++ l)) :
    l.foldl addNormalized acc = acc ++ l := by
  induction l generalizing acc with
  | nil => simp
  | cons v l ih =>
    obtain ⟨htrim, hne⟩ := h.2 v (by simp)
    have hnot : v ∉ acc := fun hv => (nodup_append.mp h.1).2.2 v hv v mem_cons_self rfl
    rw [foldl_cons,addNormalized,htrim,if_neg (by simp [hne,hnot]),ih _ (by simpa using h)]
    simp

@[simp] theorem normalizedStringList_idem (l : List String) :
    normalizedStringList (normalizedStringList l) = normalizedStringList l := by
  exact foldl_addNormalized_clean _ [] (cleanList_foldl l [] ⟨nodup_nil,by simp⟩)

/-- The lists of a policy that normalization cleans, the tool IDs apart. -/
def otherLists (p : Policy) : List (List String) :=
  [p.allowedTaskPurposes,p.allowedToolActions,p.allowedContextScopeIDs,p.allowedMemoryScopeIDs,
    p.allowedDataClassifications]

/-- What a decision can depend on: not the name, the owner (it is visible to the tenant) or the time of the last
change; of the tool IDs whether there is a boundary and the IDs inside it. -/
def decisionView (p : Policy) : Policy × Bool :=
  ({ p with tenantID := "", name := "", updatedAt := none, allowedToolIDs := normalizedStringList p.allowedToolIDs },
    p.allowedToolIDs.isEmpty)

/-- A policy that a receiver takes over with its meaning. -/
structure Deliverable (p : Policy) : Prop where
  id_trimmed : trimSpace p.id = p.id
  id_ne : p.id ≠ ""
  id_slash : contains p.id "/" = false
  status : validAdminPolicyStatus p.status = true
  decision : validAdminPolicyDecision p.action.decision = true
  conditions : p.conditions.isEmpty = false
  tools : p.allowedToolIDs = [] ∨ normalizedStringList p.allowedToolIDs ≠ []
  lists : ∀ l ∈ otherLists p, normalizedStringList l = l

theorem trimSpace_validStatus {status : String} (h : validAdminPolicyStatus status = true) :
    trimSpace status = status ∧ status ≠ "" := by
  simp only [validAdminPolicyStatus,mem_cons,not_mem_nil,or_false,decide_eq_true_eq] at h
  rcases h with rfl | rfl | rfl <;> exact ⟨by decide +kernel,by decide⟩

theorem trimSpace_validDecision {decision : String} (h : validAdminPolicyDecision decision = true) :
    trimSpace decision = decision ∧ decision ≠ "" := by
  simp only [validAdminPolicyDecision,mem_cons,not_mem_nil,or_false,decide_eq_true_eq] at h
  rcases h with rfl | rfl | rfl | rfl <;> exact ⟨by decide +kernel,by decide⟩

theorem normalizeAdminPolicy_deliverable {item p : Policy} {tenant : String} {now : Time}
    (h : normalizeAdminPolicy item tenant now = .ok p) :
    Deliverable p ∧ p.tenantID = trimSpace tenant ∧ p.tenantID ≠ "" := by
  unfold normalizeAdminPolicy at h
  extract_lets tenantID id owner₀ owner name status₀ status decision at h
  -- the guards in order; only the last branch returns
  iterate 8 (split at h <;> [cases h; skip])
  rename_i htenant hid hslash howner hstatus hdecision hvalid hconditions
  cases h
  rw [not_not] at howner hstatus hvalid
  refine ⟨⟨trimSpace_trimSpace _,hid,?_,hstatus,hvalid,?_,?_,?_⟩,howner,?_⟩
  · simpa using hslash
  · simpa using hconditions
  · rw [normalizedStringList_idem]
    exact Classical.em _
  · intro l hl
    simp only [otherLists,mem_cons,not_mem_nil,or_false] at hl
    rcases hl with rfl | rfl | rfl | rfl | rfl <;> exact normalizedStringList_idem _
  · exact fun h => htenant (howner ▸ h)

theorem Deliverable.normalize {p : Policy} (hp : Deliverable p) {tenant : String} (ht : trimSpace tenant = tenant)
    (hne : tenant ≠ "") (now : Time) :
    ∃ q, normalizeAdminPolicy { p with tenantID := tenant } tenant now = .ok q ∧ q.id = p.id ∧ q.tenantID = tenant ∧
      decisionView q = decisionView p := by
  obtain ⟨hstatus, hstatusne⟩ := trimSpace_validStatus hp.status
  obtain ⟨hdecision, hdecisionne⟩ := trimSpace_validDecision hp.decision
  have htools : (normalizedStringList p.allowedToolIDs).isEmpty = p.allowedToolIDs.isEmpty := by
    rcases hp.tools with h | h
    · rw [h]
      rfl
    · have : p.allowedToolIDs ≠ [] := fun h' => h (by rw [h']; rfl)
      rw [isEmpty_eq_false_iff.mpr h,isEmpty_eq_false_iff.mpr this]
  have hlists := hp.lists
  simp only [otherLists,mem_cons,forall_eq_or_imp] at hlists
  obtain ⟨h1, h2, h3, h4, h5⟩ := hlists
  refine ⟨{ p with
    tenantID := tenant, name := if trimSpace p.name = "" then p.id else trimSpace p.name
    allowedToolIDs := normalizedStringList p.allowedToolIDs, updatedAt := some (Time.formatRFC3339 now) },?_,rfl,rfl,?_⟩
  · simp only [normalizeAdminPolicy,ht,hne,hp.id_trimmed,hp.id_ne,hp.id_slash,hstatus,hstatusne,hp.status,hdecision,
      hdecisionne,hp.decision,hp.conditions,h1,h2,h3,h4,h5,if_false,not_true_eq_false,Bool.false_eq_true,ne_eq]
  · simp only [decisionView,normalizedStringList_idem,htools]

end DsseCore.PolicyStore

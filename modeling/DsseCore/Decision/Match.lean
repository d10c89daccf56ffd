import DsseCore.Decision.Conditions
import DsseCore.Go.Sort

/-!
# Policy matching

The order in which policies are tried and the first one that matches a request.
-/

namespace DsseCore.Decision

open Go Model

def policyDecisionRestrictivenessRank (decision : String) : ℕ :=
  match decision with
  | "deny" => 0
  | "require_reauthentication" => 1
  | "require_step_up_mfa" => 1
  | "require_interactive_mfa" => 1
  | "authenticate_required" => 1
  | _ => 2

/-- Priority first, then the more restrictive decision, then the ID. -/
def policyLess (p q : Policy) : Bool :=
  if p.priority ≠ q.priority then p.priority < q.priority
  else
    let rp := policyDecisionRestrictivenessRank p.action.decision
    let rq := policyDecisionRestrictivenessRank q.action.decision
    if rp ≠ rq then rp < rq else p.id < q.id

def orderedPolicies (policies : List Policy) : List Policy := sliceStable policyLess policies

def firstPolicyTenantID (policies : List Policy) : String :=
  match (orderedPolicies policies).find? (·.tenantID ≠ "") with
  | some p => p.tenantID
  | none => ""

def policyTenantAppliesTo (policy : Policy) (req : DecisionRequest) : Bool :=
  let pt := trimSpace policy.tenantID
  let rt := trimSpace req.tenantID
  pt == "" || rt == "" || pt == rt

def conditionsMatch (now : Time) (policy : Policy) (req : DecisionRequest) (actorType : String) : Bool :=
  policy.conditions.toList.all fun e => matchCondition now req actorType e.1 e.2

def matchPolicy (now : Time) (policy : Policy) (req : DecisionRequest) (actorType : String) :
    Option (List String) :=
  if policy.status ≠ "active" then none
  else if ¬ policyTenantAppliesTo policy req then none
  else if conditionsMatch now policy req actorType then some policy.conditions.keys
  else none

def policyMatches (now : Time) (req : DecisionRequest) (actorType : String) (policy : Policy) : Bool :=
  (matchPolicy now policy req actorType).isSome

def firstMatchedPolicy (now : Time) (policies : List Policy) (req : DecisionRequest) (actorType : String) :
    Option (Policy × List String) :=
  (orderedPolicies policies).findSome? fun p => (matchPolicy now p req actorType).map fun names => (p,names)

def policyKey (p : Policy) : Int ×ₗ ℕ ×ₗ String :=
  toLex (p.priority,toLex (policyDecisionRestrictivenessRank p.action.decision,p.id))

theorem policyLess_iff (p q : Policy) : policyLess p q = true ↔ policyKey p < policyKey q := by
  unfold policyLess policyKey
  rw [Prod.Lex.toLex_lt_toLex,Prod.Lex.toLex_lt_toLex]
  by_cases hp : p.priority = q.priority
  · by_cases hr : policyDecisionRestrictivenessRank p.action.decision =
        policyDecisionRestrictivenessRank q.action.decision
    · simp [hp,hr]
    · simp [hp,hr]
  · simp [hp]

theorem policyLess_strictWeak : StrictWeak policyLess where
  asymm p q h := by
    rw [Bool.eq_false_iff,Ne,policyLess_iff,not_lt]
    exact ((policyLess_iff p q).mp h).le
  incomp_trans p q r hpq hqr := by
    rw [Bool.eq_false_iff,Ne,policyLess_iff,not_lt] at *
    exact hpq.trans hqr

variable {p : Policy}

@[simp] theorem mem_orderedPolicies {policies : List Policy} :
    p ∈ orderedPolicies policies ↔ p ∈ policies := mem_sliceStable

variable {now : Time} {policies : List Policy} {req : DecisionRequest} {actorType : String} {names : List String}

theorem conditionsMatch_iff : conditionsMatch now p req actorType = true ↔
      ∀ key expected, p.conditions[key]? = some expected →
        matchCondition now req actorType key expected = true := by
  unfold conditionsMatch
  rw [List.all_eq_true,Prod.forall]
  simp only [Std.ExtTreeMap.mem_toList_iff_getElem?_eq_some]

theorem matchPolicy_eq_some : matchPolicy now p req actorType = some names ↔
      p.status = "active" ∧ policyTenantAppliesTo p req = true ∧
        conditionsMatch now p req actorType = true ∧ p.conditions.keys = names := by
  unfold matchPolicy
  split_ifs with h₁ h₂ h₃ <;> simp_all

theorem policyMatches_iff : policyMatches now req actorType p = true ↔
      p.status = "active" ∧ policyTenantAppliesTo p req = true ∧
        conditionsMatch now p req actorType = true := by
  simp [policyMatches,Option.isSome_iff_exists,matchPolicy_eq_some]

theorem firstMatchedPolicy_eq :
    firstMatchedPolicy now policies req actorType =
      ((orderedPolicies policies).find? (policyMatches now req actorType)).map
        fun p => (p,p.conditions.keys) := by
  unfold firstMatchedPolicy
  induction orderedPolicies policies with
  | nil => rfl
  | cons p l ih =>
    cases hm : matchPolicy now p req actorType with
    | none =>
      have hp : policyMatches now req actorType p = false := by simp [policyMatches,hm]
      simp [hm,hp,ih]
    | some names =>
      have hp : policyMatches now req actorType p = true := by simp [policyMatches,hm]
      have hnames := (matchPolicy_eq_some.mp hm).2.2.2
      simp [hm,hp,hnames]

theorem firstMatchedPolicy_spec (h : firstMatchedPolicy now policies req actorType = some (p,names)) :
    p ∈ policies ∧ policyMatches now req actorType p = true ∧
      ∀ q ∈ policies, policyMatches now req actorType q = true → policyLess q p = false := by
  rw [firstMatchedPolicy_eq,Option.map_eq_some_iff] at h
  obtain ⟨p', hfind, hp⟩ := h
  obtain ⟨rfl, -⟩ := Prod.mk.inj hp
  refine ⟨mem_orderedPolicies.mp (List.mem_of_find?_eq_some hfind),List.find?_some hfind,?_⟩
  exact find?_sliceStable_minimal policyLess_strictWeak hfind

theorem firstMatchedPolicy_filter (keep : Policy → Bool)
    (h : ∀ p ∈ policies, policyMatches now req actorType p = true → keep p = true) :
    firstMatchedPolicy now (policies.filter keep) req actorType =
      firstMatchedPolicy now policies req actorType := by
  rw [firstMatchedPolicy_eq,firstMatchedPolicy_eq]
  congr 1
  have hcomm : orderedPolicies (policies.filter keep) = (orderedPolicies policies).filter keep :=
    (filter_sliceStable policyLess_strictWeak keep policies).symm
  rw [hcomm,List.find?_filter]
  apply List.find?_congr
  intro p hp
  cases hm : policyMatches now req actorType p with
  | false => simp
  | true => simp [h p (mem_orderedPolicies.mp hp) hm]

end DsseCore.Decision

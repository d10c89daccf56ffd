import DsseCore.Decision.Match

/-!
# Admin policies

What the policy store accepts: `normalizeAdminPolicy` is run on every policy that is authored, seeded or received
in a bundle.
-/

namespace DsseCore.PolicyStore

open Go Model

inductive PolicyError where
  | tenantRequired
  | idRequired
  | idSlash
  | tenantMismatch (policyTenant tenant : String)
  | statusInvalid (status : String)
  | decisionRequired
  | decisionInvalid (decision : String)
  | conditionsEmpty
  deriving DecidableEq

def validAdminPolicyStatus (status : String) : Bool := status ∈ ["active","draft","disabled"]

def validAdminPolicyDecision (decision : String) : Bool :=
  decision ∈ ["allow","deny","require_reauthentication","require_workload_attestation"]

def normalizedStringList (values : List String) : List String :=
  values.foldl (fun acc v => let v := trimSpace v; if v = "" ∨ v ∈ acc then acc else acc ++ [v]) []

def normalizeAdminPolicy (policy : Policy) (tenantID : String) (now : Time) : Except PolicyError Policy :=
  let tenantID := trimSpace tenantID
  let id := trimSpace policy.id
  let owner := trimSpace policy.tenantID
  let owner := if owner = "" then tenantID else owner
  let name := trimSpace policy.name
  let status := trimSpace policy.status
  let status := if status = "" then "draft" else status
  let decision := trimSpace policy.action.decision
  if tenantID = "" then .error .tenantRequired
  else if id = "" then .error .idRequired
  else if contains id "/" then .error .idSlash
  else if owner ≠ tenantID then .error (.tenantMismatch owner tenantID)
  else if ¬ validAdminPolicyStatus status then .error (.statusInvalid status)
  else if decision = "" then .error .decisionRequired
  else if ¬ validAdminPolicyDecision decision then .error (.decisionInvalid decision)
  else if policy.conditions.isEmpty then .error .conditionsEmpty
  else .ok { policy with
    id := id, tenantID := owner, name := if name = "" then id else name, status := status
    action := { policy.action with decision := decision }
    allowedTaskPurposes := normalizedStringList policy.allowedTaskPurposes
    allowedToolIDs := normalizedStringList policy.allowedToolIDs
    allowedToolActions := normalizedStringList policy.allowedToolActions
    allowedContextScopeIDs := normalizedStringList policy.allowedContextScopeIDs
    allowedMemoryScopeIDs := normalizedStringList policy.allowedMemoryScopeIDs
    allowedDataClassifications := normalizedStringList policy.allowedDataClassifications
    updatedAt := some (Time.formatRFC3339 now) }

def adminPolicyLess (p q : Policy) : Bool :=
  if p.priority ≠ q.priority then p.priority < q.priority else p.id < q.id

def sortPolicies (policies : List Policy) : List Policy := sliceStable adminPolicyLess policies

end DsseCore.PolicyStore

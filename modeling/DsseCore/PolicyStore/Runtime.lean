import DsseCore.Decision.EastWest
import DsseCore.PolicyStore.Admin
import DsseCore.PolicyStore.Restriction

/-!
# The runtime overlay of the policy store

What an administrator changes at run time lives in one document, separate from the seeded or received policies.
The document is saved as a whole; a store adopts it by laying it over its base policies again.
-/

namespace DsseCore.PolicyStore

open Go Model Decision TenantRestriction

abbrev Rows (α : Type) := Map (Map α)

namespace Rows

variable {α : Type}

def find (m : Rows α) (tenant id : String) : Option α := m[tenant]? >>= fun rows => rows[id]?

def put (m : Rows α) (tenant id : String) (v : α) : Rows α := m.insert tenant ((m[tenant]?.getD ∅).insert id v)

/-- Deleting from a tenant that has no entry leaves none behind. -/
def remove (m : Rows α) (tenant id : String) : Rows α :=
  match m[tenant]? with
  | some rows => m.insert tenant (rows.erase id)
  | none => m

theorem find_put (m : Rows α) (tenant id t i : String) (v : α) :
    (m.put tenant id v).find t i = if tenant = t ∧ id = i then some v else m.find t i := by
  unfold put find
  rw [Map.getElem?_insert_eq]
  by_cases ht : tenant = t
  · subst ht
    cases hm : m[tenant]? <;> simp [Map.getElem?_insert_eq]
  · simp [ht]

theorem find_remove (m : Rows α) (tenant id t i : String) :
    (m.remove tenant id).find t i = if tenant = t ∧ id = i then none else m.find t i := by
  unfold remove find
  cases hm : m[tenant]? with
  | none =>
    by_cases ht : tenant = t
    · subst ht
      simp [hm]
    · simp [ht]
  | some rows =>
    simp only [Map.getElem?_insert_eq]
    by_cases ht : tenant = t
    · subst ht
      simp [hm,Map.getElem?_erase_eq]
    · simp [ht]

end Rows

/-- The durable document of the Admin API's runtime changes. -/
structure RuntimeState where
  upstreamTLSModes : Map String := ∅
  saasTenantRestrictions : Rows Setting := ∅
  tenantRestrictionRuleStatus : Map String := ∅
  policyStatusOverride : Rows String := ∅
  eastWestEnabled : Map Bool := ∅
  eastWestAllowUnmatched : Map Bool := ∅
  eastWestRules : Map (List EastWestRule) := ∅
  eastWestMaxGrantTTL : Map Int := ∅
  serverInitiatedEnabled : Map Bool := ∅
  legacyExceptions : Map (List Model.LegacyException) := ∅
  adminAuthoredPolicies : Rows Policy := ∅
  deriving DecidableEq

def validAuthoredUpstreamTLSMode (mode : String) : Bool := mode == "strict" || mode == "browser_compatible"

def policyEncodable (p : Policy) : Bool :=
  p.conditions.toList.all (fun e => e.2.encodable) && p.metadata.toList.all (fun e => e.2.encodable)

def reencodePolicy (p : Policy) : Policy :=
  { p with conditions := p.conditions.map fun _ => Value.reencode, metadata := p.metadata.map fun _ => Value.reencode }

/-- What `decodeRuntimeState` checks of a document beyond its shape. -/
def runtimeStateValid (f : RuntimeState) : Bool :=
  f.upstreamTLSModes.toList.all (fun e =>
      e.1 ≠ "" && trimSpace e.1 == e.1 && validAuthoredUpstreamTLSMode e.2) &&
    f.saasTenantRestrictions.toList.all fun e => (validateAll e.2).isOk

/-- Writing a document and reading it back.  It fails when a value cannot be written or a section is refused. -/
def reencode (f : RuntimeState) : Option RuntimeState :=
  if ¬ f.adminAuthoredPolicies.toList.all fun e => e.2.toList.all fun p => policyEncodable p.2 then none
  else if ¬ runtimeStateValid f then none
  else some { f with adminAuthoredPolicies := f.adminAuthoredPolicies.map fun _ rows => rows.map fun _ => reencodePolicy }

/-- Where a store keeps its document: nowhere, in a file of its own, or in a row shared with other stores. -/
inductive Persister where
  | none
  | file
  | shared
  deriving DecidableEq

structure Store where
  policies : Rows Policy := ∅
  cachedPolicies : List Policy := []
  runtimeBasePolicies : Rows Policy := ∅
  runtime : RuntimeState := {}
  compiledPolicies : Map (List Policy) := ∅
  compiledEastWestRules : Map (List EastWestRule) := ∅
  eastWestGrants : Map (List EastWestGrant) := ∅
  eastWestInternalNetworks : Map InternalNetworks := ∅
  persister : Persister := .none
  runtimeAuthorityKnown : Bool := false
  generation : ℕ := 0

def putPolicy (m : Rows Policy) (p : Policy) : Rows Policy := m.put p.tenantID p.id p

def overrideStatuses (rows : Map Policy) (overrides : Map String) : Map Policy :=
  overrides.toList.foldl (fun rows e =>
    match rows[e.1]? with
    | some p => rows.insert e.1 { p with status := e.2 }
    | none => rows) rows

def overrideTenant (m : Rows Policy) (tenant : String) (overrides : Map String) : Rows Policy :=
  match m[tenant]? with
  | some rows => m.insert tenant (overrideStatuses rows overrides)
  | none => m

/-- A tenant's authored policies first, so that a status override can also disable one of them. -/
def reapplyRuntimeOverlays (f : RuntimeState) (tenant : String) (m : Rows Policy) : Rows Policy :=
  let m := (f.adminAuthoredPolicies[tenant]?.getD ∅).toList.foldl (fun m e => putPolicy m e.2) m
  overrideTenant m tenant (f.policyStatusOverride[tenant]?.getD ∅)

def applyPolicyStatusOverrides (f : RuntimeState) (m : Rows Policy) : Rows Policy :=
  f.policyStatusOverride.toList.foldl (fun m e => overrideTenant m e.1 e.2) m

def flattenPolicies (m : Rows Policy) : List Policy := m.toList.flatMap fun e => e.2.toList.map Prod.snd

def Store.rebuildPolicyCache (s : Store) : Store :=
  { s with cachedPolicies := sortPolicies (flattenPolicies s.policies) }

def layeredPolicies (base : Rows Policy) (f : RuntimeState) : Rows Policy :=
  applyPolicyStatusOverrides f
    (f.adminAuthoredPolicies.toList.foldl (fun m e => reapplyRuntimeOverlays f e.1 m) base)

/-- Adopt a document, keeping what came from the bundle or was compiled. -/
def Store.adoptRuntime (s : Store) (f : RuntimeState) : Store :=
  { s with runtime := f, policies := layeredPolicies s.runtimeBasePolicies f }.rebuildPolicyCache

end DsseCore.PolicyStore

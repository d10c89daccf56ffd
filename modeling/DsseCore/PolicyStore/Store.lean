import DsseCore.PolicyStore.Runtime

/-!
# Operations of the policy store

Every authored change is an edit of the latest document: read it, edit a detached copy, save, and only then adopt.
How the save ends is an input of the model.
-/

namespace DsseCore.PolicyStore

open Go Model Decision TenantRestriction

inductive StoreError where
  | policy (e : PolicyError)
  | restriction (e : TenantRestriction.Error)
  | idsRequired
  | fromBundle (policyID : String)
  | invalidStatus
  | exceptionIdentity
  | organizationRequired
  | notConfigured
  | callback (message : String)
  | persistence
  deriving DecidableEq

/-- How the durable side answers.  `unavailable` fails before the callback sees a document; `failed` fails after it
and writes nothing; `unconfirmed` writes but reports an error. -/
inductive Outcome where
  | saved
  | savedInPlace
  | unconfirmed
  | failed
  | unavailable
  deriving DecidableEq

structure Update (α : Type) where
  store : Store
  document : Option RuntimeState
  result : Except StoreError α

variable {α : Type}

abbrev Edit (α : Type) := RuntimeState → Except StoreError (RuntimeState × α)

/-- The document to edit.  A missing one is the store's own state, unless a document was seen before. -/
def currentDocument (s : Store) : Option RuntimeState → Option RuntimeState
  | some f => some f
  | none => if s.runtimeAuthorityKnown then none else reencode s.runtime

def build (s : Store) (raw : Option RuntimeState) (edit : Edit α) : Except StoreError (RuntimeState × α) :=
  match currentDocument s raw with
  | none => .error .persistence
  | some current =>
    match edit current with
    | .error e => .error e
    | .ok (f,a) =>
      match reencode f with
      | some next => .ok (next,a)
      | none => .error .persistence

def Store.publish (s : Store) (f : RuntimeState) : Store :=
  { s.adoptRuntime f with
    generation := s.generation + 1
    runtimeAuthorityKnown := s.runtimeAuthorityKnown || s.persister ≠ .none }

def editShared (s : Store) (document : Option RuntimeState) (outcome : Outcome) (edit : Edit α) : Update α :=
  if outcome = .unavailable then ⟨s,document,.error .persistence⟩
  else match build s document edit with
    | .error e => ⟨s,document,.error e⟩
    | .ok (next,a) =>
      match outcome with
      | .saved => ⟨s.publish next,some next,.ok a⟩
      -- the transaction committed, but the caller cannot know
      | .unconfirmed => ⟨s,some next,.error .persistence⟩
      | _ => ⟨s,document,.error .persistence⟩

def editLocal (s : Store) (document : Option RuntimeState) (outcome : Outcome) (edit : Edit α) : Update α :=
  match (reencode s.runtime).map fun f => build s (some f) edit with
  | none => ⟨s,document,.error .persistence⟩
  | some (.error e) => ⟨s,document,.error e⟩
  | some (.ok (next,a)) =>
    if s.persister = .none then ⟨s.publish next,document,.ok a⟩
    else match outcome with
      | .saved => ⟨s.publish next,some next,.ok a⟩
      | .savedInPlace => ⟨s.publish next,some next,.ok a⟩
      -- the file was replaced: keep the controls a restart will load
      | .unconfirmed => ⟨s.publish next,some next,.error .persistence⟩
      | _ => ⟨s,document,.error .persistence⟩

def editRuntime (s : Store) (document : Option RuntimeState) (outcome : Outcome) (edit : Edit α) : Update α :=
  if s.persister = .shared then editShared s document outcome edit else editLocal s document outcome edit

def upsertEdit (normalized : Policy) : Edit Policy := fun f =>
  .ok ({ f with
    adminAuthoredPolicies := f.adminAuthoredPolicies.put normalized.tenantID normalized.id normalized },normalized)

/-- Only authored policies can be deleted; the rest would come back with the next bundle. -/
def deleteEdit (base : Rows Policy) (tenant id : String) : Edit (Option Policy) := fun f =>
  match f.adminAuthoredPolicies.find tenant id with
  | none => if (base.find tenant id).isSome then .error (.fromBundle id) else .ok (f,none)
  | some removed => .ok ({ f with
      adminAuthoredPolicies := f.adminAuthoredPolicies.remove tenant id
      policyStatusOverride := f.policyStatusOverride.remove tenant id },some removed)

def policyStatusEdit (base : Rows Policy) (tenant id status : String) : Edit Bool := fun f =>
  if (f.adminAuthoredPolicies.find tenant id).isSome ∨ (base.find tenant id).isSome then
    .ok ({ f with policyStatusOverride := f.policyStatusOverride.put tenant id status },true)
  else .ok (f,false)

def putStatuses (m statuses : Map String) : Map String := statuses.toList.foldl (fun m e => m.insert e.1 e.2) m

def ruleStatusesEdit (statuses : Map String) : Edit Unit := fun f =>
  .ok ({ f with tenantRestrictionRuleStatus := putStatuses f.tenantRestrictionRuleStatus statuses },())

def setIfGiven {α : Type} (m : Map α) (tenant : String) : Option α → Map α
  | some v => m.insert tenant v
  | none => m

def eastWestEdit (tenant : String) (rules : Option (List EastWestRule)) (ttl : Option Int)
    (enabled unmatched : Option Bool) : Edit Unit := fun f =>
  .ok ({ f with
    eastWestRules := setIfGiven f.eastWestRules tenant rules
    eastWestMaxGrantTTL := setIfGiven f.eastWestMaxGrantTTL tenant (ttl.map (max 0))
    eastWestEnabled := setIfGiven f.eastWestEnabled tenant enabled
    eastWestAllowUnmatched := setIfGiven f.eastWestAllowUnmatched tenant unmatched },())

def serverInitiatedEdit (tenant : String) (enabled : Bool) : Edit Unit := fun f =>
  .ok ({ f with serverInitiatedEnabled := f.serverInitiatedEnabled.insert tenant enabled },())

/-- The stored exception, or a fresh active one, is handed to the caller's edit. -/
def legacyExceptionEdit (tenant id : String) (edit : Model.LegacyException → Except String Model.LegacyException) :
    Edit Model.LegacyException := fun f =>
  let list := f.legacyExceptions[tenant]?.getD []
  let index := list.findIdx? (·.id == id)
  let current := (list.find? (·.id == id)).getD { id := id, tenantID := tenant, status := "active" }
  match edit current with
  | .error message => .error (.callback message)
  | .ok candidate =>
    if candidate.id ≠ id then .error .exceptionIdentity
    else
      let candidate := { candidate with tenantID := tenant }
      let list := match index with
        | some i => list.set i candidate
        | none => list ++ [candidate]
      .ok ({ f with legacyExceptions := f.legacyExceptions.insert tenant list },candidate)

def removeLegacyExceptionEdit (tenant id : String) : Edit Bool := fun f =>
  let list := f.legacyExceptions[tenant]?.getD []
  match list.findIdx? (·.id == id) with
  | some i => .ok ({ f with legacyExceptions := f.legacyExceptions.insert tenant (list.eraseIdx i) },true)
  | none => .ok (f,false)

def restrictionEdit (tenant provider : String) (allowed context : Option String) (enabled : Option Bool) :
    Edit Unit := fun f =>
  let settings := f.saasTenantRestrictions[tenant]?.getD ∅
  let s := settings[provider]?.getD {}
  match validate provider
      ⟨allowed.getD s.allowedValue,context.getD s.contextTenantID,enabled.getD s.enabled⟩ with
  | .error e => .error (.restriction e)
  | .ok s => .ok ({ f with
      saasTenantRestrictions := f.saasTenantRestrictions.insert tenant (settings.insert provider s) },())

def removeRestrictionsEdit (tenant : String) : Edit ℕ := fun f =>
  .ok ({ f with saasTenantRestrictions := f.saasTenantRestrictions.insert tenant ∅ },
    (f.saasTenantRestrictions[tenant]?.getD ∅).size)

/-- The controls of one tenant that are distributed with its policies. -/
structure TenantConfigBundle where
  upstreamTLSMode : String := ""
  saasTenantRestrictions : Option (Map Setting) := none
  eastWestEnabled : Bool := false
  eastWestAllowUnmatched : Bool := false
  eastWestRules : List EastWestRule := []
  eastWestMaxGrantTTL : Int := 0
  serverInitiatedEnabled : Bool := false
  legacyExceptions : List Model.LegacyException := []
  tenantRestrictionRuleStatus : Option (Map String) := none

def effectiveUpstreamTLSMode (mode : String) : String := if mode = "" then "browser_compatible" else mode

def validTenantConfig (cfg : TenantConfigBundle) : Bool :=
  (cfg.upstreamTLSMode == "" || validAuthoredUpstreamTLSMode cfg.upstreamTLSMode) &&
    (validateAll (cfg.saasTenantRestrictions.getD ∅)).isOk

/-- A received policy is bound to the tenant; one that does not normalize is skipped. -/
def receivePolicy (tenant : String) (now : Time) (fresh : Map Policy) (p : Policy) : Map Policy :=
  match normalizeAdminPolicy { p with tenantID := tenant } tenant now with
  | .ok normalized => fresh.insert normalized.id normalized
  | .error _ => fresh

/-- The accepted policies of a bundle by ID; a later one replaces an earlier one. -/
def freshPolicies (tenant : String) (policies : List Policy) (now : Time) : Map Policy :=
  policies.foldl (receivePolicy tenant now) ∅

def Store.replacePolicies (s : Store) (tenant : String) (policies : List Policy) (now : Time) : Store :=
  let fresh := freshPolicies tenant policies now
  { s with
    runtimeBasePolicies := s.runtimeBasePolicies.insert tenant fresh
    policies := reapplyRuntimeOverlays s.runtime tenant (s.policies.insert tenant fresh) }

/-- Restrictions and rule statuses are replaced only when the bundle carries them. -/
def applyTenantConfig (f : RuntimeState) (tenant : String) (cfg : TenantConfigBundle) : RuntimeState :=
  { f with
    upstreamTLSModes := f.upstreamTLSModes.insert tenant (effectiveUpstreamTLSMode cfg.upstreamTLSMode)
    saasTenantRestrictions := setIfGiven f.saasTenantRestrictions tenant cfg.saasTenantRestrictions
    eastWestEnabled := f.eastWestEnabled.insert tenant cfg.eastWestEnabled
    eastWestAllowUnmatched := f.eastWestAllowUnmatched.insert tenant cfg.eastWestAllowUnmatched
    eastWestRules := f.eastWestRules.insert tenant cfg.eastWestRules
    eastWestMaxGrantTTL := f.eastWestMaxGrantTTL.insert tenant cfg.eastWestMaxGrantTTL
    serverInitiatedEnabled := f.serverInitiatedEnabled.insert tenant cfg.serverInitiatedEnabled
    legacyExceptions := f.legacyExceptions.insert tenant cfg.legacyExceptions
    tenantRestrictionRuleStatus := cfg.tenantRestrictionRuleStatus.getD f.tenantRestrictionRuleStatus }

def Store.replaceTenant (s : Store) (tenant : String) (policies : List Policy) (now : Time) : Store :=
  let tenant := trimSpace tenant
  if tenant = "" then s
  else { s.replacePolicies tenant policies now with generation := s.generation + 1 }.rebuildPolicyCache

def Store.applyBundle (s : Store) (tenant : String) (policies : List Policy) (cfg : TenantConfigBundle)
    (now : Time) : Store :=
  let tenant := trimSpace tenant
  if ¬ validTenantConfig cfg ∨ tenant = "" then s
  else
    let s' := s.replacePolicies tenant policies now
    { s' with
      runtime := applyTenantConfig s.runtime tenant cfg
      generation := s.generation + 1 }.rebuildPolicyCache

/-- A seeded policy needs an owner; one that does not normalize is skipped. -/
def seedPolicy (now : Time) (m : Rows Policy) (p : Policy) : Rows Policy :=
  if trimSpace p.tenantID = "" then m
  else match normalizeAdminPolicy p (trimSpace p.tenantID) now with
    | .ok normalized => putPolicy m normalized
    | .error _ => m

def newStore (seed : List Policy) (now : Time) : Store :=
  let policies := seed.foldl (seedPolicy now) ∅
  { policies := policies, runtimeBasePolicies := policies : Store }.rebuildPolicyCache

/-- Attach a persister and load what it holds.  A document that exists but cannot be read is refused. -/
def Store.setRuntimeStatePersister (s : Store) (p : Persister) (document : Option RuntimeState) (outcome : Outcome) :
    Update Unit :=
  if p = .none then ⟨{ s with persister := p, runtimeAuthorityKnown := false },document,.ok ()⟩
  else if outcome = .unavailable then ⟨s,document,.error .persistence⟩
  else
    let s := { s with persister := p, runtimeAuthorityKnown := false }
    match document with
    | none => ⟨s,document,.ok ()⟩
    | some f => ⟨{ s.adoptRuntime f with runtimeAuthorityKnown := true },document,.ok ()⟩

/-- Take over what other stores committed.  Only a difference is adopted. -/
def Store.refreshSharedRuntime (s : Store) (document : Option RuntimeState) (outcome : Outcome) : Update Unit :=
  if s.persister ≠ .shared then ⟨s,document,.ok ()⟩
  else if outcome = .unavailable then ⟨s,document,.error .persistence⟩
  else match document with
    | none => ⟨s,document,if s.runtimeAuthorityKnown then .error .persistence else .ok ()⟩
    | some f =>
      if s.runtime = f then ⟨{ s with runtimeAuthorityKnown := true },document,.ok ()⟩
      else ⟨{ s.adoptRuntime f with generation := s.generation + 1, runtimeAuthorityKnown := true },document,.ok ()⟩

end DsseCore.PolicyStore

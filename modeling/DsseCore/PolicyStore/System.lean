import DsseCore.Lib.Run
import DsseCore.PolicyStore.Overlay

/-!
# Stores that share one document

Any number of store processes, each with its own policies and possibly a file, and one document that the stores on
a shared persister have in common.  A step is one operation of one process together with the way its save ends, or
the loss of a saved document.
-/

namespace DsseCore.PolicyStore

open Go Model Decision TenantRestriction

inductive Change where
  | upsert (item : Policy) (tenant : String) (now : Time)
  | delete (tenant id : String)
  | policyStatus (tenant id status : String)
  | ruleStatuses (statuses : Map String)
  | eastWest (tenant : String) (rules : Option (List EastWestRule)) (ttl : Option Int) (enabled unmatched : Option Bool)
  | serverInitiated (tenant : String) (enabled : Bool)
  | legacyException (tenant id : String) (edit : Model.LegacyException → Except String Model.LegacyException)
  | removeLegacyException (tenant id : String)
  | restriction (tenant provider : String) (allowed context : Option String) (enabled : Option Bool)
  | removeRestrictions (tenant : String)

def Edit.forget {α : Type} (edit : Edit α) : Edit Unit := fun f => (edit f).map fun r => (r.1,())

/-- What a change does before it opens the document: it may refuse its arguments, or answer without an edit. -/
def Change.prepare (s : Store) : Change → Except StoreError (Option (Edit Unit))
  | .upsert item tenant now =>
    match normalizeAdminPolicy item tenant now with
    | .error e => .error (.policy e)
    | .ok normalized => .ok (some (upsertEdit normalized).forget)
  | .delete tenant id =>
    let tenant := trimSpace tenant
    let id := trimSpace id
    if tenant = "" ∨ id = "" then .error .idsRequired
    else .ok (some (deleteEdit s.runtimeBasePolicies tenant id).forget)
  | .policyStatus tenant id status =>
    let status := toLower (trimSpace status)
    if status ≠ "active" ∧ status ≠ "disabled" then .error .invalidStatus
    else .ok (some (policyStatusEdit s.runtimeBasePolicies (trimSpace tenant) (trimSpace id) status).forget)
  | .ruleStatuses statuses => .ok (some (ruleStatusesEdit statuses))
  | .eastWest tenant rules ttl enabled unmatched =>
    .ok (some (eastWestEdit (trimSpace tenant) rules ttl enabled unmatched))
  | .serverInitiated tenant enabled => .ok (some (serverInitiatedEdit (trimSpace tenant) enabled))
  | .legacyException tenant id edit => .ok (some (legacyExceptionEdit (trimSpace tenant) id edit).forget)
  | .removeLegacyException tenant id =>
    .ok (some (removeLegacyExceptionEdit (trimSpace tenant) (trimSpace id)).forget)
  | .restriction tenant provider allowed context enabled =>
    let tenant := trimSpace tenant
    if tenant = "" then .error .organizationRequired
    else if s.persister = .none then .error .notConfigured
    else .ok (some (restrictionEdit tenant provider allowed context enabled))
  | .removeRestrictions tenant =>
    if s.persister ≠ .shared ∧ (s.runtime.saasTenantRestrictions[tenant]?.getD ∅).isEmpty then .ok none
    else if s.persister = .none then .error .notConfigured
    else .ok (some (removeRestrictionsEdit tenant).forget)

def Store.change (s : Store) (document : Option RuntimeState) (outcome : Outcome) (c : Change) : Update Unit :=
  match c.prepare s with
  | .error e => ⟨s,document,.error e⟩
  | .ok none => ⟨s,document,.ok ()⟩
  | .ok (some edit) => editRuntime s document outcome edit

/-- Compiled policies are derived state: they are not saved, and an empty set drops the tenant. -/
def Store.setCompiledPolicies (s : Store) (tenant : String) (policies : List Policy) : Store :=
  let tenant := trimSpace tenant
  { s with
    compiledPolicies := if policies = [] then s.compiledPolicies.erase tenant
      else s.compiledPolicies.insert tenant policies
    generation := s.generation + 1 }

inductive Operation where
  | newStore (seed : List Policy) (persister : Persister) (now : Time)
  | change (c : Change)
  | replaceTenant (tenant : String) (policies : List Policy) (now : Time)
  | applyBundle (tenant : String) (policies : List Policy) (cfg : TenantConfigBundle) (now : Time)
  | setCompiledPolicies (tenant : String) (policies : List Policy)
  | refreshSharedRuntime

def Store.perform (s : Store) (document : Option RuntimeState) (outcome : Outcome) : Operation → Update Unit
  | .newStore seed persister now => (newStore seed now).setRuntimeStatePersister persister document outcome
  | .change c => s.change document outcome c
  | .replaceTenant tenant policies now => ⟨s.replaceTenant tenant policies now,document,.ok ()⟩
  | .applyBundle tenant policies cfg now => ⟨s.applyBundle tenant policies cfg now,document,.ok ()⟩
  | .setCompiledPolicies tenant policies => ⟨s.setCompiledPolicies tenant policies,document,.ok ()⟩
  | .refreshSharedRuntime => s.refreshSharedRuntime document outcome

variable {ι : Type} [DecidableEq ι]

structure System (ι : Type) where
  stores : ι → Store
  files : ι → Option RuntimeState
  shared : Option RuntimeState

namespace System

def document (σ : System ι) (i : ι) : Persister → Option RuntimeState
  | .shared => σ.shared
  | _ => σ.files i

def setDocument (σ : System ι) (i : ι) (d : Option RuntimeState) : Persister → System ι
  | .shared => { σ with shared := d }
  | _ => { σ with files := Function.update σ.files i d }

/-- A store that is created reads the document of the persister it is given. -/
def persisterOf (σ : System ι) (i : ι) : Operation → Persister
  | .newStore _ persister _ => persister
  | _ => (σ.stores i).persister

def update (σ : System ι) (i : ι) (op : Operation) (outcome : Outcome) : Update Unit :=
  (σ.stores i).perform (σ.document i (σ.persisterOf i op)) outcome op

def perform (σ : System ι) (i : ι) (op : Operation) (outcome : Outcome) : System ι :=
  let u := σ.update i op outcome
  { σ.setDocument i u.document (σ.persisterOf i op) with stores := Function.update σ.stores i u.store }

def initial : System ι := ⟨fun _ => {},fun _ => none,none⟩

end System

inductive Label (ι : Type) where
  | run (i : ι) (op : Operation) (outcome : Outcome)
  | lose (i : ι) (persister : Persister)

def Step (σ : System ι) (l : Label ι) (σ' : System ι) : Prop :=
  match l with
  | .run i op outcome => σ' = σ.perform i op outcome
  | .lose i persister => σ' = σ.setDocument i none persister

end DsseCore.PolicyStore

import DsseCore.Go.CaseMapping
import DsseCore.Go.Sort
import DsseCore.Go.Time
import DsseCore.Go.Value

/-!
# The enrolled inventory

The ledger has one row for every identity that may come in.  Every operation proposes rows, writes them to the store
and, when the save is not confirmed, mostly puts the rows back that were there before.
-/

namespace DsseCore.EnrolledInventory

open Go
open Std (ExtTreeMap)

structure Entry where
  identity : String := ""
  enabled : Bool := false
  tenantID : String := ""
  group : String := ""
  note : String := ""
  enrolledAt : String := ""
  updatedAt : String := ""
  deviceEnrolledAt : String := ""
  reenrolmentNonce : Int := 0
  deviceEnrolledNonce : Int := 0
  removedAt : String := ""
  kind : String := ""
  machineRef : String := ""
  deriving DecidableEq

def Entry.isTombstone (e : Entry) : Bool := trimSpace e.removedAt != ""

def Entry.deviceEnrolled (e : Entry) : Bool := trimSpace e.deviceEnrolledAt != ""

def validKind (k : String) : Bool :=
  ["", "endpoint", "service"].contains (trimSpace (toLower k))

def normalizeIdentity (id : String) : String := toLower (trimSpace id)

@[simp] theorem normalizeIdentity_normalizeIdentity (id : String) :
    normalizeIdentity (normalizeIdentity id) = normalizeIdentity id := by
  simp [normalizeIdentity,trimSpace_toLower]

def normalizeMachineRef (v : String) : String := toLower (trimSpace v)

def sameGroupTenant (a b : String) : Bool := trimSpace a == trimSpace b

/-- What the store holds.  A file without the current schema version predates the marker of device enrolments. -/
inductive Snapshot where
  | absent
  | unreadable
  | file (current : Bool) (entries : Map Entry)

/-- How a save ends.  `inPlace` is saved without atomicity, which counts as saved; `unconfirmed` has replaced what is
stored and reports an error. -/
inductive SaveOutcome where
  | saved
  | inPlace
  | unconfirmed
  | failed
  deriving DecidableEq

inductive LedgerError where
  | identityRequired
  | identityDisabled
  | identityRemoved
  | identityOwnedByAnotherTenant
  | identityUnassigned
  | identityAlreadyEnrolled
  | sameMachineAlreadyEnrolled
  | differentMachineSameName
  | machineEnrolledUnderAnotherName (enrolledAs : String)
  | identityClaimedElsewhere
  | claimNotTaken
  | identityNotFound
  | invalidRetirementTime
  | retirementUnavailable
  | inventoryLoad
  | neverRead
  | saveNotConfirmed
  deriving DecidableEq

structure Ledger where
  entries : Map Entry := ∅
  persister : Bool := false
  stored : Snapshot := .absent
  persistBlocked : Bool := false
  snapshotKnown : Bool := false

def newLedger : Ledger := {}

def migratedDeviceEnrolmentSentinel : String := "migrated:assumed-enrolled"

def Entry.storable (k : String) (e : Entry) : Bool :=
  k != "" && k == normalizeIdentity k && e.identity == k && validKind e.kind && 0 ≤ e.reenrolmentNonce &&
    0 ≤ e.deviceEnrolledNonce && !(e.isTombstone && e.enabled)

def Entry.migrate (e : Entry) : Entry :=
  if e.deviceEnrolled then e else { e with deviceEnrolledAt := migratedDeviceEnrolmentSentinel }

def decodeInventorySnapshot (current : Bool) (entries : Map Entry) : Except LedgerError (Map Entry) :=
  if entries.toList.all fun r => Entry.storable r.1 r.2 then
    .ok (if current then entries else entries.map fun _ e => e.migrate)
  else .error .inventoryLoad

namespace Ledger

/-- `loadLocked`; `readable` is whether the store answers. -/
def loadLocked (readable : Bool) (l : Ledger) : Except LedgerError Ledger :=
  if !l.persister then .ok l
  else if !readable then .error .inventoryLoad
  else match l.stored with
    | .absent => if l.snapshotKnown || l.persistBlocked then .error .inventoryLoad else .ok l
    | .unreadable => .error .inventoryLoad
    | .file current entries =>
      match decodeInventorySnapshot current entries with
      | .ok rows => .ok { l with entries := rows, snapshotKnown := true }
      | .error e => .error e

/-- `ReloadFromStore`, and the part of `SetPersisterChecked` after the persister is set. -/
def reloadFromStore (readable : Bool) (l : Ledger) : Except LedgerError Unit × Ledger :=
  match l.loadLocked readable with
  | .ok l' => (.ok (),{ l' with persistBlocked := false })
  | .error e => (.error e,{ l with persistBlocked := true })

/-- A new process on the same store: `NewLedger`, then `SetPersisterChecked`. -/
def restart (readable : Bool) (l : Ledger) : Except LedgerError Unit × Ledger :=
  reloadFromStore readable { newLedger with persister := l.persister, stored := l.stored }

def write (l : Ledger) : Ledger := { l with stored := .file true l.entries }

def persistCheckedLocked (save : SaveOutcome) (l : Ledger) : Option LedgerError × Ledger :=
  if !l.persister then (none,l)
  else if l.persistBlocked then (some .neverRead,l)
  else match save with
    | .saved => (none,{ l.write with snapshotKnown := true })
    | .inPlace => (none,{ l.write with snapshotKnown := true })
    | .unconfirmed => (some .saveNotConfirmed,l.write)
    | .failed => (some .saveNotConfirmed,l)

/-- The rows `c` are put in place and saved, with `a` as the answer.  Without a confirmed save the operations that roll
back put the rows back that were there. -/
def commit {α : Type} (rollback : Bool) (save : SaveOutcome) (c : Map Entry) (a : α) (l : Ledger) :
    Except LedgerError α × Ledger :=
  match persistCheckedLocked save { l with entries := c } with
  | (none, l') => (.ok a,l')
  | (some e, l') => (.error e,if rollback then { l' with entries := l.entries } else l')

end Ledger

variable {σ : Type}

/-- The claim on an identity that the issuers of a deployment share, under a grant. -/
structure IdentityClaimer (σ : Type) where
  claimIdentity : String → String → Int → σ → Except Unit Bool × σ
  releaseIdentity : String → String → Int → σ → σ

structure Node (σ : Type) where
  ledger : Ledger
  claims : σ

def takeClaim (claimer : Option (IdentityClaimer σ)) (tenantID k : String) (grant : Int) (claims : σ) :
    Except LedgerError Unit × σ :=
  match claimer with
  | none => (.ok (),claims)
  | some c =>
    match c.claimIdentity tenantID k grant claims with
    | (.error _, claims') => (.error .claimNotTaken,claims')
    | (.ok false, claims') => (.error .identityClaimedElsewhere,claims')
    | (.ok true, claims') => (.ok (),claims')

def giveBack (claimer : Option (IdentityClaimer σ)) (tenantID k : String) (grant : Int) (claims : σ) : σ :=
  match claimer with
  | some c => c.releaseIdentity tenantID k grant claims
  | none => claims

namespace Ledger

/-- `identityForMachineLocked`: another live row enrolled from the same machine. -/
def identityForMachineLocked (machineRef except : String) (l : Ledger) : Option String :=
  if machineRef = "" then none
  else (l.entries.toList.find? fun r =>
    r.1 != except && !r.2.isTombstone && r.2.deviceEnrolled && normalizeMachineRef r.2.machineRef == machineRef).map
      Prod.fst

def alreadyEnrolledReasonLocked (e : Entry) (machineRef : String) : LedgerError :=
  let known := normalizeMachineRef e.machineRef
  if machineRef = "" ∨ known = "" then .identityAlreadyEnrolled
  else if known = machineRef then .sameMachineAlreadyEnrolled
  else .differentMachineSameName

def refuseRow (tenantID machineRef : String) (e : Entry) : Option LedgerError :=
  let owner := trimSpace e.tenantID
  if !e.enabled then some .identityDisabled
  else if owner != "" && trimSpace tenantID != "" && !sameGroupTenant owner (trimSpace tenantID) then
    some .identityOwnedByAnotherTenant
  else if e.deviceEnrolled then some (alreadyEnrolledReasonLocked e machineRef)
  else none

def refuseLocally (k tenantID machineRef : String) (l : Ledger) : Option LedgerError :=
  match l.identityForMachineLocked machineRef k with
  | some other => some (.machineEnrolledUnderAnotherName other)
  | none => l.entries[k]?.bind (refuseRow tenantID machineRef)

def wouldRefuseEnrolment (id tenantID machineRef : String) (l : Ledger) : Option LedgerError :=
  let k := normalizeIdentity id
  if k = "" then some .identityRequired else l.refuseLocally k tenantID (normalizeMachineRef machineRef)

def enrollBase (k now : String) (mayReEnable : Bool) : Option Entry → Except LedgerError Entry
  | none => .ok { identity := k, enrolledAt := now }
  | some e =>
    if e.isTombstone then .error .identityRemoved
    else if !e.enabled && !mayReEnable then .error .identityDisabled
    else .ok e

def enrollFields (tenantID group note now : String) (e : Entry) : Entry :=
  { e with
    enabled := true
    tenantID := trimSpace tenantID
    group := if trimSpace group ≠ "" then trimSpace group else e.group
    note := if trimSpace note ≠ "" then trimSpace note else e.note
    updatedAt := now }

/-- `enrollGroupMutateLocked`; the callers differ in whether they take the row back. -/
def enrollGroupMutateLocked (rollback : Bool) (save : SaveOutcome) (k tenantID group note now : String)
    (mayReEnable : Bool) (complete : Entry → Entry) (l : Ledger) : Except LedgerError Entry × Ledger :=
  match enrollBase k now mayReEnable l.entries[k]? with
  | .error e => (.error e,l)
  | .ok base =>
    let e := complete (enrollFields tenantID group note now base)
    l.commit rollback save (l.entries.insert k e) e

def deviceFields (now machineRef : String) (e : Entry) : Entry :=
  { e with
    deviceEnrolledAt := now
    deviceEnrolledNonce := e.reenrolmentNonce
    machineRef := if machineRef ≠ "" then machineRef else e.machineRef }

def grantOf (k : String) (l : Ledger) : Int := (l.entries[k]?.map Entry.reenrolmentNonce).getD 0

/-- What a report of an enrolment decided elsewhere adds to the row. -/
def reportFields (now machineRef : String) (e : Entry) : Entry :=
  { e with
    deviceEnrolledAt := now
    deviceEnrolledNonce := e.reenrolmentNonce
    machineRef :=
      if normalizeMachineRef e.machineRef = "" then normalizeMachineRef machineRef else e.machineRef }

def refuseReport (tenantID : String) (e : Entry) : Option LedgerError :=
  let owner := trimSpace e.tenantID
  if !e.enabled then some .identityDisabled
  else if owner != "" && !sameGroupTenant owner (trimSpace tenantID) then some .identityOwnedByAnotherTenant
  else none

def recordEnrolmentReport (save : SaveOutcome) (id tenantID group note machineRef now : String) (l : Ledger) :
    Except LedgerError Entry × Ledger :=
  let k := normalizeIdentity id
  if k = "" then (.error .identityRequired,l)
  else match l.entries[k]?.bind (refuseReport tenantID) with
    | some err => (.error err,l)
    | none => l.enrollGroupMutateLocked true save k tenantID group note now false (reportFields now machineRef)

/-- `enrollGroup`: `EnrollGroup`, and with `mayReEnable` false `EnrollGroupUnlessDisabled`. -/
def enrollGroup (save : SaveOutcome) (id tenantID group note now : String) (mayReEnable : Bool) (l : Ledger) :
    Except LedgerError Entry × Ledger :=
  let k := normalizeIdentity id
  if k = "" then (.error .identityRequired,l)
  else l.enrollGroupMutateLocked false save k tenantID group note now mayReEnable fun e => e

def refuseClaimant (claimant : String) (adoptUnassigned : Bool) (e : Entry) : Option LedgerError :=
  let owner := trimSpace e.tenantID
  if trimSpace claimant = "" then none
  else if owner = "" && !adoptUnassigned then some .identityUnassigned
  else if owner != "" && !sameGroupTenant owner (trimSpace claimant) then some .identityOwnedByAnotherTenant
  else none

def enrollGroupForTenant (save : SaveOutcome) (id claimant assignTo group note now : String) (adoptUnassigned : Bool)
    (l : Ledger) : Except LedgerError Entry × Ledger :=
  let k := normalizeIdentity id
  if k = "" then (.error .identityRequired,l)
  else match l.entries[k]?.bind (refuseClaimant claimant adoptUnassigned) with
    | some err => (.error err,l)
    | none => l.enrollGroupMutateLocked false save k assignTo group note now true fun e => e

def editLive (rollback : Bool) (save : SaveOutcome) (k : String) (admits : Entry → Bool) (f : Entry → Entry)
    (l : Ledger) : Except LedgerError (Option Entry) × Ledger :=
  match l.entries[k]? with
  | some e =>
    if e.isTombstone || !admits e then (.ok none,l)
    else l.commit rollback save (l.entries.insert k (f e)) (some (f e))
  | none => (.ok none,l)

def setGroup (save : SaveOutcome) (id group now : String) : Ledger → Except LedgerError (Option Entry) × Ledger :=
  editLive false save (normalizeIdentity id) (fun _ => true)
    fun e => { e with group := trimSpace group, updatedAt := now }

/-- `setEnabledForTenant`; with a blank tenant it is `SetEnabled`. -/
def setEnabledForTenant (save : SaveOutcome) (id tenant : String) (enabled : Bool) (now : String) :
    Ledger → Except LedgerError (Option Entry) × Ledger :=
  editLive true save (normalizeIdentity id)
    (fun e => trimSpace tenant == "" || sameGroupTenant (trimSpace e.tenantID) (trimSpace tenant))
    fun e => { e with enabled := enabled, updatedAt := now }

/-- `RecordReportedMachine`: a reference that is recorded already stays. -/
def recordReportedMachine (save : SaveOutcome) (id machineRef now : String) (l : Ledger) :
    Except LedgerError (Option Entry) × Ledger :=
  let k := normalizeIdentity id
  let ref := normalizeMachineRef machineRef
  if k = "" ∨ ref = "" then (.ok none,l)
  else l.editLive true save k (fun e => normalizeMachineRef e.machineRef == "")
    fun e => { e with machineRef := ref, updatedAt := now }

def permit (now : String) (e : Entry) : Entry :=
  { e with
    removedAt := ""
    enabled := true
    reenrolmentNonce := e.reenrolmentNonce + 1
    deviceEnrolledAt := ""
    machineRef := ""
    updatedAt := now }

def foreignCaller (callerTenant : String) (e : Entry) : Bool :=
  let owner := trimSpace e.tenantID
  trimSpace callerTenant != "" && (owner == "" || !sameGroupTenant owner (trimSpace callerTenant))

def allowReenrolment (save : SaveOutcome) (id callerTenant now : String) (l : Ledger) :
    Except LedgerError (Entry × Entry) × Ledger :=
  let k := normalizeIdentity id
  if k = "" then (.error .identityRequired,l)
  else match l.entries[k]? with
    | none => (.error .identityNotFound,l)
    | some e =>
      if foreignCaller callerTenant e then (.error .identityOwnedByAnotherTenant,l)
      else l.commit true save (l.entries.insert k (permit now e)) (permit now e,e)

def tombstoneLifetime : Int := 90 * 24 * 3600 * Time.second

/-- Whether a tombstone has outlived its time; one without a readable time never does. -/
def expired (at_ : Time) (e : Entry) : Bool :=
  e.isTombstone && (Time.parseRFC3339 (trimSpace e.removedAt)).any fun removedAt => tombstoneLifetime < at_.sub removedAt

def purgeExpiredTombstonesLocked (now : String) (entries : Map Entry) : Map Entry :=
  match Time.parseRFC3339 (trimSpace now) with
  | none => entries
  | some at_ => entries.filter fun _ e => !expired at_ e

def tombstone (now : String) (e : Entry) : Entry :=
  { identity := e.identity, tenantID := e.tenantID, removedAt := now, updatedAt := now }

def removeChecked (save : SaveOutcome) (id now : String) (l : Ledger) : Except LedgerError Entry × Ledger :=
  let k := normalizeIdentity id
  match l.entries[k]? with
  | none => (.error .identityNotFound,l)
  | some e =>
    if e.isTombstone then (.error .identityNotFound,l)
    else l.commit true save (purgeExpiredTombstonesLocked now (l.entries.insert k (tombstone now e))) (tombstone now e)

def retire (now : String) (e : Entry) : Entry :=
  { identity := e.identity, tenantID := e.tenantID, removedAt := now, updatedAt := now,
    reenrolmentNonce := e.reenrolmentNonce }

def retireRow (tenantID now : String) (e : Entry) : Entry :=
  if !sameGroupTenant (trimSpace e.tenantID) (trimSpace tenantID) then e
  else if e.isTombstone && !e.enabled then e
  else retire now e

def retireTenantChecked (save : SaveOutcome) (tenantID now : String) (l : Ledger) : Except LedgerError ℕ × Ledger :=
  if trimSpace tenantID = "" then (.ok 0,l)
  else if (Time.parseRFC3339 now).isNone then (.error .invalidRetirementTime,l)
  else if l.persistBlocked then (.error .retirementUnavailable,l)
  else
    let n := l.entries.toList.countP fun r => sameGroupTenant (trimSpace r.2.tenantID) (trimSpace tenantID)
    if n = 0 then (.ok 0,l)
    else l.commit false save (l.entries.map fun _ e => retireRow tenantID now e) n

/-- A row of the control plane's list, with the marker of the row it replaces unless it carries a newer permission. -/
def mergeRow (now : String) (prev : Option Entry) (e : Entry) : Entry :=
  let e := { e with
    identity := normalizeIdentity e.identity
    updatedAt := if trimSpace e.updatedAt = "" then now else e.updatedAt }
  match prev with
  | none => e
  | some p =>
    if p.deviceEnrolled && e.reenrolmentNonce ≤ p.deviceEnrolledNonce then
      { e with
        deviceEnrolledAt := p.deviceEnrolledAt
        deviceEnrolledNonce := p.deviceEnrolledNonce
        machineRef := if trimSpace e.machineRef = "" then p.machineRef else e.machineRef }
    else e

def mergeRows (now : String) (entries : Map Entry) : List Entry → Map Entry → Map Entry
  | [], fresh => fresh
  | e :: es, fresh =>
    let k := normalizeIdentity e.identity
    mergeRows now entries es (if k = "" then fresh else fresh.insert k (mergeRow now entries[k]? e))

def droppedBy (fresh entries : Map Entry) : List String :=
  (entries.toList.filter fun r => r.2.deviceEnrolled && !fresh.contains r.1).map Prod.fst

def mergeAuthoritative (save : SaveOutcome) (entries : List Entry) (now : String) (l : Ledger) :
    Except LedgerError (List String) × Ledger :=
  let fresh := mergeRows now l.entries entries ∅
  l.commit true save fresh (droppedBy fresh l.entries)

def authoritative (l : Ledger) : List Entry :=
  sliceStable (fun a b => a.identity < b.identity) (l.entries.toList.map Prod.snd)

end Ledger

def enrollDeviceForTenantWithMachine (claimer : Option (IdentityClaimer σ)) (save : SaveOutcome)
    (id tenantID group note now machineRef : String) (n : Node σ) : Except LedgerError Entry × Node σ :=
  let k := normalizeIdentity id
  let machineRef := normalizeMachineRef machineRef
  if k = "" then (.error .identityRequired,n)
  else match n.ledger.refuseLocally k tenantID machineRef with
    | some err => (.error err,n)
    | none =>
      let grant := n.ledger.grantOf k
      match takeClaim claimer tenantID k grant n.claims with
      | (.error err, claims) => (.error err,{ n with claims })
      | (.ok _, claims) =>
        match n.ledger.enrollGroupMutateLocked true save k tenantID group note now false
          (Ledger.deviceFields now machineRef) with
        | (.ok e, ledger) => (.ok e,{ ledger, claims })
        | (.error err, ledger) => (.error err,{ ledger, claims := giveBack claimer tenantID k grant claims })

end DsseCore.EnrolledInventory

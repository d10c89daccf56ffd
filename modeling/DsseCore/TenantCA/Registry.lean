import DsseCore.Go.CaseMapping
import DsseCore.Go.Sort
import DsseCore.Go.Value

/-!
# The registry of tenant CAs

A CA certificate is trusted because it is in the pool and belongs to a tenant because its key is in a map; the list of
anchors is what both are rebuilt from.  The certificates are left open: all that matters of one is its key.
-/

namespace DsseCore.TenantCA

open Go

variable {C : Type}

/-- A PEM blob: whether there is anything in it, its certificates unless one cannot be parsed, and whether nothing but
certificates is in it. -/
structure Pem (C : Type) where
  blank : Bool := false
  certs : Option (List C)
  certificatesOnly : Bool := true

/-- An entry of a registry file; `caFile` is what reading the named file gives. -/
structure TenantCAEntry (C : Type) where
  tenantID : String
  caPEM : Pem C := { blank := true, certs := some [] }
  caFile : Option (Pem C) := none

structure WithdrawalReceipt where
  tenantID : String
  fingerprint : String
  trustRequired : Bool

structure TenantCARegistryFile (C : Type) where
  pendingWithdrawals : List WithdrawalReceipt := []
  materialManagedTenants : List String := []
  tenants : Option (List (TenantCAEntry C))

inductive Document (C : Type) where
  | empty
  | malformed
  | file (f : TenantCARegistryFile C)

structure Registry (C : Type) where
  pool : List C := []
  byAnchorKey : Map String := ∅
  anchors : List C := []
  materialManaged : Map Bool := ∅
  pendingWithdrawals : Map String := ∅
  pendingTrustWithdrawals : Map Bool := ∅
  authoritativeLoaded : Bool := false

inductive RegistryError where
  | unreadable
  | malformed
  | pendingWithdrawal
  | emptyTenant
  | unusablePEM
  | noCertificate
  | sharedByTenants (existing tenantID : String)
  | withdrawalPending
  | ownedBy (tenantID : String)
  | emptyRegistry
  | emptyManagedTenant
  | managedWithoutAnchors
  | noTenants
  | noInlinePEM
  | otherMaterial
  | unfinishedWithdrawal
  | notSaved
  deriving DecidableEq

structure AnchorRegistration (C : Type) where
  tenantID : String
  cert : C

variable [DecidableEq C] (anchorKey : C → String)

/-- `CertPool.AddCert`: a certificate is in a pool once. -/
def addCert (pool : List C) (c : C) : List C := if c ∈ pool then pool else pool ++ [c]

def poolOf (certs : List C) : List C := certs.foldl addCert []

namespace Registry

def add (tenantID : String) (c : C) (r : Registry C) : Registry C :=
  { r with
    byAnchorKey := r.byAnchorKey.insert (anchorKey c) tenantID
    anchors := r.anchors ++ [c]
    pool := addCert r.pool c }

def owner (k : String) (r : Registry C) : Option String := r.byAnchorKey[k]?

def foreignOwner (tenantID k : String) (r : Registry C) : Option String :=
  (r.owner k).bind fun o => if o ≠ tenantID then some o else none

def rebuild (byAnchorKey : Map String) (kept : List C) (r : Registry C) : Registry C :=
  { r with byAnchorKey, anchors := kept, pool := poolOf kept }

end Registry

namespace Registry

/-- The inner loop of `LoadTenantCARegistry`; a certificate may come again for the same tenant. -/
def loadCerts (tenantID : String) : List C → Registry C → Except RegistryError (Registry C)
  | [], r => .ok r
  | c :: cs, r =>
    match r.foreignOwner tenantID (anchorKey c) with
    | some existing => .error (.sharedByTenants existing tenantID)
    | none => loadCerts tenantID cs (r.add anchorKey tenantID c)

def entryCerts (e : TenantCAEntry C) : Except RegistryError (List C) :=
  if !e.caPEM.blank then
    match e.caPEM.certs with
    | some cs => .ok cs
    | none => .error .unusablePEM
  else match e.caFile with
    | none => .error .unreadable
    | some pem =>
      match pem.certs with
      | none => .error .unusablePEM
      | some [] => .error .unusablePEM
      | some cs => .ok cs

def loadEntries : List (TenantCAEntry C) → Registry C → Except RegistryError (Registry C)
  | [], r => .ok r
  | e :: es, r =>
    let tid := trimSpace e.tenantID
    if tid = "" then .error .emptyTenant
    else match entryCerts e with
      | .error err => .error err
      | .ok cs =>
        match loadCerts anchorKey tid cs r with
        | .error err => .error err
        | .ok r' => loadEntries es r'

def restoreNames (r : Registry C) : List String → Map Bool → Except RegistryError (Map Bool)
  | [], owned => .ok owned
  | name :: names, owned =>
    let tenant := trimSpace name
    if tenant = "" then .error .emptyManagedTenant
    else if !(r.byAnchorKey.toList.any fun e => e.2 == tenant) then .error .managedWithoutAnchors
    else restoreNames r names (owned.insert tenant true)

def restoreMaterialOwnership (names : List String) (r : Registry C) : Except RegistryError (Registry C) :=
  (restoreNames r names ∅).map fun owned => { r with materialManaged := owned }

end Registry

def newRegistry : Registry C := {}

def loadTenantCARegistry : Document C → Except RegistryError (Registry C)
  | .empty => .error .malformed
  | .malformed => .error .malformed
  | .file doc =>
    if !doc.pendingWithdrawals.isEmpty then .error .pendingWithdrawal
    else match Registry.loadEntries anchorKey (doc.tenants.getD []) newRegistry with
      | .error err => .error err
      | .ok r =>
        if r.byAnchorKey.isEmpty then .error .emptyRegistry
        else r.restoreMaterialOwnership doc.materialManagedTenants

namespace Registry

def refuseCerts (tenantID : String) (r : Registry C) : List C → Option RegistryError
  | [] => none
  | c :: cs =>
    if r.pendingWithdrawals.contains (anchorKey c) then some .withdrawalPending
    else match r.foreignOwner tenantID (anchorKey c) with
      | some o => some (.ownedBy o)
      | none => refuseCerts tenantID r cs

def registerCerts (tenantID : String) : List C → Registry C → List C × Registry C
  | [], r => ([],r)
  | c :: cs, r =>
    if r.byAnchorKey.contains (anchorKey c) then registerCerts tenantID cs r
    else
      let (added,r') := registerCerts tenantID cs (r.add anchorKey tenantID c)
      (c :: added,r')

/-- `Register`, with the certificates that were added. -/
def register (tenantID : String) (pem : Pem C) (r : Registry C) : Except RegistryError (List C) × Registry C :=
  let tenantID := trimSpace tenantID
  if tenantID = "" then (.error .emptyTenant,r)
  else match pem.certs with
    | none => (.error .unusablePEM,r)
    | some [] => (.error .noCertificate,r)
    | some cs =>
      match refuseCerts anchorKey tenantID r cs with
      | some err => (.error err,r)
      | none =>
        let (added,r') := registerCerts anchorKey tenantID cs r
        (.ok added,r')

/-- The loop that takes the anchors of one kind out, and their keys with them as it goes. -/
def withdrawLoop (gone : Map String → C → Bool) : List C → Map String → ℕ × List C × Map String
  | [], m => (0,[],m)
  | c :: cs, m =>
    if gone m c then
      let (n,kept,m') := withdrawLoop gone cs (m.erase (anchorKey c))
      (n + 1,kept,m')
    else
      let (n,kept,m') := withdrawLoop gone cs m
      (n,c :: kept,m')

/-- `Withdraw`, with the number of anchors that were taken out. -/
def withdraw (tenantID : String) (r : Registry C) : ℕ × Registry C :=
  let tenantID := trimSpace tenantID
  if tenantID = "" then (0,r)
  else
    let (n,kept,m) := withdrawLoop anchorKey (fun m c => m[anchorKey c]? == some tenantID) r.anchors r.byAnchorKey
    (n,{ r.rebuild m kept with materialManaged := r.materialManaged.erase tenantID })

/-- `WithdrawAnchor`, with whether an anchor was taken out and how many the tenant has left. -/
def withdrawAnchor (tenantID sha256Hex : String) (r : Registry C) : Bool × ℕ × Registry C :=
  let tenantID := trimSpace tenantID
  let want := toLower (trimSpace sha256Hex)
  if tenantID = "" ∨ want = "" then (false,0,r)
  else
    let (n,kept,m) := withdrawLoop anchorKey
      (fun m c => m[anchorKey c]? == some tenantID && equalFold (anchorKey c) want) r.anchors r.byAnchorKey
    (n != 0,m.toList.countP (fun e => e.2 == tenantID),r.rebuild m kept)

def anchorsByTenant (r : Registry C) : List (AnchorRegistration C) :=
  r.anchors.filterMap fun c => (r.owner (anchorKey c)).map fun t => ⟨t,c⟩

def parseEntries : List (TenantCAEntry C) → Registry C → Except RegistryError (Registry C)
  | [], r => .ok r
  | e :: es, r =>
    if e.caPEM.blank then .error .noInlinePEM
    else if !e.caPEM.certificatesOnly then .error .otherMaterial
    else match r.register anchorKey e.tenantID e.caPEM with
      | (.error err, _) => .error err
      | (.ok _, r') => parseEntries es r'

def parseSharedAnchors : Document C → Except RegistryError (List (AnchorRegistration C))
  | .empty => .error .malformed
  | .malformed => .error .malformed
  | .file doc =>
    if !doc.pendingWithdrawals.isEmpty then .error .pendingWithdrawal
    else match doc.tenants with
      | none => .error .noTenants
      | some es => (parseEntries anchorKey es newRegistry).map fun r => r.anchorsByTenant anchorKey

def misassigned (r : Registry C) : List (AnchorRegistration C) → Option RegistryError
  | [] => none
  | a :: as =>
    match r.foreignOwner a.tenantID (anchorKey a.cert) with
    | some o => some (.sharedByTenants o a.tenantID)
    | none => misassigned r as

def free (k : String) (r : Registry C) : Bool :=
  (r.pendingWithdrawals[k]?.getD "") == "" && (r.byAnchorKey[k]?.getD "") == ""

def adoptAnchors (skip : List String) : List (AnchorRegistration C) → Registry C → ℕ × Registry C
  | [], r => (0,r)
  | a :: as, r =>
    if skip.contains (anchorKey a.cert) || !r.free (anchorKey a.cert) then adoptAnchors skip as r
    else
      let (n,r') := adoptAnchors skip as (r.add anchorKey a.tenantID a.cert)
      (n + 1,r')

/-- `adoptExcept`; `Adopt` skips nothing. -/
def adoptExcept (data : Document C) (skipSHA256 : List String) (r : Registry C) : Except RegistryError ℕ × Registry C :=
  match data with
  | .empty => (.ok 0,r)
  | data =>
    match parseSharedAnchors anchorKey data with
    | .error err => (.error err,r)
    | .ok anchors =>
      match misassigned anchorKey r anchors with
      | some err => (.error err,r)
      | none =>
        let (n,r') := adoptAnchors anchorKey ((skipSHA256.map fun h => toLower (trimSpace h)).filter (· ≠ "")) anchors r
        (.ok n,r')

def takeUp : List (AnchorRegistration C) → Registry C → List C → ℕ × Map String × List C
  | [], r, kept => (0,r.byAnchorKey,kept)
  | a :: as, r, kept =>
    if !r.free (anchorKey a.cert) then takeUp as r kept
    else
      let (n,m,kept') :=
        takeUp as { r with byAnchorKey := r.byAnchorKey.insert (anchorKey a.cert) a.tenantID } (kept ++ [a.cert])
      (n + 1,m,kept')

/-- `Reconcile`, with how many anchors came and went. -/
def reconcile (data : Document C) (r : Registry C) : Except RegistryError (ℕ × ℕ) × Registry C :=
  match data with
  | .empty => (.ok (0,0),r)
  | data =>
    match parseSharedAnchors anchorKey data with
    | .error err => (.error err,r)
    | .ok [] => (.ok (0,0),r)
    | .ok anchors =>
      match misassigned anchorKey r anchors with
      | some err => (.error err,r)
      | none =>
        let fleet := anchors.map fun a => anchorKey a.cert
        let (removed,kept,m) := withdrawLoop anchorKey (fun _ c => !fleet.contains (anchorKey c)) r.anchors r.byAnchorKey
        let (added,m',kept') := takeUp anchorKey anchors { r with byAnchorKey := m } kept
        (.ok (added,removed),if added + removed = 0 then { r with byAnchorKey := m' } else r.rebuild m' kept')

def checkWithdrawalSaveLocked (removed : List String) (r : Registry C) : Bool :=
  r.pendingWithdrawals.toList.all fun e => (removed.map fun h => toLower (trimSpace h)).contains e.1

def keepOthers (tenantID : String) (r : Registry C) : List C → Map String → Map String × List C
  | [], owners => (owners,[])
  | c :: cs, owners =>
    let o := (r.byAnchorKey[anchorKey c]?).getD ""
    if o = tenantID then keepOthers tenantID r cs owners
    else
      let (owners',kept) := keepOthers tenantID r cs (owners.insert (anchorKey c) o)
      (owners',c :: kept)

def putReplacement (tenantID : String) : List C → Map String × List C → Map String × List C
  | [], v => v
  | c :: cs, v =>
    if v.1.contains (anchorKey c) then putReplacement tenantID cs v
    else putReplacement tenantID cs (v.1.insert (anchorKey c) tenantID,v.2 ++ [c])

/-- `replaceTenantPersisted`; `persisted` is whether the candidate could be saved. -/
def replaceTenantPersisted (tenantID : String) (pem : Pem C) (persisted managed : Bool) (r : Registry C) :
    Except RegistryError Unit × Registry C :=
  let tenantID := trimSpace tenantID
  if tenantID = "" then (.error .emptyTenant,r)
  else match pem.certs with
    | none => (.error .unusablePEM,r)
    | some [] => (.error .noCertificate,r)
    | some cs =>
      if !r.checkWithdrawalSaveLocked [] then (.error .unfinishedWithdrawal,r)
      else match cs.findSome? fun c => r.foreignOwner tenantID (anchorKey c) with
        | some o => (.error (.ownedBy o),r)
        | none =>
          let (owners,kept) := putReplacement anchorKey tenantID cs (keepOthers anchorKey tenantID r r.anchors ∅)
          let ownership := if managed then r.materialManaged.insert tenantID true else r.materialManaged
          if !persisted then (.error .notSaved,r)
          else (.ok (),{ r.rebuild owners kept with materialManaged := ownership })

def registerEntries : List (TenantCAEntry C) → Registry C → Except RegistryError (Registry C)
  | [], r => .ok r
  | e :: es, r =>
    match r.register anchorKey e.tenantID e.caPEM with
    | (.error err, _) => .error err
    | (.ok _, r') => registerEntries es r'

def registryFromSnapshot : Document C → Except RegistryError (Registry C)
  | .empty => .error .malformed
  | .malformed => .error .malformed
  | .file doc =>
    if !doc.pendingWithdrawals.isEmpty then .error .pendingWithdrawal
    else match doc.tenants with
      | none => .error .noTenants
      | some es =>
        match registerEntries anchorKey es newRegistry with
        | .error err => .error err
        | .ok r => r.restoreMaterialOwnership doc.materialManagedTenants

def sameAs (next r : Registry C) : Bool :=
  r.byAnchorKey.size == next.byAnchorKey.size && r.materialManaged.size == next.materialManaged.size &&
    (next.byAnchorKey.toList.all fun e => (r.byAnchorKey[e.1]?.getD "") == e.2) &&
    next.materialManaged.toList.all fun e => (r.materialManaged[e.1]?.getD false) == e.2

def replaceAuthoritative (raw : Document C) (r : Registry C) : Except RegistryError Unit × Registry C :=
  match registryFromSnapshot anchorKey raw with
  | .error err => (.error err,r)
  | .ok next =>
    if !r.pendingWithdrawals.isEmpty then (.error .withdrawalPending,r)
    else if next.sameAs r then (.ok (),{ r with authoritativeLoaded := true })
    else (.ok (),{ r with
      byAnchorKey := next.byAnchorKey, anchors := next.anchors, pool := next.pool,
      materialManaged := next.materialManaged, authoritativeLoaded := true })

def materialManagedTenantsLocked (r : Registry C) : List String :=
  (r.materialManaged.toList.filter fun e => e.2).map Prod.fst

def registryFileLocked (r : Registry C) : TenantCARegistryFile C :=
  { materialManagedTenants := r.materialManagedTenantsLocked
    tenants := some (r.anchors.filterMap fun c =>
      let t := (r.byAnchorKey[anchorKey c]?).getD ""
      if t = "" then none else some { tenantID := t, caPEM := { certs := some [c] } }) }

/-- `snapshot` for a save, the entries in the order of their tenants. -/
def snapshot (removed : List String) (r : Registry C) : Except RegistryError (TenantCARegistryFile C) :=
  if !r.checkWithdrawalSaveLocked removed then .error .unfinishedWithdrawal
  else
    let doc := r.registryFileLocked anchorKey
    .ok { doc with tenants := doc.tenants.map (sliceStable fun a b => a.tenantID < b.tenantID) }

/-- `SaveTo`: what the store holds is taken up first; the answer is what was saved. -/
def saveTo (existing : Option (Document C)) (saved : Bool) (removed : List String) (r : Registry C) :
    Except RegistryError (TenantCARegistryFile C) × Registry C :=
  if !r.checkWithdrawalSaveLocked removed then (.error .unfinishedWithdrawal,r)
  else match existing with
    | none => (.error .unreadable,r)
    | some data =>
      match r.adoptExcept anchorKey data removed with
      | (.error err, r') => (.error err,r')
      | (.ok _, r') =>
        match r'.snapshot anchorKey removed with
        | .error err => (.error err,r')
        | .ok doc => (if saved then .ok doc else .error .notSaved,r')

def beginWithdrawal (tenant fingerprint : String) (trustRequired : Bool) (r : Registry C) : Registry C :=
  let k := toLower (trimSpace fingerprint)
  if r.byAnchorKey[k]? = some tenant then
    { r with
      pendingWithdrawals := r.pendingWithdrawals.insert k tenant
      pendingTrustWithdrawals :=
        if trustRequired then r.pendingTrustWithdrawals.insert k true else r.pendingTrustWithdrawals }
  else r

def completeWithdrawal (tenant : String) : List String → Registry C → Registry C
  | [], r => r
  | f :: fs, r =>
    let k := toLower (trimSpace f)
    completeWithdrawal tenant fs
      (if r.pendingWithdrawals[k]?.getD "" = tenant then
        { r with
          pendingWithdrawals := r.pendingWithdrawals.erase k
          pendingTrustWithdrawals := r.pendingTrustWithdrawals.erase k }
      else r)

end Registry

end DsseCore.TenantCA

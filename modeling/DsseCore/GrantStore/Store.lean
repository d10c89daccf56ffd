import DsseCore.GrantStore.Fence

/-!
# The grant store

The state of one process and the operations on its own rows.  A shared store runs the same operations on a store
without a persister, built from the latest document, inside a transaction.  How a save ends is an input.
-/

namespace DsseCore.GrantStore

open Go Time
open Std (ExtTreeMap)

/-- What a store saves to.  All but `file` are shared by several processes and edited in transactions; `rolling` is
the pair of documents that released binaries also write, read anew or through a cache. -/
inductive Persister where
  | file
  | shared
  | rolling
  | cachedRolling
  deriving DecidableEq

def Persister.isShared : Persister → Bool
  | file => false
  | _ => true

/-- The digest of a document; `none` before any was seen. -/
abbrev Digest := Option (Option Json)

structure Store where
  grants : Map Grant := ∅
  fences : FenceIndex := []
  persister : Option Persister := none
  authorityKnown : Bool := false
  authorityDigest : Digest := none
  persistenceEpoch : ℕ := 0
  /-- Denials applied here that no document is known to hold, under tenant and grant. -/
  pending : Map Grant := ∅
  dirty : Bool := false
  generation : ℕ := 0
  readRefreshAt : Option Time := none
  readRefreshErr : Bool := false

def Store.sharedLocked (s : Store) : Bool := s.persister.any Persister.isShared

/-- How a save ends: done, done but not atomically, or without a confirmation. -/
inductive Save where
  | saved
  | inPlace
  | failed
  deriving DecidableEq

def Store.saveLocked (s : Store) (o : Save) : Save := if s.persister.isNone then .saved else o

/-- What the operations read from their surroundings: the threshold above which fences are compacted and the names
of synthetic fences, digests of the tenant and a number. -/
structure Env where
  threshold : ℕ
  boundaryID : String → ℕ → String
  boundaryID_injective : ∀ tenant, Function.Injective (boundaryID tenant)

def strokeEnv (threshold : ℕ) : Env where
  threshold := threshold
  boundaryID tenant n := "reauth-" ++ tenant ++ String.ofList (List.replicate n '1')
  boundaryID_injective tenant n m h := by
    have hlist := congrArg (fun s : String => s.toList.length) h
    simpa using hlist

def Store.rebuildReauthenticationIndexLocked (s : Store) : Store :=
  { s with fences := newReauthenticationReadIndex s.grants }

def Store.withGrants (s : Store) (grants : Map Grant) : Store := { s with grants := grants }

def Store.touched (s : Store) : Store := { s with generation := s.generation + 1, dirty := true }

def Store.publishLocked (s : Store) (next : Map Grant) : Store :=
  if s.grants = next then { s with grants := cloneGrants next }
  else { s with
    grants := cloneGrants next
    fences := newReauthenticationReadIndex next
    generation := s.generation + 1 }

structure Denial where
  grant : Option Grant := none
  err : Option Err := none

def Store.persistLocked (s : Store) (o : Save) : Store × Option Err :=
  match s.saveLocked o with
  | .saved => ({ s with dirty := false },none)
  | .inPlace => ({ s with dirty := false },some .savedWithoutAtomicity)
  | .failed => ({ s with dirty := true },some .persistence)

def defaultTTL : Int := 8 * 3600 * second

/-- The record to store: named, dated and without a denial. -/
def mintRecord (g : Grant) (ttl : Int) (now : Time) : Grant :=
  { g with
    grantID := trimSpace g.grantID
    tenantID := trimSpace g.tenantID
    issuedAt := formatRFC3339 now
    expiresAt := formatRFC3339 (now + (if ttl ≤ 0 then defaultTTL else ttl))
    revoked := false
    consumedAt := ""
    reauthenticateAfter := "" }

/-- A grant minted under a boundary is kept away from readers that do not know boundaries. -/
def tagBoundary (fences : FenceIndex) (g : Grant) : Grant :=
  let bounded := !isZero (fences.after g g.scope)
  { g with requiredFeatures := requireFeature bounded featureRevocationReauthentication g.requiredFeatures }

def Store.mintLocal (s : Store) (o : Save) (g : Grant) (ttl : Int) (now : Time) : Store × Except Err Grant :=
  let g := mintRecord g ttl now
  if g.grantID = "" then (s,.error (.required "grant_id"))
  else if g.tenantID = "" then (s,.error (.required "tenant_id"))
  else if s.grants.contains g.grantID then (s,.error .conflict)
  else if !validateGrant g then (s,.error .invalidGrant)
  else if !authorizationFresh s.fences g g.scope now then (s,.error .reauthenticationRequired)
  else
    let g := cloneGrant (tagBoundary s.fences g)
    if s.saveLocked o = .failed then (s,.error .persistence)
    else ({ s with grants := s.grants.insert g.grantID g, dirty := false, generation := s.generation + 1 },.ok g)

def Store.revokeLocked (s : Store) (o : Save) (grantID : String) : Store × Denial :=
  match s.grants[grantID]? with
  | none => (s,{})
  | some g =>
    let s := if g.revoked then s else (s.withGrants (s.grants.insert grantID (g.withRevoked true))).touched
    let r := s.persistLocked o
    (r.1,{ grant := some (cloneGrant (g.withRevoked true)), err := r.2 })

def Store.revokeForTenantLocal (s : Store) (o : Save) (tenantID grantID : String) : Store × Denial :=
  let tenantID := trimSpace tenantID
  let grantID := trimSpace grantID
  if tenantID = "" then (s,{ err := some (.required "tenant_id") })
  else match s.grants[grantID]? with
    | some g => if g.tenantID = tenantID then s.revokeLocked o grantID else (s,{})
    | none => (s,{})

def Store.consumable (s : Store) (g expected : Grant) (now : Time) : Bool :=
  g.supported && !g.revoked && sameAuthorization g expected &&
    (match parseRFC3339 g.expiresAt with
      | some expiry => now < expiry
      | none => false) &&
    authorizationFresh s.fences g g.scope now &&
    !s.grants.toList.any fun e =>
      e.2.tenantID == g.tenantID && e.2.authenticationRequestID == g.authenticationRequestID && e.2.revoked

def Store.consumeAuthenticationLocal (s : Store) (o : Save) (expected : Grant) (now : Time) :
    Store × Except Err Bool :=
  match s.grants[expected.grantID]? with
  | none => (s,.ok false)
  | some g =>
    if !s.consumable g expected now then (s,.ok false)
    else
      let g := g.withConsumed (formatRFC3339 now)
      let r := (s.withGrants (s.grants.insert g.grantID g)).revokeLocked o g.grantID
      match r.2.err with
      | some e => (r.1,.error e)
      | none => (r.1,.ok true)

def expiredRetention : Int := 15 * minute

def expiredBeyondRetention (g : Grant) (now : Time) : Bool :=
  match parseRFC3339 g.expiresAt with
  | some expiry => !(now < expiry + expiredRetention)
  | none => false

def prunableGrant (g : Grant) (index : FenceIndex) (now : Time) : Bool :=
  expiredBeyondRetention g now && (g.reauthenticateAfter == "" || redundantReauthenticationFence g index)

def compactExpiredReauthenticationFence (g : Grant) : Grant :=
  cloneGrant { g with
    userEmail := ""
    username := ""
    userDisplayName := ""
    acr := ""
    authTime := ""
    amr := []
    authenticationRequestID := ""
    reauthenticationStartedAt := ""
    consumedAt := ""
    requiredFeatures := g.requiredFeatures.filter (· ≠ featureSingleRequest) }

def compactable (g : Grant) (now : Time) (protectedOnly : Bool) : Bool :=
  expiredBeyondRetention g now && g.revoked && g.reauthenticateAfter != "" && g.supported && g.unknownFields.isEmpty &&
    (!protectedOnly || g.requiresModernReader)

/-- A row after pruning; `none` when it is deleted. -/
def pruneRow (index : FenceIndex) (now : Time) (protectedOnly : Bool) (g : Grant) : Option Grant :=
  if prunableGrant g index now && (!protectedOnly || g.requiresModernReader) then none
  else if compactable g now protectedOnly then some (compactExpiredReauthenticationFence g)
  else some g

def Store.pruneExpiredLocal (s : Store) (o : Save) (now : Time) (protectedOnly : Bool) : Store × Except Err ℕ :=
  let rows := cloneGrants s.grants
  let index := indexReauthenticationFences s.grants
  let next := rows.filterMap fun _ g => pruneRow index now protectedOnly g
  let n := rows.size - next.size
  if next = rows then (s,.ok 0)
  else match s.saveLocked o with
    | .saved =>
      let s := s.publishLocked next
      let pending := s.pending.filter fun _ g => !prunableGrant g index now
      ({ s with pending := pending, dirty := !pending.isEmpty },.ok n)
    | .inPlace => (s,.error .savedWithoutAtomicity)
    | .failed => (s,.error .persistence)

def latestCutoff (fences : FenceIndex) (tenant : String) : Time :=
  (fences.filter fun e => e.1.tenant == tenant).foldl (fun latest e => if latest < e.2.time then e.2.time else latest)
    zero

def freeBoundaryID (env : Env) (grants : Map Grant) (tenant : String) : String :=
  (((List.range (grants.size + 1)).map (env.boundaryID tenant)).find? fun id => !grants.contains id).getD ""

/-- A synthetic denial of the whole tenant; it can never authorize traffic. -/
def syntheticFence (id tenant : String) (now : Time) : Grant :=
  { grantID := id, tenantID := tenant, revoked := true, issuedAt := formatRFC3339 now,
    expiresAt := formatRFC3339 (now + second) }

/-- The row that stands for the whole tenant, existing or new, and its name. -/
def tenantFence (env : Env) (s : Store) (tenant : String) (now : Time) : String × Grant :=
  match s.fences.lookup { tenant := tenant } with
  | some wide => (wide.id,s.grants[wide.id]?.getD {})
  | none =>
    let id := freeBoundaryID env s.grants tenant
    (id,syntheticFence id tenant now)

/-- Above the threshold the fences of a tenant are replaced by one that is stricter. -/
def Store.consolidateReauthenticationFencesLocked (env : Env) (s : Store) (tenant : String) (now : Time) : Store :=
  if env.threshold = 0 ∨ s.fences.count tenant ≤ env.threshold then s
  else
    let fence := tenantFence env s tenant now
    let boundary := formatRFC3339Nano (latestCutoff s.fences tenant)
    let rows := s.grants.insert fence.1 (cloneGrant (fence.2.withBoundary boundary))
    let index := indexReauthenticationFences rows
    (s.withGrants (rows.filter fun _ g => !(g.tenantID == tenant && prunableGrant g index now)))
      |>.rebuildReauthenticationIndexLocked

def Store.requireReauthenticationLocal (env : Env) (s : Store) (o : Save) (tenant id : String) (now : Time) :
    Store × Denial :=
  match s.grants[id]? with
  | none => (s,{})
  | some g =>
    if g.tenantID ≠ tenant then (s,{})
    else if g.reauthenticateAfter = "" then
      if isZero now ∨ unix now ≤ 0 then (s,{ err := some .invalidGrant })
      else
        let g := cloneGrant ((g.withRevoked true).withBoundary (formatRFC3339Nano now))
        let s := (s.withGrants (s.grants.insert id g)).rebuildReauthenticationIndexLocked
        let s := s.consolidateReauthenticationFencesLocked env tenant now
        let r := s.touched.persistLocked o
        (r.1,{ grant := some g, err := r.2 })
    else
      let r := s.persistLocked o
      (r.1,{ grant := some (cloneGrant g), err := r.2 })

/-- A report by a released node lacks the evidence that the stored row has; where it agrees with the row otherwise
it is taken as a report of the row. -/
def restoreEvidence (prev : Option Grant) (g : Grant) : Grant :=
  match prev with
  | none => g
  | some prev =>
    if !prev.requiresModernReader && !g.requiresModernReader && g.issuer == "" && g.providerConfigSHA256 == "" &&
        legacyProjection (g.withRevoked false) == legacyProjection (prev.withRevoked false) then
      (cloneGrant prev).withRevoked (prev.revoked || g.revoked)
    else g

/-- The proposals of a batch, one for each name, and the names with active records that disagree. -/
structure Proposals where
  rows : Map Grant := ∅
  activeConflicts : List String := []

def propose (grants : Map Grant) (p : Proposals) (raw : Grant) : Except Err Proposals :=
  let g := restoreEvidence grants[raw.grantID]? (cloneGrant raw)
  if !validateGrant g then .error .invalidGrant
  else match p.rows[g.grantID]? with
    | none => .ok { p with rows := p.rows.insert g.grantID g }
    | some prev =>
      if prev.tenantID ≠ g.tenantID then .error .conflict
      else if prev.revoked then .ok p
      else .ok {
        rows := p.rows.insert g.grantID g
        activeConflicts :=
          if !g.revoked && !sameAuthorization prev g then g.grantID :: p.activeConflicts else p.activeConflicts }

def proposeAll (grants : Map Grant) : Proposals → List Grant → Except Err Proposals
  | p, [] => .ok p
  | p, raw :: l =>
    match propose grants p raw with
    | .ok p => proposeAll grants p l
    | .error e => .error e

def conflicts (authorityEvidence : Bool) (prev : Option Grant) (g : Grant) : Bool :=
  match prev with
  | none => false
  | some prev =>
    prev.tenantID != g.tenantID ||
      (!prev.revoked && !g.revoked && !sameAuthorization prev g &&
        !(authorityEvidence && authorityEvidenceUpgrade prev g))

def denyRow (prev g : Grant) : Grant :=
  let denied := (prev.withRevoked true).withConsumed (if g.consumedAt ≠ "" then g.consumedAt else prev.consumedAt)
  cloneGrant (denied.withBoundary (laterBoundary prev.reauthenticateAfter g.reauthenticateAfter))

/-- What a proposal does to its row: denials at once, admissions after the save. -/
structure MergeRow where
  row : Option Grant
  active : Option Grant := none
  added : ℕ := 0
  updated : ℕ := 0
  enriched : ℕ := 0

def mergeRow (now : Time) (authorityEvidence : Bool) (prev : Option Grant) (g : Grant) : MergeRow :=
  match prev with
  | some prev =>
    if g.revoked && (!prev.revoked ||
        laterBoundary prev.reauthenticateAfter g.reauthenticateAfter != prev.reauthenticateAfter) then
      { row := some (denyRow prev g), updated := 1 }
    else if authorityEvidence && !prev.revoked && !g.revoked && authorityEvidenceUpgrade prev g then
      { row := some prev, active := some g, enriched := 1 }
    else { row := some prev }
  | none =>
    if g.revoked then { row := some g, added := 1 }
    else if now < (parseRFC3339 g.expiresAt).getD zero then { row := none, active := some g }
    else { row := none }

def storeRow (now : Time) (authorityEvidence : Bool) (grants out : Map Grant) (e : String × Grant) : Map Grant :=
  match (mergeRow now authorityEvidence grants[e.1]? e.2).row with
  | some row => out.insert e.1 row
  | none => out

structure Merged where
  added : ℕ := 0
  updated : ℕ := 0
  err : Option Err := none

def mergeCount (count : MergeRow → ℕ) (now : Time) (authorityEvidence : Bool) (grants rows : Map Grant) : ℕ :=
  (rows.toList.map fun e => count (mergeRow now authorityEvidence grants[e.1]? e.2)).sum

def activeProposals (now : Time) (authorityEvidence : Bool) (grants rows : Map Grant) : Map Grant :=
  rows.filterMap fun id g => (mergeRow now authorityEvidence grants[id]? g).active

def Store.denyProposals (s : Store) (now : Time) (authorityEvidence : Bool) (rows : Map Grant) : Store :=
  let grants := rows.toList.foldl (storeRow now authorityEvidence s.grants) s.grants
  { s with
    grants := grants
    fences := newReauthenticationReadIndex grants
    dirty := true
    generation := s.generation + 1 }

def Store.admitProposals (s : Store) (active : Map Grant) (denialChanged : Bool) : Store :=
  { s with
    grants := active.toList.foldl (fun rows e => rows.insert e.1 e.2) (cloneGrants s.grants)
    dirty := false
    generation := if active.isEmpty || denialChanged then s.generation else s.generation + 1 }

def Store.mergeProposals (s : Store) (o : Save) (now : Time) (authorityEvidence : Bool) (rows : Map Grant) :
    Store × Merged :=
  let added := mergeCount MergeRow.added now authorityEvidence s.grants rows
  let updated := mergeCount MergeRow.updated now authorityEvidence s.grants rows
  let enriched := mergeCount MergeRow.enriched now authorityEvidence s.grants rows
  let active := activeProposals now authorityEvidence s.grants rows
  let denialChanged := 0 < added || 0 < updated
  let denied := if denialChanged then s.denyProposals now authorityEvidence rows else s
  if active.isEmpty && !denied.dirty then (denied,{ added := added, updated := updated })
  else if denied.saveLocked o = .failed then
    (denied,{ added := added, updated := updated, err := some .persistence })
  else
    (denied.admitProposals active denialChanged,
      { added := added + active.size - enriched, updated := updated + enriched })

def Store.mergeLocalWithEvidence (s : Store) (o : Save) (incoming : List Grant) (now : Time)
    (authorityEvidence : Bool) : Store × Merged :=
  match proposeAll s.grants {} incoming with
  | .error e => (s,{ err := some e })
  | .ok p =>
    if p.activeConflicts.any fun id => !(p.rows[id]?.any fun g => g.revoked) then (s,{ err := some .conflict })
    else if p.rows.toList.any fun e => conflicts authorityEvidence s.grants[e.1]? e.2 then
      (s,{ err := some .conflict })
    else s.mergeProposals o now authorityEvidence p.rows

def Store.removeTenantLocal (s : Store) (o : Save) (tenantID : String) : Store × Except Err ℕ :=
  let tenantID := trimSpace tenantID
  if tenantID = "" then (s,.ok 0)
  else
    let rows := cloneGrants s.grants
    let candidate := rows.filter fun _ g => g.tenantID != tenantID
    let n := rows.size - candidate.size
    if n = 0 then (s,.ok 0)
    else if s.saveLocked o = .failed then (s,.error .persistence)
    else
      let s := (s.withGrants candidate).rebuildReauthenticationIndexLocked
      ({ s with generation := s.generation + 1, dirty := false },.ok n)

abbrev Loaded := Except Err (Option Json)

def Store.setPersister (s : Store) (p : Option Persister) (loaded : Loaded) (clock : Time) : Store × Option Err :=
  if s.dirty then (s,some .pendingPersistence)
  else match p with
    | none => ({ s with persister := none, persistenceEpoch := s.persistenceEpoch + 1 },none)
    | some p =>
      match loaded with
      | .error e => (s,some e)
      | .ok none =>
        ({ s with
          persister := some p
          persistenceEpoch := s.persistenceEpoch + 1
          readRefreshAt := some clock
          readRefreshErr := false
          authorityDigest := some none
          dirty := !s.grants.isEmpty },none)
      | .ok (some data) =>
        match decodeShared data with
        | none => (s,some .invalidGrant)
        | some fresh =>
          ({ s with
            generation := if s.grants = fresh then s.generation else s.generation + 1
            grants := fresh
            fences := newReauthenticationReadIndex fresh
            persister := some p
            dirty := false
            authorityKnown := true
            persistenceEpoch := s.persistenceEpoch + 1
            authorityDigest := some (some data)
            readRefreshAt := some clock
            readRefreshErr := false
            pending := ∅ },none)

end DsseCore.GrantStore

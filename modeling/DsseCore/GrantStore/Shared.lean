import DsseCore.Go.Sort
import DsseCore.GrantStore.Store

/-!
# Shared authorities

A shared store edits the latest document inside a transaction and keeps a denial that no document is known to hold.
The document behind the transaction is one blob, or the pair of the rolling format; how a transaction ends and what a
load answers are inputs.
-/

namespace DsseCore.GrantStore

open Go
open Std (ExtTreeMap)

/-- Durable state behind a transaction: the document a callback is shown, and the state that its result leads to. -/
structure Authority (σ : Type) where
  read : σ → Loaded
  write : Json → Except Err σ

def blobAuthority : Authority (Option Json) where
  read row := .ok row
  write next := .ok (some next)

/-- The legacy document and the evidence document, edited as one. -/
def rollingAuthority : Authority (Option Json × Option Json) where
  read pair :=
    match joinRolling pair.1 pair.2 with
    | .error e => .error e
    | .ok rows => .ok (if pair.1.isNone && pair.2.isNone then none else some (encodeGrantSnapshot rows))
  write next :=
    match decodeShared next with
    | none => .error .invalidGrant
    | some rows => .ok (some (splitRolling rows).1,some (splitRolling rows).2)

/-- How a transaction ends: committed, refused before the callback, failed after it, or committed with an error. -/
inductive Outcome where
  | commit
  | refuse
  | abort
  | unconfirmed
  deriving DecidableEq

def pendingGrantKey (tenant id : String) : String := tenant ++ "\x00" ++ id

/-- A pending denial on the rows of a document.  A synthetic tenant-wide denial is added while its tenant exists. -/
def overlayDenial (tenants : List String) (next : Map Grant) (e : String × Grant) : Map Grant :=
  let g := e.2
  match next[g.grantID]? with
  | some old =>
    if old.tenantID = g.tenantID then
      let boundary := laterBoundary old.reauthenticateAfter g.reauthenticateAfter
      let denied := cloneGrant ((old.withRevoked true).withBoundary boundary)
      next.insert g.grantID (if g.consumedAt ≠ "" then denied.withConsumed g.consumedAt else denied)
    else next
  | none =>
    if tenants.contains g.tenantID && g.revoked && g.reauthenticateAfter != "" &&
        fenceSelector g == { tenant := g.tenantID } then next.insert g.grantID (cloneGrant g)
    else next

def overlayPending (pending next : Map Grant) : Map Grant :=
  pending.toList.foldl (overlayDenial (next.toList.map fun e => e.2.tenantID)) next

def isNewDenial (before : Map Grant) (id : String) (g : Grant) : Bool :=
  g.revoked && match before[id]? with
    | some prev => !prev.revoked || g.reauthenticateAfter != prev.reauthenticateAfter
    | none => true

def newDenials (before after : Map Grant) : Map Grant :=
  after.toList.foldl (fun denials e =>
    if isNewDenial before e.1 e.2 then denials.insert (pendingGrantKey e.2.tenantID e.1) (cloneGrant e.2) else denials) ∅

def latchRow (rows : Map Grant) (e : String × Grant) : Map Grant :=
  match rows[e.2.grantID]? with
  | some old => if old.tenantID = e.2.tenantID then rows.insert e.2.grantID (cloneGrant e.2) else rows
  | none => rows.insert e.2.grantID (cloneGrant e.2)

def Store.latchDenialsLocked (s : Store) (denials : Map Grant) : Store :=
  let pending := denials.toList.foldl (fun pending e => pending.insert e.1 (cloneGrant e.2)) s.pending
  let s := Store.publishLocked { s with pending := pending } (denials.toList.foldl latchRow (cloneGrants s.grants))
  { s with dirty := true }

def Store.latchAny (s : Store) (denials : Map Grant) : Store :=
  if denials.isEmpty then s else s.latchDenialsLocked denials

/-- A pending denial whose grant is active after an edit. -/
def revivesPending (pending rows : Map Grant) : Bool :=
  pending.toList.any fun e => rows[e.2.grantID]?.any fun g => g.tenantID == e.2.tenantID && !g.revoked

variable {σ α : Type}

structure SharedGrantMutation where
  revokeTenant : String := ""
  revokeID : String := ""
  eraseTenant : String := ""
  reauthenticateAt : Option Time := none

structure Callback (α : Type) where
  store : Store
  observedAuthority : Bool
  captured : Option α := none
  editErr : Option Err := none
  denials : Map Grant := ∅
  /-- The rows to write. -/
  result : Except Err (Map Grant)

abbrev Edit (α : Type) := Store → Except Err (Store × α)

def Store.authorityRows (s : Store) : Option Json → Except Err (Map Grant)
  | none => if s.authorityKnown then .error .persistence else .ok (cloneGrants s.grants)
  | some raw =>
    match decodeShared raw with
    | some rows => .ok rows
    | none => .error .invalidGrant

def candidateStore (rows : Map Grant) : Store := { grants := rows, fences := newReauthenticationReadIndex rows }

def Store.build (s : Store) (edit : Edit α) (raw : Option Json) : Callback α :=
  match s.authorityRows raw with
  | .error e => { store := s, observedAuthority := s.authorityKnown, result := .error e }
  | .ok authority =>
    let known := s.authorityKnown || raw.isSome
    let rows := overlayPending s.pending authority
    match edit (candidateStore rows) with
    | .error e => { store := s, observedAuthority := known, editErr := some e, result := .error e }
    | .ok (next,captured) =>
      if revivesPending s.pending next.grants then
        { store := s, observedAuthority := known, editErr := some .conflict, result := .error .conflict }
      else
        let denials := newDenials rows next.grants
        { store := s.latchAny denials, observedAuthority := known, captured := some captured, denials := denials,
          result := .ok next.grants }

/-- A refusal before the callback denies the known target of a revocation here. -/
def Store.refusedDenials (s : Store) (option : SharedGrantMutation) : Map Grant :=
  if option.revokeTenant = "" then ∅
  else match s.grants[option.revokeID]? with
    | none => ∅
    | some g =>
      if g.tenantID ≠ option.revokeTenant then ∅
      else
        let g := g.withRevoked true
        let g := match option.reauthenticateAt with
          | some t => if g.reauthenticateAfter = "" then
              cloneGrant (g.withBoundary (Time.formatRFC3339Nano t)) else g
          | none => g
        (∅ : Map Grant).insert (pendingGrantKey g.tenantID g.grantID) g

def confirms (rows : Map Grant) (g : Grant) : Bool :=
  rows[g.grantID]?.any fun committed =>
    committed.tenantID == g.tenantID && committed.revoked &&
      laterBoundary committed.reauthenticateAfter g.reauthenticateAfter == committed.reauthenticateAfter

/-- The store after a confirmed commit of `rows`. -/
def Store.adoptCommitted (s : Store) (rows : Map Grant) (option : SharedGrantMutation) (clock : Time) : Store :=
  let s := s.publishLocked rows
  let pending := s.pending.filter fun _ g =>
    !(confirms rows g || (option.eraseTenant != "" && g.tenantID == option.eraseTenant))
  { s with
    pending := pending
    dirty := !pending.isEmpty
    authorityKnown := true
    authorityDigest := some (some (encodeGrantSnapshot rows))
    readRefreshAt := some clock
    readRefreshErr := false }

/-- A store and the durable state after a transaction, with what the edit handed to its caller. -/
structure Mutation (σ α : Type) where
  store : Store
  row : σ
  captured : Option α := none
  err : Option Err := none

def Store.mutateShared (A : Authority σ) (s : Store) (row : σ) (edit : Edit α) (option : SharedGrantMutation)
    (o : Outcome) (clock : Time) : Mutation σ α :=
  match A.read row with
  | .error _ => { store := s.latchAny (s.refusedDenials option), row := row, err := some .persistence }
  | .ok raw =>
    if o = .refuse then { store := s.latchAny (s.refusedDenials option), row := row, err := some .persistence }
    else
      let c := s.build edit raw
      let s := { c.store with authorityKnown := c.store.authorityKnown || c.observedAuthority }
      match c.result with
      | .error _ => { store := s, row := row, captured := c.captured, err := some (c.editErr.getD .persistence) }
      | .ok rows =>
        let failed : σ → Mutation σ α := fun row =>
          { store := s.latchAny c.denials, row := row, captured := c.captured, err := some .persistence }
        match A.write (encodeGrantSnapshot rows) with
        | .error _ => failed row
        | .ok row' =>
          match o with
          | .commit => { store := s.adoptCommitted rows option clock, row := row', captured := c.captured }
          | .unconfirmed => failed row'
          | _ => failed row

/-- What a load of the shared document answers; a cache may confirm the digest without the document. -/
inductive LoadAnswer where
  | failed
  | unchanged
  | loaded (raw : Option Json)
  deriving DecidableEq

structure RefreshSeen where
  generation : ℕ
  epoch : ℕ
  known : Bool
  digest : Digest

def Store.seen (s : Store) : RefreshSeen := ⟨s.generation,s.persistenceEpoch,s.authorityKnown,s.authorityDigest⟩

def Store.confirmRead (s : Store) (clock : Time) : Store :=
  { s with readRefreshAt := some clock, readRefreshErr := false }

def loadedRows : Option Json → Option (Map Grant)
  | none => some ∅
  | some raw => decodeShared raw

/-- A refresh that saw the store as `seen` and was then given the answer. -/
def Store.publishLoaded (s : Store) (seen : RefreshSeen) (answer : LoadAnswer) (clock : Time) : Store × Option Err :=
  let superseded := s.generation ≠ seen.generation ∨ s.persistenceEpoch ≠ seen.epoch
  match answer with
  | .failed => (s,some .persistence)
  | .unchanged => if superseded then (s,some .superseded) else (s.confirmRead clock,none)
  | .loaded raw =>
    if raw.isNone && seen.known then (s,some .persistence)
    else if some raw = seen.digest then
      if superseded then (s,some .superseded)
      else (Store.confirmRead { s with authorityKnown := s.authorityKnown || raw.isSome } clock,none)
    else match loadedRows raw with
      | none => (s,some .persistence)
      | some rows =>
        if superseded then (s,some .superseded)
        else
          let s := s.publishLocked (overlayPending s.pending rows)
          (Store.confirmRead
            { s with authorityDigest := some raw, authorityKnown := s.authorityKnown || raw.isSome } clock,none)

def Store.refreshShared (s : Store) (answer : LoadAnswer) (clock : Time) : Store × Option Err :=
  if s.sharedLocked then s.publishLoaded s.seen answer clock else (s,none)

/-- The refresh that an authorization read starts in the background; `started` is the age of the rows it saw. -/
def Store.refreshForRead (s : Store) (answer : LoadAnswer) (clock : Time) : Store :=
  let started := s.readRefreshAt
  let (s,err) := s.refreshShared answer clock
  match err with
  | none => s
  | some .superseded => s
  | some _ => if s.readRefreshAt = started then { s with readRefreshErr := true } else s

def Store.readable (s : Store) (clock : Time) : Bool :=
  !s.sharedLocked || (!s.readRefreshErr && s.readRefreshAt.any fun t => Time.sub clock t < 5 * Time.second)

def Store.validForAuthorization (s : Store) (clock : Time) (id : String) (now : Time) : Bool :=
  s.readable clock && match s.grants[trimSpace id]? with
    | none => false
    | some g => g.supported && authorizationFresh s.fences g g.scope clock && !g.revoked &&
      match Time.parseRFC3339 g.expiresAt with
      | some expiry => now < expiry
      | none => false

def editOf {α : Type} (r : Store × Except Err α) : Except Err (Store × α) :=
  match r.2 with
  | .ok a => .ok (r.1,a)
  | .error e => .error e

def editDenial (r : Store × Denial) : Except Err (Store × Option Grant) :=
  match r.2.err with
  | none => .ok (r.1,r.2.grant)
  | some e => .error e

def editMerge (r : Store × Merged) : Except Err (Store × Merged) :=
  match r.2.err with
  | none => .ok r
  | some e => .error e

structure Io where
  save : Save := .saved
  outcome : Outcome := .commit
  clock : Time

def mintEdit (g : Grant) (ttl : Int) (now : Time) : Edit Grant := fun c => editOf (c.mintLocal .saved g ttl now)

def Store.mintContext (A : Authority σ) (s : Store) (row : σ) (io : Io) (g : Grant) (ttl : Int) (now : Time) :
    Store × σ × Except Err Grant :=
  if s.sharedLocked then
    let m := s.mutateShared A row (mintEdit g ttl now) {} io.outcome io.clock
    (m.store,m.row,match m.err, m.captured with
      | some e, _ => .error e
      | none, some g => .ok g
      | none, none => .ok {})
  else
    let r := s.mintLocal io.save g ttl now
    (r.1,row,r.2)

/-- What a denial reports after its transaction: the edit's result, or the denial that was applied here. -/
def denialReport (key : String) (applies : Grant → Bool) (m : Mutation σ (Option Grant)) : Denial :=
  match m.err with
  | none => { grant := m.captured.getD none }
  | some e => { grant := (m.store.pending[key]?.filter applies).map cloneGrant, err := some e }

def revokeEdit (tenant id : String) : Edit (Option Grant) := fun c => editDenial (c.revokeForTenantLocal .saved tenant id)

def Store.revokeForTenantContext (A : Authority σ) (s : Store) (row : σ) (io : Io) (tenant id : String) :
    Store × σ × Denial :=
  let tenant := trimSpace tenant
  let id := trimSpace id
  if s.sharedLocked then
    let m := s.mutateShared A row (revokeEdit tenant id) { revokeTenant := tenant, revokeID := id } io.outcome io.clock
    (m.store,m.row,denialReport (pendingGrantKey tenant id) (fun g => g.tenantID == tenant) m)
  else
    let r := s.revokeForTenantLocal io.save tenant id
    (r.1,row,r.2)

def requireReauthenticationEdit (env : Env) (tenant id : String) (now : Time) : Edit (Option Grant) :=
  fun c => editDenial (c.requireReauthenticationLocal env .saved tenant id now)

def Store.requireReauthenticationForTenantContext (env : Env) (A : Authority σ) (s : Store) (row : σ) (io : Io)
    (tenant id : String) (now : Time) : Store × σ × Denial :=
  let tenant := trimSpace tenant
  let id := trimSpace id
  if tenant = "" ∨ id = "" ∨ Time.isZero now ∨ unix now ≤ 0 then (s,row,{ err := some .invalidGrant })
  else if s.sharedLocked then
    let option := { revokeTenant := tenant, revokeID := id, reauthenticateAt := some now }
    let m := s.mutateShared A row (requireReauthenticationEdit env tenant id now) option io.outcome io.clock
    (m.store,m.row,denialReport (pendingGrantKey tenant id) (fun _ => true) m)
  else
    let r := s.requireReauthenticationLocal env io.save tenant id now
    (r.1,row,r.2)

def consumeEdit (expected : Grant) (now : Time) : Edit Bool :=
  fun c => editOf (c.consumeAuthenticationLocal .saved expected now)

def Store.consumeAuthenticationRequest (A : Authority σ) (s : Store) (row : σ) (io : Io) (expected : Grant)
    (now : Time) : Store × σ × Except Err Bool :=
  if expected.authenticationRequestID = "" then (s,row,.error .invalidGrant)
  else if s.sharedLocked then
    let m := s.mutateShared A row (consumeEdit expected now) {} io.outcome io.clock
    (m.store,m.row,match m.err with
      | some e => .error e
      | none => .ok (m.captured.getD false))
  else
    let r := s.consumeAuthenticationLocal io.save expected now
    (r.1,row,r.2)

/-- Reports of a grant that is denied here and erased in the document are left out. -/
def withoutLatchedGrants (pending : Map Grant) (incoming : List Grant) (current : Map Grant) : List Grant :=
  incoming.filter fun g =>
    !(pending.contains (pendingGrantKey g.tenantID g.grantID) && !g.revoked && !current.contains g.grantID)

/-- The counts of a merge, and those of its denials alone for the case that the commit stays unconfirmed. -/
def mergeEdit (pending : Map Grant) (incoming : List Grant) (now : Time) (authorityEvidence : Bool) :
    Edit (Merged × Merged) := fun c =>
  match editMerge (c.mergeLocalWithEvidence .saved (withoutLatchedGrants pending incoming c.grants) now
    authorityEvidence) with
  | .error e => .error e
  | .ok (next,merged) =>
    let denied := next.grants.toList.filter fun e => isNewDenial c.grants e.1 e.2
    let updated := (denied.filter fun e => c.grants.contains e.1).length
    .ok (next,merged,{ added := denied.length - updated, updated := updated })

def Store.mergeTransaction (A : Authority σ) (s : Store) (row : σ) (io : Io) (incoming : List Grant) (now : Time)
    (authorityEvidence : Bool) : Store × σ × Merged :=
  if s.sharedLocked then
    let m := s.mutateShared A row (mergeEdit s.pending incoming now authorityEvidence) {} io.outcome io.clock
    let counts := m.captured.getD ({},{})
    (m.store,m.row,match m.err with
      | none => counts.1
      | some .persistence => { counts.2 with err := some .persistence }
      | some e => { err := some e })
  else
    let r := s.mergeLocalWithEvidence io.save incoming now authorityEvidence
    (r.1,row,r.2)

/-- A report that repeats what the confirmed rows hold needs no transaction. -/
def Store.repeatsReport (s : Store) (incoming : List Grant) : Bool :=
  s.sharedLocked && s.pending.isEmpty && incoming.all fun raw => s.grants[raw.grantID]? == some (cloneGrant raw)

/-- What a merge meets: the answer of its first read and the end of its transaction. -/
structure MergeIo extends Io where
  answer : LoadAnswer

def Store.mergeCheckedContextWithEvidence (A : Authority σ) (s : Store) (row : σ) (io : MergeIo)
    (incoming : List Grant) (now : Time) (authorityEvidence : Bool) : Store × σ × Merged :=
  let r := s.refreshShared io.answer io.clock
  if r.2 = none && r.1.repeatsReport incoming then (r.1,row,{})
  else r.1.mergeTransaction A row io.toIo incoming now authorityEvidence

/-- Valid denials of grants that are unknown here or belong to the same tenant. -/
def Store.reportedDenials (s : Store) (incoming : List Grant) : List Grant :=
  incoming.filter fun g => g.revoked && validateGrant g && match s.grants[g.grantID]? with
    | some old => old.tenantID == g.tenantID
    | none => true

def Store.mergeBatchContext (A : Authority σ) (s : Store) (row : σ) (io io' : MergeIo) (incoming : List Grant)
    (now : Time) (authorityEvidence : Bool) : Store × σ × Merged :=
  let denials := s.reportedDenials incoming
  let first := if denials.isEmpty then (s,row,({} : Merged))
    else s.mergeCheckedContextWithEvidence A row io denials now false
  if first.2.2.err.isSome then first
  else
    let second := first.1.mergeCheckedContextWithEvidence A first.2.1 io' incoming now authorityEvidence
    (second.1,second.2.1,{ second.2.2 with
      added := first.2.2.added + second.2.2.added
      updated := first.2.2.updated + second.2.2.updated })

def removeTenantEdit (tenant : String) : Edit ℕ := fun c => editOf (c.removeTenantLocal .saved tenant)

def Store.removeTenantContext (A : Authority σ) (s : Store) (row : σ) (io : Io) (tenant : String) :
    Store × σ × Except Err ℕ :=
  if s.sharedLocked then
    let m := s.mutateShared A row (removeTenantEdit tenant) { eraseTenant := trimSpace tenant } io.outcome io.clock
    (m.store,m.row,match m.err with
      | some e => .error e
      | none => .ok (m.captured.getD 0))
  else
    let r := s.removeTenantLocal io.save tenant
    (r.1,row,r.2)

def pruneEdit (now : Time) (mixed : Bool) : Edit ℕ := fun c => editOf (c.pruneExpiredLocal .saved now mixed)

/-- Pending denials of rows that are gone leave with them. -/
def Store.prunePending (s : Store) (now : Time) (mixed : Bool) : Store :=
  let index := indexReauthenticationFences s.grants
  let pending := s.pending.filter fun _ g =>
    !(prunableGrant g index now && (!mixed || g.requiresModernReader) && !s.grants.contains g.grantID)
  { s with pending := pending, dirty := !pending.isEmpty }

/-- A rolling authority only prunes rows that released readers never see. -/
def Store.pruneExpired (A : Authority σ) (s : Store) (row : σ) (io : Io) (now : Time) : Store × σ × Except Err ℕ :=
  let mixed := s.persister == some .rolling
  if s.sharedLocked then
    let m := s.mutateShared A row (pruneEdit now mixed) {} io.outcome io.clock
    match m.err with
    | some e => (m.store,m.row,.error e)
    | none => (m.store.prunePending now mixed,m.row,.ok (m.captured.getD 0))
  else
    let r := s.pruneExpiredLocal io.save now false
    (r.1,row,r.2)

def Store.snapshotAllChecked (s : Store) (answer : LoadAnswer) (clock : Time) :
    Store × Except Err (List Grant × ℕ) :=
  let r := s.refreshShared answer clock
  match r.2 with
  | some e => (r.1,.error e)
  | none => (r.1,.ok (sliceStable (fun a b => decide (a.grantID < b.grantID))
      (r.1.grants.toList.map fun e => cloneGrant e.2),r.1.generation))

end DsseCore.GrantStore

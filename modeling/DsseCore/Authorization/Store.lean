import DsseCore.Go.Strings
import DsseCore.Go.Value
import DsseCore.Lib.SharedRow

/-!
# Authorization stores

The store of human approvals and the store of delegated grants keep their records by tenant and id, and share how a
change is made: an edit starts from the row of the shared authority, lays the revocations whose save is pending over
it, and releases those that the save has confirmed.
-/

namespace DsseCore.Authorization

open Go Lib List

/-- Where a store saves: nowhere, to a file it owns, or to a row it shares with other processes. -/
inductive Persister where
  | none
  | plain
  | shared
  deriving DecidableEq

/-- Why an edit is given up. `noChange` is the edit that has nothing to do. -/
inductive Refusal where
  | noChange
  | absent
  | ambiguous
  | pending
  | transition (id old new : String)
  | retainedTerminal
  | capacity
  deriving DecidableEq

inductive StoreError where
  | invalidKey
  | persistence
  | refused (r : Refusal)
  deriving DecidableEq

def errorOf {α : Type} : Except StoreError α → Option StoreError
  | .ok _ => none
  | .error err => some err

/-- The bytes of a snapshot: records under their saved keys, or `none` for bytes that do not decode. -/
abbrev Document (E : Type) := Option (Map E)

/-- What the two stores do differently: their records `E` and their pending revocations `P`. -/
structure Kind (E P : Type) where
  tenantID : E → String
  id : E → String
  revoked : E → Bool
  /-- the record under a pending revocation -/
  deny : P → E → E
  /-- whether saved rows with an invalid key are skipped rather than refused -/
  skipsInvalid : Bool
  tenantID_deny : ∀ p e, tenantID (deny p e) = tenantID e
  id_deny : ∀ p e, id (deny p e) = id e
  revoked_deny : ∀ p e, revoked (deny p e) = true

structure Node (E P : Type) where
  records : Map E := ∅
  capacity : Int := 0
  persister : Persister := .none
  authorityKnown : Bool := false
  pendingRevocations : Map P := ∅
  row : Option (Document E) := none

/-- The key of a record, and the check of both packages on its parts. -/
def recordKey (tenant id : String) : String := tenant ++ "\x00" ++ id

def validKey (tenant id : String) : Bool :=
  !(tenant == "" || id == "" || trimSpace tenant != tenant || trimSpace id != id ||
    tenant.toList.contains '\x00' || id.toList.contains '\x00')

section Keys

variable {tenant id tenant' id' : String}

theorem nul_notMem_of_validKey (h : validKey tenant id = true) : '\x00' ∉ tenant.toList := by
  intro hmem
  simp [validKey,hmem] at h

theorem tenant_ne_empty_of_validKey (h : validKey tenant id = true) : tenant ≠ "" := by
  rintro rfl
  simp [validKey] at h

theorem trimSpace_of_validKey (h : validKey tenant id = true) : trimSpace tenant = tenant := by
  by_contra hne
  simp [validKey,hne] at h

theorem takeWhile_recordKey (h : '\x00' ∉ tenant.toList) (id : String) :
    (recordKey tenant id).toList.takeWhile (· != '\x00') = tenant.toList := by
  have hpos : ∀ c ∈ tenant.toList, (c != '\x00') = true := by
    intro c hc
    simp only [bne_iff_ne]
    rintro rfl
    exact h hc
  rw [recordKey,String.toList_append,String.toList_append,append_assoc,takeWhile_append_of_pos hpos]
  simp

theorem count_nul_recordKey (h : validKey tenant id = true) : (recordKey tenant id).toList.count '\x00' = 1 := by
  have hid : '\x00' ∉ id.toList := by
    intro hmem
    simp [validKey,hmem] at h
  rw [recordKey,String.toList_append,String.toList_append,count_append,count_append,
    count_eq_zero.mpr (nul_notMem_of_validKey h),count_eq_zero.mpr hid]
  rfl

theorem recordKey_inj (h : validKey tenant id = true) (h' : validKey tenant' id' = true)
    (heq : recordKey tenant id = recordKey tenant' id') : tenant = tenant' ∧ id = id' := by
  have htake := takeWhile_recordKey (nul_notMem_of_validKey h) id
  rw [heq,takeWhile_recordKey (nul_notMem_of_validKey h') id'] at htake
  obtain rfl : tenant' = tenant := String.toList_inj.mp htake
  refine ⟨rfl,?_⟩
  have hlist : (recordKey tenant' id).toList = (recordKey tenant' id').toList := by rw [heq]
  simp only [recordKey,String.toList_append] at hlist
  exact String.toList_inj.mp (append_cancel_left hlist)

end Keys

variable {E P A : Type}

namespace Kind

variable (kd : Kind E P) {m : Map E}

def key (e : E) : String := recordKey (kd.tenantID e) (kd.id e)

def Valid (e : E) : Prop := validKey (kd.tenantID e) (kd.id e) = true

instance (e : E) : Decidable (kd.Valid e) := by unfold Valid; infer_instance

def Canonical (m : Map E) : Prop := ∀ k e, m[k]? = some e → kd.Valid e ∧ k = kd.key e

@[simp] theorem key_deny (p : P) (e : E) : kd.key (kd.deny p e) = kd.key e := by
  rw [key,kd.tenantID_deny,kd.id_deny,key]

theorem valid_deny {p : P} {e : E} (h : kd.Valid e) : kd.Valid (kd.deny p e) := by
  rw [Valid,kd.tenantID_deny,kd.id_deny]
  exact h

/-- One saved row. A row under its bare id is of an older format. -/
def restoreRow (fresh : Map E) (row : String × E) : Option (Map E) :=
  if row.1 ≠ kd.id row.2 ∧ row.1 ≠ kd.key row.2 then none
  else if ¬ kd.Valid row.2 then (if kd.skipsInvalid then some fresh else none)
  else if fresh.contains (kd.key row.2) then none
  else some (fresh.insert (kd.key row.2) row.2)

def decodeSnapshot (saved : Map E) : Option (Map E) := saved.toList.foldlM kd.restoreRow ∅

/-- A record under the latch of its key, if there is one. -/
def under (latch : Option P) (e : E) : E :=
  match latch with
  | some p => kd.deny p e
  | none => e

/-- The pending revocations, laid over the records that exist. -/
def applyPending (pending : Map P) (next : Map E) : Map E := next.map fun k e => kd.under pending[k]? e

theorem canonical_empty : kd.Canonical ∅ := by
  intro k e h
  simp at h

theorem Canonical.insert {kd : Kind E P} (h : kd.Canonical m) {e : E} (he : kd.Valid e) :
    kd.Canonical (m.insert (kd.key e) e) := by
  intro k e' hk
  rw [Map.getElem?_insert_eq] at hk
  split at hk
  next heq =>
    obtain rfl := Option.some.inj hk
    exact ⟨he,heq.symm⟩
  next => exact h k e' hk

theorem canonical_restoreRow {fresh next : Map E} {row : String × E} (h : kd.Canonical fresh)
    (hrow : kd.restoreRow fresh row = some next) : kd.Canonical next := by
  unfold restoreRow at hrow
  split at hrow
  · contradiction
  split at hrow
  · split at hrow
    · exact Option.some.inj hrow ▸ h
    · contradiction
  next hvalid =>
    split at hrow
    · contradiction
    · exact Option.some.inj hrow ▸ h.insert (not_not.mp hvalid)

theorem canonical_decodeSnapshot {saved : Map E} (h : kd.decodeSnapshot saved = some m) : kd.Canonical m := by
  have hfold : ∀ (l : List (String × E)) (fresh : Map E), kd.Canonical fresh →
      l.foldlM kd.restoreRow fresh = some m → kd.Canonical m := by
    intro l
    induction l with
    | nil =>
      intro fresh hfresh hm
      exact Option.some.inj hm ▸ hfresh
    | cons row l ih =>
      intro fresh hfresh hm
      obtain ⟨next, hnext, hm⟩ := Option.bind_eq_some_iff.mp hm
      exact ih next (kd.canonical_restoreRow hfresh hnext) hm
  exact hfold _ _ kd.canonical_empty h

theorem decodeSnapshot_canonical (h : kd.Canonical m) : kd.decodeSnapshot m = some m := by
  have hfold : ∀ (l : List (String × E)) (fresh : Map E), (∀ row ∈ l, kd.Valid row.2 ∧ row.1 = kd.key row.2) →
      (l.map Prod.fst).Nodup → (∀ row ∈ l, fresh[row.1]? = none) →
      l.foldlM kd.restoreRow fresh = some (l.foldl (fun m e => m.insert e.1 e.2) fresh) := by
    intro l
    induction l with
    | nil =>
      intro fresh _ _ _
      rfl
    | cons row l ih =>
      intro fresh hrows hnodup hfresh
      obtain ⟨hvalid, hkey⟩ := hrows row mem_cons_self
      have hnew : fresh.contains (kd.key row.2) = false := by
        have := hfresh row mem_cons_self
        rw [hkey] at this
        rw [Std.ExtTreeMap.contains_eq_isSome_getElem?,this]
        rfl
      have hrow : kd.restoreRow fresh row = some (fresh.insert row.1 row.2) := by
        simp [restoreRow,hvalid,hkey,hnew]
      rw [foldlM_cons,hrow]
      rw [map_cons,nodup_cons] at hnodup
      apply ih _ (fun r hr => hrows r (mem_cons_of_mem _ hr)) hnodup.2
      intro r hr
      rw [Map.getElem?_insert_eq,if_neg]
      · exact hfresh r (mem_cons_of_mem _ hr)
      · intro heq
        exact hnodup.1 (heq ▸ mem_map_of_mem hr)
  have hall : ∀ row ∈ m.toList, kd.Valid row.2 ∧ row.1 = kd.key row.2 := by
    rintro ⟨k, e⟩ hrow
    exact h k e (Std.ExtTreeMap.mem_toList_iff_getElem?_eq_some.mp hrow)
  rw [decodeSnapshot,hfold _ ∅ hall (Map.nodup_toList_keys m) (by simp)]
  exact congrArg some (Map.ofEntries_toList m)

theorem getElem?_applyPending (pending : Map P) (m : Map E) (k : String) :
    (kd.applyPending pending m)[k]? = m[k]?.map (kd.under pending[k]?) := by
  exact Std.ExtTreeMap.getElem?_map

theorem canonical_applyPending (h : kd.Canonical m) (pending : Map P) : kd.Canonical (kd.applyPending pending m) := by
  intro k e hk
  rw [getElem?_applyPending] at hk
  obtain ⟨e', he', rfl⟩ := Option.map_eq_some_iff.mp hk
  obtain ⟨hvalid, hkey⟩ := h k e' he'
  unfold under
  split
  · exact ⟨kd.valid_deny hvalid,by rw [key_deny,hkey]⟩
  · exact ⟨hvalid,hkey⟩

end Kind

namespace Node

variable (kd : Kind E P) (n : Node E P)

def newStore (capacity : Int) : Node E P := { capacity }

/-- `SetPersister`, where `row` is what the new persister loads. A failed load leaves the store alone. -/
def setPersister (p : Persister) (row : Option (Document E)) : Node E P :=
  match p, row with
  | .none, _ => { n with persister := .none, authorityKnown := false, row := none }
  | p, none => if n.authorityKnown then n else { n with persister := p, row := none }
  | p, some doc =>
    match doc.bind kd.decodeSnapshot with
    | none => n
    | some fresh => { n with
        records := kd.applyPending n.pendingRevocations fresh, persister := p, authorityKnown := true, row := some doc }

/-- The records an edit starts from: those of the shared row, or the store's own while no authority is known. -/
def base : Option (Map E) :=
  match n.persister, n.row with
  | .shared, none => if n.authorityKnown then none else some n.records
  | .shared, some doc => doc.bind kd.decodeSnapshot
  | _, _ => kd.decodeSnapshot n.records

def learn : Node E P := { n with authorityKnown := n.authorityKnown || (n.persister == .shared && n.row.isSome) }

def publish (next : Map E) : Node E P := { n with records := next }

def land (e : Ending) (next : Map E) : Node E P :=
  if n.persister = .shared ∧ e.Lands then { n with row := some (some next) } else n

/-- A confirmed save publishes the records and releases the pending revocations that they carry. -/
def confirm (next : Map E) : Node E P := { n with
  records := next
  authorityKnown := n.authorityKnown || n.persister != .none
  pendingRevocations := n.pendingRevocations.filter fun k _ => !(next[k]?.any kd.revoked) }

/-- The store after an edit, its error, and what the callback saw if it ran. -/
structure Edited (E P A : Type) where
  node : Node E P
  error : Option StoreError
  seen : Option A

/-- One edit. The callback gives the next records or refuses, and in either case what its closure captured; `e` says
how the transaction or the save ends, `refused` when the context is already done. -/
def editLocked (e : Ending) (edit : Map E → Except Refusal (Map E) × A) : Edited E P A :=
  if e = .refused then ⟨n,some .persistence,none⟩
  else match n.base kd with
    | none => ⟨n,some .persistence,none⟩
    | some cur =>
      match edit (kd.applyPending n.pendingRevocations cur) with
      | (.error .noChange,a) => ⟨n.learn.publish (kd.applyPending n.pendingRevocations cur),none,some a⟩
      | (.error r,a) => ⟨n.learn,some (.refused r),some a⟩
      | (.ok next,a) =>
        if e = .committed ∨ n.persister = .none then ⟨(n.learn.land e next).confirm kd next,none,some a⟩
        else ⟨n.learn.land e next,some .persistence,some a⟩

/-- `RefreshShared`: the records of the shared row, and whether the refresh succeeded. `loaded` is whether the row
could be read at all. -/
def refreshShared (loaded : Bool) : Node E P × Bool :=
  if n.persister ≠ .shared then (n,true)
  else if !loaded then (n,false)
  else match n.row with
    | none => (n,!n.authorityKnown)
    | some doc =>
      match doc.bind kd.decodeSnapshot with
      | none => (n,false)
      | some next => ({ n with records := kd.applyPending n.pendingRevocations next, authorityKnown := true },true)

def getForTenant (loaded : Bool) (tenant id : String) : Node E P × Option E :=
  let r := n.refreshShared kd loaded
  (r.1,if r.2 && validKey tenant id then r.1.records[recordKey tenant id]? else none)

def byID (id : String) (next : Map E) : Except Refusal (Option (String × E)) :=
  match next.toList.filter fun current => kd.id current.2 == id with
  | [] => .ok none
  | [current] => .ok (some current)
  | _ => .error .ambiguous

/-- The key a revocation is for: that of the tenant, or that of the only record with the id. -/
def revokeKey (tenant id : String) (next : Map E) : Except Refusal String :=
  if tenant = "" then (byID kd id next).map fun current => (current.map Prod.fst).getD ""
  else .ok (recordKey tenant id)

def removeTenantEdit (owner : E → String) (tenant : String) (next : Map E) : Except Refusal (Map E) × ℕ :=
  let count := (next.toList.filter fun current => owner current.2 == tenant).length
  if count = 0 then (.error .noChange,count) else (.ok (next.filter fun _ r => owner r != tenant),count)

/-- `RemoveTenantContext`, with the packages' ways to see the tenant of a record and of a key. -/
def removeTenant (owner : E → String) (ofTenant : String → String → Bool) (e : Ending) (tenant : String) :
    Node E P × Except StoreError ℕ :=
  if trimSpace tenant = "" then (n,.ok 0)
  else
    let r := n.editLocked kd e (removeTenantEdit owner (trimSpace tenant))
    match r.error with
    | some err => (r.node,.error err)
    | none => ({ r.node with
        pendingRevocations := r.node.pendingRevocations.filter fun key _ => !ofTenant (trimSpace tenant) key },
        .ok (r.seen.getD 0))

@[simp] theorem learn_records : n.learn.records = n.records := rfl
@[simp] theorem learn_pendingRevocations : n.learn.pendingRevocations = n.pendingRevocations := rfl
@[simp] theorem learn_persister : n.learn.persister = n.persister := rfl
@[simp] theorem learn_row : n.learn.row = n.row := rfl

@[simp] theorem land_records (e : Ending) (next : Map E) : (n.land e next).records = n.records := by
  unfold land; split <;> rfl

@[simp] theorem land_pendingRevocations (e : Ending) (next : Map E) :
    (n.land e next).pendingRevocations = n.pendingRevocations := by
  unfold land; split <;> rfl

inductive Edits (e : Ending) (edit : Map E → Except Refusal (Map E) × A) : Edited E P A → Prop
  | stopped : Edits e edit ⟨n,some .persistence,none⟩
  | unchanged {cur : Map E} {a : A} (hbase : n.base kd = some cur)
      (hedit : edit (kd.applyPending n.pendingRevocations cur) = (.error .noChange,a)) :
      Edits e edit ⟨n.learn.publish (kd.applyPending n.pendingRevocations cur),none,some a⟩
  | refused {cur : Map E} {a : A} {r : Refusal} (hbase : n.base kd = some cur) (hr : r ≠ .noChange)
      (hedit : edit (kd.applyPending n.pendingRevocations cur) = (.error r,a)) :
      Edits e edit ⟨n.learn,some (.refused r),some a⟩
  | failed {cur next : Map E} {a : A} (hbase : n.base kd = some cur) (he : e ≠ .committed)
      (hedit : edit (kd.applyPending n.pendingRevocations cur) = (.ok next,a)) :
      Edits e edit ⟨n.learn.land e next,some .persistence,some a⟩
  | confirmed {cur next : Map E} {a : A} (hbase : n.base kd = some cur) (he : e = .committed ∨ n.persister = .none)
      (hedit : edit (kd.applyPending n.pendingRevocations cur) = (.ok next,a)) :
      Edits e edit ⟨(n.learn.land e next).confirm kd next,none,some a⟩

theorem editLocked_spec (e : Ending) (edit : Map E → Except Refusal (Map E) × A) :
    n.Edits kd e edit (n.editLocked kd e edit) := by
  unfold editLocked
  split
  · exact .stopped
  split
  · exact .stopped
  next cur hbase =>
    split
    next a hedit => exact .unchanged hbase hedit
    next r a hr hedit => exact .refused hbase hr hedit
    next next' a hedit =>
      split
      next he => exact .confirmed hbase he hedit
      next he => exact .failed hbase (fun h => he (.inl h)) hedit

variable {kd} in
theorem revokeKey_error {tenant id : String} {cur : Map E} {r : Refusal} (h : revokeKey kd tenant id cur = .error r) :
    r = .ambiguous := by
  unfold revokeKey byID at h
  split at h
  · split at h
    · cases h
    · cases h
    · cases h; rfl
  · cases h

variable {kd} in
theorem revokeKey_ok {tenant id key : String} {cur : Map E} (h : revokeKey kd tenant id cur = .ok key)
    (hne : tenant ≠ "") : key = recordKey tenant id := by
  rw [revokeKey,if_neg hne] at h
  exact (Except.ok.inj h).symm

end Node

theorem getElem?_filter_records (m : Map E) (p : E → Bool) (k : String) : (m.filter fun _ r => p r)[k]? = m[k]?.filter p := by
  simp

/-- What an edit does to the records: it stores one, revokes one, or removes those of a tenant. -/
inductive Touch (E : Type) where
  | put (e : E)
  | deny
  | erase (tenant : String)

/-- The transitions a store admits, from the record it has to the one it is given. -/
abbrev Transition (E : Type) := E → E → Prop

def Kind.Rewrites (kd : Kind E P) (admits : Transition E) (pending : Map P) : Touch E → Map E → Map E → Prop
  | .put e, cur, next => kd.Valid e ∧ (kd.key e ∈ pending → kd.revoked e = true) ∧
      (∀ old, cur[kd.key e]? = some old → admits old e) ∧ next = cur.insert (kd.key e) e
  | .deny, cur, next => ∃ e, kd.Valid e ∧ kd.revoked e = true ∧ next = cur.insert (kd.key e) e
  | .erase tenant, cur, next => ∀ k : String, next[k]? = cur[k]?.filter fun e => kd.tenantID e != tenant

/-- What an operation can do to a store, before it latches or releases revocations. -/
inductive Effect (kd : Kind E P) (admits : Transition E) (t : Touch E) (e : Ending) (n : Node E P) : Node E P → Prop
  | kept : Effect kd admits t e n n
  | learned {cur : Map E} (hbase : n.base kd = some cur) : Effect kd admits t e n n.learn
  | read {cur : Map E} (hbase : n.base kd = some cur) :
      Effect kd admits t e n (n.learn.publish (kd.applyPending n.pendingRevocations cur))
  | failed {cur next : Map E} (hbase : n.base kd = some cur) (he : e ≠ .committed)
      (hnext : kd.Rewrites admits n.pendingRevocations t (kd.applyPending n.pendingRevocations cur) next) :
      Effect kd admits t e n (n.learn.land e next)
  | confirmed {cur next : Map E} (hbase : n.base kd = some cur) (he : e = .committed ∨ n.persister = .none)
      (hnext : kd.Rewrites admits n.pendingRevocations t (kd.applyPending n.pendingRevocations cur) next) :
      Effect kd admits t e n ((n.learn.land e next).confirm kd next)

/-- A denial that could not be saved: the latch of the key is set, and the records change into revoked ones only. -/
structure Latches (kd : Kind E P) (key : String) (n n' : Node E P) : Prop where
  persister : n'.persister = n.persister
  authorityKnown : n'.authorityKnown = n.authorityKnown
  row : n'.row = n.row
  latched : key ∈ n'.pendingRevocations
  kept : ∀ k ∈ n.pendingRevocations, k ∈ n'.pendingRevocations
  records : ∀ k, n'.records[k]? = n.records[k]? ∨
    ∃ e, n'.records[k]? = some e ∧ kd.Valid e ∧ k = kd.key e ∧ kd.revoked e = true
  denied : ∃ e, n'.records[key]? = some e ∧ kd.revoked e = true

structure Releases (kd : Kind E P) (tenant : String) (n n' : Node E P) : Prop where
  persister : n'.persister = n.persister
  authorityKnown : n'.authorityKnown = n.authorityKnown
  row : n'.row = n.row
  records : n'.records = n.records
  others : ∀ t id, validKey t id = true → t ≠ tenant → recordKey t id ∈ n.pendingRevocations →
    recordKey t id ∈ n'.pendingRevocations

namespace Node.Edits

variable {kd : Kind E P} {n : Node E P} {e : Ending} {edit : Map E → Except Refusal (Map E) × A}
  {r : Edited E P A}

theorem effect {admits : Transition E} {t : Touch E} (h : n.Edits kd e edit r)
    (hedit : ∀ cur next a, kd.Canonical cur → edit cur = (.ok next,a) →
      kd.Rewrites admits n.pendingRevocations t cur next)
    (hcanonical : ∀ cur, n.base kd = some cur → kd.Canonical cur) : Effect kd admits t e n r.node := by
  have hpending : ∀ {cur}, n.base kd = some cur → kd.Canonical (kd.applyPending n.pendingRevocations cur) :=
    fun hbase => kd.canonical_applyPending (hcanonical _ hbase) _
  cases h with
  | stopped => exact .kept
  | unchanged hbase _ => exact .read hbase
  | refused hbase _ _ => exact .learned hbase
  | failed hbase he h => exact .failed hbase he (hedit _ _ _ (hpending hbase) h)
  | confirmed hbase he h => exact .confirmed hbase he (hedit _ _ _ (hpending hbase) h)

end Node.Edits

end DsseCore.Authorization

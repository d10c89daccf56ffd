import DsseCore.Go.CaseMapping
import DsseCore.Go.Json
import DsseCore.Lib.SharedRow

/-!
# Admission revocations

The kill switches of a node: the blocks of its own administrators, the blocks that peers sent, and those that the
control plane distributes.  The first two are saved in one snapshot, in a file or in a row that control planes share.
-/

namespace DsseCore.Revocation

open Go Lib
open Std (ExtTreeMap)

def normalizeIdentity (identity : String) : String := toLower (trimSpace identity)

@[simp] theorem normalizeIdentity_normalizeIdentity (s : String) :
    normalizeIdentity (normalizeIdentity s) = normalizeIdentity s := by
  simp [normalizeIdentity,trimSpace_toLower]

structure AdmissionRevocationsStateFile where
  schemaVersion : String
  revoked : Map String
  meshReceived : Map String
  deriving DecidableEq

def admissionRevocationsStateSchemaVersion : String := "admission_revocations_state.v1"

def emptyState : AdmissionRevocationsStateFile := ⟨admissionRevocationsStateSchemaVersion,∅,∅⟩

/-- The members of a map of blocks: identities as they are compared, no duplicates, trimmed reasons. -/
def decodeAdmissionMembers : List (String × Json) → Map String → Option (Map String)
  | [], rows => some rows
  | (id,value) :: members, rows =>
    if id = "" ∨ id ≠ normalizeIdentity id ∨ rows.contains id then none
    else match value with
      | .str reason => if reason ≠ trimSpace reason then none else decodeAdmissionMembers members (rows.insert id reason)
      | _ => none

def decodeAdmissionMap : Json → Option (Map String)
  | .obj members => decodeAdmissionMembers members ∅
  | _ => none

/-- The fields of a snapshot, each at most once and no other. -/
def decodeAdmissionFields : List (String × Json) → List String → AdmissionRevocationsStateFile →
    Option (List String × AdmissionRevocationsStateFile)
  | [], seen, f => some (seen,f)
  | (name,value) :: members, seen, f =>
    if seen.contains name then none
    else if name = "schema_version" then
      match value.string? f.schemaVersion with
      | some v => if v ≠ admissionRevocationsStateSchemaVersion then none
        else decodeAdmissionFields members (name :: seen) { f with schemaVersion := v }
      | none => none
    else if name = "revoked" then
      match decodeAdmissionMap value with
      | some rows => decodeAdmissionFields members (name :: seen) { f with revoked := rows }
      | none => none
    else if name = "mesh_received" then
      match decodeAdmissionMap value with
      | some rows => decodeAdmissionFields members (name :: seen) { f with meshReceived := rows }
      | none => none
    else none

def decodeAdmissionSnapshot : Json → Option AdmissionRevocationsStateFile
  | .obj members =>
    match decodeAdmissionFields members [] ⟨"",∅,∅⟩ with
    | some (seen,f) => if seen.contains "schema_version" && seen.contains "revoked" then some f else none
    | none => none
  | _ => none

def encodeBlocks (rows : Map String) : Json := .obj (rows.toList.map fun e => (e.1,.str e.2))

/-- `json.Marshal` of a snapshot; an empty mesh layer is left out. -/
def AdmissionRevocationsStateFile.encode (f : AdmissionRevocationsStateFile) : Json :=
  .obj ([("schema_version",.str f.schemaVersion),("revoked",encodeBlocks f.revoked)] ++
    if f.meshReceived.isEmpty then [] else [("mesh_received",encodeBlocks f.meshReceived)])

def Blocks (rows : Map String) : Prop :=
  ∀ id reason, rows[id]? = some reason → id ≠ "" ∧ normalizeIdentity id = id ∧ trimSpace reason = reason

variable {rows : Map String}

theorem Blocks.insert (h : Blocks rows) {identity reason : String} (hid : normalizeIdentity identity ≠ "") :
    Blocks (rows.insert (normalizeIdentity identity) (trimSpace reason)) := by
  intro id r hr
  rw [Map.getElem?_insert_eq] at hr
  split at hr
  · next he =>
    obtain rfl := Option.some.inj hr
    exact he ▸ ⟨hid,normalizeIdentity_normalizeIdentity _,trimSpace_trimSpace _⟩
  · exact h id r hr

theorem Blocks.erase (h : Blocks rows) (id : String) : Blocks (rows.erase id) := by
  intro id' r hr
  rw [Map.getElem?_erase_eq] at hr
  split at hr
  · cases hr
  · exact h id' r hr

theorem blocks_empty : Blocks ∅ := by simp [Blocks]

theorem decodeAdmissionMembers_ok {l : List (String × Json)} {out : Map String}
    (h : decodeAdmissionMembers l rows = some out) (hrows : Blocks rows) : Blocks out := by
  induction l generalizing rows with
  | nil => exact Option.some.inj h ▸ hrows
  | cons e l ih =>
    obtain ⟨id, value⟩ := e
    unfold decodeAdmissionMembers at h
    split at h
    · cases h
    rename_i hid
    simp only [not_or,not_not] at hid
    split at h
    · split at h
      · cases h
      rename_i reason hreason
      rw [not_not] at hreason
      refine ih h fun id' r hr => ?_
      rw [Map.getElem?_insert_eq] at hr
      split at hr
      · next he =>
        obtain rfl := Option.some.inj hr
        exact he ▸ ⟨hid.1,hid.2.1.symm,hreason.symm⟩
      · exact hrows id' r hr
    · cases h

theorem decodeAdmissionMap_encodeBlocks (h : Blocks rows) : decodeAdmissionMap (encodeBlocks rows) = some rows := by
  -- the members come in the order of the map, each new
  have hmembers : ∀ (l : List (String × String)) (m : Map String), (l.map Prod.fst).Nodup →
      (∀ e ∈ l, e.1 ≠ "" ∧ normalizeIdentity e.1 = e.1 ∧ trimSpace e.2 = e.2 ∧ m[e.1]? = none) →
      decodeAdmissionMembers (l.map fun e => (e.1,Json.str e.2)) m = some (l.foldl (fun m e => m.insert e.1 e.2) m) := by
    intro l
    induction l with
    | nil => exact fun m _ _ => rfl
    | cons e l ih =>
      intro m hnodup hl
      obtain ⟨hne, hid, hreason, hnew⟩ := hl e List.mem_cons_self
      rw [List.map_cons,List.nodup_cons] at hnodup
      have hfresh : ¬ (e.1 = "" ∨ e.1 ≠ normalizeIdentity e.1 ∨ m.contains e.1 = true) := by
        simp only [not_or,not_not,ExtTreeMap.contains_eq_isSome_getElem?,hnew]
        exact ⟨hne,hid.symm,Bool.false_ne_true⟩
      have hsame : ¬ e.2 ≠ trimSpace e.2 := not_not.mpr hreason.symm
      rw [List.map_cons,decodeAdmissionMembers,if_neg hfresh,if_neg hsame]
      refine ih _ hnodup.2 fun e' he' => ?_
      obtain ⟨hne', hid', hreason', hnew'⟩ := hl e' (List.mem_cons_of_mem _ he')
      refine ⟨hne',hid',hreason',?_⟩
      rw [Map.getElem?_insert_eq,if_neg,hnew']
      exact fun he => hnodup.1 (he ▸ List.mem_map.mpr ⟨e',he',rfl⟩)
  have hlist := hmembers rows.toList ∅ (Map.nodup_toList_keys rows) fun e he => by
    obtain ⟨hne, hid, hreason⟩ := h e.1 e.2 (ExtTreeMap.mem_toList_iff_getElem?_eq_some.mp he)
    exact ⟨hne,hid,hreason,by simp⟩
  exact hlist.trans (congrArg some (Map.ofEntries_toList rows))

structure AdmissionRevocationsStateFile.Sound (f : AdmissionRevocationsStateFile) : Prop where
  schemaVersion : f.schemaVersion = admissionRevocationsStateSchemaVersion
  revoked : Blocks f.revoked
  meshReceived : Blocks f.meshReceived

theorem emptyState_sound : emptyState.Sound := ⟨rfl,blocks_empty,blocks_empty⟩

variable {f : AdmissionRevocationsStateFile}

theorem decodeAdmissionSnapshot_encode (h : f.Sound) : decodeAdmissionSnapshot f.encode = some f := by
  obtain ⟨version, revoked, mesh⟩ := f
  obtain ⟨rfl, hrevoked, hmesh⟩ := h
  unfold AdmissionRevocationsStateFile.encode decodeAdmissionSnapshot
  by_cases he : mesh.isEmpty = true
  · obtain rfl := ExtTreeMap.isEmpty_iff.mp he
    simp [decodeAdmissionFields,Json.string?,decodeAdmissionMap_encodeBlocks hrevoked]
  · simp [decodeAdmissionFields,Json.string?,decodeAdmissionMap_encodeBlocks hrevoked,decodeAdmissionMap_encodeBlocks hmesh,he]

theorem decodeAdmissionSnapshot_sound {raw : Json} (h : decodeAdmissionSnapshot raw = some f) : f.Sound := by
  have hmap : ∀ {value : Json} {rows : Map String}, decodeAdmissionMap value = some rows → Blocks rows := by
    intro value rows hv
    unfold decodeAdmissionMap at hv
    split at hv
    · exact decodeAdmissionMembers_ok hv blocks_empty
    · cases hv
  -- a version that was seen is the right one
  have hfields : ∀ (l : List (String × Json)) (seen seen' : List String) (f f' : AdmissionRevocationsStateFile),
      decodeAdmissionFields l seen f = some (seen',f') → Blocks f.revoked → Blocks f.meshReceived →
      ("schema_version" ∈ seen → f.schemaVersion = admissionRevocationsStateSchemaVersion) →
      Blocks f'.revoked ∧ Blocks f'.meshReceived ∧
        ("schema_version" ∈ seen' → f'.schemaVersion = admissionRevocationsStateSchemaVersion) := by
    intro l
    induction l with
    | nil =>
      intro seen seen' f f' hl hr hm hv
      obtain ⟨rfl, rfl⟩ := Prod.mk.inj (Option.some.inj hl)
      exact ⟨hr,hm,hv⟩
    | cons e l ih =>
      intro seen seen' f f' hl hr hm hv
      obtain ⟨name, value⟩ := e
      unfold decodeAdmissionFields at hl
      split at hl
      · cases hl
      split at hl
      · split at hl
        · split at hl
          · cases hl
          · next hversion => exact ih _ _ _ _ hl hr hm fun _ => not_not.mp hversion
        · cases hl
      · next hname =>
        have hseen : "schema_version" ∈ name :: seen → f.schemaVersion = admissionRevocationsStateSchemaVersion := by
          intro hmem
          exact hv ((List.mem_cons.mp hmem).resolve_left fun he => hname he.symm)
        split at hl
        · split at hl
          · next rows hrows => exact ih _ _ _ _ hl (hmap hrows) hm hseen
          · cases hl
        split at hl
        · split at hl
          · next rows hrows => exact ih _ _ _ _ hl hr (hmap hrows) hseen
          · cases hl
        · cases hl
  unfold decodeAdmissionSnapshot at h
  split at h
  · split at h
    · next members seen f' hdec =>
      split at h
      · next hseen =>
        obtain rfl := Option.some.inj h
        obtain ⟨hr, hm, hv⟩ := hfields _ _ _ _ _ hdec blocks_empty blocks_empty (by simp)
        rw [Bool.and_eq_true,List.contains_iff_mem] at hseen
        exact ⟨hv hseen.1,hr,hm⟩
      · cases h
    · cases h
  · cases h

/-- Where the snapshot is saved: nowhere, in a file, or in a row that is edited in transactions. -/
inductive Persister where
  | volatile
  | file
  | shared
  deriving DecidableEq

structure AdmissionRevocations where
  revoked : Map String := ∅
  synced : Map String := ∅
  meshInitialPending : Bool := false
  meshReceived : Map String := ∅
  meshPending : Map String := ∅
  originPending : Map String := ∅
  originInitialPending : Bool := false
  persister : Persister := .volatile
  generation : ℕ := 0

/-- A call of a hook, if it is wired: the report to the control plane, the push to the peers, and the closing of live
connections. -/
inductive Notice where
  | reporter (id reason : String)
  | meshReporter (id reason : String)
  | onRevoked (id reason : String)
  deriving DecidableEq

inductive Err where
  | load
  | save
  | invalid
  deriving DecidableEq

structure Outcome (α : Type) where
  store : AdmissionRevocations
  row : Option Json
  notices : List Notice := []
  result : α

def overlay (upper base : Map String) : Map String := upper.toList.foldl (fun m e => m.insert e.1 e.2) base

namespace AdmissionRevocations

variable (a : AdmissionRevocations)

def mergePendingAdmissionBlocks (candidate : AdmissionRevocationsStateFile) : AdmissionRevocationsStateFile :=
  { candidate with
    revoked := overlay a.originPending candidate.revoked
    meshReceived := overlay a.meshPending candidate.meshReceived }

/-- The snapshot a callback starts from.  A missing row is only a first one. -/
def baseline : Option Json → Option AdmissionRevocationsStateFile
  | some raw => decodeAdmissionSnapshot raw
  | none => if a.generation ≠ 0 && !a.originInitialPending && !a.meshInitialPending then none else some emptyState

/-- The callback of a transaction: the change on top of the latest row and of the unconfirmed blocks. -/
def callback (change : AdmissionRevocationsStateFile → AdmissionRevocationsStateFile) (raw : Option Json) :
    Option (Json × AdmissionRevocationsStateFile) :=
  (a.baseline raw).map fun f =>
    let candidate := change (a.mergePendingAdmissionBlocks f)
    (candidate.encode,candidate)

def adopt (candidate : AdmissionRevocationsStateFile) : AdmissionRevocations :=
  { a with
    generation := if a.revoked ≠ candidate.revoked ∨ a.meshReceived ≠ candidate.meshReceived then a.generation + 1
      else a.generation
    revoked := candidate.revoked
    meshReceived := candidate.meshReceived
    originPending := ∅
    originInitialPending := false
    meshInitialPending := false
    meshPending := ∅ }

def saveStateLocked (row : Option Json) (e : Ending) (revoked : Map String) : Option Json × Option Err :=
  if a.persister = .volatile then (row,none)
  else
    let t := transact e row fun _ =>
      some ((AdmissionRevocationsStateFile.mk admissionRevocationsStateSchemaVersion revoked a.meshReceived).encode,())
    (t.row,if t.confirmed then none else some .save)

def revokeContext (row : Option Json) (e : Ending) (identity reason : String) (retrySave : Bool) :
    Outcome (Option Err) :=
  let id := normalizeIdentity identity
  if id = "" then { store := a, row := row, result := none }
  else
    let reason := trimSpace reason
    let changed := a.revoked[id]? ≠ some reason
    let a' := if changed then { a with revoked := a.revoked.insert id reason, generation := a.generation + 1 } else a
    let saved := if changed ∨ retrySave then a'.saveStateLocked row e a'.revoked else (row,none)
    { store := a'
      row := saved.1
      notices := (if changed then [.reporter id reason] else []) ++
        (if changed ∨ (retrySave ∧ saved.2 = none) then [.meshReporter id reason] else []) ++
        (if changed then [.onRevoked id reason] else [])
      result := saved.2 }

def revoke (row : Option Json) (e : Ending) (identity reason : String) : Outcome (Option Err) :=
  a.revokeContext row e identity reason false

def revokeFromMeshLocal (row : Option Json) (e : Ending) (identity reason : String) (retrySave : Bool) :
    Outcome (Bool × Option Err) :=
  let id := normalizeIdentity identity
  if id = "" then { store := a, row := row, result := (false,none) }
  else
    let reason := trimSpace reason
    let changed := a.meshReceived[id]? ≠ some reason
    let a' := if changed then { a with meshReceived := a.meshReceived.insert id reason, generation := a.generation + 1 }
      else a
    let saved := if changed ∨ retrySave then a'.saveStateLocked row e a'.revoked else (row,none)
    { store := a'
      row := saved.1
      notices := if changed then [.onRevoked id reason] else []
      result := (changed,saved.2) }

def revokeFromMesh (row : Option Json) (e : Ending) (identity reason : String) : Outcome (Bool × Option Err) :=
  a.revokeFromMeshLocal row e identity reason false

def restore (row : Option Json) (e : Ending) (identity : String) (retrySave : Bool) : Outcome (Option Err) :=
  let id := normalizeIdentity identity
  if id = "" then { store := a, row := row, result := none }
  else
    let existed := a.revoked.contains id
    if !existed && !retrySave then { store := a, row := row, result := none }
    else
      let candidate := a.revoked.erase id
      let saved := a.saveStateLocked row e candidate
      if saved.2.isSome then { store := a, row := saved.1, result := saved.2 }
      else
        { store := if existed then { a with revoked := candidate, generation := a.generation + 1 } else a
          row := saved.1
          result := none }

def removeDevicesChecked (row : Option Json) (e : Ending) (ids : List String) : Outcome (ℕ × Option Err) :=
  if ids = [] then { store := a, row := row, result := (0,none) }
  else
    let candidate := (ids.map trimSpace).foldl ExtTreeMap.erase a.revoked
    let n := a.revoked.size - candidate.size
    let saved := a.saveStateLocked row e candidate
    if saved.2.isSome then { store := a, row := saved.1, result := (0,saved.2) }
    else
      { store := if n > 0 then { a with revoked := candidate, generation := a.generation + 1 } else a
        row := saved.1
        result := (n,none) }

def change (id reason : String) (revoke : Bool) (f : AdmissionRevocationsStateFile) : AdmissionRevocationsStateFile :=
  { f with revoked := if revoke then f.revoked.insert id reason else f.revoked.erase id }

/-- The store after a revocation that ran and is not confirmed: it is in force here and waits for a later write. -/
def latchOrigin (initial : Bool) (id reason : String) : AdmissionRevocations :=
  let notify := decide (a.revoked[id]? ≠ some reason)
  { a with
    originInitialPending := a.originInitialPending || initial
    revoked := if notify then a.revoked.insert id reason else a.revoked
    generation := if notify then a.generation + 1 else a.generation
    originPending := a.originPending.insert id reason }

/-- `RevokeCheckedContext` and `RestoreCheckedContext`: whether the change is applied here, and the error. -/
def changeAdmissionContext (row : Option Json) (e : Ending) (identity reason : String) (revoke : Bool) :
    Outcome (Bool × Option Err) :=
  let id := normalizeIdentity identity
  let reason := trimSpace reason
  if id = "" then { store := a, row := row, result := (false,none) }
  else if a.persister ≠ .shared then
    if revoke then
      let r := a.revokeContext row e id reason true
      { store := r.store, row := r.row, notices := r.notices, result := (true,r.result) }
    else
      let r := a.restore row e id true
      { store := r.store, row := r.row, notices := r.notices, result := (r.result.isNone,r.result) }
  else
    let t := transact e row (a.callback (change id reason revoke))
    let notify := revoke && t.ran.isSome && a.revoked[id]? ≠ some reason
    let notices := (if notify then [.reporter id reason] else []) ++
      (if notify || (revoke && t.confirmed) then [.meshReporter id reason] else []) ++
      (if notify then [.onRevoked id reason] else [])
    let after : AdmissionRevocations × Bool × Option Err := match t.ran with
      | none => (a,false,some .save)
      | some candidate =>
        if t.confirmed then (a.adopt candidate,true,none)
        else if revoke then (a.latchOrigin row.isNone id reason,true,some .save)
        else (a,false,some .save)
    { store := after.1, row := t.row, notices := notices, result := after.2 }

/-- The store after a received block that ran and is not confirmed. -/
def latchMesh (initial : Bool) (id reason : String) : AdmissionRevocations :=
  let changed := decide (a.meshReceived[id]? ≠ some reason)
  { a with
    meshInitialPending := a.meshInitialPending || initial
    meshReceived := if changed then a.meshReceived.insert id reason else a.meshReceived
    generation := if changed then a.generation + 1 else a.generation
    meshPending := a.meshPending.insert id reason }

def receive (id reason : String) (f : AdmissionRevocationsStateFile) : AdmissionRevocationsStateFile :=
  { f with meshReceived := f.meshReceived.insert id reason }

def receiveMeshContext (row : Option Json) (e : Ending) (identity reason : String) (retry : Bool) :
    Outcome (Bool × Option Err) :=
  let id := normalizeIdentity identity
  let reason := trimSpace reason
  if id = "" then { store := a, row := row, result := (false,none) }
  else if a.persister ≠ .shared then a.revokeFromMeshLocal row e identity reason retry
  else
    let t := transact e row (a.callback (receive id reason))
    let changed := t.ran.isSome && a.meshReceived[id]? ≠ some reason
    let after : AdmissionRevocations × Option Err := match t.ran with
      | none => (a,some .save)
      | some candidate =>
        if t.confirmed then (a.adopt candidate,none) else (a.latchMesh row.isNone id reason,some .save)
    { store := after.1
      row := t.row
      notices := if changed then [.onRevoked id reason] else []
      result := (changed,after.2) }

def removeAll (ids : List String) (f : AdmissionRevocationsStateFile) : AdmissionRevocationsStateFile :=
  { f with revoked := ids.foldl ExtTreeMap.erase f.revoked }

def removeDevicesContext (row : Option Json) (e : Ending) (ids : List String) : Outcome (ℕ × Option Err) :=
  if ids = [] then { store := a, row := row, result := (0,none) }
  else if a.persister ≠ .shared then a.removeDevicesChecked row e ids
  else
    let t := transact e row (a.callback (removeAll (ids.map normalizeIdentity)))
    let before := (a.baseline row).map fun f => (a.mergePendingAdmissionBlocks f).revoked.size
    let after : AdmissionRevocations × ℕ × Option Err := match t.ran with
      | none => (a,0,some .save)
      | some candidate =>
        if t.confirmed then (a.adopt candidate,before.getD 0 - candidate.revoked.size,none) else (a,0,some .save)
    { store := after.1, row := t.row, result := after.2 }

/-- `ReloadFromStore`, with `refresh`, and the load of `SetPersister`; `loads` is false when the load fails. -/
def restoreSnapshot (row : Option Json) (loads refresh : Bool) : AdmissionRevocations × Option Err :=
  if a.persister = .volatile then (a,none)
  else if !loads then (a,some .load)
  else match row with
    | none => if refresh && a.generation ≠ 0 then (a,some .load) else (a,none)
    | some raw =>
      match decodeAdmissionSnapshot raw with
      | none => (a,some .invalid)
      | some f =>
        let f := a.mergePendingAdmissionBlocks f
        ({ a with
            generation := if a.revoked ≠ f.revoked ∨ a.meshReceived ≠ f.meshReceived then a.generation + 1
              else a.generation
            revoked := f.revoked
            meshReceived := f.meshReceived },none)

/-- `ReplaceSynced`: the layer that the control plane distributes, and the identities that become revoked by it. -/
def replaceSynced (synced : Map String) : AdmissionRevocations × List Notice :=
  let fresh := synced.toList.foldl (fun fresh e =>
    if normalizeIdentity e.1 ≠ "" then fresh.insert (normalizeIdentity e.1) (trimSpace e.2) else fresh) (∅ : Map String)
  let newly := fresh.toList.filter fun e =>
    !(a.synced.contains e.1 || a.revoked.contains e.1 || a.meshReceived.contains e.1)
  ({ a with synced := fresh },newly.map fun e => .onRevoked e.1 e.2)

/-- `IsRevoked`: the reason of the first layer that denies. -/
def isRevoked (identity : String) : Option String :=
  let id := normalizeIdentity identity
  (a.revoked[id]?.or a.synced[id]?).or a.meshReceived[id]?

end AdmissionRevocations

end DsseCore.Revocation

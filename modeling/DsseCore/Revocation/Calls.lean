import DsseCore.Revocation.KillSwitch

/-!
# What calls leave on a node

An Edge skips a feed whose generation it has: every call that changes the blocks of a node counts the generation up,
whatever becomes of its save.  The removal of devices compares identities in two ways, and leaves the blocks of peers.
-/

namespace DsseCore.Revocation

open Go Lib AdmissionRevocations
open Std (ExtTreeMap)

namespace AdmissionRevocations

variable (a : AdmissionRevocations)

/-- `FeedSnapshot`: the blocks of this origin, and those of the peers for other identities. -/
def feedSnapshot : Map String := overlay a.revoked a.meshReceived

def configGeneration : ℕ := a.generation % 2 ^ 64

/-- A call, with any stored row and any end of its save. -/
inductive Calls : AdmissionRevocations → Prop
  | revoke (row e identity reason retry) : Calls (a.revokeContext row e identity reason retry).store
  | revokeFromMesh (row e identity reason retry) : Calls (a.revokeFromMeshLocal row e identity reason retry).store
  | restore (row e identity retry) : Calls (a.restore row e identity retry).store
  | removeChecked (row e ids) : Calls (a.removeDevicesChecked row e ids).store
  | change (row e identity reason block) : Calls (a.changeAdmissionContext row e identity reason block).store
  | receiveMesh (row e identity reason retry) : Calls (a.receiveMeshContext row e identity reason retry).store
  | remove (row e ids) : Calls (a.removeDevicesContext row e ids).store
  | load (persister row loads refresh) : Calls (restoreSnapshot { a with persister := persister } row loads refresh).1
  | replaceSynced (synced) : Calls (a.replaceSynced synced).1

end AdmissionRevocations

variable {a b : AdmissionRevocations}

/-- The blocks are as they were, or the generation is the next. -/
def Bumps (a b : AdmissionRevocations) : Prop :=
  b.revoked = a.revoked ∧ b.meshReceived = a.meshReceived ∧ b.generation = a.generation ∨ b.generation = a.generation + 1

theorem Bumps.refl (a : AdmissionRevocations) : Bumps a a := .inl ⟨rfl,rfl,rfl⟩

theorem bumps_blocks {revoked mesh : Map String} (hr : b.revoked = revoked) (hm : b.meshReceived = mesh)
    (hg : b.generation = if a.revoked ≠ revoked ∨ a.meshReceived ≠ mesh then a.generation + 1 else a.generation) :
    Bumps a b := by
  split at hg
  · exact .inr hg
  rename_i h
  rw [not_or,not_not,not_not] at h
  exact .inl ⟨hr.trans h.1.symm,hm.trans h.2.symm,hg⟩

section Calls

variable (a : AdmissionRevocations) (row : Option Json) (e : Ending) (identity reason : String) (retry : Bool)

theorem bumps_revokeContext : Bumps a (a.revokeContext row e identity reason retry).store := by
  unfold revokeContext
  dsimp only
  repeat' split
  all_goals first | exact .refl a | exact .inr rfl

theorem bumps_revokeFromMeshLocal : Bumps a (a.revokeFromMeshLocal row e identity reason retry).store := by
  unfold revokeFromMeshLocal
  dsimp only
  repeat' split
  all_goals first | exact .refl a | exact .inr rfl

theorem bumps_restore : Bumps a (a.restore row e identity retry).store := by
  unfold restore
  dsimp only
  repeat' split
  all_goals first | exact .refl a | exact .inr rfl

theorem bumps_removeDevicesChecked (ids : List String) : Bumps a (a.removeDevicesChecked row e ids).store := by
  unfold removeDevicesChecked
  dsimp only
  repeat' split
  all_goals first | exact .refl a | exact .inr rfl

theorem bumps_changeAdmissionContext : Bumps a (a.changeAdmissionContext row e identity reason retry).store := by
  unfold changeAdmissionContext
  dsimp only
  split
  · exact .refl a
  split
  · split
    · dsimp only
      exact bumps_revokeContext a row e _ _ true
    · dsimp only
      exact bumps_restore a row e _ true
  · dsimp only
    split
    · exact .refl a
    split
    · exact bumps_blocks rfl rfl rfl
    split
    · unfold latchOrigin
      dsimp only
      split
      · exact .inr rfl
      · exact .inl ⟨rfl,rfl,rfl⟩
    · exact .refl a

theorem bumps_receiveMeshContext : Bumps a (a.receiveMeshContext row e identity reason retry).store := by
  unfold receiveMeshContext
  dsimp only
  split
  · exact .refl a
  split
  · exact bumps_revokeFromMeshLocal a row e _ _ retry
  split
  · exact .refl a
  split
  · exact bumps_blocks rfl rfl rfl
  unfold latchMesh
  dsimp only
  split
  · exact .inr rfl
  · exact .inl ⟨rfl,rfl,rfl⟩

theorem bumps_removeDevicesContext (ids : List String) : Bumps a (a.removeDevicesContext row e ids).store := by
  unfold removeDevicesContext
  dsimp only
  split
  · exact .refl a
  split
  · exact bumps_removeDevicesChecked a row e ids
  split
  · exact .refl a
  split
  · exact bumps_blocks rfl rfl rfl
  · exact .refl a

theorem bumps_restoreSnapshot (loads : Bool) : Bumps a (a.restoreSnapshot row loads retry).1 := by
  unfold restoreSnapshot
  split
  · exact .refl a
  split
  · exact .refl a
  split
  · split <;> exact .refl a
  split
  · exact .refl a
  · exact bumps_blocks rfl rfl rfl

end Calls

theorem AdmissionRevocations.Calls.bumps (h : a.Calls b) : Bumps a b := by
  cases h with
  | revoke row e identity reason retry => exact bumps_revokeContext a row e identity reason retry
  | revokeFromMesh row e identity reason retry => exact bumps_revokeFromMeshLocal a row e identity reason retry
  | restore row e identity retry => exact bumps_restore a row e identity retry
  | removeChecked row e ids => exact bumps_removeDevicesChecked a row e ids
  | change row e identity reason block => exact bumps_changeAdmissionContext a row e identity reason block
  | receiveMesh row e identity reason retry => exact bumps_receiveMeshContext a row e identity reason retry
  | remove row e ids => exact bumps_removeDevicesContext a row e ids
  | load persister row loads refresh => exact bumps_restoreSnapshot { a with persister := persister } row refresh loads
  | replaceSynced synced => exact .inl ⟨rfl,rfl,rfl⟩

section Removal

variable {row : Option Json} {ids : List String}

namespace AdmissionRevocations

def countDevices (a : AdmissionRevocations) (ids : List String) : ℕ :=
  ids.countP fun id => a.revoked.contains (trimSpace id)

/-- The node after the removal of devices succeeded, with a file and with a shared row. -/
def removedChecked (a : AdmissionRevocations) (row : Option Json) (ids : List String) : AdmissionRevocations :=
  (removeDevicesChecked { a with persister := .file } row .committed ids).store

def removedContext (a : AdmissionRevocations) (row : Option Json) (ids : List String) : AdmissionRevocations :=
  (removeDevicesContext { a with persister := .shared } row .committed ids).store

/-- The node shows what is saved and what is unconfirmed. -/
def InSync (a : AdmissionRevocations) (row : Option Json) : Prop :=
  ∃ f, a.baseline row = some f ∧ a.revoked = overlay a.originPending f.revoked ∧
    a.meshReceived = overlay a.meshPending f.meshReceived

/-- Nothing of the devices is left in the blocks of this origin and of the peers. -/
def Erased (a : AdmissionRevocations) (ids : List String) : Prop :=
  a.countDevices ids = 0 ∧ ∀ id ∈ ids, a.revoked[normalizeIdentity id]? = none ∧ a.meshReceived[normalizeIdentity id]? = none

end AdmissionRevocations

theorem getElem?_eraseAll (ids : List String) (m : Map String) (k : String) :
    (ids.foldl ExtTreeMap.erase m)[k]? = if k ∈ ids then none else m[k]? := by
  induction ids generalizing m with
  | nil => simp
  | cons id ids ih =>
    rw [List.foldl_cons,ih,Map.getElem?_erase_eq]
    by_cases hk : k ∈ ids
    · simp [hk]
    · simp [hk,eq_comm]

theorem eraseAll_size (ids : List String) (m : Map String) :
    ids.foldl ExtTreeMap.erase m = m ∨ (ids.foldl ExtTreeMap.erase m).size < m.size := by
  induction ids generalizing m with
  | nil => exact .inl rfl
  | cons id ids ih =>
    rw [List.foldl_cons]
    by_cases hid : id ∈ m
    · have hsize : (m.erase id).size < m.size := by
        have hpos : m.size ≠ 0 := fun h => ExtTreeMap.not_mem_empty (ExtTreeMap.eq_empty_iff_size_eq_zero.mpr h ▸ hid)
        rw [ExtTreeMap.size_erase,if_pos (ExtTreeMap.mem_iff_contains.mp hid)]
        omega
      rcases ih (m.erase id) with h | h
      · rw [h]
        exact .inr hsize
      · exact .inr (h.trans hsize)
    · have hsame : m.erase id = m := by
        refine ExtTreeMap.ext_getElem? fun k => ?_
        rw [Map.getElem?_erase_eq]
        split
        · rename_i hk
          rw [← hk,ExtTreeMap.getElem?_eq_none hid]
        · rfl
      rw [hsame]
      exact ih m

theorem removedChecked_blocks : (a.removedChecked row ids).revoked = (ids.map trimSpace).foldl ExtTreeMap.erase a.revoked ∧
    (a.removedChecked row ids).meshReceived = a.meshReceived := by
  unfold removedChecked removeDevicesChecked
  dsimp only
  split
  · rename_i h
    subst h
    exact ⟨rfl,rfl⟩
  rw [if_neg (by simp [saveStateLocked,transact])]
  split
  · exact ⟨rfl,rfl⟩
  refine ⟨?_,rfl⟩
  rcases eraseAll_size (ids.map trimSpace) a.revoked with h | h
  · exact h.symm
  · omega

theorem removedContext_blocks (h : a.InSync row) :
    (a.removedContext row ids).revoked = (ids.map normalizeIdentity).foldl ExtTreeMap.erase a.revoked ∧
    (a.removedContext row ids).meshReceived = a.meshReceived := by
  obtain ⟨f, hf, hrevoked, hmesh⟩ := h
  unfold removedContext removeDevicesContext
  split
  · rename_i h
    subst h
    exact ⟨rfl,rfl⟩
  have hcall : callback { a with persister := .shared }
      (removeAll (ids.map normalizeIdentity)) row =
        some (_,removeAll (ids.map normalizeIdentity) (a.mergePendingAdmissionBlocks f)) :=
    congrArg (Option.map _) hf
  simp only [transact,hcall]
  exact ⟨congrArg (List.foldl ExtTreeMap.erase · (ids.map normalizeIdentity)) hrevoked.symm,hmesh.symm⟩

end Removal

end DsseCore.Revocation

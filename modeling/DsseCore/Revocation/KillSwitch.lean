import DsseCore.Lib.Run
import DsseCore.Revocation.Admission

/-!
# Kill switches stay pressed

A block is shown by the store, and it is kept by the shared row or among the unconfirmed blocks.  Every change through a
transaction starts from the latest row and the unconfirmed blocks, so it carries such a block on.  An automatic
revocation is shown before it is saved and is not kept as unconfirmed when the save fails.
-/

namespace DsseCore.Revocation

open Go Lib List AdmissionRevocations AdmissionRevocationsStateFile Option
open Std (ExtTreeMap)

/-- The two layers that are saved: blocks of this origin, and blocks that peers sent. -/
inductive Layer where
  | origin
  | mesh
  deriving DecidableEq

def AdmissionRevocationsStateFile.layer (f : AdmissionRevocationsStateFile) : Layer → Map String
  | .origin => f.revoked
  | .mesh => f.meshReceived

namespace AdmissionRevocations

def live (a : AdmissionRevocations) : Layer → Map String
  | .origin => a.revoked
  | .mesh => a.meshReceived

def pending (a : AdmissionRevocations) : Layer → Map String
  | .origin => a.originPending
  | .mesh => a.meshPending

end AdmissionRevocations

def Has (m : Map String) (id : String) : Prop := ∃ reason, m[id]? = some reason

section Maps

variable {m upper base : Map String} {id id' : String} {ids : List String}

theorem has_insert_self (m : Map String) (id reason : String) : Has (m.insert id reason) id :=
  ⟨reason,by rw [Map.getElem?_insert_eq,if_pos rfl]⟩

theorem Has.insert (h : Has m id) (id' reason : String) : Has (m.insert id' reason) id := by
  obtain ⟨r, hr⟩ := h
  by_cases he : id' = id
  · exact he ▸ has_insert_self m id' reason
  · exact ⟨r,by rw [Map.getElem?_insert_eq,if_neg he,hr]⟩

theorem Has.of_insert {reason : String} (h : Has (m.insert id' reason) id) : id' = id ∨ Has m id := by
  obtain ⟨r, hr⟩ := h
  rw [Map.getElem?_insert_eq] at hr
  split at hr
  · next he => exact .inl he
  · exact .inr ⟨r,hr⟩

theorem Has.erase (h : Has m id) (hne : id' ≠ id) : Has (m.erase id') id := by
  obtain ⟨r, hr⟩ := h
  exact ⟨r,by rw [Map.getElem?_erase_eq,if_neg hne,hr]⟩

theorem Has.eraseAll (hne : id ∉ ids) (h : Has m id) : Has (ids.foldl ExtTreeMap.erase m) id :=
  foldlRecOn (motive := (Has · id)) ids _ h fun _ hm id' hmem => hm.erase fun heq : id' = id => hne (heq ▸ hmem)

theorem getElem?_overlay (upper base : Map String) (k : String) : (overlay upper base)[k]? = upper[k]?.or base[k]? := by
  unfold overlay
  rw [Map.foldl_toList_obs (fun m k => m[k]?) (fun (m : Map String) (e : String × String) => m.insert e.1 e.2)
    (fun _ r _ => some r) upper]
  · cases upper[k]? <;> rfl
  · intro m a b _ k
    rw [Map.getElem?_insert_eq]

theorem has_overlay (h : Has upper id ∨ Has base id) : Has (overlay upper base) id := by
  unfold Has
  rw [getElem?_overlay]
  rcases h with ⟨r, hr⟩ | ⟨r, hr⟩
  · exact ⟨r,by rw [hr,some_or]⟩
  cases hu : upper[id]? with
  | none => exact ⟨r,by rw [none_or,hr]⟩
  | some r' => exact ⟨r',rfl⟩

theorem Blocks.overlay (hu : Blocks upper) (hb : Blocks base) : Blocks (overlay upper base) := by
  intro id r hr
  rw [getElem?_overlay,or_eq_some_iff] at hr
  rcases hr with hr | ⟨-, hr⟩
  · exact hu id r hr
  · exact hb id r hr

theorem Blocks.eraseAll (h : Blocks m) (ids : List String) : Blocks (ids.foldl ExtTreeMap.erase m) :=
  foldlRecOn ids _ h fun _ hm id _ => hm.erase id

end Maps

section Operations

variable {a a' : AdmissionRevocations} {row row' : Option Json} {ℓ ℓ' : Layer} {id id' identity reason : String} {next : Json}
  {c f : AdmissionRevocationsStateFile}

def Saved (row : Option Json) (ℓ : Layer) (id : String) : Prop :=
  ∃ raw f, row = some raw ∧ decodeAdmissionSnapshot raw = some f ∧ Has (f.layer ℓ) id

def Durable (a : AdmissionRevocations) (row : Option Json) (ℓ : Layer) (id : String) : Prop :=
  Saved row ℓ id ∨ Has (a.pending ℓ) id

structure Sound (a : AdmissionRevocations) : Prop where
  live : ∀ ℓ, Blocks (a.live ℓ)
  pending : ∀ ℓ, Blocks (a.pending ℓ)

theorem saved_encode (hf : f.Sound) (h : Has (f.layer ℓ) id) : Saved (some f.encode) ℓ id :=
  ⟨f.encode,f,rfl,decodeAdmissionSnapshot_encode hf,h⟩

theorem layer_mergePending (a : AdmissionRevocations) (f : AdmissionRevocationsStateFile) (ℓ : Layer) :
    (a.mergePendingAdmissionBlocks f).layer ℓ = overlay (a.pending ℓ) (f.layer ℓ) := by
  cases ℓ <;> rfl

theorem mergePending_sound (ha : Sound a) (hf : f.Sound) : (a.mergePendingAdmissionBlocks f).Sound :=
  ⟨hf.schemaVersion,(ha.pending .origin).overlay hf.revoked,(ha.pending .mesh).overlay hf.meshReceived⟩

def SoundChange (change : AdmissionRevocationsStateFile → AdmissionRevocationsStateFile) : Prop :=
  ∀ f, f.Sound → (change f).Sound

def KeepsBlock (change : AdmissionRevocationsStateFile → AdmissionRevocationsStateFile) (ℓ : Layer) (id : String) : Prop :=
  ∀ f, Has (f.layer ℓ) id → Has ((change f).layer ℓ) id

section Changes

variable {change : AdmissionRevocationsStateFile → AdmissionRevocationsStateFile}

theorem baseline_sound (h : a.baseline row = some f) : f.Sound := by
  unfold baseline at h
  split at h
  · exact decodeAdmissionSnapshot_sound h
  split at h
  · cases h
  · exact some.inj h ▸ emptyState_sound

theorem callback_spec (ha : Sound a) (hchange : SoundChange change) (h : a.callback change row = some (next,c)) :
    next = c.encode ∧ c.Sound ∧
      ∀ ℓ id, KeepsBlock change ℓ id → Durable a row ℓ id → Has (c.layer ℓ) id := by
  unfold callback at h
  rw [map_eq_some_iff] at h
  obtain ⟨f, hf, heq⟩ := h
  obtain ⟨rfl, rfl⟩ := Prod.mk.inj heq
  have hsound := mergePending_sound ha (baseline_sound hf)
  refine ⟨rfl,hchange _ hsound,fun ℓ id hkeeps hdurable => hkeeps _ ?_⟩
  rw [layer_mergePending]
  refine has_overlay (hdurable.symm.imp_right ?_)
  rintro ⟨raw, f', rfl, hdec, hhas⟩
  obtain rfl := some.inj (hdec.symm.trans hf)
  exact hhas

/-- A store on a shared row, in which every block that is shown in the layer is durable. -/
structure Backed (a : AdmissionRevocations) (row : Option Json) (ℓ : Layer) (id : String) : Prop where
  sound : Sound a
  shared : a.persister = .shared
  durable : Has (a.live ℓ) id → Durable a row ℓ id

theorem live_adopt (a : AdmissionRevocations) (c : AdmissionRevocationsStateFile) (ℓ : Layer) :
    (a.adopt c).live ℓ = c.layer ℓ := by
  cases ℓ <;> rfl

theorem backed_adopt (hshared : a.persister = .shared) (hc : c.Sound) (ℓ : Layer) (id : String) :
    Backed (a.adopt c) (some c.encode) ℓ id := by
  have hblocks : ∀ ℓ, Blocks (c.layer ℓ) := by
    intro ℓ
    cases ℓ
    · exact hc.revoked
    · exact hc.meshReceived
  refine ⟨⟨fun ℓ => live_adopt a c ℓ ▸ hblocks ℓ,fun ℓ => ?_⟩,hshared,fun h => .inl (saved_encode hc (live_adopt a c ℓ ▸ h))⟩
  cases ℓ <;> exact blocks_empty

/-- What a step does to a block: it stays backed, and shown unless the step lifts it. -/
structure Carries (a : AdmissionRevocations) (row : Option Json) (a' : AdmissionRevocations) (row' : Option Json) (ℓ : Layer)
    (id : String) (lifts : Prop) : Prop where
  backed : Backed a' row' ℓ id
  live : Has (a.live ℓ) id → ¬ lifts → Has (a'.live ℓ) id

variable {lifts : Prop}

theorem Carries.refl (h : Backed a row ℓ id) : Carries a row a row ℓ id lifts := ⟨h,fun hlive _ => hlive⟩

theorem Backed.transacted (h : Backed a row ℓ id) (hrow : Durable a row ℓ id → Durable a row' ℓ id) :
    Carries a row a row' ℓ id lifts :=
  ⟨⟨h.sound,h.shared,fun hlive => hrow (h.durable hlive)⟩,fun hlive _ => hlive⟩

theorem Backed.committed (h : Backed a row ℓ id) (hchange : SoundChange change)
    (hcall : a.callback change row = some (next,c)) (hkeeps : ¬ lifts → KeepsBlock change ℓ id) :
    Carries a row (a.adopt c) (some next) ℓ id lifts := by
  obtain ⟨rfl, hc, hhas⟩ := callback_spec h.sound hchange hcall
  refine ⟨backed_adopt h.shared hc ℓ id,fun hlive hl => ?_⟩
  exact hhas ℓ id (hkeeps hl) (h.durable hlive)

theorem Durable.landed (hdurable : Durable a row ℓ id) (hsound : Sound a) (hchange : SoundChange change)
    (hcall : a.callback change row = some (next,c)) {e : Ending}
    (hrow : row' = row ∧ ¬ e.Lands ∨ row' = some next ∧ e.Lands) (hkeeps : e.Lands → KeepsBlock change ℓ id) :
    Durable a row' ℓ id := by
  rcases hrow with ⟨rfl, -⟩ | ⟨rfl, hl⟩
  · exact hdurable
  · obtain ⟨rfl, hc, hhas⟩ := callback_spec hsound hchange hcall
    exact .inl (saved_encode hc (hhas ℓ id (hkeeps hl) hdurable))

theorem callback_has (h : a.callback change row = some (next,c)) (hhas : ∀ f, Has ((change f).layer ℓ) id) :
    Has (c.layer ℓ) id := by
  unfold callback at h
  rw [map_eq_some_iff] at h
  obtain ⟨f, -, heq⟩ := h
  obtain ⟨-, rfl⟩ := Prod.mk.inj heq
  exact hhas _

theorem save_durable (hsound : Sound a) (hshared : a.persister = .shared) (e : Ending) (row : Option Json)
    (hlive : Has (a.live ℓ) id) (h : e.Lands ∨ Durable a row ℓ id) :
    Durable a (a.saveStateLocked row e a.revoked).1 ℓ id := by
  obtain ⟨f, hf⟩ : ∃ f, f = mk admissionRevocationsStateSchemaVersion a.revoked a.meshReceived := ⟨_,rfl⟩
  have hsaved : Saved (some f.encode) ℓ id := by
    subst hf
    refine saved_encode ⟨rfl,hsound.live .origin,hsound.live .mesh⟩ ?_
    cases ℓ <;> exact hlive
  unfold saveStateLocked
  rw [if_neg (by rw [hshared]; exact nofun),← hf]
  generalize f.encode = raw at hsaved ⊢
  have ht := transact_spec e row fun _ : Option Json => some (raw,())
  generalize transact e row (fun _ : Option Json => some (raw,())) = t at ht ⊢
  cases ht with
  | stopped hstop =>
    refine h.resolve_left fun hl => ?_
    rcases hstop with rfl | hnone
    · exact hl
    · cases hnone
  | failed hedit hrow _ =>
    obtain ⟨rfl, -⟩ := Prod.mk.inj (some.inj hedit)
    rcases hrow with ⟨rfl, hl⟩ | ⟨rfl, -⟩
    · exact h.resolve_left hl
    · exact .inl hsaved
  | committed hedit he =>
    obtain ⟨rfl, -⟩ := Prod.mk.inj (some.inj hedit)
    exact .inl hsaved

end Changes

theorem soundChange_change (hid : normalizeIdentity identity ≠ "") (revoke : Bool) :
    SoundChange (change (normalizeIdentity identity) (trimSpace reason) revoke) := by
  intro f hf
  refine ⟨hf.schemaVersion,?_,hf.meshReceived⟩
  cases revoke with
  | true => exact hf.revoked.insert hid
  | false => exact hf.revoked.erase _

theorem keepsBlock_revoke (id' reason : String) (ℓ : Layer) (id : String) :
    KeepsBlock (change id' reason true) ℓ id := by
  intro f h
  cases ℓ with
  | origin => exact h.insert id' reason
  | mesh => exact h

theorem keepsBlock_restore (reason : String) (h : ¬ (ℓ = .origin ∧ id' = id)) :
    KeepsBlock (change id' reason false) ℓ id := by
  intro f hhas
  cases ℓ with
  | origin => exact hhas.erase fun he => h ⟨rfl,he⟩
  | mesh => exact hhas

theorem keepsBlock_mesh (id' reason : String) (ℓ : Layer) (id : String) :
    KeepsBlock (receive id' reason) ℓ id := by
  intro f h
  cases ℓ with
  | origin => exact h
  | mesh => exact h.insert id' reason

theorem keepsBlock_remove {ids : List String} (h : ¬ (ℓ = .origin ∧ id ∈ ids)) :
    KeepsBlock (removeAll ids) ℓ id := by
  intro f hhas
  cases ℓ with
  | origin => exact hhas.eraseAll fun he => h ⟨rfl,he⟩
  | mesh => exact hhas

/-- A store that took a block of a layer in as unconfirmed. -/
structure Latched (a a' : AdmissionRevocations) (ℓ' : Layer) (id' reason : String) : Prop where
  shared : a'.persister = a.persister
  pending : a'.pending ℓ' = (a.pending ℓ').insert id' reason
  pending_ne : ∀ ℓ, ℓ ≠ ℓ' → a'.pending ℓ = a.pending ℓ
  live : a'.live ℓ' = (a.live ℓ').insert id' reason ∨ a'.live ℓ' = a.live ℓ' ∧ Has (a.live ℓ') id'
  live_ne : ∀ ℓ, ℓ ≠ ℓ' → a'.live ℓ = a.live ℓ

theorem Layer.eq_mesh (h : ℓ ≠ .origin) : ℓ = .mesh := by
  cases ℓ with
  | origin => exact absurd rfl h
  | mesh => rfl

theorem Layer.eq_origin (h : ℓ ≠ .mesh) : ℓ = .origin := by
  cases ℓ with
  | origin => rfl
  | mesh => exact absurd rfl h

theorem Latched.has_live (h : Latched a a' ℓ' id' reason) : Has (a'.live ℓ') id' := by
  rcases h.live with heq | ⟨heq, hhas⟩
  · rw [heq]
    exact has_insert_self _ _ _
  · rw [heq]
    exact hhas

theorem Backed.latched (h : Backed a row ℓ id) (hid : normalizeIdentity identity ≠ "")
    (hl : Latched a a' ℓ' (normalizeIdentity identity) (trimSpace reason))
    (hrow : Durable a row ℓ id → Durable a row' ℓ id) : Carries a row a' row' ℓ id lifts := by
  have hsound : Sound a' := by
    constructor
    · intro ℓ
      by_cases he : ℓ = ℓ'
      · subst he
        rcases hl.live with heq | ⟨heq, -⟩
        · rw [heq]
          exact (h.sound.live ℓ).insert hid
        · rw [heq]
          exact h.sound.live ℓ
      · rw [hl.live_ne ℓ he]
        exact h.sound.live ℓ
    · intro ℓ
      by_cases he : ℓ = ℓ'
      · subst he
        rw [hl.pending]
        exact (h.sound.pending ℓ).insert hid
      · rw [hl.pending_ne ℓ he]
        exact h.sound.pending ℓ
  -- what was durable stays durable, and the new block is pending
  have hkeep : Durable a row ℓ id → Durable a' row' ℓ id := by
    intro hd
    refine (hrow hd).imp_right fun hp => ?_
    by_cases he : ℓ = ℓ'
    · subst he
      rw [hl.pending]
      exact hp.insert _ _
    · rw [hl.pending_ne ℓ he]
      exact hp
  refine ⟨⟨hsound,hl.shared.trans h.shared,fun hlive => ?_⟩,fun hlive _ => ?_⟩
  · by_cases he : ℓ = ℓ'
    · subst he
      have hcases : normalizeIdentity identity = id ∨ Has (a.live ℓ) id := by
        rcases hl.live with heq | ⟨heq, -⟩
        · exact (heq ▸ hlive).of_insert
        · exact .inr (heq ▸ hlive)
      rcases hcases with rfl | hlive
      · refine .inr ?_
        rw [hl.pending]
        exact has_insert_self _ _ _
      · exact hkeep (h.durable hlive)
    · exact hkeep (h.durable (hl.live_ne ℓ he ▸ hlive))
  · by_cases he : ℓ = ℓ'
    · subst he
      rcases hl.live with heq | ⟨heq, -⟩
      · rw [heq]
        exact hlive.insert _ _
      · rw [heq]
        exact hlive
    · rw [hl.live_ne ℓ he]
      exact hlive

theorem latched_origin (a : AdmissionRevocations) (initial : Bool) (id reason : String) :
    Latched a (a.latchOrigin initial id reason) .origin id reason := by
  refine ⟨rfl,rfl,fun ℓ hne => by rw [Layer.eq_mesh hne]; rfl,?_,fun ℓ hne => by rw [Layer.eq_mesh hne]; rfl⟩
  by_cases hsame : a.revoked[id]? = some reason
  · exact .inr ⟨by simp [live,latchOrigin,hsame],_,hsame⟩
  · exact .inl (by simp [live,latchOrigin,hsame])

theorem latched_mesh (a : AdmissionRevocations) (initial : Bool) (id reason : String) :
    Latched a (a.latchMesh initial id reason) .mesh id reason := by
  refine ⟨rfl,rfl,fun ℓ hne => by rw [Layer.eq_origin hne]; rfl,?_,fun ℓ hne => by rw [Layer.eq_origin hne]; rfl⟩
  by_cases hsame : a.meshReceived[id]? = some reason
  · exact .inr ⟨by simp [live,latchMesh,hsame],_,hsame⟩
  · exact .inl (by simp [live,latchMesh,hsame])

section

variable (h : Backed a row ℓ id)
include h

theorem changeAdmissionContext_carries (e : Ending) (identity reason : String) (revoke : Bool)
    (hrestore : revoke = false → ℓ = .origin → normalizeIdentity identity = id → e ≠ .unconfirmed) :
    Carries a row (a.changeAdmissionContext row e identity reason revoke).store
      (a.changeAdmissionContext row e identity reason revoke).row ℓ id
      (revoke = false ∧ ℓ = .origin ∧ normalizeIdentity identity = id ∧
        (a.changeAdmissionContext row e identity reason revoke).result.2 = none) ∧
    (revoke = true → (a.changeAdmissionContext row e identity reason revoke).result.1 = true →
      Has ((a.changeAdmissionContext row e identity reason revoke).store.live .origin) (normalizeIdentity identity)) := by
  unfold changeAdmissionContext
  dsimp only
  split
  · exact ⟨.refl h,nofun⟩
  rename_i hid
  rw [if_neg (not_not.mpr h.shared)]
  have hsound : SoundChange (change (normalizeIdentity identity) (trimSpace reason) revoke) :=
    soundChange_change hid revoke
  have ht := transact_spec e row (a.callback (change (normalizeIdentity identity) (trimSpace reason) revoke))
  generalize transact e row (a.callback (change (normalizeIdentity identity) (trimSpace reason) revoke)) =
    t at ht ⊢
  cases ht with
  | stopped _ => exact ⟨.refl h,nofun⟩
  | @failed next c row' hcall hrow he =>
    cases revoke with
    | true =>
      have hl := latched_origin a row.isNone (normalizeIdentity identity) (trimSpace reason)
      refine ⟨h.latched hid hl fun hd => ?_,fun _ _ => hl.has_live⟩
      exact hd.landed h.sound hsound hcall hrow fun _ => keepsBlock_revoke _ _ ℓ id
    | false =>
      refine ⟨h.transacted fun hd => ?_,nofun⟩
      refine hd.landed h.sound hsound hcall hrow fun hlands => keepsBlock_restore _ ?_
      rintro ⟨horigin, hsame⟩
      exact hrestore rfl horigin hsame (he hlands)
  | @committed next c hcall he =>
    dsimp only
    rw [if_pos rfl]
    constructor
    · refine h.committed hsound hcall fun hl => ?_
      cases revoke with
      | true => exact keepsBlock_revoke _ _ ℓ id
      | false => exact keepsBlock_restore _ fun hsame => hl ⟨rfl,hsame.1,hsame.2,rfl⟩
    · rintro rfl -
      rw [live_adopt]
      exact callback_has hcall fun f => has_insert_self _ _ _

theorem receiveMeshContext_carries (e : Ending) (identity reason : String) (retry : Bool) :
    Carries a row (a.receiveMeshContext row e identity reason retry).store
      (a.receiveMeshContext row e identity reason retry).row ℓ id False ∧
    (normalizeIdentity identity ≠ "" → (a.receiveMeshContext row e identity reason retry).result.1 = true ∨
      (a.receiveMeshContext row e identity reason retry).result.2 = none →
      Has ((a.receiveMeshContext row e identity reason retry).store.live .mesh) (normalizeIdentity identity)) := by
  unfold receiveMeshContext
  dsimp only
  split
  · next hid => exact ⟨.refl h,fun hne => absurd hid hne⟩
  rename_i hid
  rw [if_neg (not_not.mpr h.shared)]
  have hsound : SoundChange (receive (normalizeIdentity identity) (trimSpace reason)) :=
    fun _ hf => ⟨hf.schemaVersion,hf.revoked,hf.meshReceived.insert hid⟩
  have ht := transact_spec e row (a.callback (receive (normalizeIdentity identity) (trimSpace reason)))
  generalize transact e row (a.callback (receive (normalizeIdentity identity) (trimSpace reason))) =
    t at ht ⊢
  cases ht with
  | stopped _ => exact ⟨.refl h,fun _ hor => by simp at hor⟩
  | @failed next c row' hcall hrow he =>
    have hl := latched_mesh a row.isNone (normalizeIdentity identity) (trimSpace reason)
    refine ⟨h.latched hid hl fun hd => ?_,fun _ _ => hl.has_live⟩
    exact hd.landed h.sound hsound hcall hrow fun _ => keepsBlock_mesh _ _ ℓ id
  | @committed next c hcall he =>
    dsimp only
    rw [if_pos rfl]
    refine ⟨h.committed hsound hcall fun _ => keepsBlock_mesh _ _ ℓ id,fun _ _ => ?_⟩
    rw [live_adopt]
    exact callback_has hcall fun f => has_insert_self _ _ _

theorem removeDevicesContext_carries (e : Ending) (ids : List String)
    (hremove : ℓ = .origin → id ∈ ids.map normalizeIdentity → e ≠ .unconfirmed) :
    Carries a row (a.removeDevicesContext row e ids).store (a.removeDevicesContext row e ids).row ℓ id
      (ℓ = .origin ∧ id ∈ ids.map normalizeIdentity ∧ (a.removeDevicesContext row e ids).result.2 = none) := by
  unfold removeDevicesContext
  split
  · exact .refl h
  rw [if_neg (not_not.mpr h.shared)]
  have hsound : SoundChange (removeAll (ids.map normalizeIdentity)) :=
    fun _ hf => ⟨hf.schemaVersion,hf.revoked.eraseAll _,hf.meshReceived⟩
  have ht := transact_spec e row (a.callback (removeAll (ids.map normalizeIdentity)))
  generalize transact e row (a.callback (removeAll (ids.map normalizeIdentity))) = t at ht ⊢
  cases ht with
  | stopped _ => exact .refl h
  | @failed next c row' hcall hrow he =>
    refine h.transacted fun hd => hd.landed h.sound hsound hcall hrow fun hlands => keepsBlock_remove ?_
    rintro ⟨horigin, hmem⟩
    exact hremove horigin hmem (he hlands)
  | @committed next c hcall he =>
    exact h.committed hsound hcall fun hl => keepsBlock_remove fun hsame => hl ⟨hsame.1,hsame.2,rfl⟩

theorem restoreSnapshot_carries (loads refresh : Bool) :
    Carries a row (a.restoreSnapshot row loads refresh).1 row ℓ id False := by
  unfold restoreSnapshot
  split
  · exact .refl h
  split
  · exact .refl h
  split
  · split <;> exact .refl h
  rename_i raw
  split
  · exact .refl h
  rename_i f hdec
  have hf := mergePending_sound h.sound (decodeAdmissionSnapshot_sound hdec)
  have hlive : ∀ ℓ, live { a with
      generation := if a.revoked ≠ (a.mergePendingAdmissionBlocks f).revoked ∨
        a.meshReceived ≠ (a.mergePendingAdmissionBlocks f).meshReceived then a.generation + 1 else a.generation
      revoked := (a.mergePendingAdmissionBlocks f).revoked
      meshReceived := (a.mergePendingAdmissionBlocks f).meshReceived } ℓ = overlay (a.pending ℓ) (f.layer ℓ) := by
    intro ℓ
    cases ℓ <;> rfl
  refine ⟨⟨⟨fun ℓ => ?_,h.sound.pending⟩,h.shared,fun hhas => ?_⟩,fun hhas _ => ?_⟩
  · cases ℓ
    · exact hf.revoked
    · exact hf.meshReceived
  · rw [hlive] at hhas
    obtain ⟨r, hr⟩ := hhas
    rw [getElem?_overlay,or_eq_some_iff] at hr
    rcases hr with hr | ⟨-, hr⟩
    · exact .inr ⟨r,hr⟩
    · exact .inl ⟨raw,f,rfl,hdec,r,hr⟩
  · rw [hlive]
    refine has_overlay ((h.durable hhas).symm.imp_right ?_)
    rintro ⟨raw', f', hraw, hdec', hhas'⟩
    obtain rfl := some.inj hraw
    obtain rfl := some.inj (hdec.symm.trans hdec')
    exact hhas'

/-- A store that shows a block of a layer before it is saved. -/
structure Shown (a a' : AdmissionRevocations) (ℓ' : Layer) (id' reason : String) : Prop where
  shared : a'.persister = a.persister
  pending : ∀ ℓ, a'.pending ℓ = a.pending ℓ
  live : a'.live ℓ' = (a.live ℓ').insert id' reason
  live_ne : ∀ ℓ, ℓ ≠ ℓ' → a'.live ℓ = a.live ℓ

theorem Backed.shown (hid : normalizeIdentity identity ≠ "")
    (hs : Shown a a' ℓ' (normalizeIdentity identity) (trimSpace reason)) {e : Ending}
    (hlands : ℓ = ℓ' → normalizeIdentity identity = id → e.Lands) :
    Carries a row a' (a'.saveStateLocked row e a'.revoked).1 ℓ id lifts := by
  have hsound : Sound a' := by
    refine ⟨fun ℓ => ?_,fun ℓ => hs.pending ℓ ▸ h.sound.pending ℓ⟩
    by_cases he : ℓ = ℓ'
    · subst he
      rw [hs.live]
      exact (h.sound.live ℓ).insert hid
    · rw [hs.live_ne ℓ he]
      exact h.sound.live ℓ
  have hkeep : Has (a.live ℓ) id → Durable a' row ℓ id := fun hlive =>
    (h.durable hlive).imp_right fun hp => hs.pending ℓ ▸ hp
  refine ⟨⟨hsound,hs.shared.trans h.shared,fun hlive => ?_⟩,fun hlive _ => ?_⟩
  · refine save_durable hsound (hs.shared.trans h.shared) e row hlive ?_
    by_cases he : ℓ = ℓ'
    · subst he
      rcases (hs.live ▸ hlive).of_insert with hsame | hold
      · exact .inl (hlands rfl hsame)
      · exact .inr (hkeep hold)
    · exact .inr (hkeep (hs.live_ne ℓ he ▸ hlive))
  · by_cases he : ℓ = ℓ'
    · subst he
      rw [hs.live]
      exact hlive.insert _ _
    · rw [hs.live_ne ℓ he]
      exact hlive

theorem revoke_carries (e : Ending) (identity reason : String)
    (hlands : ℓ = .origin → normalizeIdentity identity = id → e.Lands) :
    Carries a row (a.revoke row e identity reason).store (a.revoke row e identity reason).row ℓ id False ∧
      (normalizeIdentity identity ≠ "" →
        Has ((a.revoke row e identity reason).store.live .origin) (normalizeIdentity identity)) := by
  unfold revoke revokeContext
  dsimp only
  split
  · next hid => exact ⟨.refl h,fun hne => absurd hid hne⟩
  rename_i hid
  by_cases hsame : a.revoked[normalizeIdentity identity]? = some (trimSpace reason)
  · rw [if_neg (not_not.mpr hsame),if_neg (by simp [hsame])]
    exact ⟨.refl h,fun _ => ⟨_,hsame⟩⟩
  have hs : Shown a { a with revoked := a.revoked.insert (normalizeIdentity identity) (trimSpace reason), generation := a.generation + 1 }
      .origin (normalizeIdentity identity) (trimSpace reason) := by
    refine ⟨rfl,fun ℓ => ?_,rfl,fun ℓ hne => by rw [Layer.eq_mesh hne]; rfl⟩
    cases ℓ <;> rfl
  rw [if_pos hsame,if_pos (.inl hsame)]
  exact ⟨h.shown hid hs hlands,fun _ => has_insert_self _ _ _⟩

theorem revokeFromMesh_carries (e : Ending) (identity reason : String)
    (hlands : ℓ = .mesh → normalizeIdentity identity = id → e.Lands) :
    Carries a row (a.revokeFromMesh row e identity reason).store (a.revokeFromMesh row e identity reason).row ℓ id False ∧
      (normalizeIdentity identity ≠ "" →
        Has ((a.revokeFromMesh row e identity reason).store.live .mesh) (normalizeIdentity identity)) := by
  unfold revokeFromMesh revokeFromMeshLocal
  dsimp only
  split
  · next hid => exact ⟨.refl h,fun hne => absurd hid hne⟩
  rename_i hid
  by_cases hsame : a.meshReceived[normalizeIdentity identity]? = some (trimSpace reason)
  · rw [if_neg (not_not.mpr hsame),if_neg (by simp [hsame])]
    exact ⟨.refl h,fun _ => ⟨_,hsame⟩⟩
  have hs : Shown a { a with meshReceived := a.meshReceived.insert (normalizeIdentity identity) (trimSpace reason), generation := a.generation + 1 }
      .mesh (normalizeIdentity identity) (trimSpace reason) := by
    refine ⟨rfl,fun ℓ => ?_,rfl,fun ℓ hne => by rw [Layer.eq_origin hne]; rfl⟩
    cases ℓ <;> rfl
  rw [if_pos hsame,if_pos (.inl hsame)]
  exact ⟨h.shown hid hs hlands,fun _ => has_insert_self _ _ _⟩

end

end Operations

section Runs

structure Node where
  store : AdmissionRevocations
  row : Option Json

/-- The calls, with the end of their transaction or save and with what they report. -/
inductive Op where
  | revoke (identity reason : String) (applied : Bool)
  | restore (identity : String) (e : Ending) (err : Option Err)
  | meshReceipt (identity reason : String) (changed : Bool) (err : Option Err)
  | removeDevices (ids : List String) (e : Ending) (err : Option Err)
  | reload
  | autoRevoke (identity reason : String) (e : Ending)
  | autoMesh (identity reason : String) (e : Ending)
  | replaceSynced (synced : Map String)

def Outcome.node {α : Type} (r : Outcome α) : Node := ⟨r.store,r.row⟩

inductive Step : Node → Op → Node → Prop
  | revoke {n : Node} (e : Ending) (identity reason : String) :
    Step n (.revoke identity reason (n.store.changeAdmissionContext n.row e identity reason true).result.1)
      (n.store.changeAdmissionContext n.row e identity reason true).node
  | restore {n : Node} (e : Ending) (identity : String) :
    Step n (.restore identity e (n.store.changeAdmissionContext n.row e identity "" false).result.2)
      (n.store.changeAdmissionContext n.row e identity "" false).node
  | meshReceipt {n : Node} (e : Ending) (identity reason : String) :
    Step n (.meshReceipt identity reason (n.store.receiveMeshContext n.row e identity reason true).result.1
        (n.store.receiveMeshContext n.row e identity reason true).result.2)
      (n.store.receiveMeshContext n.row e identity reason true).node
  | removeDevices {n : Node} (e : Ending) (ids : List String) :
    Step n (.removeDevices ids e (n.store.removeDevicesContext n.row e ids).result.2)
      (n.store.removeDevicesContext n.row e ids).node
  | reload {n : Node} (loads : Bool) : Step n .reload ⟨(n.store.restoreSnapshot n.row loads true).1,n.row⟩
  | autoRevoke {n : Node} (e : Ending) (identity reason : String) :
    Step n (.autoRevoke identity reason e) (n.store.revoke n.row e identity reason).node
  | autoMesh {n : Node} (e : Ending) (identity reason : String) :
    Step n (.autoMesh identity reason e) (n.store.revokeFromMesh n.row e identity reason).node
  | replaceSynced {n : Node} (synced : Map String) :
    Step n (.replaceSynced synced) ⟨(n.store.replaceSynced synced).1,n.row⟩

/-- The call accepted a block of the identity, in the layer of this origin or in that of the peers. -/
def Op.Accepts (ℓ : Layer) (identity : String) : Op → Prop
  | revoke identity' _ applied => ℓ = .origin ∧ normalizeIdentity identity' = normalizeIdentity identity ∧ applied = true
  | autoRevoke identity' _ _ => ℓ = .origin ∧ normalizeIdentity identity' = normalizeIdentity identity
  | meshReceipt identity' _ changed err => ℓ = .mesh ∧ normalizeIdentity identity' = normalizeIdentity identity ∧
      (changed = true ∨ err = none)
  | autoMesh identity' _ _ => ℓ = .mesh ∧ normalizeIdentity identity' = normalizeIdentity identity
  | _ => False

/-- The call lifted the block of the identity: it restored or removed it, and reported success. -/
def Op.Lifts (ℓ : Layer) (identity : String) : Op → Prop
  | restore identity' _ err => ℓ = .origin ∧ normalizeIdentity identity' = normalizeIdentity identity ∧ err = none
  | removeDevices ids _ err => ℓ = .origin ∧ normalizeIdentity identity ∈ ids.map normalizeIdentity ∧ err = none
  | _ => False

/-- The calls after which a block of the identity is shown without being kept: an automatic one whose save did not
reach the row, and a restoration or removal that reached it while an error was reported. -/
def Op.Loses (ℓ : Layer) (identity : String) : Op → Prop
  | autoRevoke identity' _ e => ℓ = .origin ∧ normalizeIdentity identity' = normalizeIdentity identity ∧ ¬ e.Lands
  | autoMesh identity' _ e => ℓ = .mesh ∧ normalizeIdentity identity' = normalizeIdentity identity ∧ ¬ e.Lands
  | restore identity' e _ => ℓ = .origin ∧ normalizeIdentity identity' = normalizeIdentity identity ∧ e = .unconfirmed
  | removeDevices ids e _ => ℓ = .origin ∧ normalizeIdentity identity ∈ ids.map normalizeIdentity ∧ e = .unconfirmed
  | _ => False

variable {n n' : Node} {op : Op} {ℓ : Layer} {identity : String}

theorem step_carries (hstep : Step n op n') (hid : normalizeIdentity identity ≠ "")
    (h : Backed n.store n.row ℓ (normalizeIdentity identity)) (hloses : ¬ op.Loses ℓ identity) :
    Carries n.store n.row n'.store n'.row ℓ (normalizeIdentity identity) (op.Lifts ℓ identity) ∧
      (op.Accepts ℓ identity → Has (n'.store.live ℓ) (normalizeIdentity identity)) := by
  cases hstep with
  | revoke e identity' reason =>
    dsimp only [Outcome.node]
    obtain ⟨hc, hhas⟩ := changeAdmissionContext_carries h e identity' reason true nofun
    refine ⟨⟨hc.backed,fun hlive _ => hc.live hlive fun hl => Bool.false_ne_true hl.1.symm⟩,?_⟩
    rintro ⟨rfl, hsame, happlied⟩
    rw [← hsame]
    exact hhas rfl happlied
  | restore e identity' =>
    dsimp only [Outcome.node]
    obtain ⟨hc, -⟩ := changeAdmissionContext_carries h e identity' "" false fun _ horigin hsame he =>
      hloses ⟨horigin,hsame,he⟩
    exact ⟨⟨hc.backed,fun hlive hl => hc.live hlive fun ⟨_, horigin, hsame, hnone⟩ => hl ⟨horigin,hsame,hnone⟩⟩,nofun⟩
  | meshReceipt e identity' reason =>
    dsimp only [Outcome.node]
    obtain ⟨hc, hhas⟩ := receiveMeshContext_carries h e identity' reason true
    refine ⟨hc,?_⟩
    rintro ⟨rfl, hsame, haccepted⟩
    rw [← hsame] at hid ⊢
    exact hhas hid haccepted
  | removeDevices e ids =>
    have hc := removeDevicesContext_carries h e ids fun horigin hmem he => hloses ⟨horigin,hmem,he⟩
    exact ⟨⟨hc.backed,hc.live⟩,nofun⟩
  | reload loads => exact ⟨restoreSnapshot_carries h loads true,nofun⟩
  | autoRevoke e identity' reason =>
    dsimp only [Outcome.node]
    obtain ⟨hc, hhas⟩ := revoke_carries h e identity' reason fun horigin hsame =>
      not_not.mp fun hl => hloses ⟨horigin,hsame,hl⟩
    refine ⟨hc,?_⟩
    rintro ⟨rfl, hsame⟩
    rw [← hsame] at hid ⊢
    exact hhas hid
  | autoMesh e identity' reason =>
    dsimp only [Outcome.node]
    obtain ⟨hc, hhas⟩ := revokeFromMesh_carries h e identity' reason fun hmesh hsame =>
      not_not.mp fun hl => hloses ⟨hmesh,hsame,hl⟩
    refine ⟨hc,?_⟩
    rintro ⟨rfl, hsame⟩
    rw [← hsame] at hid ⊢
    exact hhas hid
  | replaceSynced synced =>
    have hlive : ∀ ℓ, (n.store.replaceSynced synced).1.live ℓ = n.store.live ℓ := by
      intro ℓ
      cases ℓ <;> rfl
    have hpending : ∀ ℓ, (n.store.replaceSynced synced).1.pending ℓ = n.store.pending ℓ := by
      intro ℓ
      cases ℓ <;> rfl
    refine ⟨⟨⟨⟨fun ℓ => hlive ℓ ▸ h.sound.live ℓ,fun ℓ => hpending ℓ ▸ h.sound.pending ℓ⟩,h.shared,fun hhas => ?_⟩,
      fun hhas _ => hlive ℓ ▸ hhas⟩,nofun⟩
    exact (h.durable (hlive ℓ ▸ hhas)).imp_right fun hp => hpending ℓ ▸ hp

def Node.Fresh (n : Node) : Prop :=
  n.store.persister = .shared ∧ ∀ ℓ, n.store.live ℓ = ∅ ∧ n.store.pending ℓ = ∅

theorem Node.Fresh.backed (h : n.Fresh) (ℓ : Layer) (id : String) : Backed n.store n.row ℓ id := by
  refine ⟨⟨fun ℓ => ?_,fun ℓ => ?_⟩,h.1,fun hhas => ?_⟩
  · rw [(h.2 ℓ).1]
    exact blocks_empty
  · rw [(h.2 ℓ).2]
    exact blocks_empty
  obtain ⟨r, hr⟩ := hhas
  rw [(h.2 ℓ).1] at hr
  simp at hr

theorem has_isRevoked {a : AdmissionRevocations} (h : Has (a.live ℓ) (normalizeIdentity identity)) :
    (a.isRevoked identity).isSome = true := by
  obtain ⟨r, hr⟩ := h
  unfold isRevoked
  cases ℓ with
  | origin =>
    have hr : a.revoked[normalizeIdentity identity]? = some r := hr
    simp [hr]
  | mesh =>
    have hr : a.meshReceived[normalizeIdentity identity]? = some r := hr
    simp [hr]

/-- Once a block of an identity was accepted it is in force until a restoration or a removal of the identity succeeds, in
every run without a call that loses it. -/
theorem revoked_until_lifted {n₀ n₁ n₂ n₃ : Node} {before after : List Op} (hfresh : n₀.Fresh)
    (hbefore : Run Step n₀ before n₁) (hstep : Step n₁ op n₂) (hafter : Run Step n₂ after n₃)
    (hid : normalizeIdentity identity ≠ "") (haccepts : op.Accepts ℓ identity)
    (hloses : ∀ op' ∈ before ++ op :: after, ¬ op'.Loses ℓ identity) (hlifts : ∀ op' ∈ after, ¬ op'.Lifts ℓ identity) :
    (n₃.store.isRevoked identity).isSome = true := by
  have hbacked := hbefore.inv_mem (P := fun n => Backed n.store n.row ℓ (normalizeIdentity identity))
    (hfresh.backed ℓ _) fun n op' n' hmem hn hs => (step_carries hs hid hn (hloses op' (mem_append_left _ hmem))).1.backed
  obtain ⟨hc, hhas⟩ := step_carries hstep hid hbacked (hloses op (mem_append_right _ mem_cons_self))
  have hend := hafter.inv_mem (P := fun n => Backed n.store n.row ℓ (normalizeIdentity identity) ∧
    Has (n.store.live ℓ) (normalizeIdentity identity)) ⟨hc.backed,hhas haccepts⟩ fun n op' n' hmem hn hs => by
      obtain ⟨hc', -⟩ := step_carries hs hid hn.1 (hloses op' (mem_append_right _ (mem_cons_of_mem _ hmem)))
      exact ⟨hc'.backed,hc'.live hn.2 (hlifts op' hmem)⟩
  exact has_isRevoked hend.2

def startNode : Node where
  store := { persister := .shared }
  row := none

theorem startNode_fresh : startNode.Fresh := by
  refine ⟨rfl,fun ℓ => ?_⟩
  cases ℓ <;> exact ⟨rfl,rfl⟩

def Node.revoking (n : Node) (e : Ending) (identity : String) : Outcome (Bool × Option Err) :=
  n.store.changeAdmissionContext n.row e identity "lost" true

def Node.revoked (n : Node) (e : Ending) (identity : String) : Node := (n.revoking e identity).node

def Node.autoRevoked (n : Node) (e : Ending) (identity : String) : Node :=
  (n.store.revoke n.row e identity "dark").node

def Node.reloaded (n : Node) : Node := ⟨(n.store.restoreSnapshot n.row true true).1,n.row⟩

/-- A revocation that is rolled back after its callback outlasts a commit of another one and a reload. -/
theorem revoked_until_lifted_rolledBack :
    (startNode.revoking .aborted " Laptop-7 ").result = (true,some .save) ∧
    ((((startNode.revoked .aborted " Laptop-7 ").revoked .committed "laptop-8").reloaded).store.isRevoked
      "LAPTOP-7").isSome = true := by
  have hresult : (startNode.revoking .aborted " Laptop-7 ").result = (true,some .save) := by decide +kernel
  have happlied : (startNode.revoking .aborted " Laptop-7 ").result.1 = true := by rw [hresult]
  have hid : normalizeIdentity "LAPTOP-7" ≠ "" := by decide
  have hsame : normalizeIdentity " Laptop-7 " = normalizeIdentity "LAPTOP-7" := by decide
  have hafter := ((Run.nil (startNode.revoked .aborted " Laptop-7 ")).snoc
    (Step.revoke .committed "laptop-8" "lost")).snoc (Step.reload true)
  refine ⟨hresult,revoked_until_lifted startNode_fresh (.nil startNode) (.revoke .aborted " Laptop-7 " "lost") hafter hid
    ⟨rfl,hsame,happlied⟩ ?_ ?_⟩
  · intro op hop
    simp only [nil_append,mem_cons,not_mem_nil,or_false,mem_append] at hop
    rcases hop with rfl | rfl | rfl <;> exact fun h => h
  intro op hop
  simp only [nil_append,mem_cons,not_mem_nil,or_false,mem_append] at hop
  rcases hop with rfl | rfl <;> exact fun h => h

/-- An automatic revocation whose save fails is gone after a reload. -/
theorem failed_autoRevoke_is_lost : ∃ before op after n₁ n₂ n₃, startNode.Fresh ∧ Run Step startNode before n₁ ∧
    Step n₁ op n₂ ∧ op.Accepts .origin "laptop-7" ∧ Run Step n₂ after n₃ ∧
    (∀ op' ∈ after, ¬ op'.Lifts .origin "laptop-7") ∧ (n₃.store.isRevoked "laptop-7").isSome = false := by
  have hlost : (((startNode.revoked .committed "laptop-8").autoRevoked .refused "laptop-7").reloaded.store.isRevoked
      "laptop-7").isSome = false := by decide +kernel
  refine ⟨_,_,_,_,_,_,startNode_fresh,(Run.nil startNode).snoc (.revoke .committed "laptop-8" "lost"),
    .autoRevoke .refused "laptop-7" "dark",⟨rfl,rfl⟩,(Run.nil _).snoc (.reload true),?_,hlost⟩
  intro op hop
  rw [nil_append,mem_singleton] at hop
  subst hop
  exact fun h => h

end Runs

end DsseCore.Revocation

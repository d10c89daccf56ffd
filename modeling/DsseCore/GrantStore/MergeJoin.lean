import DsseCore.GrantStore.Merge
import DsseCore.GrantStore.Shared

/-!
# Merging as a join

Batches of records are merged one after another into a store of its own.  For each name the revocation mark is the
disjunction of the records' marks, whatever the order and the cut.  The boundary is the latest of those that count:
within a batch only the first revoked record of a name does.
-/

namespace DsseCore.GrantStore

open Go Grant Time List Store
open Std (ExtTreeMap)

variable {records incoming batch : List Grant} {id : String} {row prev : Option Grant} {g a b : Grant} {now : Time}
  {grants : Map Grant} {s : Store} {done : List (Time × List Grant)}

/-- Everything about a grant but its denial state and its feature tags. -/
def claims (g : Grant) : Grant :=
  { g with requiredFeatures := [], revoked := false, consumedAt := "", reauthenticateAfter := "" }

/-- Valid records; those of one grant agree on its claims, and the active ones on what they authorize. -/
structure Agree (records : List Grant) : Prop where
  valid : ∀ r ∈ records, validateGrant r = true
  claims : ∀ r ∈ records, ∀ r' ∈ records, r.grantID = r'.grantID → claims r = claims r'
  active : ∀ r ∈ records, ∀ r' ∈ records, r.grantID = r'.grantID → r.revoked = false → r'.revoked = false →
    authorization r = authorization r'

theorem agree_of_sameAuthorization (hv : ∀ r ∈ records, validateGrant r = true)
    (h : ∀ r ∈ records, ∀ r' ∈ records, r.grantID = r'.grantID → r.tenantID = r'.tenantID ∧ sameAuthorization r r' = true) :
    Agree records := by
  have heq : ∀ r ∈ records, ∀ r' ∈ records, r.grantID = r'.grantID → authorization r = authorization r' := by
    intro r hr r' hr' hid
    exact eq_of_beq (h r hr r' hr' hid).2
  refine ⟨hv,fun r hr r' hr' hid => ?_,fun r hr r' hr' hid _ _ => heq r hr r' hr' hid⟩
  have hfeatures : ∀ g, claims g = { authorization g with requiredFeatures := [] } := fun g => rfl
  rw [hfeatures,hfeatures,heq r hr r' hr' hid]

/-- A stored or proposed row that comes from the records. -/
structure FromRecords (records : List Grant) (id : String) (row : Grant) : Prop where
  grantID : row.grantID = id
  valid : validateGrant row = true
  claims : ∃ r ∈ records, r.grantID = id ∧ claims row = claims r
  active : row.revoked = false → ∃ r ∈ records, r.grantID = id ∧ r.revoked = false ∧ authorization row = authorization r
  boundary : row.reauthenticateAfter = "" ∨ ∃ r ∈ records, r.grantID = id ∧ r.reauthenticateAfter = row.reauthenticateAfter

def AllFrom (records : List Grant) (rows : Map Grant) : Prop :=
  ∀ (id : String) row, rows[id]? = some row → FromRecords records id row

theorem authorization_cloneGrant (g : Grant) : authorization (cloneGrant g) = authorization g := by
  unfold authorization
  rw [cloneGrant_cloneGrant]

theorem authorization_withRevoked (g : Grant) (b : Bool) : authorization (g.withRevoked b) = authorization g := rfl

theorem fromRecords_cloneGrant {row : Grant} :
    FromRecords records id (cloneGrant row) ↔ FromRecords records id row := by
  have hclaims : claims (cloneGrant row) = claims row := rfl
  constructor
  all_goals
    intro h
    refine ⟨by simpa using h.grantID,by simpa [validateGrant_cloneGrant] using h.valid,hclaims ▸ h.claims,fun hr => ?_,
      by simpa using h.boundary⟩
    simpa [authorization_cloneGrant] using h.active (by simpa using hr)

theorem reauthenticateAfter_of_not_modern (h : g.requiresModernReader = false) : g.reauthenticateAfter = "" := by
  simp only [requiresModernReader,Bool.or_eq_false_iff,bne_eq_false_iff_eq] at h
  exact h.1.1.1.1.1

theorem reauthenticateAfter_of_active (hv : validateGrant g = true) (hr : g.revoked = false) :
    g.reauthenticateAfter = "" := by
  obtain ⟨issued, expires, h⟩ := validateGrant_iff.mp hv
  have hb := h.boundary
  unfold validBoundary at hb
  rw [Bool.or_eq_true,beq_iff_eq] at hb
  refine hb.resolve_right fun hb => ?_
  split at hb
  · simp [hr] at hb
  · cases hb

section Taken

variable (hag : Agree records) (hrows : AllFrom records grants)
include hag hrows

/-- A record as a batch takes it comes from the records, with its own boundary; it is revoked if the record is, or if
the stored row is. -/
theorem taken_spec {raw : Grant} (hraw : raw ∈ records) : FromRecords records raw.grantID (taken grants raw) ∧
    (taken grants raw).reauthenticateAfter = raw.reauthenticateAfter ∧
    (raw.revoked = true → (taken grants raw).revoked = true) ∧
    ((taken grants raw).revoked = true → raw.revoked = false →
      ∃ prev, grants[raw.grantID]? = some prev ∧ prev.revoked = true) := by
  unfold taken
  rcases restoreEvidence_cases grants[raw.grantID]? (cloneGrant raw) with h | ⟨p, hp, hmp, hmr, h⟩
  · rw [h,fromRecords_cloneGrant]
    refine ⟨⟨rfl,hag.valid raw hraw,⟨raw,hraw,rfl,rfl⟩,fun hr => ⟨raw,hraw,rfl,hr,rfl⟩,.inr ⟨raw,hraw,rfl,rfl⟩⟩,
      by simp,by simp,fun hr hn => ?_⟩
    rw [cloneGrant_revoked,hn] at hr
    cases hr
  · rw [h]
    have hfrom := hrows raw.grantID p hp
    have hpb := reauthenticateAfter_of_not_modern hmp
    rw [requiresModernReader_cloneGrant] at hmr
    have hrb := reauthenticateAfter_of_not_modern hmr
    have hclone := fromRecords_cloneGrant.mpr hfrom
    refine ⟨⟨by simpa using hfrom.grantID,?_,hfrom.claims,fun hr => ?_,.inl (by simpa using hpb)⟩,
      by simp [hpb,hrb],fun hr => by simp [hr],fun hr hn => ⟨p,hp,?_⟩⟩
    · cases hb : p.revoked || (cloneGrant raw).revoked with
      | true => exact validateGrant_withRevoked hclone.valid
      | false =>
        have hpr : (cloneGrant p).revoked = false := by
          rw [Bool.or_eq_false_iff] at hb
          simpa using hb.1
        rw [← hpr]
        exact hclone.valid
    · rw [withRevoked_revoked,Bool.or_eq_false_iff] at hr
      rw [authorization_withRevoked,authorization_cloneGrant]
      exact hfrom.active hr.1
    · rw [withRevoked_revoked,cloneGrant_revoked,hn,Bool.or_false] at hr
      exact hr

end Taken

def rowBoundary (row : Option Grant) : Time := (row.map fun g => boundaryTime g.reauthenticateAfter).getD zero

/-- What a merge does to a row, in what can be seen of it. -/
structure Joins (prev picked row : Option Grant) : Prop where
  isSome : row.isSome = (prev.isSome || picked.isSome)
  revoked : row.any revoked = (prev.any revoked || picked.any revoked)
  boundary : rowBoundary row = max (rowBoundary prev) (rowBoundary picked)

theorem rowBoundary_nonneg (h : ∀ q, row = some q → FromRecords records id q) : zero ≤ rowBoundary row := by
  cases row with
  | none => exact le_refl _
  | some q => exact boundaryTime_nonneg (validBoundary_of_valid (h q rfl).valid)

theorem Joins.congr {picked row' : Option Grant} (h : row.map cloneGrant = row'.map cloneGrant)
    (hj : Joins prev picked row') : Joins prev picked row := by
  have hsome : row.isSome = row'.isSome := by simpa using congrArg Option.isSome h
  have hrevoked : row.any Grant.revoked = row'.any Grant.revoked := by
    simpa [Option.any_map] using congrArg (Option.any Grant.revoked) h
  have hboundary : rowBoundary row = rowBoundary row' := by
    have hb := congrArg rowBoundary h
    simpa [rowBoundary,Function.comp_def] using hb
  exact ⟨hsome.trans hj.isSome,hrevoked.trans hj.revoked,hboundary.trans hj.boundary⟩

def picked (grants : Map Grant) (incoming : List Grant) (id : String) : Option Grant :=
  (takenOf grants incoming id).foldl pick none

section Effect

variable (hag : Agree records) {p : Proposals}
include hag

section

variable (ha : FromRecords records id a) (hb : FromRecords records id b)
include ha hb

theorem FromRecords.claims_eq : GrantStore.claims a = GrantStore.claims b := by
  obtain ⟨r, hr, hid, hra⟩ := ha.claims
  obtain ⟨r', hr', hid', hrb⟩ := hb.claims
  rw [hra,hrb]
  exact hag.claims r hr r' hr' (hid.trans hid'.symm)

theorem FromRecords.tenantID_eq : a.tenantID = b.tenantID := by
  have h := congrArg tenantID (ha.claims_eq hag hb)
  exact h

theorem FromRecords.sameAuthorization (hra : a.revoked = false) (hrb : b.revoked = false) :
    GrantStore.sameAuthorization a b = true := by
  obtain ⟨r, hr, hid, hn, hea⟩ := ha.active hra
  obtain ⟨r', hr', hid', hn', heb⟩ := hb.active hrb
  rw [GrantStore.sameAuthorization,beq_iff_eq,hea,heb]
  exact hag.active r hr r' hr' (hid.trans hid'.symm) hn hn'

end

theorem FromRecords.denyRow {prev : Grant} (hprev : FromRecords records id prev) (hg : FromRecords records id g) :
    FromRecords records id (denyRow prev g) := by
  have hclaims := hprev.claims_eq hag hg
  obtain ⟨issued, expires, hv⟩ := validateGrant_iff.mp hprev.valid
  obtain ⟨issued', expires', hv'⟩ := validateGrant_iff.mp hg.valid
  -- both live between the same instants
  have hissued : issued' = issued := by
    have he : g.issuedAt = prev.issuedAt := (congrArg issuedAt hclaims).symm
    exact Option.some.inj (hv'.issuedAt.symm.trans (he ▸ hv.issuedAt))
  have hexpires : expires' = expires := by
    have he : g.expiresAt = prev.expiresAt := (congrArg expiresAt hclaims).symm
    exact Option.some.inj (hv'.expiresAt.symm.trans (he ▸ hv.expiresAt))
  subst hissued hexpires
  obtain ⟨c, hc, hq, hce⟩ : ∃ c : Grant, validConsumption c issued' expires' = true ∧
      c.authenticationRequestID = prev.authenticationRequestID ∧
      c.consumedAt = if g.consumedAt ≠ "" then g.consumedAt else prev.consumedAt := by
    by_cases hn : g.consumedAt ≠ ""
    · exact ⟨g,hv'.consumption,(congrArg authenticationRequestID hclaims).symm,(if_pos hn).symm⟩
    · exact ⟨prev,hv.consumption,rfl,(if_neg hn).symm⟩
  obtain ⟨b, hb, hbf, hbe⟩ : ∃ b : Grant, validBoundary b = true ∧ FromRecords records id b ∧
      b.reauthenticateAfter = laterBoundary prev.reauthenticateAfter g.reauthenticateAfter := by
    unfold laterBoundary
    split
    · exact ⟨g,hv'.boundary,hg,rfl⟩
    · exact ⟨prev,hv.boundary,hprev,rfl⟩
  unfold GrantStore.denyRow
  rw [← hce,← hbe,fromRecords_cloneGrant]
  exact ⟨hprev.grantID,validateGrant_iff.mpr ⟨issued',expires',hv.deny hc hq hb⟩,hprev.claims,nofun,hbf.boundary⟩

theorem mergedRow_join (hprev : ∀ q, prev = some q → FromRecords records id q) (hg : FromRecords records id g)
    (hnow : now < (parseRFC3339 g.expiresAt).getD zero) :
    ∃ row, mergedRow now false prev (some g) = some row ∧ FromRecords records id row ∧
      row.revoked = (prev.any revoked || g.revoked) ∧
      boundaryTime row.reauthenticateAfter = max (rowBoundary prev) (boundaryTime g.reauthenticateAfter) := by
  unfold mergedRow mergeRow
  cases prev with
  | none =>
    refine ⟨g,?_,hg,by simp,?_⟩
    · cases hr : g.revoked with
      | true => simp [hr]
      | false => simp [hr,hnow]
    · exact (max_eq_right (boundaryTime_nonneg (validBoundary_of_valid hg.valid))).symm
  | some q =>
    have hq := hprev q rfl
    dsimp only
    split
    · next hd =>
      rw [Bool.and_eq_true] at hd
      refine ⟨denyRow q g,rfl,hq.denyRow hag hg,?_,?_⟩
      · simp [denyRow,hd.1]
      · simp only [denyRow,cloneGrant_reauthenticateAfter]
        exact boundaryTime_laterBoundary _ _
    · next hd =>
      rw [Bool.not_eq_true,Bool.and_eq_false_iff] at hd
      have hle : boundaryTime g.reauthenticateAfter ≤ boundaryTime q.reauthenticateAfter := by
        rcases hd with hr | hd
        · rw [reauthenticateAfter_of_active hg.valid hr]
          exact boundaryTime_nonneg (validBoundary_of_valid hq.valid)
        rw [Bool.or_eq_false_iff,bne_eq_false_iff_eq] at hd
        have hl := boundaryTime_laterBoundary q.reauthenticateAfter g.reauthenticateAfter
        rw [hd.2] at hl
        exact hl ▸ le_max_right _ _
      have hrev : (q.revoked || g.revoked) = q.revoked := by
        rcases hd with hr | hd
        · rw [hr,Bool.or_false]
        · rw [Bool.or_eq_false_iff,Bool.not_eq_false'] at hd
          rw [hd.1,Bool.true_or]
      exact ⟨q,rfl,hq,hrev.symm,(max_eq_left hle).symm⟩

theorem propose_fromRecords (hrows : AllFrom records grants) {raw : Grant} (hraw : raw ∈ records)
    (hp : AllFrom records p.rows) (hc : p.activeConflicts = []) :
    ∃ p', propose grants p raw = .ok p' ∧ AllFrom records p'.rows ∧ p'.activeConflicts = [] := by
  have hg := (taken_spec hag hrows hraw).1
  have hinsert : AllFrom records (p.rows.insert raw.grantID (taken grants raw)) := by
    intro id x hx
    rw [Map.getElem?_insert_eq] at hx
    split at hx
    · next he =>
      obtain rfl := Option.some.inj hx
      exact he ▸ hg
    · exact hp id x hx
  unfold propose
  rw [← taken,if_neg (by simp [hg.valid]),hg.grantID]
  cases hrow : p.rows[raw.grantID]? with
  | none => exact ⟨_,rfl,hinsert,hc⟩
  | some prev =>
    have hprev := hp _ prev hrow
    dsimp only
    rw [if_neg (not_not.mpr (hprev.tenantID_eq hag hg))]
    split
    · exact ⟨p,rfl,hp,hc⟩
    rename_i hr
    refine ⟨_,rfl,hinsert,?_⟩
    split
    · next hn =>
      rw [Bool.and_eq_true,Bool.not_eq_true'] at hn
      rw [hprev.sameAuthorization hag hg (Bool.eq_false_iff.mpr hr) hn.1] at hn
      cases hn.2
    · exact hc

theorem proposeAll_fromRecords (hrows : AllFrom records grants) (hin : ∀ r ∈ incoming, r ∈ records)
    (hp : AllFrom records p.rows) (hc : p.activeConflicts = []) :
    ∃ p', proposeAll grants p incoming = .ok p' ∧ AllFrom records p'.rows ∧ p'.activeConflicts = [] := by
  induction incoming generalizing p with
  | nil => exact ⟨p,rfl,hp,hc⟩
  | cons raw l ih =>
    obtain ⟨p₁, h₁, hp₁, hc₁⟩ := propose_fromRecords hag hrows (hin raw mem_cons_self) hp hc
    obtain ⟨p₂, h₂, hp₂, hc₂⟩ := ih (fun r hr => hin r (mem_cons_of_mem _ hr)) hp₁ hc₁
    exact ⟨p₂,by rw [proposeAll,h₁]; exact h₂,hp₂,hc₂⟩

theorem mergeLocal_join (hrows : AllFrom records s.grants) {o : Save} (ho : s.saveLocked o ≠ .failed) (hin : ∀ r ∈ incoming, r ∈ records)
    (hnow : ∀ r ∈ records, now < (parseRFC3339 r.expiresAt).getD zero) :
    (s.mergeLocalWithEvidence o incoming now false).2.err = none ∧ ∀ id : String,
      (∀ row, (s.mergeLocalWithEvidence o incoming now false).1.grants[id]? = some row → FromRecords records id row) ∧
      Joins s.grants[id]? (picked s.grants incoming id) (s.mergeLocalWithEvidence o incoming now false).1.grants[id]? := by
  obtain ⟨p, hok, hp, hc⟩ := proposeAll_fromRecords hag hrows hin (p := {}) (by simp [AllFrom]) rfl
  have hpicked : ∀ id : String, p.rows[id]? = picked s.grants incoming id := by
    intro id
    simpa [picked] using (proposeAll_row hok).2 id
  have hconflicts : (p.rows.toList.any fun e => conflicts false s.grants[e.1]? e.2) = false := by
    rw [any_eq_false]
    rintro ⟨id, g⟩ he
    have hg := hp id g (ExtTreeMap.mem_toList_iff_getElem?_eq_some.mp he)
    unfold conflicts
    cases hs : s.grants[id]? with
    | none => simp
    | some prev =>
      have hprev := hrows id prev hs
      have htenant := hprev.tenantID_eq hag hg
      by_cases hr : prev.revoked = false ∧ g.revoked = false
      · simp [htenant,hprev.sameAuthorization hag hg hr.1 hr.2]
      rw [not_and_or] at hr
      rcases hr with hr | hr
      · simp [htenant,hr]
      · simp [htenant,hr]
  unfold mergeLocalWithEvidence
  simp only [hok,hc,any_nil,hconflicts,Bool.false_eq_true,if_false]
  obtain ⟨herr, hrow⟩ := @mergeProposals_row now false s o ho p.rows
  refine ⟨herr,fun id => ?_⟩
  have hid := hrow id
  rw [hpicked] at hid
  generalize (s.mergeProposals o now false p.rows).1.grants[id]? = row at hid ⊢
  have hfrom : ∀ row', mergedRow now false s.grants[id]? (picked s.grants incoming id) = row' →
      (∀ r, row' = some r → FromRecords records id r) → ∀ r, row = some r → FromRecords records id r := by
    intro row' hrow' h r hr
    rw [hrow',hr] at hid
    cases row' with
    | none => cases hid
    | some r' =>
      rw [← fromRecords_cloneGrant,Option.some.inj hid,fromRecords_cloneGrant]
      exact h r' rfl
  cases hpk : picked s.grants incoming id with
  | none =>
    rw [hpk] at hid hfrom
    refine ⟨hfrom _ rfl (hrows id),Joins.congr hid ⟨by simp [mergedRow],by simp [mergedRow],?_⟩⟩
    exact (max_eq_left (rowBoundary_nonneg (hrows id))).symm
  | some g =>
    rw [hpk] at hid hfrom
    have hg := hp id g ((hpicked id).trans hpk)
    obtain ⟨r, hr, hrid, hclaims⟩ := hg.claims
    have hexpires : (claims g).expiresAt = (claims r).expiresAt := congrArg expiresAt hclaims
    have hlive : now < (parseRFC3339 g.expiresAt).getD zero := by
      rw [show g.expiresAt = r.expiresAt from hexpires]
      exact hnow r hr
    obtain ⟨row', hrow', hfrom', hrevoked, hboundary⟩ := mergedRow_join hag (hrows id) hg hlive
    refine ⟨hfrom _ hrow' fun r hr => Option.some.inj hr ▸ hfrom',Joins.congr hid ?_⟩
    rw [hrow']
    exact ⟨by simp,by simpa using hrevoked,hboundary⟩

end Effect

section Batches

def firstDenial (id : String) (batch : List Grant) : Option Grant :=
  batch.find? fun r => r.grantID == id && r.revoked

theorem find?_of_imp {α : Type} {p q : α → Bool} {l : List α} (h : ∀ x ∈ l, q x = true → p x = true) {a : α}
    (hf : l.find? p = some a) (hq : q a = true) : l.find? q = some a := by
  induction l with
  | nil => cases hf
  | cons x l ih =>
    rw [find?_cons] at hf ⊢
    cases hp : p x with
    | true =>
      rw [hp] at hf
      obtain rfl := Option.some.inj hf
      rw [hq]
    | false =>
      have hqx : q x = false := by
        rw [Bool.eq_false_iff]
        intro hqx
        rw [h x mem_cons_self hqx] at hp
        cases hp
      rw [hp] at hf
      rw [hqx]
      exact ih (fun y hy => h y (mem_cons_of_mem x hy)) hf

variable (hag : Agree records)
include hag

section Picked

variable (hrows : AllFrom records grants) (hin : ∀ r ∈ incoming, r ∈ records)
include hrows hin

theorem picked_cases (id : String) :
    (picked grants incoming id = none ∧ ∀ r ∈ incoming, r.grantID ≠ id) ∨
      ∃ raw ∈ incoming, raw.grantID = id ∧ picked grants incoming id = some (taken grants raw) ∧
        (raw.revoked = true → firstDenial id incoming = some raw) ∧
        ((taken grants raw).revoked = false → firstDenial id incoming = none) := by
  have hk : Keyed grants := fun id row h => (hrows id row h).grantID
  have hrev : ∀ r ∈ incoming, r.revoked = true → (taken grants r).revoked = true := fun r hr =>
    (taken_spec hag hrows (hin r hr)).2.2.1
  have hof : takenOf grants incoming id = (incoming.filter fun r => r.grantID == id).map (taken grants) := by
    have htest : ((fun g : Grant => g.grantID == id) ∘ taken grants) = fun r => r.grantID == id := by
      funext r
      exact congrArg (· == id) (grantID_taken hk r)
    rw [takenOf,filter_map,htest]
  have hmem : ∀ r, r ∈ incoming.filter (fun r => r.grantID == id) ↔ r ∈ incoming ∧ r.grantID = id := by
    intro r
    rw [mem_filter,beq_iff_eq]
  have hfirst : firstDenial id incoming = (incoming.filter fun r => r.grantID == id).find? revoked := by
    rw [find?_filter,firstDenial]
    congr 1
    funext r
    rw [Bool.eq_iff_iff]
    simp
  rw [picked,foldl_pick,hof,hfirst,find?_map]
  generalize (incoming.filter fun r => r.grantID == id) = l at hmem ⊢
  have hrevl : ∀ r ∈ l, r.revoked = true → (taken grants r).revoked = true := fun r hr =>
    hrev r ((hmem r).mp hr).1
  cases hf : l.find? (revoked ∘ taken grants) with
  | some raw =>
    obtain ⟨hin', hid⟩ := (hmem raw).mp (mem_of_find?_eq_some hf)
    have hr : (revoked ∘ taken grants) raw = true := find?_some hf
    refine .inr ⟨raw,hin',hid,by simp,fun hraw => find?_of_imp hrevl hf hraw,fun hn => ?_⟩
    rw [Function.comp_apply,hn] at hr
    cases hr
  | none =>
    rw [find?_eq_none] at hf
    have hnone : l.find? revoked = none := find?_eq_none.mpr fun r hr hrev => hf r hr (hrevl r hr hrev)
    cases hlast : l.getLast? with
    | none =>
      refine .inl ⟨by simp [hlast],fun r hr hid => ?_⟩
      rw [getLast?_eq_none_iff] at hlast
      exact absurd ((hmem r).mpr ⟨hr,hid⟩) (by simp [hlast])
    | some raw =>
      have hraw := mem_of_getLast? hlast
      obtain ⟨hin', hid⟩ := (hmem raw).mp hraw
      refine .inr ⟨raw,hin',hid,by simp [hlast],fun hr => absurd (hrevl raw hraw hr) (hf raw hraw),fun _ => hnone⟩

theorem picked_isSome (id : String) :
    (picked grants incoming id).isSome = incoming.any fun r => r.grantID == id := by
  rcases picked_cases hag hrows hin id with ⟨hnone, hne⟩ | ⟨raw, hraw, hid, hsome, -, -⟩
  · rw [hnone]
    symm
    rw [Option.isSome_none,any_eq_false]
    intro r hr
    simpa using hne r hr
  · rw [hsome]
    symm
    rw [Option.isSome_some,any_eq_true]
    exact ⟨raw,hraw,by simp [hid]⟩

theorem picked_denials (hden : ∀ r ∈ incoming, r.revoked = true) (id : String) :
    (picked grants incoming id).any revoked = (firstDenial id incoming).isSome ∧
      rowBoundary (picked grants incoming id) = rowBoundary (firstDenial id incoming) := by
  rcases picked_cases hag hrows hin id with ⟨hnone, hne⟩ | ⟨raw, hraw, hid, hsome, hfirst, -⟩
  · have hf : firstDenial id incoming = none := by
      refine find?_eq_none.mpr fun r hr => ?_
      simp [hne r hr]
    simp [hnone,hf]
  · have hspec := taken_spec hag hrows (hin raw hraw)
    rw [hsome,hfirst (hden raw hraw)]
    exact ⟨by simpa using hspec.2.2.1 (hden raw hraw),by simp [rowBoundary,hspec.2.1]⟩

theorem picked_le (id : String) : ((picked grants incoming id).any revoked = true →
      grants[id]?.any revoked = true ∨ (firstDenial id incoming).isSome = true) ∧
    rowBoundary (picked grants incoming id) ≤ max zero (rowBoundary (firstDenial id incoming)) := by
  rcases picked_cases hag hrows hin id with ⟨hnone, -⟩ | ⟨raw, hraw, hid, hsome, hfirst, -⟩
  · rw [hnone]
    exact ⟨nofun,le_max_left _ _⟩
  have hspec := taken_spec hag hrows (hin raw hraw)
  rw [hsome]
  cases hr : raw.revoked with
  | true =>
    rw [hfirst hr]
    refine ⟨fun _ => .inr rfl,le_max_of_le_right ?_⟩
    simp [rowBoundary,hspec.2.1]
  | false =>
    refine ⟨fun ht => .inl ?_,le_max_of_le_left ?_⟩
    · obtain ⟨prev, hprev, hrev⟩ := hspec.2.2.2 (by simpa using ht) hr
      rw [← hid,hprev]
      simpa using hrev
    have he := reauthenticateAfter_of_active (hag.valid raw (hin raw hraw)) hr
    simp only [rowBoundary,Option.map_some,hspec.2.1,he]
    decide

end Picked

/-- What a batch does to a row: its first denial is joined to it. -/
structure BatchJoins (id : String) (batch : List Grant) (prev row : Option Grant) : Prop where
  isSome : row.isSome = (prev.isSome || batch.any fun r => r.grantID == id)
  revoked : row.any revoked = (prev.any revoked || batch.any fun r => r.grantID == id && r.revoked)
  boundary : rowBoundary row = max (rowBoundary prev) (rowBoundary (firstDenial id batch))

omit hag in
theorem persister_mergeLocal (s : Store) (o : Save) (incoming : List Grant) (now : Time) (authorityEvidence : Bool) :
    (s.mergeLocalWithEvidence o incoming now authorityEvidence).1.persister = s.persister := by
  have hproposals : ∀ rows, (s.mergeProposals o now authorityEvidence rows).1.persister = s.persister := by
    intro rows
    unfold mergeProposals
    extract_lets added updated enriched active denialChanged denied
    have hdenied : denied.persister = s.persister := by
      simp only [denied]
      split <;> rfl
    split
    · exact hdenied
    split
    · exact hdenied
    · exact hdenied
  unfold mergeLocalWithEvidence
  split
  · rfl
  split
  · rfl
  split
  · rfl
  · exact hproposals _

omit hag in
theorem mergeChecked_local {σ : Type} (A : Authority σ) (hs : s.sharedLocked = false) (doc : σ) (io : MergeIo)
    (incoming : List Grant) (now : Time) (authorityEvidence : Bool) :
    s.mergeCheckedContextWithEvidence A doc io incoming now authorityEvidence =
      ((s.mergeLocalWithEvidence io.save incoming now authorityEvidence).1,doc,
        (s.mergeLocalWithEvidence io.save incoming now authorityEvidence).2) := by
  simp [mergeCheckedContextWithEvidence,refreshShared,repeatsReport,mergeTransaction,hs]

theorem reportedDenials_eq (hrows : AllFrom records s.grants) (hin : ∀ r ∈ incoming, r ∈ records) : s.reportedDenials incoming = incoming.filter revoked := by
  refine filter_congr fun r hr => ?_
  rw [hag.valid r (hin r hr)]
  cases hs : s.grants[r.grantID]? with
  | none => simp
  | some old =>
    have hr' : FromRecords records r.grantID r :=
      ⟨rfl,hag.valid r (hin r hr),⟨r,hin r hr,rfl,rfl⟩,fun hn => ⟨r,hin r hr,rfl,hn,rfl⟩,.inr ⟨r,hin r hr,rfl,rfl⟩⟩
    simp [(hrows r.grantID old hs).tenantID_eq hag hr']

omit hag in
theorem firstDenial_denials (id : String) (batch : List Grant) :
    firstDenial id (batch.filter revoked) = firstDenial id batch := by
  rw [firstDenial,find?_filter,firstDenial]
  congr 1
  funext r
  rw [Bool.eq_iff_iff]
  simp only [Bool.and_eq_true,decide_eq_true_eq]
  tauto

omit hag in
theorem firstDenial_isSome (id : String) (batch : List Grant) :
    (firstDenial id batch).isSome = batch.any fun r => r.grantID == id && r.revoked := by
  rw [Bool.eq_iff_iff,firstDenial,find?_isSome,any_eq_true]

theorem mergeBatch_join {σ : Type} (A : Authority σ) (hs : s.sharedLocked = false) (hrows : AllFrom records s.grants)
    (doc : σ) {io io' : MergeIo} (ho : s.saveLocked io.save ≠ .failed) (ho' : s.saveLocked io'.save ≠ .failed)
    (hin : ∀ r ∈ batch, r ∈ records) (hnow : ∀ r ∈ records, now < (parseRFC3339 r.expiresAt).getD zero) :
    (s.mergeBatchContext A doc io io' batch now false).2.2.err = none ∧
      (s.mergeBatchContext A doc io io' batch now false).1.persister = s.persister ∧ ∀ id : String,
        (∀ row, (s.mergeBatchContext A doc io io' batch now false).1.grants[id]? = some row → FromRecords records id row) ∧
        BatchJoins id batch s.grants[id]? (s.mergeBatchContext A doc io io' batch now false).1.grants[id]? := by
  have hden : ∀ r ∈ batch.filter revoked, r ∈ records := fun r hr => hin r (mem_filter.mp hr).1
  have hrev : ∀ r ∈ batch.filter revoked, r.revoked = true := fun r hr => (mem_filter.mp hr).2
  -- the store after the pass over the denials
  obtain ⟨s₁, hfirst, hp₁, hrow₁⟩ : ∃ s₁ : Store,
      (∃ m : Merged, m.err = none ∧ (if (s.reportedDenials batch).isEmpty then (s,doc,({} : Merged))
        else s.mergeCheckedContextWithEvidence A doc io (s.reportedDenials batch) now false) = (s₁,doc,m)) ∧
      s₁.persister = s.persister ∧ ∀ id : String, (∀ row, s₁.grants[id]? = some row → FromRecords records id row) ∧
        s₁.grants[id]?.any revoked = (s.grants[id]?.any revoked || (firstDenial id batch).isSome) ∧
        s₁.grants[id]?.isSome = (s.grants[id]?.isSome || (firstDenial id batch).isSome) ∧
        rowBoundary s₁.grants[id]? = max (rowBoundary s.grants[id]?) (rowBoundary (firstDenial id batch)) := by
    rw [reportedDenials_eq hag hrows hin]
    split
    · next hempty =>
      refine ⟨s,⟨{},rfl,rfl⟩,rfl,fun id => ?_⟩
      have hnone : firstDenial id batch = none := by
        rw [List.isEmpty_iff] at hempty
        rw [← firstDenial_denials,hempty]
        rfl
      rw [hnone]
      exact ⟨hrows id,by simp,by simp,(max_eq_left (rowBoundary_nonneg (hrows id))).symm⟩
    · rw [mergeChecked_local A hs]
      obtain ⟨herr, hrow⟩ := mergeLocal_join hag hrows ho hden hnow
      refine ⟨_,⟨_,herr,rfl⟩,persister_mergeLocal _ _ _ _ _,fun id => ⟨(hrow id).1,?_⟩⟩
      obtain ⟨hr, hb⟩ := picked_denials hag hrows hden hrev id
      rw [firstDenial_denials] at hr hb
      have hj := (hrow id).2
      refine ⟨hr ▸ hj.revoked,?_,hb ▸ hj.boundary⟩
      rw [hj.isSome,picked_isSome hag hrows hden,firstDenial_isSome,any_filter]
      congr 2
      funext r
      exact Bool.and_comm _ _
  obtain ⟨m, hm, hfirst⟩ := hfirst
  have hs₁ : s₁.sharedLocked = false := by rw [sharedLocked,hp₁]; exact hs
  have ho₁ : s₁.saveLocked io'.save ≠ .failed := by rw [saveLocked,hp₁]; exact ho'
  unfold mergeBatchContext
  dsimp only
  rw [hfirst]
  simp only [hm,Option.isSome_none,Bool.false_eq_true,if_false]
  rw [mergeChecked_local A hs₁]
  obtain ⟨herr, hrow⟩ := mergeLocal_join hag (fun id => (hrow₁ id).1) ho₁ hin hnow
  refine ⟨herr,(persister_mergeLocal _ _ _ _ _).trans hp₁,fun id => ⟨(hrow id).1,?_⟩⟩
  obtain ⟨-, hrev₁, hsome₁, hb₁⟩ := hrow₁ id
  obtain ⟨hrev₂, hb₂⟩ := picked_le hag (fun id => (hrow₁ id).1) hin id
  have hj := (hrow id).2
  refine ⟨?_,?_,?_⟩
  · rw [hj.isSome,hsome₁,picked_isSome hag (fun id => (hrow₁ id).1) hin,firstDenial_isSome]
    have himp : (batch.any fun r => r.grantID == id && r.revoked) = true → (batch.any fun r => r.grantID == id) = true := by
      rw [any_eq_true,any_eq_true]
      rintro ⟨r, hr, h⟩
      exact ⟨r,hr,(Bool.and_eq_true _ _ ▸ h).1⟩
    rw [Bool.eq_iff_iff]
    simp only [Bool.or_eq_true]
    tauto
  · rw [hrev₁] at hrev₂
    rw [hj.revoked,hrev₁,← firstDenial_isSome,Bool.eq_iff_iff]
    simp only [Bool.or_eq_true] at hrev₂ ⊢
    tauto
  · rw [hj.boundary,hb₁]
    refine max_eq_left (hb₂.trans (max_le_max ?_ (le_refl _)))
    exact rowBoundary_nonneg (hrows id)

end Batches

/-- Batches merged one after another, each at its own time, with the counts they report. -/
def Store.mergeBatches (s : Store) (io : MergeIo) : List (Time × List Grant) → Store × List Merged
  | [] => (s,[])
  | (now,batch) :: l =>
    let m := s.mergeBatchContext blobAuthority none io io batch now false
    let rest := m.1.mergeBatches io l
    (rest.1,m.2.2 :: rest.2)

def recordsOf (batches : List (Time × List Grant)) : List Grant := batches.flatMap Prod.snd

/-- The row of a name after batches: the disjunction of the marks, and the latest of the boundaries that count. -/
structure Joined (batches : List (Time × List Grant)) (id : String) (row : Option Grant) : Prop where
  isSome : row.isSome = (recordsOf batches).any fun r => r.grantID == id
  revoked : row.any revoked = (recordsOf batches).any fun r => r.grantID == id && r.revoked
  boundary : ∀ t, t ≤ rowBoundary row ↔ t ≤ zero ∨
    ∃ b ∈ batches, ∃ f, firstDenial id b.2 = some f ∧ t ≤ boundaryTime f.reauthenticateAfter

theorem Joined.snoc (h : Joined done id prev) (hb : BatchJoins id batch prev row) :
    Joined (done ++ [(now,batch)]) id row := by
  have hrecords : recordsOf (done ++ [(now,batch)]) = recordsOf done ++ batch := by simp [recordsOf]
  refine ⟨?_,?_,fun t => ?_⟩
  · rw [hrecords,any_append,hb.isSome,h.isSome]
  · rw [hrecords,any_append,hb.revoked,h.revoked]
  rw [hb.boundary,le_max_iff,h.boundary]
  have hlast : t ≤ rowBoundary (firstDenial id batch) ↔ (firstDenial id batch = none ∧ t ≤ zero) ∨
      ∃ f, firstDenial id batch = some f ∧ t ≤ boundaryTime f.reauthenticateAfter := by
    cases firstDenial id batch with
    | none => simp [rowBoundary]
    | some f => simp [rowBoundary]
  rw [hlast]
  simp only [mem_append,mem_singleton,or_and_right,exists_or,exists_eq_left]
  constructor
  · rintro ((h | h) | ⟨-, h⟩ | h)
    · exact .inl h
    · exact .inr (.inl h)
    · exact .inl h
    · exact .inr (.inr h)
  · rintro (h | h | h)
    · exact .inl (.inl h)
    · exact .inl (.inr h)
    · exact .inr (.inr h)

theorem mergeBatches_joined (hag : Agree records) {io : MergeIo} (ho : io.save ≠ .failed)
    {batches : List (Time × List Grant)} (hs : s.sharedLocked = false) (hrows : AllFrom records s.grants)
    (hdone : ∀ id : String, Joined done id s.grants[id]?) (hin : ∀ r ∈ recordsOf batches, r ∈ records)
    (hnow : ∀ b ∈ batches, ∀ r ∈ records, b.1 < (parseRFC3339 r.expiresAt).getD zero) :
    (∀ m ∈ (s.mergeBatches io batches).2, m.err = none) ∧ ∀ id : String,
      (∀ row, (s.mergeBatches io batches).1.grants[id]? = some row → FromRecords records id row) ∧
      Joined (done ++ batches) id (s.mergeBatches io batches).1.grants[id]? := by
  induction batches generalizing s done with
  | nil =>
    refine ⟨by simp [mergeBatches],fun id => ⟨hrows id,?_⟩⟩
    rw [append_nil]
    exact hdone id
  | cons b l ih =>
    obtain ⟨now, batch⟩ := b
    have hsave : s.saveLocked io.save ≠ .failed := by
      unfold saveLocked
      split
      · nofun
      · exact ho
    obtain ⟨herr, hp, hrow⟩ := mergeBatch_join hag blobAuthority hs hrows none hsave hsave
      (fun r hr => hin r (mem_append_left _ hr)) (hnow (now,batch) mem_cons_self)
    have hs' : (s.mergeBatchContext blobAuthority none io io batch now false).1.sharedLocked = false := by
      rw [sharedLocked,hp]
      exact hs
    have hdone' : ∀ id : String, Joined (done ++ [(now,batch)]) id
        (s.mergeBatchContext blobAuthority none io io batch now false).1.grants[id]? := fun id =>
      (hdone id).snoc (hrow id).2
    obtain ⟨herrs, hjoined⟩ := ih hs' (fun id => (hrow id).1) hdone' (fun r hr => hin r (mem_append_right _ hr))
      (fun b hb => hnow b (mem_cons_of_mem _ hb))
    refine ⟨forall_mem_cons.mpr ⟨herr,herrs⟩,fun id => ⟨(hjoined id).1,?_⟩⟩
    have h := (hjoined id).2
    rwa [append_assoc,singleton_append] at h

/-- The store joins the records: each grant that occurs has one row, revoked if one of its records is, with the latest
of its records' boundaries. -/
def JoinOf (records : List Grant) (grants : Map Grant) : Prop :=
  ∀ id : String, (∃ r ∈ records, r.grantID = id) → ∃ row, grants[id]? = some row ∧
    row.revoked = (records.any fun r => r.grantID == id && r.revoked) ∧
    (row.reauthenticateAfter = "" ∨ ∃ r ∈ records, r.grantID = id ∧ r.reauthenticateAfter = row.reauthenticateAfter) ∧
    ∀ r ∈ records, r.grantID = id → boundaryTime r.reauthenticateAfter ≤ boundaryTime row.reauthenticateAfter

/-- No boundary is later than that of the first denial of its grant in every batch. -/
def FirstDenialsLatest (batches : List (Time × List Grant)) : Prop :=
  ∀ r ∈ recordsOf batches, r.reauthenticateAfter = "" ∨ ∃ b ∈ batches, ∃ f, firstDenial r.grantID b.2 = some f ∧
    boundaryTime r.reauthenticateAfter ≤ boundaryTime f.reauthenticateAfter

def deniedAt (boundary : String) : Grant := (dayGrant.withRevoked true).withBoundary boundary

def savedIo : MergeIo where
  clock := 0
  answer := .failed

def denials : List Grant := [deniedAt "2026-09-01T12:00:00Z",deniedAt "2026-09-01T13:00:00Z"]

theorem agree_denials : Agree denials := agree_of_sameAuthorization (by decide +kernel) (by decide +kernel)

end DsseCore.GrantStore

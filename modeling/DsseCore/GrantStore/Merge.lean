import DsseCore.GrantStore.Store

/-!
# What a merge does to one row

The proposals of a batch are one record for each name: the first that is revoked, or else the last.  Each of them
affects its own row only.
-/

namespace DsseCore.GrantStore

open Go Bool
open Std (ExtTreeMap)

variable {p g : Grant} {grants : Map Grant}

theorem validConsumption_revoked {issued expires : Time} (h : validConsumption g issued expires = true)
    (hr : p.revoked = true) (hq : g.authenticationRequestID = p.authenticationRequestID)
    (hc : g.consumedAt = p.consumedAt) : validConsumption p issued expires = true := by
  unfold validConsumption at h ⊢
  rw [hq,hc] at h
  rw [or_eq_true] at h ⊢
  refine h.imp_right fun h => ?_
  cases hp : Time.parseRFC3339 p.consumedAt with
  | none => simp [hp] at h
  | some consumed =>
    simp only [hp,and_eq_true] at h ⊢
    exact ⟨⟨⟨hr,h.1.1.2⟩,h.1.2⟩,h.2⟩

theorem validBoundary_revoked (h : validBoundary g = true) (hr : p.revoked = true)
    (hb : g.reauthenticateAfter = p.reauthenticateAfter) : validBoundary p = true := by
  unfold validBoundary at h ⊢
  rw [hb] at h
  rw [or_eq_true] at h ⊢
  refine h.imp_right fun h => ?_
  cases hp : Time.parseRFC3339 p.reauthenticateAfter with
  | none => simp [hp] at h
  | some after =>
    simp only [hp,and_eq_true] at h ⊢
    exact ⟨hr,h.2⟩

theorem Valid.deny {c b : Grant} {issued expires : Time} (hv : Valid p issued expires)
    (hc : validConsumption c issued expires = true) (hq : c.authenticationRequestID = p.authenticationRequestID)
    (hb : validBoundary b = true) :
    Valid (((p.withRevoked true).withConsumed c.consumedAt).withBoundary b.reauthenticateAfter) issued expires :=
  ⟨⟨hv.issuedAt,hv.expiresAt,hv.lt⟩,hv.deviceUser,hv.features,hv.provider,hv.grantID,hv.tenantID,hv.request,
    validConsumption_revoked hc rfl hq rfl,validBoundary_revoked hb rfl rfl,hv.reauthentication,hv.authTime⟩

theorem validateGrant_withRevoked (h : validateGrant g = true) : validateGrant (g.withRevoked true) = true := by
  obtain ⟨issued, expires, hv⟩ := validateGrant_iff.mp h
  exact validateGrant_iff.mpr ⟨issued,expires,hv.deny hv.consumption rfl hv.boundary⟩

theorem boundaryTime_laterBoundary (a b : String) :
    boundaryTime (laterBoundary a b) = max (boundaryTime a) (boundaryTime b) := by
  unfold laterBoundary
  split
  · next h => exact (max_eq_right h.le).symm
  · next h => exact (max_eq_left (not_lt.mp h)).symm

theorem validBoundary_of_valid (hv : validateGrant g = true) : validBoundary g = true := by
  obtain ⟨issued, expires, h⟩ := validateGrant_iff.mp hv
  exact h.boundary

theorem boundary_cases (hb : validBoundary g = true) :
    g.reauthenticateAfter = "" ∨ Time.zero < boundaryTime g.reauthenticateAfter := by
  unfold validBoundary at hb
  rw [or_eq_true,beq_iff_eq] at hb
  refine hb.imp_right fun hb => ?_
  unfold boundaryTime
  cases hp : Time.parseRFC3339 g.reauthenticateAfter with
  | none => simp [hp] at hb
  | some after =>
    simp only [hp,and_eq_true,decide_eq_true_eq] at hb
    have hpos : 0 ≤ after := by
      by_contra hneg
      have hlt : unix after < 0 := Int.fdiv_neg_of_neg_of_pos (not_le.mp hneg) (by decide)
      exact absurd hb.2 (not_lt.mpr hlt.le)
    exact lt_of_lt_of_le (by decide) hpos

theorem boundaryTime_nonneg (hb : validBoundary g = true) : Time.zero ≤ boundaryTime g.reauthenticateAfter := by
  rcases boundary_cases hb with he | hlt
  · rw [he]
    decide
  · exact hlt.le

def pick (prev : Option Grant) (g : Grant) : Option Grant :=
  match prev with
  | some p => if p.revoked then some p else some g
  | none => some g

theorem foldl_pick_revoked (l : List Grant) (hp : p.revoked = true) : l.foldl pick (some p) = some p := by
  induction l with
  | nil => rfl
  | cons g l ih =>
    simpa [pick,hp] using ih

theorem foldl_pick (l : List Grant) : l.foldl pick none = (l.find? Grant.revoked).or l.getLast? := by
  have hgen : ∀ (l : List Grant) (p : Grant), p.revoked = false →
      l.foldl pick (some p) = (l.find? Grant.revoked).or (some (l.getLast?.getD p)) := by
    intro l
    induction l with
    | nil => intros; rfl
    | cons g l ih =>
      intro p hp
      rw [List.find?_cons]
      cases hg : g.revoked with
      | true => simpa [pick,hp] using foldl_pick_revoked l hg
      | false => simpa [pick,hp,List.getLast?_cons] using ih g hg
  cases l with
  | nil => rfl
  | cons g l =>
    rw [List.find?_cons]
    cases hg : g.revoked with
    | true => simpa [pick] using foldl_pick_revoked l hg
    | false => simpa [pick,List.getLast?_cons] using hgen l g hg

def taken (grants : Map Grant) (raw : Grant) : Grant := restoreEvidence grants[raw.grantID]? (cloneGrant raw)

theorem restoreEvidence_cases (prev : Option Grant) (g : Grant) : restoreEvidence prev g = g ∨
    ∃ p, prev = some p ∧ p.requiresModernReader = false ∧ g.requiresModernReader = false ∧
      restoreEvidence prev g = (cloneGrant p).withRevoked (p.revoked || g.revoked) := by
  unfold restoreEvidence
  cases prev with
  | none => exact .inl rfl
  | some p =>
    dsimp only
    split
    · next hc =>
      simp only [and_eq_true,not_eq_true'] at hc
      exact .inr ⟨p,rfl,hc.1.1.1.1,hc.1.1.1.2,rfl⟩
    · exact .inl rfl

theorem grantID_taken (hk : Keyed grants) (raw : Grant) : (taken grants raw).grantID = raw.grantID := by
  unfold taken
  rcases restoreEvidence_cases grants[raw.grantID]? (cloneGrant raw) with h | ⟨p, hp, -, -, h⟩
  · rw [h,cloneGrant_grantID]
  · rw [h]
    simpa using hk raw.grantID p hp

def takenOf (grants : Map Grant) (incoming : List Grant) (id : String) : List Grant :=
  (incoming.map (taken grants)).filter fun g => g.grantID == id

theorem propose_ok {p p' : Proposals} {raw : Grant} (h : propose grants p raw = .ok p') :
    validateGrant (taken grants raw) = true ∧
      (∀ id : String, p'.rows[id]? =
        if (taken grants raw).grantID = id then pick p.rows[id]? (taken grants raw) else p.rows[id]?) ∧
      ∀ prev, p.rows[(taken grants raw).grantID]? = some prev → prev.tenantID = (taken grants raw).tenantID := by
  unfold propose at h
  rw [← taken] at h
  generalize taken grants raw = g at h ⊢
  dsimp only at h
  split at h
  · cases h
  rename_i hv
  rw [not_eq_true',not_eq_false] at hv
  refine ⟨hv,?_⟩
  cases hp : p.rows[g.grantID]? with
  | none =>
    simp only [hp] at h
    obtain rfl := Except.ok.inj h
    refine ⟨fun id => ?_,nofun⟩
    rw [Map.getElem?_insert_eq]
    split
    · next he =>
      rw [← he,hp]
      rfl
    · rfl
  | some prev =>
    simp only [hp] at h
    split at h
    · cases h
    rename_i ht
    refine ⟨fun id => ?_,fun prev' hprev => ?_⟩
    · split at h
      · next hr =>
        obtain rfl := Except.ok.inj h
        split
        · next he =>
          rw [← he,hp]
          simp [pick,hr]
        · rfl
      · next hr =>
        obtain rfl := Except.ok.inj h
        rw [Map.getElem?_insert_eq]
        split
        · next he =>
          rw [← he,hp]
          simp [pick,hr]
        · rfl
    · obtain rfl := Option.some.inj hprev
      exact not_not.mp ht

theorem proposeAll_row {incoming : List Grant} {p p' : Proposals} (h : proposeAll grants p incoming = .ok p') :
    (∀ raw ∈ incoming, validateGrant (taken grants raw) = true) ∧
      ∀ id : String, p'.rows[id]? = (takenOf grants incoming id).foldl pick p.rows[id]? := by
  induction incoming generalizing p with
  | nil =>
    obtain rfl := Except.ok.inj h
    exact ⟨by simp,fun id => rfl⟩
  | cons raw l ih =>
    unfold proposeAll at h
    cases hp : propose grants p raw with
    | error e => simp [hp] at h
    | ok p₁ =>
      simp only [hp] at h
      obtain ⟨hv, hrow, -⟩ := propose_ok hp
      obtain ⟨hvl, hrowl⟩ := ih h
      refine ⟨List.forall_mem_cons.mpr ⟨hv,hvl⟩,fun id => ?_⟩
      rw [hrowl,hrow,takenOf,takenOf]
      by_cases he : (taken grants raw).grantID = id
      · simp [he]
      · simp [he]

section Rows

variable (now : Time) (authorityEvidence : Bool)

def mergedRow (prev proposal : Option Grant) : Option Grant :=
  match proposal with
  | none => prev
  | some g => (mergeRow now authorityEvidence prev g).active.or (mergeRow now authorityEvidence prev g).row

variable {now authorityEvidence}

theorem mergeRow_row_isSome {prev : Grant} : (mergeRow now authorityEvidence (some prev) g).row ≠ none := by
  unfold mergeRow
  dsimp only
  split
  · simp
  · split <;> simp

theorem mergeRow_row_of_uncounted {prev : Option Grant} (ha : (mergeRow now authorityEvidence prev g).added = 0)
    (hu : (mergeRow now authorityEvidence prev g).updated = 0) :
    (mergeRow now authorityEvidence prev g).row = prev := by
  unfold mergeRow at ha hu ⊢
  cases prev with
  | none =>
    dsimp only at ha hu ⊢
    split at ha
    · cases ha
    rename_i hr
    rw [if_neg hr]
    split <;> rfl
  | some prev =>
    dsimp only at ha hu ⊢
    split at hu
    · cases hu
    rename_i hd
    rw [if_neg hd]
    split <;> rfl

theorem mergeCount_eq_zero {count : MergeRow → ℕ} {rows : Map Grant}
    (h : mergeCount count now authorityEvidence grants rows = 0) {id : String} (hg : rows[id]? = some g) :
    count (mergeRow now authorityEvidence grants[id]? g) = 0 := by
  unfold mergeCount at h
  rw [List.sum_eq_zero_iff] at h
  exact h _ (List.mem_map.mpr ⟨(id,g),ExtTreeMap.mem_toList_iff_getElem?_eq_some.mpr hg,rfl⟩)

theorem getElem?_denyProposals (s : Store) (rows : Map Grant) (id : String) :
    (s.denyProposals now authorityEvidence rows).grants[id]? = match rows[id]? with
      | none => s.grants[id]?
      | some g => (mergeRow now authorityEvidence s.grants[id]? g).row := by
  change (rows.toList.foldl (storeRow now authorityEvidence s.grants) s.grants)[id]? = _
  rw [Map.foldl_toList_obs (fun m k => m[k]?) (storeRow now authorityEvidence s.grants)
    (fun k g old => (mergeRow now authorityEvidence s.grants[k]? g).row.or old) rows]
  · cases hr : rows[id]? with
    | none => rfl
    | some g =>
      cases hs : s.grants[id]? with
      | none => simp
      | some prev =>
        have hne := @mergeRow_row_isSome g now authorityEvidence prev
        cases hrow : (mergeRow now authorityEvidence (some prev) g).row with
        | none => exact absurd hrow hne
        | some row => simp [hrow]
  · intro m a b _ k
    unfold storeRow
    cases hrow : (mergeRow now authorityEvidence s.grants[a]? b).row with
    | none =>
      by_cases he : a = k
      · simp [← he,hrow]
      · simp [he]
    | some row =>
      rw [Map.getElem?_insert_eq]
      by_cases he : a = k
      · simp [← he,hrow]
      · simp [he]

theorem getElem?_admitProposals (s : Store) (active : Map Grant) (changed : Bool) (id : String) :
    (s.admitProposals active changed).grants[id]? = active[id]?.or (s.grants[id]?.map cloneGrant) := by
  change (active.toList.foldl (fun rows e => rows.insert e.1 e.2) (cloneGrants s.grants))[id]? = _
  rw [Map.foldl_toList_obs (fun m k => m[k]?) (fun (rows : Map Grant) (e : String × Grant) => rows.insert e.1 e.2)
    (fun _ g _ => some g) active]
  · rw [getElem?_cloneGrants]
    cases active[id]? <;> rfl
  intro m a b _ k
  rw [Map.getElem?_insert_eq]

theorem mergeProposals_row (s : Store) {o : Save} (ho : s.saveLocked o ≠ .failed) (rows : Map Grant) :
    (s.mergeProposals o now authorityEvidence rows).2.err = none ∧ ∀ id : String,
      (s.mergeProposals o now authorityEvidence rows).1.grants[id]?.map cloneGrant =
        (mergedRow now authorityEvidence s.grants[id]? rows[id]?).map cloneGrant := by
  unfold Store.mergeProposals
  extract_lets added updated enriched active denialChanged denied
  have hpersister : denied.saveLocked o = s.saveLocked o := by
    simp only [denied]
    split <;> rfl
  have hdenied : ∀ id : String, denied.grants[id]? = match rows[id]? with
      | none => s.grants[id]?
      | some g => (mergeRow now authorityEvidence s.grants[id]? g).row := by
    intro id
    cases hc : denialChanged with
    | true =>
      simp only [denied,hc]
      exact getElem?_denyProposals s rows id
    | false =>
      simp only [denied,hc]
      simp only [denialChanged,or_eq_false_iff,decide_eq_false_iff_not,not_lt,Nat.le_zero] at hc
      cases hr : rows[id]? with
      | none => rfl
      | some g =>
        exact (mergeRow_row_of_uncounted (mergeCount_eq_zero hc.1 hr) (mergeCount_eq_zero hc.2 hr)).symm
  have hactive : ∀ id : String, active[id]? =
      rows[id]?.bind fun g => (mergeRow now authorityEvidence s.grants[id]? g).active :=
    fun _ => ExtTreeMap.getElem?_filterMap'
  split
  · next hempty =>
    refine ⟨rfl,fun id => ?_⟩
    have hnone : active[id]? = none := by
      rw [and_eq_true,ExtTreeMap.isEmpty_iff] at hempty
      rw [hempty.1]
      simp
    rw [hactive] at hnone
    rw [hdenied]
    cases hr : rows[id]? with
    | none => rfl
    | some g =>
      rw [hr,Option.bind_some] at hnone
      simp [mergedRow,hnone]
  · rw [if_neg (by rw [hpersister]; exact ho)]
    refine ⟨rfl,fun id => ?_⟩
    rw [getElem?_admitProposals,hactive,hdenied]
    cases hr : rows[id]? with
    | none => simp [mergedRow,Option.map_map,Function.comp_def]
    | some g =>
      simp only [Option.bind_some,mergedRow]
      cases (mergeRow now authorityEvidence s.grants[id]? g).active with
      | none => simp [Option.map_map,Function.comp_def]
      | some a => rfl

end Rows

end DsseCore.GrantStore

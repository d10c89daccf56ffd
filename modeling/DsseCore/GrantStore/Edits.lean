import DsseCore.GrantStore.Rows

/-!
# The edits, one by one

Each edit of a transaction carries the followed rows on.
-/

namespace DsseCore.GrantStore

open Go Store Time
open Std (ExtTreeMap)

variable {next s : Store} {g expected : Grant} {now : Time} {tenant id : String} {b authorityEvidence : Bool} {n : ℕ}
  {incoming : List Grant}

variable {B : Books} {rows : Map Grant}

/-- An edit that takes rows that may be to rows that may be. -/
def EditOk {α : Type} (B : Books) (edit : Edit α) : Prop :=
  ∀ rows next a, RowsOk B rows → edit (candidateStore rows) = .ok (next,a) → RowsOk B next.grants

/-- An edit that takes rows that may be to rows that may be, and carries the followed ones on. -/
def EditCarries {α : Type} (B : Books) (edit : Edit α) : Prop :=
  ∀ rows next a, RowsOk B rows → edit (candidateStore rows) = .ok (next,a) → Carries B rows next.grants

theorem EditCarries.editOk {α : Type} {edit : Edit α} (h : EditCarries B edit) : EditOk B edit :=
  fun rows next a hrows he => (h rows next a hrows he).ok

theorem insert_insert (m : Map Grant) (id : String) (a b : Grant) : (m.insert id a).insert id b = m.insert id b := by
  refine ExtTreeMap.ext_getElem? fun id' => ?_
  rw [Map.getElem?_insert_eq,Map.getElem?_insert_eq,Map.getElem?_insert_eq]
  split <;> rfl

theorem editDenial_ok {r : Store × Denial} {g : Option Grant} (h : editDenial r = .ok (next,g)) :
    r.1 = next ∧ r.2.grant = g := by
  unfold editDenial at h
  split at h
  · exact Prod.mk.inj (Except.ok.inj h)
  · cases h

theorem editOf_ok {α : Type} {r : Store × Except Err α} {a : α} (h : editOf r = .ok (next,a)) :
    r.1 = next ∧ r.2 = .ok a := by
  unfold editOf at h
  split at h
  · next a' ha =>
    obtain ⟨rfl, rfl⟩ := Prod.mk.inj (Except.ok.inj h)
    exact ⟨rfl,ha⟩
  · cases h

theorem mintLocal_ok {g' : Grant} {ttl : Int} (h : s.mintLocal .saved g ttl now = (next,.ok g')) :
    s.grants[(mintRecord g ttl now).grantID]? = none ∧ validateGrant (mintRecord g ttl now) = true ∧
      next.grants = s.grants.insert (mintRecord g ttl now).grantID
        (cloneGrant (tagBoundary s.fences (mintRecord g ttl now))) := by
  unfold mintLocal at h
  generalize mintRecord g ttl now = r at h ⊢
  dsimp only at h
  split at h
  · cases h
  split at h
  · cases h
  split at h
  · cases h
  rename_i hc
  split at h
  · cases h
  rename_i hv
  split at h
  · cases h
  split at h
  · cases h
  rw [Prod.mk.injEq] at h
  refine ⟨?_,by simpa using hv,?_⟩
  · rw [ExtTreeMap.contains_eq_isSome_getElem?,Bool.not_eq_true,Option.isSome_eq_false_iff,
      Option.isNone_iff_eq_none] at hc
    exact hc
  · rw [← h.1]
    rfl

theorem validateGrant_tagBoundary (fences : FenceIndex) (h : validateGrant g = true) :
    validateGrant (tagBoundary fences g) = true := by
  obtain ⟨issued, expires, hv⟩ := validateGrant_iff.mp h
  refine validateGrant_iff.mpr ⟨issued,expires,⟨hv.issuedAt,hv.expiresAt,hv.lt⟩,hv.deviceUser,fun f hf => ?_,hv.provider,
    hv.grantID,hv.tenantID,hv.request,hv.consumption,hv.boundary,hv.reauthentication,hv.authTime⟩
  rcases mem_requireFeature.mp hf with hf | ⟨-, rfl⟩
  · exact hv.features f hf
  · rfl

theorem mint_carries {ttl : Int} (hplain : Plain g)
    (horigin : validateGrant (mintRecord g ttl now) = true → B.origin (mintRecord g ttl now) ∧ B.live (mintRecord g ttl now)) :
    EditCarries B (mintEdit g ttl now) := by
  intro rows next g' h hedit
  obtain ⟨hnext, hok⟩ := editOf_ok hedit
  obtain ⟨hnone, hvalid, hrows⟩ := mintLocal_ok (Prod.ext hnext hok)
  have hsame : SameGrant (tagBoundary (candidateStore rows).fences (mintRecord g ttl now)) (mintRecord g ttl now) := by
    constructor <;> rfl
  rw [hrows]
  refine carries_insert_new h (RowOk.cloneGrant ?_) hnone
  obtain ⟨horigin, hlive⟩ := horigin hvalid
  have hvalid' := validateGrant_tagBoundary (candidateStore rows).fences hvalid
  refine ⟨⟨rfl,hplain,fun t ht => ?_⟩,fun _ => hvalid',fun _ => ⟨hvalid',B.live_congr hsame hlive⟩,rfl,
    B.origin_congr hsame horigin,fun hne => absurd rfl hne⟩
  cases ht.symm.trans parseRFC3339_empty

theorem revokeLocked_grants (s : Store) (o : Save) (id : String) : (s.revokeLocked o id).1.grants = s.grants ∨
    ∃ g, s.grants[id]? = some g ∧ (s.revokeLocked o id).1.grants = s.grants.insert id (g.withRevoked true) := by
  have hpersist : ∀ s : Store, (s.persistLocked o).1.grants = s.grants := by
    intro s
    unfold persistLocked
    split <;> rfl
  unfold revokeLocked
  cases hg : s.grants[id]? with
  | none => exact .inl rfl
  | some g =>
    dsimp only
    split
    · exact .inl (hpersist s)
    · exact .inr ⟨g,rfl,hpersist _⟩

theorem revokeForTenantLocal_grants (s : Store) (o : Save) (tenant id : String) :
    (s.revokeForTenantLocal o tenant id).1.grants = s.grants ∨ ∃ (id' : String) (g : Grant),
      s.grants[id']? = some g ∧ (s.revokeForTenantLocal o tenant id).1.grants = s.grants.insert id' (g.withRevoked true) := by
  unfold revokeForTenantLocal
  dsimp only
  split
  · exact .inl rfl
  split
  · split
    · exact (revokeLocked_grants s o (trimSpace id)).imp_right fun ⟨g, hg, h⟩ => ⟨_,g,hg,h⟩
    · exact .inl rfl
  · exact .inl rfl

theorem revoke_carries (tenant id : String) : EditCarries B (revokeEdit tenant id) := by
  intro rows next g h hedit
  obtain ⟨rfl, -⟩ := editDenial_ok hedit
  rcases revokeForTenantLocal_grants (candidateStore rows) .saved tenant id with heq | ⟨id', g', hg', heq⟩
  · rw [heq]
    exact .refl h
  · rw [heq]
    exact carries_deny h hg' ⟨.inl rfl,.inl rfl⟩ (.inl (withRevoked_eq_denied g'))

theorem revokeLocked_active (s : Store) (o : Save) (hg : s.grants[id]? = some g) (hr : g.revoked = false) :
    (s.revokeLocked o id).1.grants = s.grants.insert id (g.withRevoked true) := by
  rcases revokeLocked_grants s o id with heq | ⟨g', hg', heq⟩
  · unfold revokeLocked persistLocked
    rw [hg]
    simp only [hr]
    split <;> rfl
  · obtain rfl := Option.some.inj (hg.symm.trans hg')
    exact heq

theorem consumable_iff : s.consumable g expected now = true ↔
    g.supported = true ∧ g.revoked = false ∧ sameAuthorization g expected = true ∧
      (∃ expiry, parseRFC3339 g.expiresAt = some expiry ∧ now < expiry) ∧
      authorizationFresh s.fences g g.scope now = true ∧
      ∀ (id : String) g', s.grants[id]? = some g' → g'.tenantID = g.tenantID →
        g'.authenticationRequestID = g.authenticationRequestID → g'.revoked = false := by
  have hnone : (s.grants.toList.any fun e => e.2.tenantID == g.tenantID &&
        e.2.authenticationRequestID == g.authenticationRequestID && e.2.revoked) = false ↔
      ∀ (id : String) g', s.grants[id]? = some g' → g'.tenantID = g.tenantID →
        g'.authenticationRequestID = g.authenticationRequestID → g'.revoked = false := by
    rw [List.any_eq_false]
    constructor
    · intro h id g' hg' ht hr
      have := h (id,g') (ExtTreeMap.mem_toList_iff_getElem?_eq_some.mpr hg')
      simpa [ht,hr] using this
    rintro h ⟨id, g'⟩ he
    have := h id g' (ExtTreeMap.mem_toList_iff_getElem?_eq_some.mp he)
    simp only [Bool.and_eq_true,beq_iff_eq,not_and,Bool.not_eq_true]
    exact fun hand => this hand.1 hand.2
  unfold consumable
  simp only [Bool.and_eq_true,Bool.not_eq_true',hnone,and_assoc]
  cases parseRFC3339 g.expiresAt with
  | none => simp
  | some expiry => simp

theorem consumeAuthenticationLocal_ok (h : s.consumeAuthenticationLocal .saved expected now = (next,.ok b))
    (hk : Keyed s.grants) :
    (b = false ∧ next.grants = s.grants) ∨ (b = true ∧ ∃ g, s.grants[expected.grantID]? = some g ∧
      s.consumable g expected now = true ∧ next.grants = s.grants.insert expected.grantID
        ((g.withConsumed (formatRFC3339 now)).withRevoked true)) := by
  unfold consumeAuthenticationLocal at h
  cases hg : s.grants[expected.grantID]? with
  | none =>
    rw [hg] at h
    obtain ⟨rfl, hb⟩ := Prod.mk.inj h
    exact .inl ⟨(Except.ok.inj hb).symm,rfl⟩
  | some g =>
    rw [hg] at h
    dsimp only at h
    split at h
    · obtain ⟨rfl, hb⟩ := Prod.mk.inj h
      exact .inl ⟨(Except.ok.inj hb).symm,rfl⟩
    rename_i hc
    rw [Bool.not_eq_true',Bool.not_eq_false] at hc
    have hactive : (g.withConsumed (formatRFC3339 now)).revoked = false := by
      rw [Grant.withConsumed_revoked]
      exact (consumable_iff.mp hc).2.1
    have hid : (g.withConsumed (formatRFC3339 now)).grantID = expected.grantID := by
      rw [Grant.withConsumed_grantID]
      exact hk _ g hg
    refine (Bool.eq_false_or_eq_true b).symm.imp (fun hb => ?_) fun hb => ⟨hb,g,rfl,hc,?_⟩
    · subst hb
      split at h
      · cases (Prod.mk.inj h).2
      · cases (Prod.mk.inj h).2
    generalize g.withConsumed (formatRFC3339 now) = g' at h hid hactive ⊢
    rw [hid] at h
    have hget : (s.withGrants (s.grants.insert expected.grantID g')).grants[expected.grantID]? = some g' := by
      rw [withGrants,Map.getElem?_insert_eq,if_pos rfl]
    have hrows := revokeLocked_active (s.withGrants (s.grants.insert expected.grantID g')) .saved hget hactive
    have hinsert : (s.withGrants (s.grants.insert expected.grantID g')).grants.insert expected.grantID
        (g'.withRevoked true) = s.grants.insert expected.grantID (g'.withRevoked true) :=
      insert_insert s.grants expected.grantID g' (g'.withRevoked true)
    split at h
    · cases (Prod.mk.inj h).2
    · obtain ⟨rfl, -⟩ := Prod.mk.inj h
      exact hrows.trans hinsert

theorem consume_carries (hw : ∀ expiry, parseRFC3339 expected.expiresAt = some expiry → now < expiry →
      B.window expected.tenantID expected.grantID (formatRFC3339 now)) : EditCarries B (consumeEdit expected now) := by
  intro rows next b h hedit
  obtain ⟨hnext, hok⟩ := editOf_ok hedit
  have hk : Keyed (candidateStore rows).grants := fun id g hg => (h id g hg).grantID
  rcases consumeAuthenticationLocal_ok (Prod.ext hnext hok) hk with ⟨-, hrows⟩ | ⟨-, g, hg, hc, hrows⟩
  · rw [hrows]
    exact .refl h
  obtain ⟨-, -, hsame, ⟨expiry, hexpiry, hlt⟩, -, -⟩ := consumable_iff.mp hc
  have hauth : authorization g = authorization expected := eq_of_beq hsame
  have htenant : g.tenantID = expected.tenantID := by simpa [authorization] using congrArg Grant.tenantID hauth
  have hexpires : g.expiresAt = expected.expiresAt := by simpa [authorization] using congrArg Grant.expiresAt hauth
  rw [hrows]
  refine carries_deny h hg ⟨.inr ?_,.inl rfl⟩ (.inl (withConsumed_eq_denied g _))
  rw [htenant]
  exact hw expiry (hexpires ▸ hexpiry) hlt

theorem boundaryText_format (hw : Writable now) (hpos : 0 < unix now) :
    BoundaryText (formatRFC3339Nano now) := ⟨now,parse_formatRFC3339Nano hw,hpos,hw.2⟩

theorem RowOk.fenceTime_pos (h : RowOk B id g) {t : Time} (ht : fenceTime g = some t) : 0 < unix t := by
  unfold fenceTime at ht
  split at ht
  · cases ht
  rename_i hc
  obtain rfl := Option.some.inj ht
  simp only [Bool.or_eq_true,beq_iff_eq,not_or] at hc
  have hb := h.boundary
  unfold validBoundary at hb
  rw [Bool.or_eq_true,beq_iff_eq] at hb
  have hb := hb.resolve_left hc.2
  cases hp : parseRFC3339 g.reauthenticateAfter with
  | none => simp [hp] at hb
  | some after =>
    simp only [hp,Bool.and_eq_true,decide_eq_true_eq] at hb
    exact hb.2

theorem unix_mono {a b : Time} (h : a ≤ b) : unix a ≤ unix b := by
  have hpos : 0 < second := by decide
  unfold unix
  rw [Int.fdiv_eq_ediv_of_nonneg _ hpos.le,Int.fdiv_eq_ediv_of_nonneg _ hpos.le]
  exact Int.ediv_le_ediv hpos h

theorem boundaryText_latestCutoff (h : RowsOk B s.grants) (hs : SoundStore s) (hcount : 0 < s.fences.count tenant) :
    BoundaryText (formatRFC3339Nano (latestCutoff s.fences tenant)) := by
  obtain ⟨hwrite, -⟩ := latestCutoff_sound hs tenant
  obtain ⟨e, he⟩ := List.exists_mem_of_length_pos hcount
  rw [List.mem_filter,beq_iff_eq] at he
  have hle := (latestCutoff_spec s.fences tenant).2.1 e he.1 he.2
  have hrow := he.1
  rw [hs.indexed] at hrow
  obtain ⟨g, hg, -, ht⟩ := readIndex_source hrow
  exact boundaryText_format hwrite (lt_of_lt_of_le ((h _ g hg).fenceTime_pos ht) (unix_mono hle))

/-- Synthetic fences may be rows, and they are not among those that may not be lost. -/
def Synthetic (B : Books) (env : Env) (tenant : String) (now : Time) : Prop :=
  ∀ n, B.origin (syntheticFence (env.boundaryID tenant n) tenant now) ∧
    ¬ B.kept (syntheticFence (env.boundaryID tenant n) tenant now)

theorem tenantFence_carries (env : Env) (h : RowsOk B s.grants) (hs : SoundStore s) {boundary : String}
    (hsynthetic : Synthetic B env tenant now) (hb : BoundaryText boundary) :
    Carries B s.grants (s.grants.insert (tenantFence env s tenant now).1
      (cloneGrant ((tenantFence env s tenant now).2.withBoundary boundary))) := by
  unfold tenantFence
  cases hl : s.fences.lookup { tenant := tenant } with
  | none =>
    obtain ⟨hfree, n, hn⟩ := freeBoundaryID_spec env s.grants tenant
    have hok : RowOk B (freeBoundaryID env s.grants tenant)
        (denied (syntheticFence (freeBoundaryID env s.grants tenant) tenant now) "" boundary) := by
      rw [hn]
      refine rowOk_denied ⟨⟨rfl,?_,fun t ht => ?_⟩,fun hk => absurd hk (hsynthetic n).2,by simp [syntheticFence],rfl,
        (hsynthetic n).1,fun hne => absurd rfl hne⟩ ⟨.inl rfl,.inr hb⟩
      · intro k v hk
        simp [syntheticFence] at hk
      · cases ht.symm.trans parseRFC3339_empty
    exact carries_insert_new h hok.cloneGrant hfree
  | some wide =>
    rw [hs.indexed,lookup_eq_some_iff (readIndex_distinct _)] at hl
    obtain ⟨g, hg, -, ht⟩ := readIndex_source hl
    dsimp only at hg ⊢
    rw [hg,Option.getD_some]
    have hrevoked : g.revoked = true := by
      unfold fenceTime at ht
      split at ht
      · cases ht
      rename_i hc
      simp only [Bool.or_eq_true,Bool.not_eq_true',not_or,Bool.not_eq_false] at hc
      exact hc.1
    have heq : g.withBoundary boundary = denied g g.consumedAt boundary := by
      unfold denied
      rw [← hrevoked]
      rfl
    exact carries_deny h hg ⟨.inl rfl,.inr hb⟩ (.inr (by rw [heq]))

/-- No row of the tenant that must be kept has outlived its retention. -/
def Retained (B : Books) (tenant : String) (now : Time) : Prop :=
  ∀ (id : String) g, RowOk B id g → B.kept g → g.tenantID = tenant → expiredBeyondRetention g now = false

theorem withoutPrunable_carries (h : RowsOk B rows) (hret : Retained B tenant now) :
    Carries B rows (withoutPrunable rows tenant now) := by
  refine ⟨fun id g hg => h id g (getElem?_withoutPrunable.mp hg).1,fun id g hg hk => ?_⟩
  refine ⟨g,getElem?_withoutPrunable.mpr ⟨hg,?_⟩,.refl g,fun h => h⟩
  by_cases ht : g.tenantID = tenant
  · simp [prunableGrant,hret id g (h id g hg) hk ht]
  · simp [ht]

theorem consolidate_carries (env : Env) (h : RowsOk B s.grants)
    (hindexed : s.fences = newReauthenticationReadIndex s.grants)
    (hsynthetic : env.threshold ≠ 0 → Synthetic B env tenant now) (hret : env.threshold ≠ 0 → Retained B tenant now) :
    Carries B s.grants (s.consolidateReauthenticationFencesLocked env tenant now).grants := by
  have hs : SoundStore s := ⟨hindexed,fun id g hg => (h id g hg).toSoundRow⟩
  rcases consolidate_eq env s tenant now with heq | ⟨fence, boundary, rows, hthreshold, rfl, rfl, rfl, heq⟩
  · rw [heq]
    exact .refl h
  have hb := boundaryText_latestCutoff h hs (lt_of_le_of_lt (Nat.zero_le _) hthreshold.2)
  have hfence := tenantFence_carries env h hs (hsynthetic hthreshold.1) hb
  rw [heq]
  exact hfence.trans (withoutPrunable_carries hfence.ok (hret hthreshold.1))

theorem requireReauthenticationLocal_carries (env : Env) (h : RowsOk B s.grants) (hw : Writable now)
    (hsynthetic : env.threshold ≠ 0 → Synthetic B env tenant now) (hret : env.threshold ≠ 0 → Retained B tenant now)
    (o : Save) : Carries B s.grants (s.requireReauthenticationLocal env o tenant id now).1.grants := by
  have hpersist : ∀ s : Store, (s.persistLocked o).1.grants = s.grants := by
    intro s
    unfold persistLocked
    split <;> rfl
  unfold requireReauthenticationLocal
  cases hg : s.grants[id]? with
  | none => exact .refl h
  | some g =>
    dsimp only
    split_ifs with htenant hboundary hnow
    · exact .refl h
    · exact .refl h
    · rw [not_or,not_le] at hnow
      have hdeny : Carries B s.grants (s.grants.insert id
          (cloneGrant ((g.withRevoked true).withBoundary (formatRFC3339Nano now)))) :=
        carries_deny h hg ⟨.inl rfl,.inr (boundaryText_format hw hnow.2)⟩ (.inr rfl)
      generalize cloneGrant ((g.withRevoked true).withBoundary (formatRFC3339Nano now)) = g' at hdeny ⊢
      rw [hpersist]
      have hrows : RowsOk B (s.withGrants (s.grants.insert id g')).rebuildReauthenticationIndexLocked.grants := hdeny.ok
      exact hdeny.trans (consolidate_carries env hrows rfl hsynthetic hret)
    · rw [hpersist]
      exact .refl h

theorem requireReauthentication_carries (env : Env) (id : String) (hw : Writable now)
    (hsynthetic : env.threshold ≠ 0 → Synthetic B env tenant now) (hret : env.threshold ≠ 0 → Retained B tenant now) :
    EditCarries B (requireReauthenticationEdit env tenant id now) := by
  intro rows next g h hedit
  obtain ⟨rfl, -⟩ := editDenial_ok hedit
  have hrows : RowsOk B (candidateStore rows).grants := h
  exact requireReauthenticationLocal_carries env hrows hw hsynthetic hret .saved

theorem pruneExpiredLocal_ok {mixed : Bool} (h : s.pruneExpiredLocal .saved now mixed = (next,.ok n)) :
    next.grants = s.grants ∨ next.grants = cloneGrants (prunedRows s.grants now mixed) := by
  unfold pruneExpiredLocal at h
  dsimp only at h
  split at h
  · exact .inl (congrArg grants (Prod.mk.inj h).1).symm
  split at h
  · refine .inr ?_
    have hnext := congrArg grants (Prod.mk.inj h).1
    exact hnext.symm.trans (publishLocked_grants s _)
  · cases (Prod.mk.inj h).2
  · cases (Prod.mk.inj h).2

theorem rowOk_compact (h : RowOk B id g) (hr : g.revoked = true)
    (ho : B.origin (compactExpiredReauthenticationFence g)) (hk : ¬ B.kept (compactExpiredReauthenticationFence g)) :
    RowOk B id (compactExpiredReauthenticationFence g) := by
  have hrevoked : (compactExpiredReauthenticationFence g).revoked = true := by
    simpa [compactExpiredReauthenticationFence] using hr
  refine ⟨soundRow_compact h.toSoundRow,fun h => absurd h hk,fun hf => ?_,?_,ho,fun hc => ?_⟩
  · rw [hrevoked] at hf
    cases hf
  · have hb := h.boundary
    unfold validBoundary at hb ⊢
    simpa [compactExpiredReauthenticationFence,hr] using hb
  · simp [compactExpiredReauthenticationFence] at hc

theorem prune_carries (mixed : Bool) (hret : ∀ (id : String) g, RowOk B id g → expiredBeyondRetention g now = true →
      ¬ B.kept g ∧ ¬ B.kept (compactExpiredReauthenticationFence g) ∧ B.origin (compactExpiredReauthenticationFence g)) :
    EditCarries B (pruneEdit now mixed) := by
  intro rows next n h hedit
  obtain ⟨hnext, hok⟩ := editOf_ok hedit
  have hpruned : Carries B rows (prunedRows rows now mixed) := by
    constructor
    · intro id g' hg'
      rw [getElem?_prunedRows,Option.bind_eq_some_iff] at hg'
      obtain ⟨g, hg, hrow⟩ := hg'
      have hclone := (h id g hg).cloneGrant
      unfold pruneRow at hrow
      split at hrow
      · cases hrow
      split at hrow
      · next hc =>
        obtain rfl := Option.some.inj hrow
        unfold compactable at hc
        simp only [Bool.and_eq_true] at hc
        obtain ⟨-, hk, ho⟩ := hret id _ hclone hc.1.1.1.1.1
        exact rowOk_compact hclone hc.1.1.1.1.2 ho hk
      · obtain rfl := Option.some.inj hrow
        exact hclone
    · intro id g hg hk
      have hfresh : expiredBeyondRetention (cloneGrant g) now = false := by
        rw [← Bool.not_eq_true]
        exact fun he => (hret id _ (h id g hg).cloneGrant he).1 (B.kept_congr (sameGrant_cloneGrant g) hk)
      refine ⟨cloneGrant g,?_,sameGrant_cloneGrant g,fun hr => by simpa using hr⟩
      rw [getElem?_prunedRows,hg,Option.bind_some]
      simp [pruneRow,prunableGrant,compactable,hfresh]
  rcases pruneExpiredLocal_ok (Prod.ext hnext hok) with heq | heq
  · rw [heq]
    exact .refl h
  · rw [heq]
    exact hpruned.trans (carries_cloneGrants hpruned.ok)

theorem removeTenantLocal_ok (h : s.removeTenantLocal .saved tenant = (next,.ok n)) :
    next.grants = s.grants ∨ next.grants = (cloneGrants s.grants).filter fun _ g => g.tenantID != trimSpace tenant := by
  unfold removeTenantLocal at h
  dsimp only at h
  split at h
  · exact .inl (congrArg grants (Prod.mk.inj h).1).symm
  split at h
  · exact .inl (congrArg grants (Prod.mk.inj h).1).symm
  split at h
  · cases (Prod.mk.inj h).2
  · exact .inr (congrArg grants (Prod.mk.inj h).1).symm

theorem removeTenant_ok (tenant : String) : EditOk B (removeTenantEdit tenant) := by
  intro rows next n h hedit
  obtain ⟨hnext, hok⟩ := editOf_ok hedit
  rcases removeTenantLocal_ok (Prod.ext hnext hok) with heq | heq
  · rw [heq]
    exact h
  intro id g hg
  rw [heq,ExtTreeMap.getElem?_filter',Option.filter_eq_some_iff] at hg
  exact rowsOk_cloneGrants h id g hg.1

theorem removeTenant_carries (hother : ∀ (id : String) g, RowOk B id g → B.kept g → g.tenantID ≠ trimSpace tenant) :
    EditCarries B (removeTenantEdit tenant) := by
  intro rows next n h hedit
  refine ⟨removeTenant_ok tenant rows next n h hedit,fun id g hg hk => ?_⟩
  obtain ⟨hnext, hok⟩ := editOf_ok hedit
  rcases removeTenantLocal_ok (Prod.ext hnext hok) with heq | heq
  · exact ⟨g,heq ▸ hg,.refl g,fun hr => hr⟩
  refine ⟨cloneGrant g,?_,sameGrant_cloneGrant g,fun hr => by simpa using hr⟩
  have hrow : (cloneGrants (candidateStore rows).grants)[id]? = some (cloneGrant g) := by
    simp [candidateStore,hg]
  rw [heq,ExtTreeMap.getElem?_filter',hrow]
  simpa using hother id g (h id g hg) hk

structure ReportOk (B : Books) (r : Grant) : Prop where
  plain : Plain r
  bounded : ∀ t, parseRFC3339 r.reauthenticateAfter = some t → t < year10000
  origin : validateGrant r = true → B.origin r ∧ B.live r
  consumed : r.consumedAt ≠ "" → B.window r.tenantID r.grantID r.consumedAt

theorem rowOk_withRevoked (h : RowOk B id g) (hb : g.revoked = true → b = true) : RowOk B id (g.withRevoked b) := by
  cases b with
  | true =>
    rw [withRevoked_eq_denied]
    exact rowOk_denied h ⟨.inl rfl,.inl rfl⟩
  | false =>
    have hr : g.revoked = false := Bool.eq_false_iff.mpr fun hr => Bool.false_ne_true (hb hr)
    rw [← hr]
    exact h

theorem rowOk_taken (h : RowsOk B rows) {raw : Grant} (hraw : ReportOk B raw) (hv : validateGrant (taken rows raw) = true) :
    RowOk B raw.grantID (taken rows raw) := by
  unfold taken at hv ⊢
  rcases restoreEvidence_cases rows[raw.grantID]? (cloneGrant raw) with heq | ⟨p, hp, -, -, heq⟩
  · rw [heq,validateGrant_cloneGrant] at hv
    rw [heq]
    obtain ⟨horigin, hlive⟩ := hraw.origin hv
    exact RowOk.cloneGrant ⟨⟨rfl,hraw.plain,hraw.bounded⟩,fun _ => hv,fun _ => ⟨hv,hlive⟩,validBoundary_of_valid hv,
      horigin,hraw.consumed⟩
  · rw [heq]
    refine rowOk_withRevoked (h _ p hp).cloneGrant fun hr => ?_
    rw [cloneGrant_revoked] at hr
    rw [hr,Bool.true_or]

theorem proposeAll_rowOk (h : RowsOk B rows) (hin : ∀ r ∈ incoming, ReportOk B r) {p : Proposals}
    (hp : proposeAll rows {} incoming = .ok p) (hg : p.rows[id]? = some g) : RowOk B id g := by
  obtain ⟨hvalid, hrow⟩ := proposeAll_row hp
  have hk : Keyed rows := fun id g hg => (h id g hg).grantID
  -- what stands for a name is one of its records
  have hmem : ∀ l : List Grant, l.foldl pick none = some g → g ∈ l := by
    refine fun l => List.foldlRecOn (motive := fun prev => prev = some g → g ∈ l) l pick nofun ?_
    intro prev hprev a ha hpick
    unfold pick at hpick
    split at hpick
    · split at hpick
      · exact hprev hpick
      · exact Option.some.inj hpick ▸ ha
    · exact Option.some.inj hpick ▸ ha
  rw [hrow] at hg
  have hl := hmem _ hg
  rw [takenOf,List.mem_filter,List.mem_map,beq_iff_eq] at hl
  obtain ⟨⟨raw, hraw, rfl⟩, hid⟩ := hl
  rw [grantID_taken hk] at hid
  exact hid ▸ rowOk_taken h (hin raw hraw) (hvalid raw hraw)

theorem sameGrant_of_sameAuthorization {a b : Grant} (h : sameAuthorization a b = true) : SameGrant a b := by
  have heq : authorization a = authorization b := eq_of_beq h
  constructor
  · simpa [authorization] using congrArg Grant.grantID heq
  · simpa [authorization] using congrArg Grant.tenantID heq
  · simpa [authorization] using congrArg Grant.issuedAt heq
  · simpa [authorization] using congrArg Grant.expiresAt heq
  · simpa [authorization] using congrArg Grant.authenticationRequestID heq

theorem authorityEvidenceUpgrade_spec {old full : Grant} (h : authorityEvidenceUpgrade old full = true) :
    SameGrant full old ∧ old.revoked = false := by
  unfold authorityEvidenceUpgrade at h
  split at h
  · cases h
  rename_i hc
  simp only [Bool.or_eq_true,not_or,Bool.not_eq_true] at hc
  split at h
  · cases h
  have hs := sameGrant_of_sameAuthorization h
  refine ⟨⟨?_,?_,?_,?_,?_⟩,hc.1.1.1.1.1.1.1.1.1⟩
  · simpa using hs.grantID.symm
  · simpa using hs.tenantID.symm
  · simpa using hs.issuedAt.symm
  · simpa using hs.expiresAt.symm
  · simpa using hs.request.symm

theorem mergedRow_carries {prev : Option Grant} (hprev : ∀ q, prev = some q → RowOk B id q) (hg : RowOk B id g)
    (hc : conflicts authorityEvidence prev g = false) :
    (∀ row, mergedRow now authorityEvidence prev (some g) = some row → RowOk B id row) ∧
      ∀ q, prev = some q → ∃ row, mergedRow now authorityEvidence prev (some g) = some row ∧ SameGrant row q ∧
        (q.revoked = true → row.revoked = true) := by
  unfold mergedRow mergeRow
  cases prev with
  | none =>
    refine ⟨fun row hrow => ?_,nofun⟩
    dsimp only at hrow
    split_ifs at hrow
    · exact Option.some.inj hrow ▸ hg
    · exact Option.some.inj hrow ▸ hg
    · cases hrow
  | some q =>
    have hq := hprev q rfl
    dsimp only
    split_ifs with hdeny hupgrade
    · -- a denial on the stored row
      have htenant : q.tenantID = g.tenantID := by
        unfold conflicts at hc
        simp only [Bool.or_eq_false_iff,bne_eq_false_iff_eq] at hc
        exact hc.1
      have hd : MayDeny B id q (if g.consumedAt ≠ "" then g.consumedAt else q.consumedAt)
          (laterBoundary q.reauthenticateAfter g.reauthenticateAfter) := by
        refine ⟨?_,hq.laterBoundary hg⟩
        split
        · next hne => exact .inr (htenant ▸ hg.consumed hne)
        · exact .inl rfl
      obtain ⟨hok, hsame, hrev⟩ := denied_spec hq hd (.inr rfl)
      refine ⟨fun row hrow => Option.some.inj hrow ▸ hok,fun q' hq' => ?_⟩
      obtain rfl := Option.some.inj hq'
      exact ⟨denyRow q g,rfl,hsame,fun _ => hrev⟩
    · -- evidence that the stored row lacks
      simp only [Bool.and_eq_true] at hupgrade
      obtain ⟨hsame, hactive⟩ := authorityEvidenceUpgrade_spec hupgrade.2
      refine ⟨fun row hrow => Option.some.inj hrow ▸ hg,fun q' hq' => ?_⟩
      obtain rfl := Option.some.inj hq'
      refine ⟨g,rfl,hsame,fun hr => ?_⟩
      rw [hactive] at hr
      cases hr
    · refine ⟨fun row hrow => Option.some.inj hrow ▸ hq,fun q' hq' => ?_⟩
      obtain rfl := Option.some.inj hq'
      exact ⟨q,rfl,.refl q,fun h => h⟩

theorem mergeLocal_ok {o : Save} (h : (s.mergeLocalWithEvidence o incoming now authorityEvidence).2.err = none)
    (ho : s.saveLocked o ≠ .failed) : ∃ p, proposeAll s.grants {} incoming = .ok p ∧
      (∀ (id : String) g, p.rows[id]? = some g → conflicts authorityEvidence s.grants[id]? g = false) ∧
      ∀ id : String, (s.mergeLocalWithEvidence o incoming now authorityEvidence).1.grants[id]?.map cloneGrant =
        (mergedRow now authorityEvidence s.grants[id]? p.rows[id]?).map cloneGrant := by
  unfold mergeLocalWithEvidence at h ⊢
  cases hp : proposeAll s.grants {} incoming with
  | error e => simp [hp] at h
  | ok p =>
    simp only [hp] at h ⊢
    split at h
    · cases h
    rename_i hactive
    split at h
    · cases h
    rename_i hconflicts
    rw [if_neg hactive,if_neg hconflicts]
    refine ⟨p,rfl,fun id g hg => ?_,(mergeProposals_row s ho p.rows).2⟩
    rw [Bool.not_eq_true,List.any_eq_false] at hconflicts
    have hne := hconflicts (id,g) (ExtTreeMap.mem_toList_iff_getElem?_eq_some.mpr hg)
    exact Bool.eq_false_iff.mpr hne

theorem mergeLocal_carries (h : RowsOk B s.grants) {o : Save} (hin : ∀ r ∈ incoming, ReportOk B r)
    (herr : (s.mergeLocalWithEvidence o incoming now authorityEvidence).2.err = none) (ho : s.saveLocked o ≠ .failed) :
    Carries B s.grants (s.mergeLocalWithEvidence o incoming now authorityEvidence).1.grants := by
  obtain ⟨p, hp, hconflicts, hrow⟩ := mergeLocal_ok herr ho
  generalize (s.mergeLocalWithEvidence o incoming now authorityEvidence).1.grants = next at hrow ⊢
  have hmerged : ∀ id : String,
      (∀ row, mergedRow now authorityEvidence s.grants[id]? p.rows[id]? = some row → RowOk B id row) ∧
        ∀ q, s.grants[id]? = some q → ∃ row, mergedRow now authorityEvidence s.grants[id]? p.rows[id]? = some row ∧
          SameGrant row q ∧ (q.revoked = true → row.revoked = true) := by
    intro id
    cases hg : p.rows[id]? with
    | none => exact ⟨fun row hrow => h id row hrow,fun q hq => ⟨q,hq,.refl q,fun h => h⟩⟩
    | some g => exact mergedRow_carries (h id) (proposeAll_rowOk h hin hp hg) (hconflicts id g hg)
  constructor
  · intro id g hg
    have hid := hrow id
    rw [hg] at hid
    obtain ⟨row, hrow', heq⟩ := Option.map_eq_some_iff.mp hid.symm
    exact rowOk_of_cloneGrant (heq ▸ ((hmerged id).1 row hrow').cloneGrant)
  · intro id q hq _
    obtain ⟨row, hrow', hsame, hrev⟩ := (hmerged id).2 q hq
    have hid := hrow id
    rw [hrow'] at hid
    obtain ⟨g, hg, heq⟩ := Option.map_eq_some_iff.mp hid
    have hgrow : SameGrant g row := (sameGrant_cloneGrant g).symm.trans (heq ▸ sameGrant_cloneGrant row)
    refine ⟨g,hg,hgrow.trans hsame,fun hr => ?_⟩
    rw [← cloneGrant_revoked,heq,cloneGrant_revoked]
    exact hrev hr

theorem merge_carries (pending : Map Grant) (now : Time) (authorityEvidence : Bool) (hin : ∀ r ∈ incoming, ReportOk B r) :
    EditCarries B (mergeEdit pending incoming now authorityEvidence) := by
  intro rows next m h hedit
  unfold mergeEdit editMerge at hedit
  have hrows : RowsOk B (candidateStore rows).grants := h
  have hsub : ∀ r ∈ withoutLatchedGrants pending incoming (candidateStore rows).grants, ReportOk B r :=
    fun r hr => hin r (List.mem_filter.mp hr).1
  cases herr : ((candidateStore rows).mergeLocalWithEvidence .saved
      (withoutLatchedGrants pending incoming (candidateStore rows).grants) now authorityEvidence).2.err with
  | some e => simp [herr] at hedit
  | none =>
    simp only [herr] at hedit
    obtain ⟨rfl, -⟩ := Prod.mk.inj (Except.ok.inj hedit)
    exact mergeLocal_carries hrows hsub herr (by simp [saveLocked,candidateStore])

end DsseCore.GrantStore

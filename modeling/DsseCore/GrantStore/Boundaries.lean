import DsseCore.Lib.Run
import DsseCore.GrantStore.Shared

/-!
# Boundaries never weaken

Pruning, compaction, consolidation, a reload and a further revocation change the rows that carry boundaries.  Each of
them leaves, for every boundary, one that is no earlier under a selector that is at least as wide.
-/

namespace DsseCore.GrantStore

open Go Lib Time List Option
open Std (ExtTreeMap)

variable {rows rows' : Map Grant} {s : Store} {id : String} {g : Grant} {index : FenceIndex} {now : Time}
  {protectedOnly : Bool}

/-- Every boundary of `rows` is also set by `rows'`, no earlier and no narrower. -/
def Covers (rows rows' : Map Grant) : Prop :=
  ∀ (id : String) g t, rows[id]? = some g → fenceTime g = some t →
    ∃ (id' : String) (g' : Grant) (t' : Time), rows'[id']? = some g' ∧ fenceTime g' = some t' ∧
      Wider (fenceSelector g') (fenceSelector g) ∧ t ≤ t'

theorem Covers.refl (rows : Map Grant) : Covers rows rows :=
  fun id g t hg ht => ⟨id,g,t,hg,ht,.refl _,le_refl t⟩

theorem Covers.trans {a b c : Map Grant} (h : Covers a b) (h' : Covers b c) : Covers a c := by
  intro id g t hg ht
  obtain ⟨id', g', t', hg', ht', hw, hle⟩ := h id g t hg ht
  obtain ⟨id'', g'', t'', hg'', ht'', hw', hle'⟩ := h' id' g' t' hg' ht'
  exact ⟨id'',g'',t'',hg'',ht'',hw'.trans hw,le_trans hle hle'⟩

theorem Covers.after_le (h : Covers rows rows') (subject : Grant) (scope : String) :
    (newReauthenticationReadIndex rows).after subject scope ≤
      (newReauthenticationReadIndex rows').after subject scope := by
  refine after_mono fun t ht => ?_
  obtain ⟨id, g, hg, ht, hm⟩ := ht
  obtain ⟨id', g', t', hg', ht', hw, hle⟩ := h id g t hg ht
  exact ⟨t',⟨id',g',hg',ht',hw.matches hm⟩,hle⟩

def SameFence (g g' : Grant) : Prop := fenceTime g' = fenceTime g ∧ fenceSelector g' = fenceSelector g

theorem sameFence_cloneGrant (g : Grant) : SameFence g (cloneGrant g) := by
  refine ⟨?_,?_⟩
  · simp [fenceTime]
  · simp [fenceSelector]

section

variable (hk : Keyed rows)
  (hkept : ∀ (id : String) g, rows[id]? = some g → fenceTime g ≠ none → (∃ g', rows'[id]? = some g' ∧ SameFence g g') ∨ redundantReauthenticationFence g (indexReauthenticationFences rows) = true)
include hk hkept

theorem newest_covered (k : ReauthenticationSelector) (c : FenceCutoff)
    (hc : (indexReauthenticationFences rows).lookup k = some c) :
    ∃ (id' : String) (g' : Grant) (t' : Time), rows'[id']? = some g' ∧ fenceTime g' = some t' ∧
      Wider (fenceSelector g') k ∧ c.time ≤ t' := by
  have hidx := indexes_rows rows
  -- a redundant newest row is redundant because of a strictly wider selector
  induction hn : parts k using Nat.strong_induction_on generalizing k c with
  | _ n ih =>
    obtain ⟨g, hg, rfl, ht⟩ := hidx.source hc
    have hrow := ExtTreeMap.mem_toList_iff_getElem?_eq_some.mp hg
    rcases hkept c.id g hrow (by simp [ht]) with ⟨g', hg', hsame⟩ | hred
    · exact ⟨c.id,g',c.time,hg',hsame.1.trans ht,hsame.2 ▸ .refl _,le_refl _⟩
    obtain ⟨time, hparse, hrev, p, c', hw, hc', hid, hle⟩ := redundantReauthenticationFence_iff.mp hred
    have htime : c.time = time := by
      unfold fenceTime at ht
      split at ht
      · cases ht
      · rw [hparse] at ht
        exact (some.inj ht).symm
    have hne : p ≠ fenceSelector g := by
      rintro rfl
      obtain rfl := some.inj (hc.symm.trans hc')
      exact hid (hk c.id g hrow).symm
    obtain ⟨id', g', t', hg', ht', hw', hle'⟩ := ih (parts p) (hn ▸ hw.parts_lt hne) p c' hc' rfl
    exact ⟨id',g',t',hg',ht',hw'.trans hw,by rw [htime]; exact le_trans hle hle'⟩

theorem covers_of_redundant : Covers rows rows' := by
  intro id g t hg ht
  obtain ⟨c, hc, hle⟩ := (indexes_rows rows).newest (ExtTreeMap.mem_toList_iff_getElem?_eq_some.mpr hg) ht
  obtain ⟨id', g', t', hg', ht', hw, hle'⟩ := newest_covered hk hkept _ c hc
  refine ⟨id',g',t',hg',ht',hw,le_trans ?_ hle'⟩
  rcases hle with hlt | heq
  · exact le_of_lt hlt
  · exact le_of_eq heq.1

end

theorem covers_of_same
    (h : ∀ (id : String) g, rows[id]? = some g → fenceTime g ≠ none → ∃ g', rows'[id]? = some g' ∧ SameFence g g') :
    Covers rows rows' := by
  intro id g t hg ht
  obtain ⟨g', hg', hs⟩ := h id g hg (by simp [ht])
  exact ⟨id,g',t,hg',hs.1.trans ht,hs.2 ▸ .refl _,le_refl t⟩

def year10000 : Time := 253402300800 * second

/-- A row under its own name, with no unknown name that is read as a field and a boundary that can be written. -/
structure SoundRow (id : String) (g : Grant) : Prop where
  grantID : g.grantID = id
  plain : Plain g
  bounded : ∀ t, parseRFC3339 g.reauthenticateAfter = some t → t < year10000

/-- The read index belongs to the rows, and the rows are sound. -/
structure SoundStore (s : Store) : Prop where
  indexed : s.fences = newReauthenticationReadIndex s.grants
  rows : ∀ (id : String) g, s.grants[id]? = some g → SoundRow id g

theorem SoundStore.keyed (h : SoundStore s) : Keyed s.grants := fun id g hg => (h.rows id g hg).grantID

theorem SoundRow.cloneGrant (h : SoundRow id g) : SoundRow id (cloneGrant g) :=
  ⟨by simpa using h.grantID,fun k v hk => h.plain k v (by simpa using hk),fun t ht => h.bounded t (by simpa using ht)⟩

theorem indexReauthenticationFences_cloneGrants (rows : Map Grant) :
    indexReauthenticationFences (cloneGrants rows) = indexReauthenticationFences rows := by
  have hlist : (cloneGrants rows).toList = rows.toList.map fun e => (e.1,cloneGrant e.2) := ExtTreeMap.toList_map
  unfold indexReauthenticationFences
  rw [hlist,foldl_map]
  rfl

theorem readIndex_cloneGrants (rows : Map Grant) :
    newReauthenticationReadIndex (cloneGrants rows) = newReauthenticationReadIndex rows := by
  unfold newReauthenticationReadIndex
  rw [indexReauthenticationFences_cloneGrants]

theorem publishLocked_grants (s : Store) (next : Map Grant) : (s.publishLocked next).grants = cloneGrants next := by
  unfold Store.publishLocked
  split <;> rfl

theorem publishLocked_fences (h : s.fences = newReauthenticationReadIndex s.grants) (next : Map Grant) :
    (s.publishLocked next).fences = newReauthenticationReadIndex (s.publishLocked next).grants := by
  rw [publishLocked_grants,readIndex_cloneGrants]
  unfold Store.publishLocked
  split
  · next heq => rw [← heq]; exact h
  · rfl

theorem sameFence_compact (g : Grant) : SameFence g (compactExpiredReauthenticationFence g) := by
  refine ⟨?_,?_⟩
  · simp [fenceTime,compactExpiredReauthenticationFence]
  · simp [fenceSelector,compactExpiredReauthenticationFence]

theorem pruneRow_some {g' : Grant} (h : pruneRow index now protectedOnly g = some g') :
    g' = g ∨ g' = compactExpiredReauthenticationFence g := by
  unfold pruneRow at h
  split at h
  · cases h
  split at h
  · exact .inr (some.inj h).symm
  · exact .inl (some.inj h).symm

theorem pruneRow_none (h : pruneRow index now protectedOnly g = none) : prunableGrant g index now = true := by
  unfold pruneRow at h
  split at h
  · next hp =>
    rw [Bool.and_eq_true] at hp
    exact hp.1
  · split at h <;> cases h

theorem redundant_of_prunable (h : prunableGrant g index now = true) (hf : fenceTime g ≠ none) :
    redundantReauthenticationFence g index = true := by
  unfold prunableGrant at h
  rw [Bool.and_eq_true,Bool.or_eq_true] at h
  refine h.2.resolve_left fun hempty => hf ?_
  simp [fenceTime,hempty]

theorem redundant_cloneGrant (g : Grant) (index : FenceIndex) :
    redundantReauthenticationFence (cloneGrant g) index = redundantReauthenticationFence g index := by
  rw [Bool.eq_iff_iff,redundantReauthenticationFence_iff,redundantReauthenticationFence_iff,
    (sameFence_cloneGrant g).2]
  simp

def prunedRows (rows : Map Grant) (now : Time) (protectedOnly : Bool) : Map Grant :=
  (cloneGrants rows).filterMap fun _ g => pruneRow (indexReauthenticationFences rows) now protectedOnly g

theorem getElem?_prunedRows (rows : Map Grant) (now : Time) (protectedOnly : Bool) (id : String) :
    (prunedRows rows now protectedOnly)[id]? =
      rows[id]?.bind fun g => pruneRow (indexReauthenticationFences rows) now protectedOnly (cloneGrant g) := by
  unfold prunedRows
  rw [ExtTreeMap.getElem?_filterMap',getElem?_cloneGrants]
  cases rows[id]? <;> rfl

theorem covers_prunedRows (hk : Keyed rows) (now : Time) (protectedOnly : Bool) :
    Covers rows (prunedRows rows now protectedOnly) := by
  refine covers_of_redundant hk fun id g hg hf => ?_
  obtain ⟨htime, hsel⟩ := sameFence_cloneGrant g
  have hget := getElem?_prunedRows rows now protectedOnly id
  rw [hg] at hget
  cases hp : pruneRow (indexReauthenticationFences rows) now protectedOnly (cloneGrant g) with
  | none =>
    refine .inr ?_
    rw [← redundant_cloneGrant]
    exact redundant_of_prunable (pruneRow_none hp) (by rwa [htime])
  | some g' =>
    refine .inl ⟨g',hget.trans hp,?_⟩
    rcases pruneRow_some hp with rfl | rfl
    · exact ⟨htime,hsel⟩
    · obtain ⟨htime', hsel'⟩ := sameFence_compact (cloneGrant g)
      exact ⟨htime'.trans htime,hsel'.trans hsel⟩

theorem soundRow_compact (h : SoundRow id g) : SoundRow id (compactExpiredReauthenticationFence g) :=
  ⟨by simpa [compactExpiredReauthenticationFence] using h.grantID,
    fun k v hk => h.plain k v (by simpa [compactExpiredReauthenticationFence] using hk),
    fun t ht => h.bounded t (by simpa [compactExpiredReauthenticationFence] using ht)⟩

theorem soundRow_prunedRows (h : ∀ (id : String) g, rows[id]? = some g → SoundRow id g)
    (hg : (prunedRows rows now protectedOnly)[id]? = some g) : SoundRow id g := by
  rw [getElem?_prunedRows,bind_eq_some_iff] at hg
  obtain ⟨g', hg', hp⟩ := hg
  rcases pruneRow_some hp with rfl | rfl
  · exact (h id g' hg').cloneGrant
  · exact soundRow_compact (h id g' hg').cloneGrant

section Consolidate

theorem freeBoundaryID_spec (env : Env) (grants : Map Grant) (tenant : String) :
    grants[freeBoundaryID env grants tenant]? = none ∧ ∃ n, freeBoundaryID env grants tenant = env.boundaryID tenant n := by
  have hfree : ∃ id ∈ (range (grants.size + 1)).map (env.boundaryID tenant), grants.contains id = false := by
    by_contra hall
    push Not at hall
    have hsub : (range (grants.size + 1)).map (env.boundaryID tenant) ⊆ grants.keys := by
      intro id hid
      simpa using hall id hid
    have hnodup : ((range (grants.size + 1)).map (env.boundaryID tenant)).Nodup :=
      List.Nodup.map (env.boundaryID_injective tenant) nodup_range
    have hlen := (subperm_of_subset hnodup hsub).length_le
    rw [length_map,length_range,ExtTreeMap.length_keys] at hlen
    omega
  have hfound : ∃ id, ((range (grants.size + 1)).map (env.boundaryID tenant)).find?
      (fun id => !grants.contains id) = some id := by
    obtain ⟨id, hid, hc⟩ := hfree
    exact isSome_iff_exists.mp (find?_isSome.mpr ⟨id,hid,by simp [hc]⟩)
  obtain ⟨id, hid⟩ := hfound
  have hc := find?_some hid
  obtain ⟨n, -, hn⟩ := mem_map.mp (mem_of_find?_eq_some hid)
  unfold freeBoundaryID
  rw [hid,getD_some]
  refine ⟨?_,n,hn.symm⟩
  simp only [ExtTreeMap.contains_eq_isSome_getElem?] at hc
  cases hget : grants[id]? with
  | none => rfl
  | some g => simp [hget] at hc

theorem parseRFC3339_empty : parseRFC3339 "" = none := by decide

theorem fenceTime_of_parse {t : Time} (hr : g.revoked = true) (hp : parseRFC3339 g.reauthenticateAfter = some t) :
    fenceTime g = some t := by
  have hne : g.reauthenticateAfter ≠ "" := by
    intro he
    rw [he] at hp
    cases hp
  simp [fenceTime,hr,hne,hp]

theorem fenceTime_bounded (h : SoundRow id g) {t : Time} (ht : fenceTime g = some t) : t < year10000 := by
  unfold fenceTime at ht
  split at ht
  · cases ht
  obtain rfl := some.inj ht
  cases hp : parseRFC3339 g.reauthenticateAfter with
  | none => decide
  | some t => exact h.bounded t hp

theorem latestCutoff_spec (fences : FenceIndex) (tenant : String) :
    zero ≤ latestCutoff fences tenant ∧
      (∀ e ∈ fences, e.1.tenant = tenant → e.2.time ≤ latestCutoff fences tenant) ∧
      (latestCutoff fences tenant = zero ∨ ∃ e ∈ fences, e.2.time = latestCutoff fences tenant) := by
  have hfold : ∀ (l : FenceIndex) (b : Time),
      let r := l.foldl (fun latest e => if latest < e.2.time then e.2.time else latest) b
      b ≤ r ∧ (∀ e ∈ l, e.2.time ≤ r) ∧ (r = b ∨ ∃ e ∈ l, e.2.time = r) := by
    intro l
    induction l with
    | nil => exact fun b => ⟨le_refl b,by simp,.inl rfl⟩
    | cons e l ih =>
      intro b
      obtain ⟨hb, hall, hmem⟩ := ih (if b < e.2.time then e.2.time else b)
      have hle : b ≤ (if b < e.2.time then e.2.time else b) ∧ e.2.time ≤ (if b < e.2.time then e.2.time else b) := by
        split
        · next hlt => exact ⟨le_of_lt hlt,le_refl _⟩
        · next hlt => exact ⟨le_refl _,not_lt.mp hlt⟩
      refine ⟨le_trans hle.1 hb,forall_mem_cons.mpr ⟨le_trans hle.2 hb,hall⟩,?_⟩
      rcases hmem with heq | ⟨e', he', heq⟩
      · rw [foldl_cons,heq]
        split
        · exact .inr ⟨e,mem_cons_self,rfl⟩
        · exact .inl rfl
      · exact .inr ⟨e',mem_cons_of_mem _ he',heq⟩
  obtain ⟨hz, hall, hmem⟩ := hfold (fences.filter fun e => e.1.tenant == tenant) zero
  refine ⟨hz,fun e he ht => hall e (mem_filter.mpr ⟨he,by simpa using ht⟩),?_⟩
  rcases hmem with heq | ⟨e, he, heq⟩
  · exact .inl heq
  · exact .inr ⟨e,(mem_filter.mp he).1,heq⟩

theorem readIndex_source {e : ReauthenticationSelector × FenceCutoff} (h : e ∈ newReauthenticationReadIndex rows) :
    ∃ g, rows[e.2.id]? = some g ∧ fenceSelector g = e.1 ∧ fenceTime g = some e.2.time := by
  have hidx := indexes_rows rows
  obtain ⟨g, hg, hs, ht⟩ := hidx.source ((lookup_eq_some_iff hidx.distinct).mpr (mem_filter.mp h).1)
  exact ⟨g,ExtTreeMap.mem_toList_iff_getElem?_eq_some.mp hg,hs,ht⟩

theorem readIndex_distinct (rows : Map Grant) : Distinct (newReauthenticationReadIndex rows) :=
  List.Nodup.sublist (List.Sublist.map _ filter_sublist) (indexes_rows rows).distinct

theorem covers_insert_wide {grants : Map Grant} {tenant : String} {wide : Grant} {latest : Time}
    (htime : fenceTime wide = some latest) (hsel : fenceSelector wide = { tenant := tenant })
    (hlatest : ∀ (id : String) g t, grants[id]? = some g → g.tenantID = tenant → fenceTime g = some t → t ≤ latest)
    (hother : ∀ g, grants[id]? = some g → g.tenantID = tenant) : Covers grants (grants.insert id wide) := by
  intro id' g t hg ht
  by_cases htenant : g.tenantID = tenant
  · refine ⟨id,wide,latest,by rw [Map.getElem?_insert_eq,if_pos rfl],htime,?_,hlatest id' g t hg htenant ht⟩
    rw [hsel,← htenant]
    exact wider_tenant (fenceSelector g)
  refine ⟨id',g,t,?_,ht,.refl _,le_refl t⟩
  have hne : id ≠ id' := by
    rintro rfl
    exact htenant (hother g hg)
  rw [Map.getElem?_insert_eq,if_neg hne,hg]

def withoutPrunable (rows : Map Grant) (tenant : String) (now : Time) : Map Grant :=
  rows.filter fun _ g => !(g.tenantID == tenant && prunableGrant g (indexReauthenticationFences rows) now)

theorem getElem?_withoutPrunable {tenant : String} :
    (withoutPrunable rows tenant now)[id]? = some g ↔ rows[id]? = some g ∧
      (g.tenantID == tenant && prunableGrant g (indexReauthenticationFences rows) now) = false := by
  rw [withoutPrunable,ExtTreeMap.getElem?_filter',filter_eq_some_iff,Bool.not_eq_true']

theorem covers_withoutPrunable (hk : Keyed rows) (tenant : String) (now : Time) :
    Covers rows (withoutPrunable rows tenant now) := by
  refine covers_of_redundant hk fun id g hg hf => ?_
  cases hp : g.tenantID == tenant && prunableGrant g (indexReauthenticationFences rows) now with
  | true =>
    rw [Bool.and_eq_true] at hp
    exact .inr (redundant_of_prunable hp.2 hf)
  | false => exact .inl ⟨g,getElem?_withoutPrunable.mpr ⟨hg,hp⟩,rfl,rfl⟩

theorem consolidate_eq (env : Env) (s : Store) (tenant : String) (now : Time) :
    s.consolidateReauthenticationFencesLocked env tenant now = s ∨ ∃ fence boundary rows,
      (env.threshold ≠ 0 ∧ env.threshold < s.fences.count tenant) ∧
      fence = tenantFence env s tenant now ∧ boundary = formatRFC3339Nano (latestCutoff s.fences tenant) ∧
      rows = s.grants.insert fence.1 (cloneGrant (fence.2.withBoundary boundary)) ∧
      s.consolidateReauthenticationFencesLocked env tenant now =
        (s.withGrants (withoutPrunable rows tenant now)).rebuildReauthenticationIndexLocked := by
  unfold Store.consolidateReauthenticationFencesLocked
  split
  · exact .inl rfl
  rename_i hthreshold
  rw [not_or,not_le] at hthreshold
  exact .inr ⟨_,_,_,hthreshold,rfl,rfl,rfl,rfl⟩

variable (hs : SoundStore s)
include hs

theorem latestCutoff_sound (tenant : String) : Writable (latestCutoff s.fences tenant) ∧
    ∀ (id : String) g t, s.grants[id]? = some g → g.tenantID = tenant → fenceTime g = some t →
      t ≤ latestCutoff s.fences tenant := by
  obtain ⟨hz, hall, hmem⟩ := latestCutoff_spec s.fences tenant
  refine ⟨⟨?_,?_⟩,fun id g t hg htenant ht => ?_⟩
  · refine le_trans ?_ hz
    decide
  · rcases hmem with heq | ⟨e, he, heq⟩
    · rw [heq]
      decide
    rw [hs.indexed] at he
    obtain ⟨g, hg, -, ht⟩ := readIndex_source he
    rw [← heq]
    exact fenceTime_bounded (hs.rows _ _ hg) ht
  · -- the read index answers the tenant's own subject with every one of its boundaries
    have hafter := (@after_readIndex_le_iff "" { tenantID := tenant } s.grants (latestCutoff s.fences tenant)).mp
      (after_le_iff.mpr ⟨hz,fun e he hm => ?_⟩)
    · refine hafter.2 t ⟨id,g,hg,ht,?_⟩
      simp [reauthenticationMatches,partMatches,fenceSelector,htenant]
    rw [← hs.indexed] at he
    refine hall e he ?_
    simp only [reauthenticationMatches,Bool.and_eq_true,beq_iff_eq] at hm
    exact hm.1.1.1.1.1.1

theorem tenantFence_spec (env : Env) (tenant : String) (now : Time) :
    (tenantFence env s tenant now).2.revoked = true ∧
      fenceSelector (tenantFence env s tenant now).2 = { tenant := tenant } ∧
      SoundRow (tenantFence env s tenant now).1 ((tenantFence env s tenant now).2.withBoundary "") ∧
      ∀ g, s.grants[(tenantFence env s tenant now).1]? = some g → g.tenantID = tenant := by
  unfold tenantFence
  cases hl : s.fences.lookup { tenant := tenant } with
  | none =>
    have hfree := (freeBoundaryID_spec env s.grants tenant).1
    refine ⟨rfl,rfl,⟨rfl,?_,nofun⟩,fun g hg => ?_⟩
    · intro k v hk
      simp [syntheticFence] at hk
    · rw [hfree] at hg
      cases hg
  | some wide =>
    rw [hs.indexed,lookup_eq_some_iff (readIndex_distinct _)] at hl
    obtain ⟨g, hg, hsel, ht⟩ := readIndex_source hl
    have hrow := hs.rows _ _ hg
    dsimp only at hg hsel ⊢
    rw [hg]
    refine ⟨?_,hsel,⟨hrow.grantID,hrow.plain,nofun⟩,fun g' hg' => ?_⟩
    · unfold fenceTime at ht
      split at ht
      · cases ht
      · next hno => simp_all
    · rw [← some.inj hg']
      exact congrArg ReauthenticationSelector.tenant hsel

theorem consolidate_sound (env : Env) (tenant : String) (now : Time) :
    SoundStore (s.consolidateReauthenticationFencesLocked env tenant now) ∧
      Covers s.grants (s.consolidateReauthenticationFencesLocked env tenant now).grants := by
  obtain ⟨hwrite, hlatest⟩ := latestCutoff_sound hs tenant
  obtain ⟨hrev, hsel, hfence, hother⟩ := tenantFence_spec hs env tenant now
  rcases consolidate_eq env s tenant now with heq | ⟨fence, boundary, rows, -, rfl, hboundary, hrows, heq⟩
  · rw [heq]
    exact ⟨hs,.refl _⟩
  generalize hf : tenantFence env s tenant now = fence at hrev hsel hfence hother hrows
  have hparse : parseRFC3339 boundary = some (latestCutoff s.fences tenant) := by
    rw [hboundary]
    exact parse_formatRFC3339Nano hwrite
  have htime : fenceTime (cloneGrant (fence.2.withBoundary boundary)) = some (latestCutoff s.fences tenant) :=
    fenceTime_of_parse (by simpa using hrev) (by simpa using hparse)
  have hselector : fenceSelector (cloneGrant (fence.2.withBoundary boundary)) = { tenant := tenant } := by
    rw [(sameFence_cloneGrant _).2]
    exact hsel
  have hsound : ∀ (id : String) g, rows[id]? = some g → SoundRow id g := by
    intro id g hg
    rw [hrows,Map.getElem?_insert_eq] at hg
    split at hg
    · next he =>
      obtain rfl := some.inj hg
      refine SoundRow.cloneGrant ⟨he ▸ hfence.grantID,hfence.plain,fun t ht => ?_⟩
      obtain rfl := some.inj (hparse.symm.trans ht)
      exact hwrite.2
    · exact hs.rows id g hg
  have hcover : Covers s.grants rows := hrows ▸ covers_insert_wide htime hselector hlatest hother
  rw [heq]
  refine ⟨⟨rfl,fun id g hg => hsound id g (getElem?_withoutPrunable.mp hg).1⟩,?_⟩
  exact hcover.trans (covers_withoutPrunable (fun id g hg => (hsound id g hg).grantID) tenant now)

end Consolidate

inductive BoundaryOp where
  | pruneExpired (o : Save) (now : Time) (protectedOnly : Bool)
  | consolidate (tenant : String) (now : Time)
  | reload (p : Persister) (clock : Time)
  | requireReauthentication (o : Save) (tenant id : String) (now : Time)

/-- A revocation is dated with an instant that can be written. -/
def BoundaryOp.Dated : BoundaryOp → Prop
  | requireReauthentication _ _ _ now => Writable now
  | _ => True

def BoundaryOp.apply (env : Env) (s : Store) : BoundaryOp → Store
  | pruneExpired o now protectedOnly => (s.pruneExpiredLocal o now protectedOnly).1
  | consolidate tenant now => s.consolidateReauthenticationFencesLocked env tenant now
  | reload p clock => (s.setPersister (some p) (.ok (some (encodeGrantSnapshot s.grants))) clock).1
  | requireReauthentication o tenant id now => (s.requireReauthenticationLocal env o tenant id now).1

theorem pruneExpiredLocal_sound (hs : SoundStore s) (o : Save) (now : Time) (protectedOnly : Bool) :
    SoundStore (s.pruneExpiredLocal o now protectedOnly).1 ∧
      Covers s.grants (s.pruneExpiredLocal o now protectedOnly).1.grants := by
  have hpublished : SoundStore (s.publishLocked (prunedRows s.grants now protectedOnly)) ∧
      Covers s.grants (s.publishLocked (prunedRows s.grants now protectedOnly)).grants := by
    refine ⟨⟨publishLocked_fences hs.indexed _,fun id g hg => ?_⟩,?_⟩
    · rw [publishLocked_grants,getElem?_cloneGrants,map_eq_some_iff] at hg
      obtain ⟨g', hg', rfl⟩ := hg
      exact (soundRow_prunedRows hs.rows hg').cloneGrant
    rw [publishLocked_grants]
    refine (covers_prunedRows hs.keyed now protectedOnly).trans (covers_of_same fun id g hg _ => ?_)
    exact ⟨cloneGrant g,by simp [hg],sameFence_cloneGrant g⟩
  unfold Store.pruneExpiredLocal
  dsimp only
  split
  · exact ⟨hs,.refl _⟩
  split
  · exact ⟨⟨hpublished.1.indexed,hpublished.1.rows⟩,hpublished.2⟩
  · exact ⟨hs,.refl _⟩
  · exact ⟨hs,.refl _⟩

theorem reload_sound (hs : SoundStore s) (p : Persister) (clock : Time) :
    SoundStore (s.setPersister (some p) (.ok (some (encodeGrantSnapshot s.grants))) clock).1 ∧
      Covers s.grants (s.setPersister (some p) (.ok (some (encodeGrantSnapshot s.grants))) clock).1.grants := by
  unfold Store.setPersister
  split
  · exact ⟨hs,.refl _⟩
  dsimp only
  cases hd : decodeShared (encodeGrantSnapshot s.grants) with
  | none => exact ⟨hs,.refl _⟩
  | some fresh =>
    obtain ⟨hread, rfl⟩ := (decodeShared_encode fun id g hg => (hs.rows id g hg).plain).mp hd
    refine ⟨⟨rfl,fun id g hg => ?_⟩,covers_of_same fun id g hg hf => ?_⟩
    · rw [getElem?_cloneGrants,map_eq_some_iff] at hg
      obtain ⟨g', hg', rfl⟩ := hg
      rw [getElem?_validRows,filter_eq_some_iff] at hg'
      exact (hs.rows id g' hg'.1).cloneGrant
    · refine ⟨cloneGrant g,?_,sameFence_cloneGrant g⟩
      have hvalid : validateGrant g = true := (hread id g hg).2.resolve_right fun hempty => hf (by
        simp [fenceTime,hempty])
      simp [hg,hvalid]

theorem requireReauthenticationLocal_sound (hs : SoundStore s) (env : Env) (o : Save) (tenant id : String)
    (hnow : Writable now) : SoundStore (s.requireReauthenticationLocal env o tenant id now).1 ∧
      Covers s.grants (s.requireReauthenticationLocal env o tenant id now).1.grants := by
  have hpersist : ∀ t : Store, (t.persistLocked o).1.grants = t.grants ∧ (t.persistLocked o).1.fences = t.fences := by
    intro t
    unfold Store.persistLocked
    cases t.saveLocked o <;> exact ⟨rfl,rfl⟩
  unfold Store.requireReauthenticationLocal
  cases hg : s.grants[id]? with
  | none => exact ⟨hs,.refl _⟩
  | some g =>
    dsimp only
    split
    · exact ⟨hs,.refl _⟩
    split
    · next hempty =>
      split
      · exact ⟨hs,.refl _⟩
      obtain ⟨g', hg'⟩ : ∃ g', g' = cloneGrant ((g.withRevoked true).withBoundary (formatRFC3339Nano now)) :=
        ⟨_,rfl⟩
      rw [← hg']
      obtain ⟨s₁, hs₁'⟩ : ∃ s₁, s₁ = (s.withGrants (s.grants.insert id g')).rebuildReauthenticationIndexLocked :=
        ⟨_,rfl⟩
      rw [← hs₁']
      have hget : ∀ id' : String, s₁.grants[id']? = if id = id' then some g' else s.grants[id']? := by
        rw [hs₁']
        exact fun id' => Map.getElem?_insert_eq _ _ _ _
      have hs₁ : SoundStore s₁ := by
        refine ⟨by rw [hs₁']; rfl,fun id' g'' hg'' => ?_⟩
        rw [hget] at hg''
        split at hg''
        · next he =>
          obtain rfl := some.inj hg''
          have hrow := hs.rows id g hg
          rw [hg']
          refine SoundRow.cloneGrant ⟨he ▸ hrow.grantID,hrow.plain,fun t ht => ?_⟩
          obtain rfl := some.inj ((parse_formatRFC3339Nano hnow).symm.trans ht)
          exact hnow.2
        · exact hs.rows id' g'' hg''
      have hcover : Covers s.grants s₁.grants := by
        refine covers_of_same fun id' g'' hg'' hf => ⟨g'',?_,rfl,rfl⟩
        rw [hget,if_neg]
        · exact hg''
        rintro rfl
        rw [hg] at hg''
        obtain rfl := some.inj hg''
        exact hf (by simp [fenceTime,hempty])
      obtain ⟨hs₂, hcover₂⟩ := consolidate_sound hs₁ env tenant now
      obtain ⟨hgrants, hfences⟩ := hpersist (s₁.consolidateReauthenticationFencesLocked env tenant now).touched
      refine ⟨⟨?_,?_⟩,?_⟩
      · rw [hgrants,hfences]
        exact hs₂.indexed
      · rw [hgrants]
        exact hs₂.rows
      · rw [hgrants]
        exact hcover.trans hcover₂
    · obtain ⟨hgrants, hfences⟩ := hpersist s
      refine ⟨⟨?_,?_⟩,?_⟩
      · rw [hgrants,hfences]
        exact hs.indexed
      · rw [hgrants]
        exact hs.rows
      · rw [hgrants]
        exact .refl _

theorem boundaryOp_sound {env : Env} (hs : SoundStore s) {op : BoundaryOp} (hop : op.Dated) :
    SoundStore (op.apply env s) ∧ Covers s.grants (op.apply env s).grants := by
  cases op with
  | pruneExpired o now protectedOnly => exact pruneExpiredLocal_sound hs o now protectedOnly
  | consolidate tenant now => exact consolidate_sound hs env tenant now
  | reload p clock => exact reload_sound hs p clock
  | requireReauthentication o tenant id now => exact requireReauthenticationLocal_sound hs env o tenant id hop

def BoundaryStep (env : Env) (s : Store) (op : BoundaryOp) (t : Store) : Prop := op.Dated ∧ t = op.apply env s

def Store.reauthenticationAfterLocked (s : Store) (subject : Grant) (scope : String) : Time :=
  s.fences.after subject scope

/-- Along every sequence of these operations, the boundary of every subject and scope never moves back. -/
theorem boundaries_never_weaken (env : Env) {s t : Store} {ops : List BoundaryOp} (hs : SoundStore s)
    (hrun : Run (BoundaryStep env) s ops t) (subject : Grant) (scope : String) :
    s.reauthenticationAfterLocked subject scope ≤ t.reauthenticationAfterLocked subject scope := by
  have hstep : ∀ s op t, SoundStore s → BoundaryStep env s op t → SoundStore t := by
    rintro s op _ hs ⟨hop, rfl⟩
    exact (boundaryOp_sound hs hop).1
  refine hrun.rel (R := fun s t => s.reauthenticationAfterLocked subject scope ≤
    t.reauthenticationAfterLocked subject scope) hs hstep (fun s => le_refl _) (fun _ _ _ => le_trans) ?_
  rintro s op _ hs ⟨hop, rfl⟩
  obtain ⟨hs', hcover⟩ := @boundaryOp_sound s env hs op hop
  unfold Store.reauthenticationAfterLocked
  rw [hs.indexed,hs'.indexed]
  exact hcover.after_le subject scope

def fencedStore : Store :=
  let fenced := (dayGrant.withRevoked true).withBoundary "2026-09-01T12:00:00Z"
  candidateStore (Map.ofEntries [("day",fenced),("single",singleGrant)])

def fencedOps : List BoundaryOp :=
  [.requireReauthentication .saved "acme" "single" (1788264000 * second),
    .pruneExpired .saved (1788350400 * second) false, .reload .file 0]

theorem fencedStore_sound : SoundStore fencedStore := by
  refine ⟨rfl,fun id g hg => ?_⟩
  rw [fencedStore,candidateStore,Map.getElem?_ofEntries (by simp)] at hg
  simp only [mem_cons,not_mem_nil,or_false] at hg
  rcases hg with ⟨rfl, rfl⟩ | ⟨rfl, rfl⟩
  · refine ⟨rfl,fun k v hk => ?_,fun t ht => ?_⟩
    · simp [dayGrant] at hk
    · obtain rfl : (1788264000 * second : Time) = t := some.inj (Eq.trans (by decide +kernel) ht)
      decide
  · refine ⟨rfl,fun k v hk => ?_,fun t ht => ?_⟩
    · simp [singleGrant] at hk
    · cases ht

theorem boundaries_never_weaken_fencedStore : ∃ t, Run (BoundaryStep (strokeEnv 1)) fencedStore fencedOps t ∧
    fencedStore.reauthenticationAfterLocked { tenantID := "acme" } "web" ≤
      t.reauthenticationAfterLocked { tenantID := "acme" } "web" := by
  have hrun : Run (BoundaryStep (strokeEnv 1)) fencedStore fencedOps _ :=
    (((Run.nil fencedStore).snoc ⟨⟨by decide,by decide⟩,rfl⟩).snoc ⟨trivial,rfl⟩).snoc ⟨trivial,rfl⟩
  exact ⟨_,hrun,boundaries_never_weaken (strokeEnv 1) fencedStore_sound hrun _ _⟩

/-- A boundary for every scope, with an unknown member that is read as the scope. -/
def foldedStore : Store :=
  let fenced := (dayGrant.withRevoked true).withBoundary "2026-09-01T12:00:00Z"
  candidateStore
    (Map.ofEntries [("day",{ fenced with unknownFields := Map.ofEntries [("SCOPE",.str "db")] })])

theorem foldedStore_weakened : (∀ e ∈ foldedStore.grants.toList, e.2.grantID = e.1 ∧ validateGrant e.2 = true) ∧
    (BoundaryOp.apply (strokeEnv 1) foldedStore (.reload .file 0)).reauthenticationAfterLocked
        { tenantID := "acme" } "web" <
      foldedStore.reauthenticationAfterLocked { tenantID := "acme" } "web" := by decide +kernel

end DsseCore.GrantStore

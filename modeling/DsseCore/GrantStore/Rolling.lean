import DsseCore.Go.MapFill
import DsseCore.GrantStore.Codec

/-!
# The rolling format

Two documents stand side by side: the plain map that a released binary reads and writes, and a map with an
independent copy of every row.  Joining them never restores an authorization that either side denies.
-/

namespace DsseCore.GrantStore

open Go Option
open Std (ExtTreeMap)

variable {g : Grant} {rows out : Map Grant} {id : String}

inductive Err where
  | invalidGrant
  | conflict
  | reauthenticationRequired
  | persistence
  | savedWithoutAtomicity
  | pendingPersistence
  | superseded
  | required (field : String)
  deriving DecidableEq

def legacyFields : List String :=
  ["grant_id", "tenant_id", "user_id", "user_email", "username", "user_display_name", "device_id", "idp_id", "acr",
    "amr", "scope", "issued_at", "expires_at", "revoked"]

def legacyProjection (g : Grant) : Map Json :=
  (Map.ofEntries (marshalMembers g)).filter fun k _ => legacyFields.contains k

def rollingRow (id : String) (raw : Json) : Except Err Grant :=
  match unmarshalGrant raw with
  | some g => if g.grantID ≠ id then .error .invalidGrant else if validateGrant g then .ok g else .error .invalidGrant
  | none => .error .invalidGrant

def decodeRollingMap : Option Json → Except Err (Map Grant)
  | none => .ok ∅
  | some raw =>
    match raw.members? with
    | none => .error .invalidGrant
    | some rows => if rows.contains "schema_version" then .error .invalidGrant else rows.fill rollingRow ∅

def joinRow (legacy : Map Grant) (id : String) (full : Grant) : Except Err Grant :=
  match legacy[id]? with
  | none => .ok (if full.requiresModernReader then full else full.withRevoked true)
  | some old =>
    if full.requiresModernReader then .ok (full.withRevoked true)
    else if old.tenantID ≠ full.tenantID then .error .conflict
    else
      let altered := legacyProjection (old.withRevoked false) ≠ legacyProjection (full.withRevoked false)
      .ok (full.withRevoked (full.revoked || decide altered || old.revoked))

def joinRolling (a b : Option Json) : Except Err (Map Grant) :=
  match decodeRollingMap a with
  | .error e => .error e
  | .ok legacy =>
    match decodeRollingMap b with
    | .error e => .error e
    | .ok evidence => evidence.fill (joinRow legacy) (cloneGrants legacy)

def ordinaryRows (rows : Map Grant) : Map Grant := rows.filter fun _ g => !g.requiresModernReader

def legacyHalf (rows : Map Grant) : Json :=
  .ofMap ((ordinaryRows rows).map fun _ g => .ofMap (legacyProjection g))

def splitRolling (rows : Map Grant) : Json × Json := (legacyHalf rows,encodeRows rows)

def Field.legacy (f : Field) : Bool := legacyFields.contains f.name

theorem getElem?_legacyProjection {k : String} {v : Json} : (legacyProjection g)[k]? = some v ↔
    ∃ f : Field, f.legacy = true ∧ (f.omitEmpty && f.isEmpty g) = false ∧ f.name = k ∧ f.value g = v := by
  have hclone : ∀ f : Field, f.legacy = true → f.value (cloneGrant g) = f.value g ∧
      f.isEmpty (cloneGrant g) = f.isEmpty g := by
    intro f hf
    cases f <;> first | exact ⟨rfl,rfl⟩ | exact absurd hf (by decide)
  rw [legacyProjection,ExtTreeMap.getElem?_filter',filter_eq_some_iff,
    Map.getElem?_ofEntries (nodup_marshalMembers g),mem_marshalMembers]
  constructor
  · rintro ⟨hw | ⟨hk, -⟩, hl⟩
    · obtain ⟨f, ho, rfl, rfl⟩ := mem_wireMembers.mp hw
      obtain ⟨hv, he⟩ := hclone f hl
      exact ⟨f,hl,by rwa [he] at ho,rfl,hv.symm⟩
    · have hsub : ∀ k ∈ legacyFields, k ∈ knownGrantFields := by decide
      exact absurd (hsub k (by simpa using hl)) hk
  · rintro ⟨f, hl, ho, rfl, rfl⟩
    obtain ⟨hv, he⟩ := hclone f hl
    exact ⟨.inl (mem_wireMembers.mpr ⟨f,by rwa [he],rfl,hv⟩),hl⟩

theorem isEmpty_iff_value {f : Field} : f.isEmpty g = true ↔ f.value g = f.value {} := by
  refine ⟨value_of_isEmpty,fun h => ?_⟩
  have hs : Function.Injective Json.ofStrings := fun a b hab => by simpa using congrArg Json.strings? hab
  cases f <;> first
    | simpa [Field.value,Field.isEmpty] using h
    | simpa [Field.isEmpty] using hs h

theorem legacyProjection_eq_iff {a b : Grant} :
    legacyProjection a = legacyProjection b ↔ ∀ f : Field, f.legacy = true → f.value a = f.value b := by
  have key : ∀ (g : Grant) (f : Field), f.legacy = true →
      (legacyProjection g)[f.name]? = if (f.omitEmpty && f.isEmpty g) = true then none else some (f.value g) := by
    intro g f hf
    refine ext fun v => ?_
    rw [getElem?_legacyProjection]
    constructor
    · rintro ⟨f', -, ho, hn, rfl⟩
      obtain rfl := Field.name_injective hn
      simp [ho]
    intro h
    split at h
    · cases h
    · next ho => exact ⟨f,hf,by simpa using ho,rfl,some.inj h⟩
  constructor
  · intro h f hf
    have hk : (legacyProjection a)[f.name]? = (legacyProjection b)[f.name]? := by rw [h]
    rw [key a f hf,key b f hf] at hk
    split at hk <;> split at hk
    · next ha hb =>
      rw [Bool.and_eq_true] at ha hb
      rw [value_of_isEmpty ha.2,value_of_isEmpty hb.2]
    · cases hk
    · cases hk
    · exact some.inj hk
  · intro h
    refine ExtTreeMap.ext_getElem? fun k => ext fun v => ?_
    rw [getElem?_legacyProjection,getElem?_legacyProjection]
    refine exists_congr fun f => and_congr_right fun hf => ?_
    have he : f.isEmpty a = f.isEmpty b := by
      rw [Bool.eq_iff_iff,isEmpty_iff_value,isEmpty_iff_value,h f hf]
    rw [he,h f hf]

def legacyGrant (g : Grant) : Grant :=
  { grantID := g.grantID, tenantID := g.tenantID, userID := g.userID, userEmail := g.userEmail,
    username := g.username, userDisplayName := g.userDisplayName, deviceID := g.deviceID, idPID := g.idPID,
    acr := g.acr, amr := g.amr, scope := g.scope, issuedAt := g.issuedAt, expiresAt := g.expiresAt,
    revoked := g.revoked }

theorem value_legacyGrant (g : Grant) (f : Field) :
    f.value (legacyGrant g) = if f.legacy = true then f.value g else f.value {} := by
  cases f <;> rfl

theorem unmarshal_legacyProjection (g : Grant) :
    unmarshalGrant (.ofMap (legacyProjection g)) = some (legacyGrant g) := by
  have hmem : ∀ e : String × Json, e ∈ (legacyProjection g).toList ↔ (legacyProjection g)[e.1]? = some e.2 :=
    fun e => ExtTreeMap.mem_toList_iff_getElem?_eq_some
  have hmembers : ∀ e ∈ (legacyProjection g).toList, field? e.1 = none ∨ ∃ f : Field, e = (f.name,f.value g) := by
    rintro ⟨k, v⟩ he
    obtain ⟨f, -, -, rfl, rfl⟩ := getElem?_legacyProjection.mp ((hmem _).mp he)
    exact .inr ⟨f,rfl⟩
  obtain ⟨g', hg', -, hv⟩ := foldl_readMember hmembers {}
  unfold Json.ofMap unmarshalGrant
  dsimp only
  rw [hg',map_some,some.injEq]
  refine Grant.ext_value (fun f => ?_) (ExtTreeMap.ext_getElem? fun k => ext fun v => ?_)
  · have hfield : ∀ u : Map Json, f.value { g' with unknownFields := u } = f.value g' := fun u => by cases f <;> rfl
    have hin : f.name ∈ (legacyProjection g).toList.map Prod.fst ↔
        f.legacy = true ∧ (f.omitEmpty && f.isEmpty g) = false := by
      rw [List.mem_map]
      constructor
      · rintro ⟨⟨k, v⟩, he, rfl⟩
        obtain ⟨f', hl, ho, hn, -⟩ := getElem?_legacyProjection.mp ((hmem _).mp he)
        obtain rfl := Field.name_injective hn
        exact ⟨hl,ho⟩
      · rintro ⟨hl, ho⟩
        exact ⟨(f.name,f.value g),(hmem _).mpr (getElem?_legacyProjection.mpr ⟨f,hl,ho,rfl,rfl⟩),rfl⟩
    rw [hfield,hv,value_legacyGrant]
    by_cases hl : f.legacy = true
    · split
      · rfl
      rename_i hn
      rw [hin] at hn
      have ho : (f.omitEmpty && f.isEmpty g) = true := by simpa [hl] using hn
      rw [Bool.and_eq_true] at ho
      exact (value_of_isEmpty ho.2).symm
    · rw [if_neg hl,if_neg fun hn => hl (hin.mp hn).1]
  · rw [Map.ofEntries_toList,ExtTreeMap.getElem?_filter',filter_eq_some_iff,getElem?_legacyProjection]
    refine ⟨?_,nofun⟩
    rintro ⟨⟨f, -, -, rfl, -⟩, hk⟩
    have := mem_knownGrantFields.mpr ⟨f,rfl⟩
    simp [this] at hk

def ValidRows (rows : Map Grant) : Prop :=
  ∀ (id : String) g, rows[id]? = some g → g.grantID = id ∧ validateGrant g = true

theorem ValidRows.cloneGrants (h : ValidRows rows) : ValidRows (cloneGrants rows) := by
  intro id g hg
  rw [getElem?_cloneGrants,map_eq_some_iff] at hg
  obtain ⟨g, hg, rfl⟩ := hg
  rw [validateGrant_cloneGrant]
  exact h id g hg

theorem validateGrant_legacyGrant (h : validateGrant g = true) : validateGrant (legacyGrant g) = true := by
  obtain ⟨issued, expires, hv⟩ := validateGrant_iff.mp h
  refine validateGrant_iff.mpr ⟨issued,expires,⟨hv.issuedAt,hv.expiresAt,hv.lt⟩,rfl,?_,rfl,hv.grantID,hv.tenantID,
    rfl,rfl,rfl,rfl,rfl⟩
  simp [legacyGrant]

theorem rollingRow_ok {raw : Json} : rollingRow id raw = .ok g ↔
    unmarshalGrant raw = some g ∧ g.grantID = id ∧ validateGrant g = true := by
  unfold rollingRow
  cases unmarshalGrant raw with
  | none => simp
  | some g' =>
    dsimp only
    split_ifs with hid hv
    · simp_all
      rintro rfl
      exact fun h => absurd h hid
    · simp_all
      rintro rfl
      exact ⟨hid,hv⟩
    simp_all
    rintro rfl
    exact fun _ => hv

theorem decodeRollingMap_ofMap_ok {rows : Map Json} :
    decodeRollingMap (some (.ofMap rows)) = .ok out ↔ rows["schema_version"]? = none ∧
      (∀ (id : String) raw, rows[id]? = some raw → ∃ g, rollingRow id raw = .ok g ∧ out[id]? = some g) ∧
      ∀ id : String, rows[id]? = none → out[id]? = none := by
  simp only [decodeRollingMap,Json.members?_ofMap]
  split
  · next hc =>
    rw [ExtTreeMap.contains_eq_isSome_getElem?] at hc
    refine ⟨nofun,fun h => ?_⟩
    rw [h.1] at hc
    cases hc
  · next hc =>
    rw [Map.fill_ok]
    simp at hc
    simp [hc]

theorem decodeRollingMap_encodeRows (hp : PlainRows rows) : decodeRollingMap (some (encodeRows rows)) = .ok out ↔
      ValidRows rows ∧ rows["schema_version"]? = none ∧ out = cloneGrants rows := by
  rw [encodeRows,decodeRollingMap_ofMap_ok]
  simp only [ExtTreeMap.getElem?_map,map_eq_none_iff,map_eq_some_iff]
  constructor
  · rintro ⟨hs, hrow, hnone⟩
    have hread : ∀ (id : String) g, rows[id]? = some g →
        out[id]? = some (cloneGrant g) ∧ g.grantID = id ∧ validateGrant g = true := by
      intro id g hg
      obtain ⟨g', hok, hout⟩ := hrow id _ ⟨g,hg,rfl⟩
      obtain ⟨hu, hid, hv⟩ := rollingRow_ok.mp hok
      rw [unmarshal_marshalGrant (hp id g hg),some.injEq] at hu
      subst hu
      exact ⟨hout,hid,by rwa [validateGrant_cloneGrant] at hv⟩
    refine ⟨fun id g hg => (hread id g hg).2,hs,ExtTreeMap.ext_getElem? fun id => ?_⟩
    rw [getElem?_cloneGrants]
    cases hg : rows[id]? with
    | none => exact hnone id hg
    | some g => exact (hread id g hg).1
  · rintro ⟨hv, hs, rfl⟩
    refine ⟨hs,?_,fun id h => by simp [h]⟩
    rintro id _ ⟨g, hg, rfl⟩
    refine ⟨cloneGrant g,rollingRow_ok.mpr ⟨unmarshal_marshalGrant (hp id g hg),(hv id g hg).1,?_⟩,by simp [hg]⟩
    rw [validateGrant_cloneGrant]
    exact (hv id g hg).2

theorem getElem?_ordinaryRows (rows : Map Grant) (id : String) :
    (ordinaryRows rows)[id]? = rows[id]?.filter fun g => !g.requiresModernReader := ExtTreeMap.getElem?_filter'

theorem decodeRollingMap_legacyHalf (hv : ValidRows rows) (hs : rows["schema_version"]? = none) :
    decodeRollingMap (some (legacyHalf rows)) = .ok ((ordinaryRows rows).map fun _ g => legacyGrant g) := by
  rw [legacyHalf,decodeRollingMap_ofMap_ok]
  simp only [ExtTreeMap.getElem?_map,map_eq_none_iff,map_eq_some_iff,getElem?_ordinaryRows,
    filter_eq_some_iff]
  refine ⟨by simp [hs],?_,fun id h => h⟩
  rintro id _ ⟨g, ⟨hg, ho⟩, rfl⟩
  exact ⟨legacyGrant g,rollingRow_ok.mpr ⟨unmarshal_legacyProjection g,(hv id g hg).1,
    validateGrant_legacyGrant (hv id g hg).2⟩,g,⟨hg,ho⟩,rfl⟩

theorem joinRow_own (hg : rows[id]? = some g) :
    joinRow ((ordinaryRows rows).map fun _ g => legacyGrant g) id (cloneGrant g) = .ok (cloneGrant g) := by
  unfold joinRow
  rw [ExtTreeMap.getElem?_map,getElem?_ordinaryRows,hg,requiresModernReader_cloneGrant]
  cases ho : g.requiresModernReader with
  | true => simp [Option.filter,ho]
  | false =>
    have hsame : legacyProjection ((legacyGrant g).withRevoked false) =
        legacyProjection ((cloneGrant g).withRevoked false) := by
      rw [legacyProjection_eq_iff]
      intro f hf
      cases f <;> first | rfl | exact absurd hf (by decide)
    have htenant : (legacyGrant g).tenantID = (cloneGrant g).tenantID := rfl
    have hrevoked : (legacyGrant g).revoked = (cloneGrant g).revoked := rfl
    simp only [Option.filter,ho,Bool.not_false,if_true,Option.map_some,Bool.false_eq_true,if_false,htenant,ne_eq,
      not_true_eq_false,hsame,decide_false,Bool.or_false,hrevoked,Bool.or_self,Grant.withRevoked_self]

theorem joinRolling_ok {a b : Option Json} : joinRolling a b = .ok out ↔
    ∃ legacy evidence, decodeRollingMap a = .ok legacy ∧ decodeRollingMap b = .ok evidence ∧
      (∀ (id : String) full, evidence[id]? = some full → ∃ g, joinRow legacy id full = .ok g ∧ out[id]? = some g) ∧
      ∀ id : String, evidence[id]? = none → out[id]? = (cloneGrants legacy)[id]? := by
  unfold joinRolling
  cases decodeRollingMap a with
  | error e => simp
  | ok legacy =>
    cases decodeRollingMap b with
    | error e => simp
    | ok evidence =>
      rw [Map.fill_ok]
      constructor
      · exact fun h => ⟨legacy,evidence,rfl,rfl,h⟩
      · rintro ⟨_, _, hl, he, h⟩
        rwa [← Except.ok.inj hl,← Except.ok.inj he] at h

/-- Splitting and joining keeps the rows, up to the tags of their features, unless one of them is stored under the
name that marks a versioned document. -/
theorem joinRolling_split (hp : PlainRows rows) :
    joinRolling (some (splitRolling rows).1) (some (splitRolling rows).2) = .ok out ↔
      ValidRows rows ∧ rows["schema_version"]? = none ∧ out = cloneGrants rows := by
  rw [joinRolling_ok]
  constructor
  · rintro ⟨legacy, evidence, hl, he, hrow, hnone⟩
    obtain ⟨hv, hs, rfl⟩ := (decodeRollingMap_encodeRows hp).mp he
    rw [splitRolling,decodeRollingMap_legacyHalf hv hs,Except.ok.injEq] at hl
    subst hl
    refine ⟨hv,hs,ExtTreeMap.ext_getElem? fun id => ?_⟩
    rw [getElem?_cloneGrants]
    cases hg : rows[id]? with
    | none =>
      rw [hnone id (by simp [hg]),getElem?_cloneGrants,ExtTreeMap.getElem?_map,getElem?_ordinaryRows,hg]
      rfl
    | some g =>
      obtain ⟨g', hok, hout⟩ := hrow id (cloneGrant g) (by simp [hg])
      rw [joinRow_own hg,Except.ok.injEq] at hok
      rw [hout,← hok]
      rfl
  · rintro ⟨hv, hs, rfl⟩
    refine ⟨_,_,decodeRollingMap_legacyHalf hv hs,(decodeRollingMap_encodeRows hp).mpr ⟨hv,hs,rfl⟩,?_,?_⟩
    · intro id full hfull
      obtain ⟨g, hg, rfl⟩ := map_eq_some_iff.mp ((getElem?_cloneGrants rows id).symm.trans hfull)
      exact ⟨_,joinRow_own hg,hfull⟩
    intro id hid
    rw [getElem?_cloneGrants,map_eq_none_iff] at hid
    simp [getElem?_ordinaryRows,hid]

/-- What joining keeps of the row `g`, against the legacy copy `old` that a released writer left. -/
structure Kept (g : Grant) (old : Option Grant) (g' : Grant) : Prop where
  /-- Everything but the revocation mark is that of the row. -/
  authorization : g' = (cloneGrant g).withRevoked g'.revoked
  revoked : g.revoked = true → g'.revoked = true
  marked : ∀ o, old = some o → o.revoked = true → g'.revoked = true
  altered : ∀ o, old = some o → (∃ f : Field, f.legacy = true ∧ f ≠ .revoked ∧ f.value o ≠ f.value g) →
    g'.revoked = true
  omitted : g.requiresModernReader = false → old = none → g'.revoked = true

theorem legacyProjection_withRevoked_eq_iff {a b : Grant} :
    legacyProjection (a.withRevoked false) = legacyProjection (b.withRevoked false) ↔
      ∀ f : Field, f.legacy = true → f ≠ .revoked → f.value a = f.value b := by
  have hval : ∀ (g : Grant) (f : Field), f ≠ .revoked → f.value (g.withRevoked false) = f.value g := by
    intro g f hf
    cases f <;> first | rfl | exact absurd rfl hf
  rw [legacyProjection_eq_iff]
  refine forall_congr' fun f => forall_congr' fun _ => ?_
  by_cases hf : f = .revoked
  · subst hf
    simp [Field.value]
  · simp [hf,hval]

theorem joinRow_kept {legacy : Map Grant} {g' : Grant} (h : joinRow legacy id (cloneGrant g) = .ok g') :
    Kept g legacy[id]? g' := by
  have hmodern := requiresModernReader_cloneGrant g
  unfold joinRow at h
  cases hold : legacy[id]? with
  | none =>
    rw [hold] at h
    rw [hmodern,Except.ok.injEq] at h
    cases hm : g.requiresModernReader with
    | true =>
      rw [hm] at h
      subst h
      exact ⟨rfl,fun hr => hr,nofun,nofun,by simp [hm]⟩
    | false =>
      simp only [hm] at h
      subst h
      exact ⟨rfl,fun _ => rfl,nofun,nofun,fun _ _ => rfl⟩
  | some old =>
    rw [hold] at h
    dsimp only at h
    split_ifs at h with hm ht
    · obtain rfl := Except.ok.inj h
      exact ⟨rfl,fun _ => rfl,fun _ _ _ => rfl,fun _ _ _ => rfl,fun _ _ => rfl⟩
    obtain rfl := Except.ok.inj h
    refine ⟨rfl,fun hr => ?_,fun o ho hr => ?_,fun o ho hf => ?_,nofun⟩
    · simp [hr]
    · obtain rfl := some.inj ho
      simp [hr]
    obtain rfl := some.inj ho
    have hne : legacyProjection (old.withRevoked false) ≠ legacyProjection ((cloneGrant g).withRevoked false) := by
      rw [ne_eq,legacyProjection_withRevoked_eq_iff]
      obtain ⟨f, hl, hrev, hv⟩ := hf
      refine fun hall => hv ((hall f hl hrev).trans ?_)
      cases f <;> first | rfl | exact absurd hl (by decide)
    simp [hne]

/-- The legacy half may be replaced by any document a released writer stores; joining it with the evidence loses no
row and undoes no denial. -/
def RollingSafe (rows : Map Grant) : Prop :=
  joinRolling (some (splitRolling rows).1) (some (splitRolling rows).2) = .ok (cloneGrants rows) ∧
    ∀ (foreign : Json) (legacy out : Map Grant), decodeRollingMap (some foreign) = .ok legacy →
      joinRolling (some foreign) (some (splitRolling rows).2) = .ok out →
      ∀ (id : String) g, rows[id]? = some g → ∃ g', out[id]? = some g' ∧ Kept g legacy[id]? g'

theorem rollingSafe_iff (rows : Map Grant) (hp : PlainRows rows) (hvalid : ∀ (id : String) g, rows[id]? = some g →
    validateGrant g = true) :
    RollingSafe rows ↔ (Keyed rows ∧ rows["schema_version"]? = none) := by
  constructor
  · rintro ⟨hsplit, -⟩
    obtain ⟨hv, hs, -⟩ := (joinRolling_split hp).mp hsplit
    exact ⟨fun id g hg => (hv id g hg).1,hs⟩
  rintro ⟨hk, hs⟩
  have hv : ValidRows rows := fun id g hg => ⟨hk id g hg,hvalid id g hg⟩
  refine ⟨(joinRolling_split hp).mpr ⟨hv,hs,rfl⟩,?_⟩
  intro foreign legacy out hl hjoin id g hg
  obtain ⟨legacy', evidence, hl', he, hrow, -⟩ := joinRolling_ok.mp hjoin
  obtain rfl : legacy = legacy' := Except.ok.inj (hl.symm.trans hl')
  obtain ⟨-, -, rfl⟩ := (decodeRollingMap_encodeRows hp).mp he
  obtain ⟨g', hok, hout⟩ := hrow id (cloneGrant g) (by simp [hg])
  exact ⟨g',hout,joinRow_kept hok⟩

def dayGrant : Grant where
  grantID := "day"
  tenantID := "acme"
  userID := "u1"
  idPID := "idp"
  issuedAt := "2026-09-01T10:00:00Z"
  expiresAt := "2026-09-01T18:00:00Z"

def singleGrant : Grant where
  grantID := "single"
  tenantID := "acme"
  userID := "u2"
  idPID := "idp"
  deviceID := "d1"
  issuer := "https://idp.example"
  providerConfigSHA256 := "00000000000000000000000000000000000000000000000000000000000000ff"
  scope := "db"
  authenticationRequestID := "r1"
  reauthenticationStartedAt := "2026-09-01T09:59:00Z"
  authTime := "2026-09-01T09:59:30Z"
  issuedAt := "2026-09-01T10:00:00Z"
  expiresAt := "2026-09-01T10:05:00Z"

def sampleRows : Map Grant := Map.ofEntries [("day",dayGrant),("single",singleGrant)]

theorem sampleRows_valid : ∀ e ∈ sampleRows.toList, e.2.grantID = e.1 ∧ validateGrant e.2 = true ∧
    e.2.unknownFields.isEmpty = true := by decide +kernel

theorem rollingSafe_sampleRows : RollingSafe sampleRows := by
  have hrow : ∀ (id : String) g, sampleRows[id]? = some g → g.grantID = id ∧ validateGrant g = true ∧
      g.unknownFields.isEmpty = true :=
    fun id g hg => sampleRows_valid (id,g) (ExtTreeMap.mem_toList_iff_getElem?_eq_some.mpr hg)
  refine (rollingSafe_iff sampleRows ?_ fun id g hg => (hrow id g hg).2.1).mpr ⟨fun id g hg => (hrow id g hg).1,?_⟩
  · intro id g hg k v hk
    rw [ExtTreeMap.isEmpty_iff.mp (hrow id g hg).2.2] at hk
    simp at hk
  · decide +kernel

/-- A valid grant may carry the name that marks a versioned document. -/
def reservedRows : Map Grant :=
  Map.ofEntries [("schema_version",{ dayGrant with grantID := "schema_version" })]

theorem reservedRows_lost : (∀ e ∈ reservedRows.toList, e.2.grantID = e.1 ∧ validateGrant e.2 = true) ∧
    ¬ RollingSafe reservedRows := by
  have hjoin : joinRolling (some (splitRolling reservedRows).1) (some (splitRolling reservedRows).2) =
      .error .invalidGrant := by decide +kernel
  refine ⟨by decide +kernel,fun h => ?_⟩
  rw [RollingSafe,hjoin] at h
  cases h.1

end DsseCore.GrantStore

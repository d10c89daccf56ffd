import DsseCore.GrantStore.Grant

/-!
# The JSON form of grants

A grant is written with the tags of its features and with the members its reader did not know.  A reader takes a
member for a field by its exact name and otherwise by a name equal up to case, in the order the members stand.  The
round trip therefore needs that no unknown name is read as a field.
-/

namespace DsseCore.GrantStore

open Go Json List
open Std (ExtTreeMap)

/-- The members of the wire format, in the order of the record. -/
inductive Field where
  | osPrincipal
  | osSession
  | requiredFeatures
  | reauthenticationStartedAt
  | authenticationRequestID
  | grantID
  | tenantID
  | userID
  | userEmail
  | username
  | userDisplayName
  | deviceID
  | idPID
  | issuer
  | providerConfigSHA256
  | acr
  | amr
  | authTime
  | scope
  | issuedAt
  | expiresAt
  | revoked
  | consumedAt
  | reauthenticateAfter
  deriving DecidableEq

namespace Field

def all : List Field :=
  [.osPrincipal, .osSession, .requiredFeatures, .reauthenticationStartedAt, .authenticationRequestID, .grantID,
    .tenantID, .userID, .userEmail, .username, .userDisplayName, .deviceID, .idPID, .issuer,
    .providerConfigSHA256, .acr, .amr, .authTime, .scope, .issuedAt, .expiresAt, .revoked, .consumedAt,
    .reauthenticateAfter]

def name : Field → String
  | osPrincipal => "os_principal"
  | osSession => "os_session"
  | requiredFeatures => "required_features"
  | reauthenticationStartedAt => "reauthentication_started_at"
  | authenticationRequestID => "authentication_request_id"
  | grantID => "grant_id"
  | tenantID => "tenant_id"
  | userID => "user_id"
  | userEmail => "user_email"
  | username => "username"
  | userDisplayName => "user_display_name"
  | deviceID => "device_id"
  | idPID => "idp_id"
  | issuer => "issuer"
  | providerConfigSHA256 => "provider_config_sha256"
  | acr => "acr"
  | amr => "amr"
  | authTime => "auth_time"
  | scope => "scope"
  | issuedAt => "issued_at"
  | expiresAt => "expires_at"
  | revoked => "revoked"
  | consumedAt => "consumed_at"
  | reauthenticateAfter => "reauthenticate_after"

def omitEmpty : Field → Bool
  | grantID | tenantID | userID | idPID | issuedAt | expiresAt => false
  | _ => true

def isEmpty (g : Grant) : Field → Bool
  | osPrincipal => g.osPrincipal == ""
  | osSession => g.osSession == ""
  | requiredFeatures => g.requiredFeatures.isEmpty
  | reauthenticationStartedAt => g.reauthenticationStartedAt == ""
  | authenticationRequestID => g.authenticationRequestID == ""
  | grantID => g.grantID == ""
  | tenantID => g.tenantID == ""
  | userID => g.userID == ""
  | userEmail => g.userEmail == ""
  | username => g.username == ""
  | userDisplayName => g.userDisplayName == ""
  | deviceID => g.deviceID == ""
  | idPID => g.idPID == ""
  | issuer => g.issuer == ""
  | providerConfigSHA256 => g.providerConfigSHA256 == ""
  | acr => g.acr == ""
  | amr => g.amr.isEmpty
  | authTime => g.authTime == ""
  | scope => g.scope == ""
  | issuedAt => g.issuedAt == ""
  | expiresAt => g.expiresAt == ""
  | revoked => !g.revoked
  | consumedAt => g.consumedAt == ""
  | reauthenticateAfter => g.reauthenticateAfter == ""

def value (g : Grant) : Field → Json
  | osPrincipal => .str g.osPrincipal
  | osSession => .str g.osSession
  | requiredFeatures => .ofStrings g.requiredFeatures
  | reauthenticationStartedAt => .str g.reauthenticationStartedAt
  | authenticationRequestID => .str g.authenticationRequestID
  | grantID => .str g.grantID
  | tenantID => .str g.tenantID
  | userID => .str g.userID
  | userEmail => .str g.userEmail
  | username => .str g.username
  | userDisplayName => .str g.userDisplayName
  | deviceID => .str g.deviceID
  | idPID => .str g.idPID
  | issuer => .str g.issuer
  | providerConfigSHA256 => .str g.providerConfigSHA256
  | acr => .str g.acr
  | amr => .ofStrings g.amr
  | authTime => .str g.authTime
  | scope => .str g.scope
  | issuedAt => .str g.issuedAt
  | expiresAt => .str g.expiresAt
  | revoked => .bool g.revoked
  | consumedAt => .str g.consumedAt
  | reauthenticateAfter => .str g.reauthenticateAfter

def assign (g : Grant) (v : Json) : Field → Option Grant
  | osPrincipal => (v.string? g.osPrincipal).map fun s => { g with osPrincipal := s }
  | osSession => (v.string? g.osSession).map fun s => { g with osSession := s }
  | requiredFeatures => v.strings?.map fun l => { g with requiredFeatures := l }
  | reauthenticationStartedAt => (v.string? g.reauthenticationStartedAt).map fun s => { g with reauthenticationStartedAt := s }
  | authenticationRequestID => (v.string? g.authenticationRequestID).map fun s => { g with authenticationRequestID := s }
  | grantID => (v.string? g.grantID).map fun s => { g with grantID := s }
  | tenantID => (v.string? g.tenantID).map fun s => { g with tenantID := s }
  | userID => (v.string? g.userID).map fun s => { g with userID := s }
  | userEmail => (v.string? g.userEmail).map fun s => { g with userEmail := s }
  | username => (v.string? g.username).map fun s => { g with username := s }
  | userDisplayName => (v.string? g.userDisplayName).map fun s => { g with userDisplayName := s }
  | deviceID => (v.string? g.deviceID).map fun s => { g with deviceID := s }
  | idPID => (v.string? g.idPID).map fun s => { g with idPID := s }
  | issuer => (v.string? g.issuer).map fun s => { g with issuer := s }
  | providerConfigSHA256 => (v.string? g.providerConfigSHA256).map fun s => { g with providerConfigSHA256 := s }
  | acr => (v.string? g.acr).map fun s => { g with acr := s }
  | amr => v.strings?.map fun l => { g with amr := l }
  | authTime => (v.string? g.authTime).map fun s => { g with authTime := s }
  | scope => (v.string? g.scope).map fun s => { g with scope := s }
  | issuedAt => (v.string? g.issuedAt).map fun s => { g with issuedAt := s }
  | expiresAt => (v.string? g.expiresAt).map fun s => { g with expiresAt := s }
  | revoked => (v.bool? g.revoked).map fun b => { g with revoked := b }
  | consumedAt => (v.string? g.consumedAt).map fun s => { g with consumedAt := s }
  | reauthenticateAfter => (v.string? g.reauthenticateAfter).map fun s => { g with reauthenticateAfter := s }

end Field

def knownGrantFields : List String :=
  ["os_principal", "os_session", "reauthentication_started_at", "authentication_request_id", "reauthenticate_after",
    "grant_id", "tenant_id", "user_id", "user_email", "username", "user_display_name", "device_id", "idp_id",
    "issuer", "provider_config_sha256", "acr", "amr", "auth_time", "scope", "issued_at", "expires_at", "revoked",
    "consumed_at", "required_features"]

/-- The field a member is read into: by its exact name, or else by a name equal up to case. -/
def field? (key : String) : Option Field :=
  (Field.all.find? fun f => f.name == key).or (Field.all.find? fun f => equalFold key f.name)

def wireMembers (g : Grant) : List (String × Json) :=
  Field.all.filterMap fun f => if f.omitEmpty && f.isEmpty g then none else some (f.name,f.value g)

def addUnknown (fields : Map Json) (e : String × Json) : Map Json :=
  fields.insertIf (!knownGrantFields.contains e.1) e.1 e.2

def marshalMembers (g : Grant) : List (String × Json) :=
  let raw := wireMembers (addSingleRequestFeature (cloneGrant g))
  if g.unknownFields.isEmpty then raw
  else (g.unknownFields.toList.foldl addUnknown (Map.ofEntries raw)).toList

def marshalGrant (g : Grant) : Json := .obj (marshalMembers g)

def readMember (g : Option Grant) (e : String × Json) : Option Grant :=
  g.bind fun g => match field? e.1 with
    | some f => f.assign g e.2
    | none => some g

def unmarshalGrant : Json → Option Grant
  | .null => some {}
  | .obj l => (l.foldl readMember (some {})).map fun g =>
    { g with unknownFields := (Map.ofEntries l).filter fun k _ => !knownGrantFields.contains k }
  | _ => none

/-- No unknown name of the grant is read as one of its fields. -/
def Plain (g : Grant) : Prop := ∀ (k : String) v, g.unknownFields[k]? = some v → field? k = none

theorem field?_name (f : Field) : field? f.name = some f := by
  cases f <;> rfl

variable {k : String}

theorem mem_knownGrantFields : k ∈ knownGrantFields ↔ ∃ f : Field, f.name = k := by
  constructor
  · intro h
    have hall : ∀ k ∈ knownGrantFields, ∃ f ∈ Field.all, f.name = k := by decide +kernel
    obtain ⟨f, -, hf⟩ := hall k h
    exact ⟨f,hf⟩
  · rintro ⟨f, rfl⟩
    cases f <;> decide

theorem not_known_of_field?_eq_none (h : field? k = none) : k ∉ knownGrantFields := by
  rintro hk
  obtain ⟨f, rfl⟩ := mem_knownGrantFields.mp hk
  rw [field?_name] at h
  cases h

theorem Field.name_injective : Function.Injective Field.name := by
  intro f f' h
  have := field?_name f
  rw [h,field?_name] at this
  exact (Option.some.inj this).symm

variable {g : Grant}

theorem Grant.ext_value {h : Grant} (hv : ∀ f : Field, f.value g = f.value h) (hu : g.unknownFields = h.unknownFields) :
    g = h := by
  have hs : Function.Injective ofStrings := fun a b hab => by
    have := congrArg strings? hab
    simpa using this
  cases g
  cases h
  congr 1
  · exact str.inj (hv .osPrincipal)
  · exact str.inj (hv .osSession)
  · exact hs (hv .requiredFeatures)
  · exact str.inj (hv .reauthenticationStartedAt)
  · exact str.inj (hv .authenticationRequestID)
  · exact str.inj (hv .grantID)
  · exact str.inj (hv .tenantID)
  · exact str.inj (hv .userID)
  · exact str.inj (hv .userEmail)
  · exact str.inj (hv .username)
  · exact str.inj (hv .userDisplayName)
  · exact str.inj (hv .deviceID)
  · exact str.inj (hv .idPID)
  · exact str.inj (hv .issuer)
  · exact str.inj (hv .providerConfigSHA256)
  · exact str.inj (hv .acr)
  · exact hs (hv .amr)
  · exact str.inj (hv .authTime)
  · exact str.inj (hv .scope)
  · exact str.inj (hv .issuedAt)
  · exact str.inj (hv .expiresAt)
  · exact bool.inj (hv .revoked)
  · exact str.inj (hv .consumedAt)
  · exact str.inj (hv .reauthenticateAfter)

theorem assign_value (f : Field) (g h : Grant) : ∃ g', f.assign g (f.value h) = some g' ∧
    g'.unknownFields = g.unknownFields ∧ ∀ f', f'.value g' = if f' = f then f.value h else f'.value g := by
  cases f
  case requiredFeatures =>
    refine ⟨{ g with requiredFeatures := h.requiredFeatures },by simp [Field.assign,Field.value],rfl,?_⟩
    intro f'
    cases f' <;> rfl
  case amr =>
    refine ⟨{ g with amr := h.amr },by simp [Field.assign,Field.value],rfl,?_⟩
    intro f'
    cases f' <;> rfl
  all_goals
    refine ⟨_,rfl,rfl,?_⟩
    intro f'
    cases f' <;> rfl

theorem value_of_isEmpty {f : Field} (h : f.isEmpty g = true) : f.value g = f.value {} := by
  cases f <;> simp_all [Field.isEmpty,Field.value]

theorem foldl_readMember {l : List (String × Json)} {h : Grant}
    (hl : ∀ e ∈ l, field? e.1 = none ∨ ∃ f : Field, e = (f.name,f.value h)) (g : Grant) :
    ∃ g', l.foldl readMember (some g) = some g' ∧ g'.unknownFields = g.unknownFields ∧
      ∀ f : Field, f.value g' = if f.name ∈ l.map Prod.fst then f.value h else f.value g := by
  induction l generalizing g with
  | nil => exact ⟨g,rfl,rfl,fun f => by simp⟩
  | cons e l ih =>
    have hl' : ∀ e ∈ l, field? e.1 = none ∨ ∃ f : Field, e = (f.name,f.value h) :=
      fun e he => hl e (mem_cons_of_mem _ he)
    rcases hl e mem_cons_self with he | ⟨f, rfl⟩
    · obtain ⟨g', hg', hu, hv⟩ := ih hl' g
      refine ⟨g',?_,hu,fun f => ?_⟩
      · simpa [readMember,he] using hg'
      have hne : f.name ≠ e.1 := fun hn => by
        rw [← hn,field?_name] at he
        cases he
      rw [hv]
      simp only [map_cons,mem_cons,hne,false_or]
    · obtain ⟨g1, hg1, hu1, hv1⟩ := assign_value f g h
      obtain ⟨g', hg', hu, hv⟩ := ih hl' g1
      refine ⟨g',?_,hu.trans hu1,fun f' => ?_⟩
      · simpa [readMember,field?_name,hg1] using hg'
      rw [hv,hv1,map_cons]
      by_cases hf : f' = f
      · subst hf
        simp
      · have hne : f'.name ≠ f.name := fun hn => hf (Field.name_injective hn)
        simp only [mem_cons,hne,false_or,if_neg hf]

theorem mem_wireMembers {v : Json} : (k,v) ∈ wireMembers g ↔
    ∃ f : Field, (f.omitEmpty && f.isEmpty g) = false ∧ f.name = k ∧ f.value g = v := by
  have hall : ∀ f : Field, f ∈ Field.all := fun f => by cases f <;> decide
  simp only [wireMembers,mem_filterMap]
  constructor
  · rintro ⟨f, -, hf⟩
    split at hf
    · cases hf
    rename_i hb
    rw [Option.some.injEq,Prod.mk.injEq] at hf
    exact ⟨f,by simpa using hb,hf.1,hf.2⟩
  · rintro ⟨f, hb, hn, hv⟩
    exact ⟨f,hall f,by simp [hb,hn,hv]⟩

theorem nodup_wireMembers (g : Grant) : ((wireMembers g).map Prod.fst).Nodup := by
  have hsub : ((wireMembers g).map Prod.fst).Sublist (Field.all.map Field.name) := by
    unfold wireMembers
    induction Field.all with
    | nil => exact List.Sublist.slnil
    | cons f l ih =>
      rw [List.filterMap_cons]
      split
      · exact ih.cons _
      rename_i hb
      split at hb
      · cases hb
      · obtain rfl := Option.some.inj hb
        exact ih.cons_cons _
  refine hsub.nodup (List.Nodup.map Field.name_injective ?_)
  decide

theorem addSingleRequestFeature_cloneGrant (g : Grant) : addSingleRequestFeature (cloneGrant g) = cloneGrant g := by
  have h : requireFeature (g.authenticationRequestID != "") featureSingleRequest (featureTags g) = featureTags g :=
    requireFeature_of_mem fun hn => mem_featureTags.mpr (.inr (.inr (.inr ⟨by simpa using hn,rfl⟩)))
  exact congrArg (fun l => { g with requiredFeatures := l }) h

theorem getElem?_foldl_addUnknown (u m : Map Json) (k : String) :
    (u.toList.foldl addUnknown m)[k]? = if k ∈ knownGrantFields then m[k]? else u[k]?.or m[k]? := by
  rw [Map.foldl_toList_obs (fun m k => m[k]?) addUnknown
    (fun k v old => if k ∈ knownGrantFields then old else some v) u]
  · cases u[k]? <;> simp
  intro m a b _ k
  unfold addUnknown Map.insertIf
  by_cases hk : a ∈ knownGrantFields
  · simp only [contains_eq_mem,hk,decide_true,Bool.not_true,Bool.false_eq_true,if_false]
    split <;> simp_all
  simp only [contains_eq_mem,hk,decide_false,Bool.not_false,if_true]
  rw [Map.getElem?_insert_eq]
  split <;> simp_all

theorem mem_marshalMembers {v : Json} : (k,v) ∈ marshalMembers g ↔
    (k,v) ∈ wireMembers (cloneGrant g) ∨ (k ∉ knownGrantFields ∧ g.unknownFields[k]? = some v) := by
  unfold marshalMembers
  rw [addSingleRequestFeature_cloneGrant]
  split
  · next hu =>
    rw [ExtTreeMap.isEmpty_iff] at hu
    simp [hu]
  rw [ExtTreeMap.mem_toList_iff_getElem?_eq_some,getElem?_foldl_addUnknown]
  have hwire : (Map.ofEntries (wireMembers (cloneGrant g)))[k]? = some v ↔ (k,v) ∈ wireMembers (cloneGrant g) :=
    Map.getElem?_ofEntries (nodup_wireMembers _)
  split
  · next hk => simp [hk,hwire]
  rename_i hk
  have hnone : (Map.ofEntries (wireMembers (cloneGrant g)))[k]? = none := by
    rw [Option.eq_none_iff_forall_ne_some]
    intro w hw
    rw [Map.getElem?_ofEntries (nodup_wireMembers _),mem_wireMembers] at hw
    obtain ⟨f, -, hf, -⟩ := hw
    exact hk (mem_knownGrantFields.mpr ⟨f,hf⟩)
  have hmem : (k,v) ∉ wireMembers (cloneGrant g) := by
    rw [← hwire,hnone]
    simp
  simp [hk,hnone,hmem]

theorem nodup_marshalMembers (g : Grant) : ((marshalMembers g).map Prod.fst).Nodup := by
  unfold marshalMembers
  split
  · exact nodup_wireMembers _
  · exact Map.nodup_toList_keys _

theorem unmarshal_marshalGrant (h : Plain g) : unmarshalGrant (marshalGrant g) = some (cloneGrant g) := by
  have hmembers : ∀ e ∈ marshalMembers g, field? e.1 = none ∨ ∃ f : Field, e = (f.name,f.value (cloneGrant g)) := by
    rintro ⟨k, v⟩ he
    rcases mem_marshalMembers.mp he with hw | ⟨-, hu⟩
    · obtain ⟨f, -, rfl, rfl⟩ := mem_wireMembers.mp hw
      exact .inr ⟨f,rfl⟩
    · exact .inl (h k v hu)
  obtain ⟨g', hg', hu, hv⟩ := foldl_readMember hmembers {}
  unfold marshalGrant unmarshalGrant
  dsimp only
  rw [hg',Option.map_some,Option.some.injEq]
  refine Grant.ext_value (fun f => ?_) (ExtTreeMap.ext_getElem? fun k => Option.ext fun v => ?_)
  · have hfield : ∀ u : Map Json, f.value { g' with unknownFields := u } = f.value g' := fun u => by cases f <;> rfl
    rw [hfield,hv]
    split
    · rfl
    rename_i hf
    -- an absent member was left out because it is empty
    have hempty : f.isEmpty (cloneGrant g) = true := by
      by_contra hne
      refine hf (mem_map.mpr ⟨(f.name,f.value (cloneGrant g)),mem_marshalMembers.mpr (.inl ?_),rfl⟩)
      exact mem_wireMembers.mpr ⟨f,by simp [hne],rfl,rfl⟩
    exact (value_of_isEmpty hempty).symm
  · rw [ExtTreeMap.getElem?_filter',Option.filter_eq_some_iff,Map.getElem?_ofEntries (nodup_marshalMembers g),
      mem_marshalMembers]
    constructor
    · rintro ⟨hw | ⟨-, hk⟩, hknown⟩
      · obtain ⟨f, -, rfl, -⟩ := mem_wireMembers.mp hw
        have := mem_knownGrantFields.mpr ⟨f,rfl⟩
        simp [this] at hknown
      · exact hk
    · intro hk
      have := not_known_of_field?_eq_none (h k v hk)
      exact ⟨.inr ⟨this,hk⟩,by simp [this]⟩

def readRow (rows : Option (Map Grant)) (e : String × Json) : Option (Map Grant) :=
  rows.bind fun rows => (unmarshalGrant e.2).map fun g => rows.insert e.1 g

/-- Decoding into a `map[string]Grant` that must not stay nil. -/
def decodeGrants : Json → Option (Map Grant)
  | .obj l => l.foldl readRow (some ∅)
  | _ => none

/-- The rows of a versioned document, or of the plain map that released writers store. -/
def snapshotRows (raw : Json) : Option (Map Grant) :=
  raw.members?.bind fun fields =>
    match fields["schema_version"]?.bind int? with
    | some version => if version ≠ 2 ∧ version ≠ 3 then none else fields["grants"]?.bind decodeGrants
    | none => decodeGrants raw

/-- A row that is stored under another name, or is invalid and carries a boundary, makes the document unreadable; any
other invalid row is skipped. -/
def decodeShared (raw : Json) : Option (Map Grant) :=
  (snapshotRows raw).bind fun rows =>
    if rows.toList.all fun e => e.1 == e.2.grantID && (validateGrant e.2 || e.2.reauthenticateAfter == "") then
      some (rows.filter fun _ g => validateGrant g)
    else none

def encodeRows (rows : Map Grant) : Json := .ofMap (rows.map fun _ g => marshalGrant g)

def encodeGrantSnapshot (rows : Map Grant) : Json :=
  .obj [("schema_version",.number "3"),("grants",encodeRows rows)]

def Keyed (rows : Map Grant) : Prop := ∀ (id : String) g, rows[id]? = some g → g.grantID = id

def PlainRows (rows : Map Grant) : Prop := ∀ (id : String) g, rows[id]? = some g → Plain g

@[simp] theorem getElem?_cloneGrants (rows : Map Grant) (id : String) :
    (cloneGrants rows)[id]? = rows[id]?.map cloneGrant := by
  rw [cloneGrants,ExtTreeMap.getElem?_map]

@[simp] theorem cloneGrants_cloneGrants (rows : Map Grant) : cloneGrants (cloneGrants rows) = cloneGrants rows := by
  refine ExtTreeMap.ext_getElem? fun id => ?_
  simp [Function.comp_def]

variable {rows : Map Grant}

theorem decodeGrants_encodeRows (h : PlainRows rows) : decodeGrants (encodeRows rows) = some (cloneGrants rows) := by
  have hfold : ∀ (l : List (String × Grant)) (m : Map Grant), (∀ e ∈ l, Plain e.2) →
      (l.map fun e => (e.1,marshalGrant e.2)).foldl readRow (some m) =
        some ((l.map fun e => (e.1,cloneGrant e.2)).foldl (fun m e => m.insert e.1 e.2) m) := by
    intro l
    induction l with
    | nil => exact fun m _ => rfl
    | cons e l ih =>
      intro m hl
      simp only [map_cons,foldl_cons,readRow,Option.bind_some,
        unmarshal_marshalGrant (hl e mem_cons_self),Option.map_some]
      exact ih _ fun e he => hl e (mem_cons_of_mem _ he)
  have hplain : ∀ e ∈ rows.toList, Plain e.2 :=
    fun e he => h e.1 e.2 (ExtTreeMap.mem_toList_iff_getElem?_eq_some.mp he)
  have hclone : (cloneGrants rows).toList = rows.toList.map fun e => (e.1,cloneGrant e.2) := ExtTreeMap.toList_map
  rw [encodeRows,ofMap,ExtTreeMap.toList_map,decodeGrants,hfold _ _ hplain,← hclone]
  exact congrArg some (Map.ofEntries_toList _)

theorem snapshotRows_encode (h : PlainRows rows) :
    snapshotRows (encodeGrantSnapshot rows) = some (cloneGrants rows) := by
  have hversion : (Map.ofEntries [("schema_version",.number "3"),("grants",encodeRows rows)])["schema_version"]? =
      some (.number "3") := by
    rw [Map.getElem?_ofEntries (by simp)]
    simp
  have hgrants : (Map.ofEntries [("schema_version",.number "3"),("grants",encodeRows rows)])["grants"]? =
      some (encodeRows rows) := by
    rw [Map.getElem?_ofEntries (by simp)]
    simp
  have hint : int? (.number "3") = some 3 := by decide +kernel
  simp [snapshotRows,encodeGrantSnapshot,members?,hversion,hgrants,hint,decodeGrants_encodeRows h]

/-- Rows a document may hold: each under its own name, and valid unless it carries no boundary. -/
def Readable (rows : Map Grant) : Prop :=
  ∀ (id : String) g, rows[id]? = some g → g.grantID = id ∧ (validateGrant g = true ∨ g.reauthenticateAfter = "")

def validRows (rows : Map Grant) : Map Grant := rows.filter fun _ g => validateGrant g

@[simp] theorem getElem?_validRows (rows : Map Grant) (id : String) :
    (validRows rows)[id]? = rows[id]?.filter validateGrant := ExtTreeMap.getElem?_filter'

variable {out : Map Grant}

theorem decodeShared_eq_some {raw : Json} : decodeShared raw = some out ↔
    ∃ rows, snapshotRows raw = some rows ∧ Readable rows ∧ out = validRows rows := by
  have hreadable : ∀ rows : Map Grant, (rows.toList.all fun e => e.1 == e.2.grantID &&
      (validateGrant e.2 || e.2.reauthenticateAfter == "")) = true ↔ Readable rows := by
    intro rows
    rw [all_eq_true]
    constructor
    · intro h id g hg
      have := h (id,g) (ExtTreeMap.mem_toList_iff_getElem?_eq_some.mpr hg)
      simp only [Bool.and_eq_true,beq_iff_eq,Bool.or_eq_true] at this
      exact ⟨this.1.symm,this.2⟩
    · rintro h ⟨id, g⟩ he
      obtain ⟨hid, hv⟩ := h id g (ExtTreeMap.mem_toList_iff_getElem?_eq_some.mp he)
      simp [hid,hv]
  unfold decodeShared
  cases snapshotRows raw with
  | none => simp
  | some rows =>
    rw [Option.bind_some]
    split
    · next hr =>
      rw [hreadable] at hr
      rw [Option.some.injEq]
      exact ⟨fun h => ⟨rows,rfl,hr,h.symm⟩,fun ⟨_, hrows, _, h⟩ => by rw [h,← Option.some.inj hrows]; rfl⟩
    · next hr =>
      rw [hreadable] at hr
      refine ⟨nofun,?_⟩
      rintro ⟨rows', hrows, hr', -⟩
      rw [← Option.some.inj hrows] at hr'
      exact absurd hr' hr

theorem decodeShared_valid {raw : Json} (h : decodeShared raw = some rows) {id : String} (hg : rows[id]? = some g) :
    g.grantID = id ∧ validateGrant g = true := by
  obtain ⟨all, -, hr, rfl⟩ := decodeShared_eq_some.mp h
  rw [getElem?_validRows,Option.filter_eq_some_iff] at hg
  exact ⟨(hr id g hg.1).1,hg.2⟩

theorem readable_cloneGrants : Readable (cloneGrants rows) ↔ Readable rows := by
  constructor
  · intro h id g hg
    have := h id (cloneGrant g) (by simp [hg])
    rwa [validateGrant_cloneGrant] at this
  intro h id g hg
  rw [getElem?_cloneGrants,Option.map_eq_some_iff] at hg
  obtain ⟨g, hg, rfl⟩ := hg
  rw [validateGrant_cloneGrant]
  exact h id g hg

theorem validRows_cloneGrants (rows : Map Grant) : validRows (cloneGrants rows) = cloneGrants (validRows rows) := by
  refine ExtTreeMap.ext_getElem? fun id => ?_
  cases h : rows[id]? with
  | none => simp [h]
  | some g => cases hv : validateGrant g <;> simp [h,Option.filter,validateGrant_cloneGrant,hv]

theorem decodeShared_encode (h : PlainRows rows) :
    decodeShared (encodeGrantSnapshot rows) = some out ↔ Readable rows ∧ out = cloneGrants (validRows rows) := by
  rw [decodeShared_eq_some,snapshotRows_encode h]
  constructor
  · rintro ⟨rows', hrows, hr, rfl⟩
    obtain rfl := Option.some.inj hrows
    exact ⟨readable_cloneGrants.mp hr,validRows_cloneGrants rows⟩
  · rintro ⟨hr, rfl⟩
    exact ⟨_,rfl,readable_cloneGrants.mpr hr,(validRows_cloneGrants rows).symm⟩

end DsseCore.GrantStore

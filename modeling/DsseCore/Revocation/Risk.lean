import DsseCore.Go.CaseMapping
import DsseCore.Go.MapFill
import DsseCore.Go.Sort

/-!
# Risk marks

The overlay of devices and users that are marked as risky.  A user mark names a record of one tenant and carries the
subjects under which that user signs in; an index from subjects to severities is rebuilt with every change.
-/

namespace DsseCore.Revocation

open Go
open Std (ExtTreeMap)

structure UserRisk where
  tenantID : String
  id : String
  subjects : List String
  severity : String
  deriving DecidableEq

def userRiskKey (tenant id : String) : String := tenant ++ "\x00" ++ id

def containsNul (s : String) : Bool := s.toList.contains '\x00'

/-- The subjects of a mark, after the id: trimmed, each once, and none that could not be part of a key. -/
def addSubject (subjects : List String) (s : String) : List String :=
  if trimSpace s ≠ "" ∧ ¬ containsNul (trimSpace s) ∧ trimSpace s ∉ subjects then subjects ++ [trimSpace s] else subjects

def normalizeUserRisk (mark : UserRisk) : Except String UserRisk :=
  let tenantID := trimSpace mark.tenantID
  let id := trimSpace mark.id
  let severity := toLower (trimSpace mark.severity)
  if tenantID = "" ∨ id = "" ∨ containsNul tenantID ∨ containsNul id then .error "risk tenant and user id are required"
  else if severity ∉ ["medium","high","critical","none","low",""] then .error "invalid user risk severity"
  else .ok ⟨tenantID,id,sliceStable (fun a b => a < b) (mark.subjects.foldl addSubject [id]),severity⟩

def riskRank (severity : String) : ℕ :=
  if severity = "medium" then 1 else if severity = "high" then 2 else if severity = "critical" then 3 else 0

/-- `NormalizeDeviceID`: device ids keep their case. -/
def normalizeDeviceID (id : String) : String := trimSpace id

def normalizeSeverity (severity : String) : String := toLower (trimSpace severity)

/-- One subject of a mark in the index: the highest severity stays. -/
def indexSubject (mark : UserRisk) (index : Map String) (subject : String) : Map String :=
  let k := userRiskKey mark.tenantID subject
  if riskRank mark.severity > riskRank (index[k]?.getD "") then index.insert k mark.severity else index

def rebuildUserIndex (users : Map UserRisk) : Map String :=
  users.toList.foldl (fun index e => e.2.subjects.foldl (indexSubject e.2) index) ∅

structure HighRiskOverlay where
  devices : Map String := ∅
  users : Map UserRisk := ∅
  userIndex : Map String := ∅
  /-- Why the saved state could not be read. -/
  loadErr : Option String := none
  /-- The state has marks of the first version, which do not say whether they name a device or a user. -/
  legacy : Bool := false
  /-- Marks of the first version whose kind stayed unknown. -/
  legacyUnattributed : Map String := ∅
  deriving DecidableEq

/-- The marks of a feed under their keys; a mark without a risk and a second mark of one record are refused. -/
def freshUsers : List UserRisk → Map UserRisk → Except String (Map UserRisk)
  | [], fresh => .ok fresh
  | mark :: marks, fresh =>
    match normalizeUserRisk mark with
    | .error _ => .error "invalid user risk feed"
    | .ok n =>
      if riskRank n.severity = 0 then .error "invalid user risk feed"
      else if fresh.contains (userRiskKey n.tenantID n.id) then .error "duplicate user risk feed entry"
      else freshUsers marks (fresh.insert (userRiskKey n.tenantID n.id) n)

def HoldsUsers (marks : List UserRisk) (users : Map UserRisk) : Prop :=
  ∀ (key : String) mark, users[key]? = some mark ↔
    ∃ m ∈ marks, normalizeUserRisk m = .ok mark ∧ userRiskKey mark.tenantID mark.id = key

theorem freshUsers_ok {marks : List UserRisk} {fresh users : Map UserRisk} (h : freshUsers marks fresh = .ok users)
    (key : String) (mark : UserRisk) : users[key]? = some mark ↔ fresh[key]? = some mark ∨
      ∃ m ∈ marks, normalizeUserRisk m = .ok mark ∧ userRiskKey mark.tenantID mark.id = key := by
  induction marks generalizing fresh with
  | nil =>
    cases h
    simp
  | cons m marks ih =>
    unfold freshUsers at h
    cases hn : normalizeUserRisk m with
    | error e =>
      rw [hn] at h
      cases h
    | ok n =>
      rw [hn] at h
      dsimp only at h
      split at h
      · cases h
      split at h
      · cases h
      rename_i _ hfree
      have hnone : fresh[userRiskKey n.tenantID n.id]? = none := by
        rw [ExtTreeMap.contains_eq_isSome_getElem?,Bool.not_eq_true,Option.isSome_eq_false_iff,Option.isNone_iff_eq_none]
          at hfree
        exact hfree
      rw [ih h,Map.getElem?_insert_eq]
      simp only [List.mem_cons,exists_eq_or_imp,hn,Except.ok.injEq]
      -- the key of the new mark was free, so its entry replaces none
      by_cases hkey : userRiskKey n.tenantID n.id = key
      · subst hkey
        rw [if_pos rfl,hnone,Option.some.injEq]
        refine ⟨?_,?_⟩
        · rintro (rfl | h)
          · exact .inr (.inl ⟨rfl,rfl⟩)
          · exact .inr (.inr h)
        rintro (h | ⟨rfl, -⟩ | h)
        · cases h
        · exact .inl rfl
        · exact .inr h
      · rw [if_neg hkey]
        refine ⟨?_,?_⟩
        · rintro (h | h)
          · exact .inl h
          · exact .inr (.inr h)
        rintro (h | ⟨rfl, h⟩ | h)
        · exact .inl h
        · exact absurd h hkey
        · exact .inr h

namespace HighRiskOverlay

variable (o : HighRiskOverlay)

def health : Option String :=
  match o.loadErr with
  | some err => some err
  | none => if o.legacy then some "legacy risk state requires attribution before serving" else none

/-- `ReplaceSyncedUserRisks`: both namespaces of user marks at once, after the whole feed was checked. -/
def replaceSyncedUserRisks (marks : List UserRisk) (unresolved : Map String) : Except String HighRiskOverlay :=
  match freshUsers marks ∅ with
  | .error err => .error err
  | .ok fresh =>
    if unresolved.toList.any fun e => e.1 = "" || e.1 ≠ normalizeDeviceID e.1 || riskRank e.2 = 0 then
      .error "invalid legacy risk feed"
    else .ok { o with users := fresh,legacyUnattributed := unresolved,userIndex := rebuildUserIndex fresh }

/-- `ReplaceSynced`: the device marks. -/
def replaceSynced (devices : Map String) : HighRiskOverlay :=
  { o with devices := devices.toList.foldl (Map.renameStep normalizeDeviceID normalizeSeverity) ∅ }

def isHighRisk (deviceID : String) : Option String :=
  let id := normalizeDeviceID deviceID
  let severity := o.devices[id]?
  let unattributed := o.legacyUnattributed[id]?.getD ""
  if riskRank unattributed > riskRank (severity.getD "") then some unattributed else severity

def userSeverity (tenant subject : String) : Option String :=
  let severity := o.userIndex[userRiskKey (trimSpace tenant) (trimSpace subject)]?
  let unattributed := o.legacyUnattributed[trimSpace subject]?.getD ""
  if riskRank unattributed > riskRank (severity.getD "") then some unattributed else severity

variable {o}

theorem replaceSyncedUserRisks_ok {marks : List UserRisk} {unresolved : Map String} {o' : HighRiskOverlay}
    (h : o.replaceSyncedUserRisks marks unresolved = .ok o') : ∃ users, HoldsUsers marks users ∧
      o' = { o with users := users,legacyUnattributed := unresolved,userIndex := rebuildUserIndex users } := by
  unfold replaceSyncedUserRisks at h
  cases hf : freshUsers marks ∅ with
  | error e =>
    rw [hf] at h
    cases h
  | ok users =>
    rw [hf] at h
    dsimp only at h
    split at h
    · cases h
    refine ⟨users,fun key mark => ?_,(Except.ok.inj h).symm⟩
    rw [freshUsers_ok hf]
    simp

end HighRiskOverlay

end DsseCore.Revocation

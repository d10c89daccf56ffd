import DsseCore.Go.CaseMapping
import DsseCore.Go.Numbers
import DsseCore.Go.Time
import DsseCore.Go.Value

/-!
# What a vendor licence grants at a time

Two views of the features of a licence compare names differently: the list trims and lowers the case of what is granted,
the count of seats folds the case and leaves blanks.
-/

namespace DsseCore.VendorLicense

open Go List

structure Grant where
  seats : Int
  feature : String := ""
  startsAt : String := ""
  endsAt : String
  deriving DecidableEq

structure Payload where
  msspID : String
  serial : Int
  grants : List Grant
  issuedAt : String
  expiresAt : String
  enrolmentStopsAt : String
  serviceEndsAt : String

def parseTime (s : String) : Option Time := Time.parseRFC3339 (trimSpace s)

def Grant.activeAt (g : Grant) (now : Time) : Bool :=
  (trimSpace g.startsAt == "" || (parseTime (trimSpace g.startsAt)).any (decide <| · ≤ now)) &&
    (parseTime g.endsAt).any (decide <| now < ·)

inductive LicenseError where
  | noHolder | noSerial | noGrants | noSeats | grantEnd | grantStart | grantReversed | expiry | enrolmentStop
  | stopsBeforeExpiry | noSeatsAtIssue | serviceEnd | endsBeforeExpiry | endsBeforeStops
  deriving DecidableEq

def Grant.error? (g : Grant) : Option LicenseError :=
  if g.seats ≤ 0 then some .noSeats
  else match parseTime g.endsAt with
    | none => some .grantEnd
    | some ends =>
      if trimSpace g.startsAt = "" then none
      else match parseTime (trimSpace g.startsAt) with
        | none => some .grantStart
        | some starts => if ends ≤ starts then some .grantReversed else none

inductive State where
  | active | expired | enrolmentStopped | serviceEnded
  deriving DecidableEq

namespace Payload

variable (p : Payload) (now : Time)

def seatsAt : Int := addInts ((p.grants.filter fun g => g.feature == "" && g.activeAt now).map Grant.seats)

def seatsForFeatureAt (feature : String) : Int :=
  if trimSpace feature = "" then 0
  else addInts ((p.grants.filter fun g => equalFold g.feature (trimSpace feature) && g.activeAt now).map Grant.seats)

def featuresAt : List String :=
  ((p.grants.filter fun g => g.feature != "" && g.activeAt now).map fun g => toLower (trimSpace g.feature)).dedup.mergeSort
    (decide <| · ≤ ·)

/-- `none` when the licence is accepted. -/
def validate : Option LicenseError :=
  if trimSpace p.msspID = "" then some .noHolder
  else if p.serial ≤ 0 then some .noSerial
  else if p.grants = [] then some .noGrants
  else match p.grants.findSome? Grant.error? with
    | some err => some err
    | none =>
      match parseTime p.expiresAt, parseTime p.enrolmentStopsAt with
      | none, _ => some .expiry
      | _, none => some .enrolmentStop
      | some expires, some stops =>
        if stops < expires then some .stopsBeforeExpiry
        else if (parseTime p.issuedAt).any fun issued => decide (p.seatsAt issued ≤ 0) then some .noSeatsAtIssue
        else match parseTime p.serviceEndsAt with
          | none => some .serviceEnd
          | some ends =>
            if ends ≤ expires then some .endsBeforeExpiry else if ends < stops then some .endsBeforeStops else none

def come (field : String) : Bool := (parseTime field).any (decide <| · ≤ now)

def stateAt : State :=
  if come now p.serviceEndsAt then .serviceEnded
  else if come now p.enrolmentStopsAt then .enrolmentStopped
  else if come now p.expiresAt then .expired
  else .active

def mayEnrolNewDevices : Bool := p.stateAt now == .active || p.stateAt now == .expired

def Listed (f : String) : Prop := ∃ g ∈ p.grants, g.activeAt now ∧ g.feature ≠ "" ∧ toLower (trimSpace g.feature) = toLower (trimSpace f)

def Counted (f : String) : Prop := trimSpace f ≠ "" ∧ ∃ g ∈ p.grants, g.activeAt now ∧ equalFold g.feature (trimSpace f)

end Payload

open Payload

variable {p : Payload} {now later : Time} {f : String}

theorem come_mono {field : String} (h : now ≤ later) (hc : come now field = true) : come later field = true := by
  unfold come at hc ⊢
  cases ht : parseTime field with
  | none => rw [ht] at hc; cases hc
  | some t =>
    rw [ht,Option.any_some,decide_eq_true_eq] at hc
    exact decide_eq_true (Int.le_trans hc h)

theorem stateAt_mono (p : Payload) (h : now ≤ later) : (p.stateAt now).ctorIdx ≤ (p.stateAt later).ctorIdx := by
  have hends := @come_mono _ _ p.serviceEndsAt h
  have hstops := @come_mono _ _ p.enrolmentStopsAt h
  have hexpires := @come_mono _ _ p.expiresAt h
  unfold stateAt
  generalize come now _ = a, come later _ = a' at hends ⊢
  generalize come now _ = b, come later _ = b' at hstops ⊢
  generalize come now _ = c, come later _ = c' at hexpires ⊢
  revert a a' b b' c c'
  decide

theorem seats_pos {g : Grant} (hval : p.validate = none) (hg : g ∈ p.grants) : 0 < g.seats := by
  cases hfind : p.grants.findSome? Grant.error? with
  | some err =>
    simp only [validate,hfind] at hval
    split_ifs at hval
  | none =>
    have herror := findSome?_eq_none_iff.mp hfind g hg
    unfold Grant.error? at herror
    split at herror
    · cases herror
    · omega

theorem seatsForFeatureAt_pos_iff (hval : p.validate = none) (hsum : (p.grants.map Grant.seats).sum < 2 ^ 63) :
    0 < p.seatsForFeatureAt now f ↔ p.Counted now f := by
  unfold seatsForFeatureAt Counted
  split
  next hblank => simp [hblank]
  next hblank =>
    generalize hl : p.grants.filter (fun g => equalFold g.feature (trimSpace f) && g.activeAt now) = l
    have hsub : l.Sublist p.grants := hl ▸ filter_sublist
    have hpos : ∀ n ∈ l.map Grant.seats, 0 < n := by
      intro n hn
      obtain ⟨g, hg, rfl⟩ := mem_map.mp hn
      exact seats_pos hval (hsub.mem hg)
    have hle : (l.map Grant.seats).sum ≤ (p.grants.map Grant.seats).sum := by
      refine (hsub.map _).sum_le_sum fun n hn => ?_
      obtain ⟨g, hg, rfl⟩ := mem_map.mp hn
      exact (seats_pos hval hg).le
    have hnonneg := List.sum_nonneg fun n hn => (hpos n hn).le
    rw [addInts_eq,Int.bmod_eq_of_le_mul_two (by omega) (by omega)]
    have hmem : (∃ g ∈ p.grants, g.activeAt now ∧ equalFold g.feature (trimSpace f)) ↔ l ≠ [] := by
      rw [← hl,ne_eq,filter_eq_nil_iff]
      simp [and_comm]
    rw [hmem]
    constructor
    · rintro h
      refine ⟨hblank,?_⟩
      rintro rfl
      exact absurd h (by decide)
    · rintro ⟨-, hne⟩
      exact List.sum_pos _ hpos (by simpa using hne)

theorem mem_featuresAt_iff : toLower (trimSpace f) ∈ p.featuresAt now ↔ p.Listed now f := by
  unfold featuresAt Listed
  simp only [mem_mergeSort,mem_dedup,mem_map,mem_filter,Bool.and_eq_true,bne_iff_ne]
  grind

def licence (feature : String) : Payload where
  msspID := "mssp-1"
  serial := 1
  grants := [{ seats := 10, endsAt := "2027-01-01T00:00:00Z" },{ seats := 5, feature, endsAt := "2027-01-01T00:00:00Z" }]
  issuedAt := "2026-01-01T00:00:00Z"
  expiresAt := "2027-01-01T00:00:00Z"
  enrolmentStopsAt := "2027-02-01T00:00:00Z"
  serviceEndsAt := "2027-03-01T00:00:00Z"

end DsseCore.VendorLicense

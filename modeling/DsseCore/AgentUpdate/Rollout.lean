import DsseCore.AgentUpdate.Gate
import DsseCore.Go.Struct

/-!
# The rollout plan

A courier leaves a plan on the device.  Anything wrong with it stops the device; it opens the device's wave only when it
was read as the pinned keys ask, is for this device and this release, and is neither old nor from the future.
-/

namespace DsseCore.AgentUpdate

open Go Json Time

section Documents

structure Envelope where
  type : String := ""
  version : String := ""
  signingKeyID : String := ""
  createdAt : String := ""
  payloadSHA256 : String := ""
  payloadB64 : String := ""
  signature : String := ""
  deriving DecidableEq

def Envelope.fields : List (StructField Envelope) :=
  [textField "type" type fun s e => { e with type := s },
    textField "version" version fun s e => { e with version := s },
    textField "signing_key_id" signingKeyID fun s e => { e with signingKeyID := s },
    textField "created_at" createdAt fun s e => { e with createdAt := s },
    textField "payload_sha256" payloadSHA256 fun s e => { e with payloadSHA256 := s },
    textField "payload_b64" payloadB64 fun s e => { e with payloadB64 := s },
    textField "signature" signature fun s e => { e with signature := s }]

structure PlanWindow where
  localStart : String := ""
  localEnd : String := ""
  requireIdleMinutes : Int := 0
  requireUnattended : Bool := false
  requireACPower : Bool := false
  deadlineDays : Int := 0
  deriving DecidableEq

def PlanWindow.fields : List (StructField PlanWindow) :=
  [textField "local_start" localStart fun s w => { w with localStart := s },
    textField "local_end" localEnd fun s w => { w with localEnd := s },
    intField "require_idle_minutes" fun n w => { w with requireIdleMinutes := n },
    boolField "require_unattended" requireUnattended fun b w => { w with requireUnattended := b },
    boolField "require_ac_power" requireACPower fun b w => { w with requireACPower := b },
    intField "deadline_days" fun n w => { w with deadlineDays := n }]

structure RolloutPlan where
  schemaVersion : String := ""
  tenantID : String := ""
  deviceIdentity : String := ""
  frozen : Bool := false
  frozenReason : String := ""
  eligibleSince : String := ""
  waveReason : String := ""
  targetVersion : String := ""
  window : Option PlanWindow := none
  generatedAt : String := ""
  deriving DecidableEq

def readWindow (v : Json) (p : RolloutPlan) : Option RolloutPlan :=
  if v = .null then some { p with window := none }
  else (v.readStruct true PlanWindow.fields (p.window.getD {})).map fun w => { p with window := some w }

def RolloutPlan.fields : List (StructField RolloutPlan) :=
  [textField "schema_version" schemaVersion fun s p => { p with schemaVersion := s },
    textField "tenant_id" tenantID fun s p => { p with tenantID := s },
    textField "device_identity" deviceIdentity fun s p => { p with deviceIdentity := s },
    boolField "frozen" frozen fun b p => { p with frozen := b },
    textField "frozen_reason" frozenReason fun s p => { p with frozenReason := s },
    textField "eligible_since" eligibleSince fun s p => { p with eligibleSince := s },
    textField "wave_reason" waveReason fun s p => { p with waveReason := s },
    textField "target_version" targetVersion fun s p => { p with targetVersion := s },
    ("window",readWindow),
    textField "generated_at" generatedAt fun s p => { p with generatedAt := s }]

def RolloutPlanSchema : String := "dsse.agent-update-plan.v1"

def RolloutPlanEnvelopeType : String := "dsse_agent_update_plan.v1"

def RolloutPlan.eligibleSinceTime (p : RolloutPlan) : Option Time :=
  if trimSpace p.eligibleSince = "" then some zero else parseRFC3339 p.eligibleSince

/-- When the plan says it was generated; zero when it does not say. -/
def RolloutPlan.generated (p : RolloutPlan) : Time := (parseRFC3339 p.generatedAt).getD zero

structure Codec where
  json : String → Option Json
  base64 : String → Option String
  acceptedKey : String → Bool
  /-- `Verify`: the payload that the key signed. -/
  verify : Envelope → String → Option String

variable (c : Codec)

def decodeRolloutPlan (payload : String) : Option RolloutPlan :=
  ((c.json payload).bind (readStruct true RolloutPlan.fields {})).filter fun p =>
    p.schemaVersion == RolloutPlanSchema && p.eligibleSinceTime.isSome

def decodeEnvelope (raw : String) : Option Envelope :=
  ((c.json raw).bind (readStruct false Envelope.fields {})).filter fun e => e.payloadB64 ≠ ""

def verifyAny (env : Envelope) (keys : List String) : Option String :=
  (keys.filter c.acceptedKey).findSome? (c.verify env)

end Documents

section Model

inductive PlanFile where
  | absent
  | unreadable
  | content (raw : String)

inductive Unverifiable where
  | unreadable
  | neither
  | notSigned
  | wrongType (type : String)
  | payload
  | notVerified
  | malformed
  | waveStart
  | generatedAt
  | replay
  deriving DecidableEq

inductive Withheld where
  | future
  | otherDevice
  | otherTenant
  | noRelease
  | noTarget
  | otherRelease
  | undated
  | stale
  deriving DecidableEq

/-- What a plan means for the device.  The sentences that say why are left out. -/
structure Rollout where
  plan : RolloutPlan := {}
  frozen : Bool := false
  eligibleSince : Time := zero
  planGeneratedAt : Time := zero
  waveWithheld : Option Withheld := none
  err : Option Unverifiable := none
  deriving DecidableEq

structure RolloutExpectation where
  version : String := ""
  notBefore : Time := zero
  maxAge : Int := 0
  deviceIdentity : String := ""
  tenantID : String := ""

def PlanClockSkewTolerance : Int := 300 * second

def frozenBy (why : Unverifiable) : Rollout := { frozen := true,err := some why }

variable (p : RolloutPlan) (now : Time) (exp : RolloutExpectation)

def forOtherDevice : Bool :=
  p.deviceIdentity ≠ "" && exp.deviceIdentity ≠ "" && !equalFold p.deviceIdentity exp.deviceIdentity

def forOtherTenant : Bool := p.tenantID ≠ "" && exp.tenantID ≠ "" && p.tenantID ≠ exp.tenantID

def addressedElsewhere : Bool := forOtherDevice p exp || forOtherTenant p exp

def fromFuture : Bool := !p.generated.isZero && decide (now + PlanClockSkewTolerance < p.generated)

def replayed : Bool :=
  !addressedElsewhere p exp && !exp.notBefore.isZero && !p.generated.isZero && decide (p.generated < exp.notBefore)

def waveWithheld : Option Withheld :=
  if forOtherDevice p exp then some .otherDevice
  else if forOtherTenant p exp then some .otherTenant
  else if trimSpace exp.version = "" then some .noRelease
  else if trimSpace p.targetVersion = "" then some .noTarget
  else if !sameVersion p.targetVersion exp.version then some .otherRelease
  else if p.generated.isZero then some .undated
  else if 0 < exp.maxAge && decide (exp.maxAge < now.sub p.generated) then some .stale
  else none

def decideRollout : Rollout :=
  match p.eligibleSinceTime with
  | none => frozenBy .waveStart
  | some since =>
    if p.generatedAt ≠ "" ∧ parseRFC3339 p.generatedAt = none then frozenBy .generatedAt
    else if fromFuture p now then { plan := p,frozen := p.frozen,waveWithheld := some .future }
    else if replayed p exp then frozenBy .replay
    else
      { plan := p
        frozen := p.frozen
        eligibleSince := if (waveWithheld p now exp).isSome then zero else since
        planGeneratedAt := if addressedElsewhere p exp then zero else p.generated
        waveWithheld := waveWithheld p now exp }

variable (c : Codec) (trustedKeys : List String)

def openPlan (raw : String) : Except Unverifiable RolloutPlan :=
  match decodeEnvelope c raw with
  | none =>
    if trustedKeys = [] then (decodeRolloutPlan c raw).elim (.error .neither) .ok else .error .notSigned
  | some env =>
    if env.type ≠ RolloutPlanEnvelopeType then .error (.wrongType env.type)
    else if trustedKeys = [] then
      match c.base64 env.payloadB64 with
      | none => .error .payload
      | some payload => (decodeRolloutPlan c payload).elim (.error .malformed) .ok
    else
      match verifyAny c env trustedKeys with
      | none => .error .notVerified
      | some payload => (decodeRolloutPlan c payload).elim (.error .malformed) .ok

def loadRollout : PlanFile → Rollout
  | .absent => {}
  | .unreadable => frozenBy .unreadable
  | .content raw =>
    match openPlan c trustedKeys raw with
    | .error why => frozenBy why
    | .ok p => decideRollout p now exp

end Model

/-- What it is for a file to hold a plan that can be read: its form is what the pinned keys ask for, its payload decodes,
and it is dated if it says so. -/
inductive Holds (c : Codec) : List String → PlanFile → RolloutPlan → Prop
  | bare {raw : String} {p : RolloutPlan} (hform : decodeEnvelope c raw = none)
      (hplan : decodeRolloutPlan c raw = some p) (hdate : p.generatedAt = "" ∨ (parseRFC3339 p.generatedAt).isSome) :
      Holds c [] (.content raw) p
  | unpinned {raw payload : String} {env : Envelope} {p : RolloutPlan} (hform : decodeEnvelope c raw = some env)
      (htype : env.type = RolloutPlanEnvelopeType) (hpayload : c.base64 env.payloadB64 = some payload)
      (hplan : decodeRolloutPlan c payload = some p)
      (hdate : p.generatedAt = "" ∨ (parseRFC3339 p.generatedAt).isSome) : Holds c [] (.content raw) p
  | verified {keys : List String} {raw payload : String} {env : Envelope} {p : RolloutPlan} (hkeys : keys ≠ [])
      (hform : decodeEnvelope c raw = some env) (htype : env.type = RolloutPlanEnvelopeType)
      (hpayload : verifyAny c env keys = some payload) (hplan : decodeRolloutPlan c payload = some p)
      (hdate : p.generatedAt = "" ∨ (parseRFC3339 p.generatedAt).isSome) : Holds c keys (.content raw) p

variable {c : Codec} {keys : List String} {file : PlanFile} {p : RolloutPlan}

theorem decodeRolloutPlan_eligible {payload : String} (h : decodeRolloutPlan c payload = some p) :
    p.eligibleSinceTime.isSome = true := by
  have := (Option.filter_eq_some_iff.mp h).2
  exact (Bool.and_eq_true_iff.mp this).2

theorem Holds.eligible (h : Holds c keys file p) : p.eligibleSinceTime.isSome = true := by
  cases h with
  | bare _ hplan => exact decodeRolloutPlan_eligible hplan
  | unpinned _ _ _ hplan => exact decodeRolloutPlan_eligible hplan
  | verified _ _ _ _ hplan => exact decodeRolloutPlan_eligible hplan

theorem Holds.dated (h : Holds c keys file p) : ¬ (p.generatedAt ≠ "" ∧ parseRFC3339 p.generatedAt = none) := by
  rintro ⟨hne, hnone⟩
  have hdate : p.generatedAt = "" ∨ (parseRFC3339 p.generatedAt).isSome := by
    cases h with
    | bare _ _ hdate => exact hdate
    | unpinned _ _ _ _ hdate => exact hdate
    | verified _ _ _ _ _ hdate => exact hdate
  rcases hdate with h | h
  · exact hne h
  · rw [hnone] at h
    cases h

theorem Holds.loadRollout (h : Holds c keys file p) (now : Time) (exp : RolloutExpectation) :
    loadRollout now exp c keys file = decideRollout p now exp := by
  cases h with
  | bare hform hplan => simp [AgentUpdate.loadRollout,openPlan,hform,hplan]
  | unpinned hform htype hpayload hplan => simp [AgentUpdate.loadRollout,openPlan,hform,htype,hpayload,hplan]
  | verified hkeys hform htype hpayload hplan =>
    simp [AgentUpdate.loadRollout,openPlan,hform,htype,hkeys,hpayload,hplan]

theorem openPlan_ok {raw : String} (h : openPlan c keys raw = .ok p)
    (hdate : p.generatedAt = "" ∨ (parseRFC3339 p.generatedAt).isSome) : Holds c keys (.content raw) p := by
  unfold openPlan at h
  cases hform : decodeEnvelope c raw with
  | none =>
    simp only [hform] at h
    split at h
    · rename_i hkeys
      subst hkeys
      cases hplan : decodeRolloutPlan c raw with
      | none => simp [hplan] at h
      | some q =>
        obtain rfl : q = p := by simpa [hplan] using h
        exact .bare hform hplan hdate
    · cases h
  | some env =>
    simp only [hform] at h
    split at h
    · cases h
    rename_i htype
    rw [not_not] at htype
    split at h
    · rename_i hkeys
      subst hkeys
      cases hpayload : c.base64 env.payloadB64 with
      | none => simp [hpayload] at h
      | some payload =>
        cases hplan : decodeRolloutPlan c payload with
        | none => simp [hpayload,hplan] at h
        | some q =>
          obtain rfl : q = p := by simpa [hpayload,hplan] using h
          exact .unpinned hform htype hpayload hplan hdate
    · rename_i hkeys
      cases hpayload : verifyAny c env keys with
      | none => simp [hpayload] at h
      | some payload =>
        cases hplan : decodeRolloutPlan c payload with
        | none => simp [hpayload,hplan] at h
        | some q =>
          obtain rfl : q = p := by simpa [hpayload,hplan] using h
          exact .verified hkeys hform htype hpayload hplan hdate

theorem loadRollout_cases (c : Codec) (keys : List String) (file : PlanFile) (now : Time) (exp : RolloutExpectation) :
    file = .absent ∨ (∃ p, Holds c keys file p) ∨ ∃ why, loadRollout now exp c keys file = frozenBy why := by
  cases file with
  | absent => exact .inl rfl
  | unreadable => exact .inr (.inr ⟨.unreadable,rfl⟩)
  | content raw =>
    refine .inr ?_
    cases h : openPlan c keys raw with
    | error why => exact .inr ⟨why,by simp [loadRollout,h]⟩
    | ok p =>
      by_cases hdate : p.generatedAt ≠ "" ∧ parseRFC3339 p.generatedAt = none
      · refine .inr ?_
        cases hs : p.eligibleSinceTime with
        | none => exact ⟨.waveStart,by simp [loadRollout,h,decideRollout,hs]⟩
        | some since => exact ⟨.generatedAt,by simp [loadRollout,h,decideRollout,hs,hdate]⟩
      · refine .inl ⟨p,openPlan_ok h ?_⟩
        rw [not_and_or,not_not] at hdate
        exact hdate.imp id fun h => Option.isSome_iff_ne_none.mpr h

/-- The plan can stop the device: whatever is wrong with the file, a halt in it, and a replay. -/
structure Stops (c : Codec) (keys : List String) (file : PlanFile) (now : Time) (exp : RolloutExpectation) : Prop where
  damaged : file ≠ .absent → (∀ p, ¬ Holds c keys file p) → (loadRollout now exp c keys file).frozen = true
  halted : ∀ p, Holds c keys file p → p.frozen = true → (loadRollout now exp c keys file).frozen = true
  replay : ∀ p, Holds c keys file p → replayed p exp = true → (loadRollout now exp c keys file).frozen = true

/-- What a plan that opens the wave is.  Without a positive limit no plan is too old, and the largest duration limits
nothing, since differences of times saturate there. -/
structure MayStart (p : RolloutPlan) (now : Time) (exp : RolloutExpectation) : Prop where
  here : addressedElsewhere p exp = false
  release : sameVersion p.targetVersion exp.version = true
  dated : p.generated ≠ zero
  past : p.generated ≤ now + PlanClockSkewTolerance
  fresh : exp.notBefore = zero ∨ exp.notBefore ≤ p.generated
  young : 0 < exp.maxAge → exp.maxAge < 2 ^ 63 - 1 → now - p.generated ≤ exp.maxAge

def Starts (c : Codec) (keys : List String) (file : PlanFile) (now : Time) (exp : RolloutExpectation) : Prop :=
  (loadRollout now exp c keys file).eligibleSince ≠ zero → ∃ p, Holds c keys file p ∧ MayStart p now exp

variable {now : Time} {exp : RolloutExpectation}

theorem decideRollout_of_holds (now : Time) (exp : RolloutExpectation) (h : Holds c keys file p) : ∃ since, p.eligibleSinceTime = some since ∧
    decideRollout p now exp =
      if fromFuture p now then { plan := p,frozen := p.frozen,waveWithheld := some .future }
      else if replayed p exp then frozenBy .replay
      else
        { plan := p
          frozen := p.frozen
          eligibleSince := if (waveWithheld p now exp).isSome then zero else since
          planGeneratedAt := if addressedElsewhere p exp then zero else p.generated
          waveWithheld := waveWithheld p now exp } := by
  obtain ⟨since, hs⟩ := Option.isSome_iff_exists.mp h.eligible
  refine ⟨since,hs,?_⟩
  rw [decideRollout,hs]
  dsimp only
  rw [if_neg h.dated]

theorem young_of_sub {t u limit : Int} (hlimit : limit < 2 ^ 63 - 1) (h : ¬ limit < sub t u) : t - u ≤ limit := by
  unfold sub at h
  omega

theorem mayStart_of_not_withheld (hf : fromFuture p now = false) (hr : replayed p exp = false)
    (hw : waveWithheld p now exp = none) : MayStart p now exp := by
  unfold waveWithheld at hw
  split at hw
  · cases hw
  rename_i hdevice
  split at hw
  · cases hw
  rename_i htenant
  split at hw
  · cases hw
  split at hw
  · cases hw
  split at hw
  · cases hw
  rename_i hsame
  split at hw
  · cases hw
  rename_i hzero
  split at hw
  · cases hw
  rename_i hage
  have hhere : addressedElsewhere p exp = false := by simp [addressedElsewhere,hdevice,htenant]
  have hdated : p.generated ≠ zero := by simpa [isZero] using hzero
  refine ⟨hhere,by simpa using hsame,hdated,?_,?_,fun hpos hlimit => young_of_sub hlimit ?_⟩
  · simpa [fromFuture,isZero,hdated] using hf
  · have := hr
    simp only [replayed,hhere,isZero,hdated,Bool.not_false,Bool.true_and,Bool.and_eq_false_iff,
      Bool.not_eq_false',beq_iff_eq,decide_eq_false_iff_not,not_lt] at this
    rcases this with (h | h) | h
    · exact .inl h
    · exact absurd h (by simp)
    · exact .inr h
  · simpa [hpos] using hage

theorem starts_always (c : Codec) (keys : List String) (file : PlanFile) (now : Time) (exp : RolloutExpectation) :
    Starts c keys file now exp := by
  intro hstart
  rcases loadRollout_cases c keys file now exp with rfl | ⟨p, hp⟩ | ⟨why, hwhy⟩
  · exact absurd rfl hstart
  · refine ⟨p,hp,?_⟩
    obtain ⟨since, -, hd⟩ := decideRollout_of_holds now exp hp
    rw [hp.loadRollout,hd] at hstart
    split at hstart
    · exact absurd rfl hstart
    rename_i hf
    split at hstart
    · exact absurd rfl hstart
    rename_i hr
    refine mayStart_of_not_withheld (by simpa using hf) (by simpa using hr) ?_
    cases hw : waveWithheld p now exp with
    | none => rfl
    | some w => exact absurd (by simp [hw]) hstart
  · rw [hwhy] at hstart
    exact absurd rfl hstart

/-- A plan is frozen when it says so or is a replay, but a replay that is also dated past the tolerance only when it says
so. -/
theorem frozen_of_holds (h : Holds c keys file p) : (loadRollout now exp c keys file).frozen =
    (p.frozen || (replayed p exp && !fromFuture p now)) := by
  obtain ⟨since, -, hd⟩ := decideRollout_of_holds now exp h
  rw [h.loadRollout,hd]
  cases fromFuture p now <;> cases replayed p exp <;> simp [frozenBy]

theorem holds_unique {q : RolloutPlan} (h : Holds c keys file p) (h' : Holds c keys file q) : p = q := by
  cases h with
  | bare hform hplan =>
    cases h' with
    | bare _ hplan' => exact Option.some.inj (hplan.symm.trans hplan')
    | unpinned hform' => exact absurd (hform.symm.trans hform') (by simp)
    | verified hkeys => exact absurd rfl hkeys
  | unpinned hform _ hpayload hplan =>
    cases h' with
    | bare hform' => exact absurd (hform.symm.trans hform') (by simp)
    | unpinned hform' _ hpayload' hplan' =>
      cases hform.symm.trans hform'
      cases hpayload.symm.trans hpayload'
      exact Option.some.inj (hplan.symm.trans hplan')
    | verified hkeys => exact absurd rfl hkeys
  | verified hkeys hform _ hpayload hplan =>
    cases h' with
    | bare => exact absurd rfl hkeys
    | unpinned => exact absurd rfl hkeys
    | verified _ hform' _ hpayload' hplan' =>
      cases hform.symm.trans hform'
      cases hpayload.symm.trans hpayload'
      exact Option.some.inj (hplan.symm.trans hplan')

/-- A plan can always stop the device and only sometimes start it, exactly when no plan that is both a replay and dated
past the tolerance, and not frozen itself, is in the file. -/
theorem stops_and_starts_iff (c : Codec) (keys : List String) (file : PlanFile) (now : Time) (exp : RolloutExpectation) :
    (Stops c keys file now exp ∧ Starts c keys file now exp) ↔
      ∀ p, Holds c keys file p → replayed p exp = true → fromFuture p now = true → p.frozen = true := by
  constructor
  · rintro ⟨hstops, -⟩ p hp hr hf
    have := hstops.replay p hp hr
    rw [frozen_of_holds hp,hf] at this
    simpa using this
  · intro hcond
    refine ⟨⟨fun hfile hnone => ?_,fun p hp hfrozen => ?_,fun p hp hr => ?_⟩,starts_always c keys file now exp⟩
    · rcases loadRollout_cases c keys file now exp with rfl | ⟨p, hp⟩ | ⟨why, hwhy⟩
      · exact absurd rfl hfile
      · exact absurd hp (hnone p)
      · rw [hwhy]
        rfl
    · rw [frozen_of_holds hp,hfrozen]
      rfl
    rw [frozen_of_holds hp,hr]
    cases hf : fromFuture p now with
    | false => simp
    | true => simp [hcond p hp hr hf]

/-- Every document is one plan of January 1 2028, for a device that accepted one of 2030. -/
def lateCodec : Codec where
  json _ := some (.obj [("schema_version",.str RolloutPlanSchema), ("generated_at",.str "2028-01-01T00:00:00Z")])
  base64 _ := none
  acceptedKey _ := false
  verify _ _ := none

def latePlan : RolloutPlan := { schemaVersion := RolloutPlanSchema,generatedAt := "2028-01-01T00:00:00Z" }

/-- The clock of the device says 2026: the replay only loses its wave. -/
theorem replay_before_clock_not_frozen :
    Holds lateCodec [] (.content "") latePlan ∧
      replayed latePlan { notBefore := 1893456000 * second } = true ∧
      (loadRollout (1767225600 * second) { notBefore := 1893456000 * second } lateCodec [] (.content "")).frozen =
        false ∧
      ¬ Stops lateCodec [] (.content "") (1767225600 * second) { notBefore := 1893456000 * second } := by
  have hholds : Holds lateCodec [] (.content "") latePlan :=
    .bare (by decide +kernel) (by decide +kernel) (.inr (by decide +kernel))
  have hreplayed : replayed latePlan { notBefore := 1893456000 * second } = true := by decide +kernel
  have hopen : (loadRollout (1767225600 * second) { notBefore := 1893456000 * second } lateCodec []
      (.content "")).frozen = false := by decide +kernel
  refine ⟨hholds,hreplayed,hopen,fun hstops => ?_⟩
  rw [hstops.replay latePlan hholds hreplayed] at hopen
  cases hopen

end DsseCore.AgentUpdate

import DsseCore.AgentUpdate.Rollout
import DsseCore.Go.MapFill
import DsseCore.Go.Numbers

/-!
# The rollout plans of the control plane

For every organisation there is one plan.  The plans are kept as one document, which is read back strictly: a member that
is missing, unknown or of the wrong shape makes the whole document unusable.
-/

namespace DsseCore.AgentRollout

open Go AgentUpdate Json

/-- What an update of a plan is for; `unset` is the empty text of a plan that has none. -/
inductive Intent where
  | unset
  | rollout
  | rollback
  | freeze
  | schedule
  | follow
  deriving DecidableEq

def Intent.text : Intent → String
  | unset => ""
  | rollout => "rollout"
  | rollback => "rollback"
  | freeze => "freeze"
  | schedule => "schedule"
  | follow => "follow"

def Intent.ofText? : String → Option Intent
  | "" => some unset
  | "rollout" => some rollout
  | "rollback" => some rollback
  | "freeze" => some freeze
  | "schedule" => some schedule
  | "follow" => some follow
  | _ => none

structure RolloutWave where
  group : String := ""
  delayDays : Int := 0
  priority : Int := 0
  deriving DecidableEq

structure WaveSchedule where
  waves : List RolloutWave := []
  defaultDelayDays : Option Int := none
  deriving DecidableEq

structure AgentRolloutPlan where
  desiredVersion : String := ""
  releaseChannel : String := ""
  frozen : Bool := false
  intent : Intent := .unset
  reason : String := ""
  updatedAt : String := ""
  waves : Option WaveSchedule := none
  window : Option PlanWindow := none
  deriving DecidableEq

abbrev Plans := Map AgentRolloutPlan

inductive UpdateError where
  | invalidIntent (intent : String)
  | desiredVersionRequired (intent : Intent)
  | reasonRequired
  | nothingScheduled
  | emptyGroup (wave : ℕ)
  | negativeDelay (group : String) (days : Int)
  | groupTwice (group : String)
  | negativeDefaultDelay (days : Int)
  | notLocalTime (field value : String)
  | negativeIdle (minutes : Int)
  | negativeDeadline (days : Int)
  | deadlineTooLong (days : Int)
  deriving DecidableEq

/-- The rows of a schedule from number `i` on; `seen` are the groups before. -/
def validateWaves (seen : List String) (i : ℕ) : List RolloutWave → Except UpdateError Unit
  | [] => .ok ()
  | w :: ws =>
    let g := trimSpace w.group
    if g = "" then .error (.emptyGroup i)
    else if w.delayDays < 0 then .error (.negativeDelay g w.delayDays)
    else if seen.contains (toLower g) then .error (.groupTwice g)
    else validateWaves (toLower g :: seen) (i + 1) ws

def WaveSchedule.validate (s : WaveSchedule) : Except UpdateError Unit := do
  validateWaves [] 0 s.waves
  match s.defaultDelayDays with
  | some days => if days < 0 then .error (.negativeDefaultDelay days) else .ok ()
  | none => .ok ()

def validateSchedule : Option WaveSchedule → Except UpdateError Unit
  | none => .ok ()
  | some s => s.validate

def isLocalClock (v : String) : Bool :=
  match (trimSpace v).toList with
  | [h, h', ':', m, m'] =>
    ((atoi (String.ofList [h, h'])).any fun n => 0 ≤ n && n ≤ 23) &&
      (atoi (String.ofList [m, m'])).any fun n => 0 ≤ n && n ≤ 59
  | _ => false

def validateWindow : Option PlanWindow → Except UpdateError Unit
  | none => .ok ()
  | some w =>
    if !isLocalClock w.localStart then .error (.notLocalTime "local_start" w.localStart)
    else if !isLocalClock w.localEnd then .error (.notLocalTime "local_end" w.localEnd)
    else if w.requireIdleMinutes < 0 then .error (.negativeIdle w.requireIdleMinutes)
    else if w.deadlineDays < 0 then .error (.negativeDeadline w.deadlineDays)
    else if 365 < w.deadlineDays then .error (.deadlineTooLong w.deadlineDays)
    else .ok ()

structure AgentRolloutUpdateRequest where
  intent : String := ""
  desiredVersion : String := ""
  releaseChannel : String := ""
  reason : String := ""
  frozen : Option Bool := none
  waves : Option WaveSchedule := none
  window : Option PlanWindow := none

def requestIntent (req : AgentRolloutUpdateRequest) : Except UpdateError Intent :=
  match Intent.ofText? (trimSpace req.intent) with
  | some .unset => .ok .rollout
  | some intent => .ok intent
  | none => .error (.invalidIntent (trimSpace req.intent))

def validateAgentRolloutUpdate (req : AgentRolloutUpdateRequest) : Except UpdateError AgentRolloutPlan := do
  let intent ← requestIntent req
  let desired := trimSpace req.desiredVersion
  let reason := trimSpace req.reason
  if (intent = .rollout ∨ intent = .rollback) ∧ desired = "" then .error (.desiredVersionRequired intent)
  else if intent = .freeze ∧ reason = "" then .error .reasonRequired
  else if intent = .schedule ∧ req.waves = none ∧ req.window = none then .error .nothingScheduled
  else do
    validateSchedule req.waves
    validateWindow req.window
    .ok
      { waves := req.waves
        window := req.window
        desiredVersion := desired
        releaseChannel := trimSpace req.releaseChannel
        frozen := if intent = .freeze then req.frozen.getD true else false
        intent := intent
        reason := reason }

theorem validated_frozen {req : AgentRolloutUpdateRequest} {p : AgentRolloutPlan}
    (h : validateAgentRolloutUpdate req = .ok p) :
    p.frozen = if p.intent = .freeze then req.frozen.getD true else false := by
  unfold validateAgentRolloutUpdate at h
  cases hi : requestIntent req with
  | error err =>
    rw [hi] at h
    cases h
  | ok intent =>
    rw [hi] at h
    simp only [bind,Except.bind] at h
    split at h
    · cases h
    split at h
    · cases h
    split at h
    · cases h
    split at h
    · cases h
    split at h
    · cases h
    · cases h
      rfl

def RolloutWave.json (w : RolloutWave) : Json :=
  .obj ([("group",.str w.group),("delay_days",.number (itoa w.delayDays))] ++
    if w.priority = 0 then [] else [("priority",.number (itoa w.priority))])

def WaveSchedule.json (s : WaveSchedule) : Json :=
  .obj ([("waves",.arr (s.waves.map RolloutWave.json))] ++
    match s.defaultDelayDays with
    | some days => [("default_delay_days",.number (itoa days))]
    | none => [])

def windowJson (w : PlanWindow) : Json :=
  .obj
    [("local_start",.str w.localStart),("local_end",.str w.localEnd),
      ("require_idle_minutes",.number (itoa w.requireIdleMinutes)),("require_unattended",.bool w.requireUnattended),
      ("require_ac_power",.bool w.requireACPower),("deadline_days",.number (itoa w.deadlineDays))]

def AgentRolloutPlan.json (p : AgentRolloutPlan) : Json :=
  .obj ([("desired_version",.str p.desiredVersion),("release_channel",.str p.releaseChannel),("frozen",.bool p.frozen),
    ("intent",.str p.intent.text),("reason",.str p.reason),("updated_at",.str p.updatedAt)] ++
    (match p.waves with
      | some s => [("waves",s.json)]
      | none => []) ++
    match p.window with
    | some w => [("window",windowJson w)]
    | none => [])

def marshal (plans : Plans) : Json := .ofMap (plans.map fun _ p => p.json)

/-- `rolloutSnapshotObject`: an object with no member named twice. -/
def rolloutSnapshotObject : Json → Option (Map Json)
  | .obj l => if (l.map Prod.fst).Nodup then some (Map.ofEntries l) else none
  | _ => none

def rolloutSnapshotFields (required optional : List String) (v : Json) : Bool :=
  match rolloutSnapshotObject v with
  | none => false
  | some fields =>
    required.all (fun key => fields[key]?.isSome) &&
      fields.toList.all fun e => (required.contains e.1 || optional.contains e.1) && e.2 != .null

def windowFields : List String :=
  ["local_start","local_end","require_idle_minutes","require_unattended","require_ac_power","deadline_days"]

def validateSavedWaves (v : Json) : Bool :=
  if v = .null then true
  else match rolloutSnapshotObject v with
    | none => false
    | some fields =>
      fields.toList.all (fun e => e.1 == "waves" || e.1 == "default_delay_days") &&
        match fields["waves"]? with
        | some .null => true
        | some (.arr rows) => rows.all (rolloutSnapshotFields ["group","delay_days"] ["priority"])
        | _ => false

def savedMember (key : String) (v : Json) : Bool :=
  if ["frozen","desired_version","release_channel","intent","reason","updated_at"].contains key then v != .null
  else if key = "waves" then validateSavedWaves v
  else if key = "window" then v == .null || rolloutSnapshotFields windowFields [] v
  else false

def RolloutWave.fields : List (StructField RolloutWave) :=
  [textField "group" group fun s w => { w with group := s },
    intField "delay_days" fun n w => { w with delayDays := n },
    intField "priority" fun n w => { w with priority := n }]

def readWaves (v : Json) (s : WaveSchedule) : Option WaveSchedule :=
  match v with
  | .null => some { s with waves := [] }
  | .arr rows => (rows.mapM (readStruct false RolloutWave.fields {})).map fun ws => { s with waves := ws }
  | _ => none

def readDefaultDelay (v : Json) (s : WaveSchedule) : Option WaveSchedule :=
  match v with
  | .null => some { s with defaultDelayDays := none }
  | .number literal => (atoi literal).map fun n => { s with defaultDelayDays := some n }
  | _ => none

def WaveSchedule.fields : List (StructField WaveSchedule) :=
  [("waves",readWaves),("default_delay_days",readDefaultDelay)]

structure SavedPlan where
  plan : AgentRolloutPlan := {}
  intent : String := ""

def readSchedule (v : Json) (p : SavedPlan) : Option SavedPlan :=
  if v = .null then some { p with plan := { p.plan with waves := none } }
  else (v.readStruct false WaveSchedule.fields (p.plan.waves.getD {})).map fun s =>
    { p with plan := { p.plan with waves := some s } }

def readPlanWindow (v : Json) (p : SavedPlan) : Option SavedPlan :=
  if v = .null then some { p with plan := { p.plan with window := none } }
  else (v.readStruct false PlanWindow.fields (p.plan.window.getD {})).map fun w =>
    { p with plan := { p.plan with window := some w } }

def SavedPlan.fields : List (StructField SavedPlan) :=
  [textField "desired_version" (·.plan.desiredVersion) fun s p => { p with plan := { p.plan with desiredVersion := s } },
    textField "release_channel" (·.plan.releaseChannel) fun s p => { p with plan := { p.plan with releaseChannel := s } },
    boolField "frozen" (·.plan.frozen) fun b p => { p with plan := { p.plan with frozen := b } },
    textField "intent" (·.intent) fun s p => { p with intent := s },
    textField "reason" (·.plan.reason) fun s p => { p with plan := { p.plan with reason := s } },
    textField "updated_at" (·.plan.updatedAt) fun s p => { p with plan := { p.plan with updatedAt := s } },
    ("waves",readSchedule),
    ("window",readPlanWindow)]

/-- The plan that a saved one is, if its intent, its time, its waves and its window are valid. -/
def SavedPlan.accepted (p : SavedPlan) : Option AgentRolloutPlan :=
  match Intent.ofText? p.intent with
  | none => none
  | some intent =>
    if p.plan.updatedAt ≠ "" ∧ (Time.parseRFC3339 p.plan.updatedAt).isNone then none
    else if !(validateSchedule p.plan.waves).isOk || !(validateWindow p.plan.window).isOk then none
    else some { p.plan with intent := intent }

def decodePlan (tenant : String) (v : Json) : Option AgentRolloutPlan :=
  if tenant ≠ trimSpace tenant then none
  else match rolloutSnapshotObject v with
    | none => none
    | some fields =>
      if fields["frozen"]?.isNone then none
      else if fields.toList.all (fun e => savedMember e.1 e.2) then
        (v.readStruct false SavedPlan.fields {}).bind SavedPlan.accepted
      else none

def decodeRolloutSnapshot (v : Json) : Option Plans :=
  match rolloutSnapshotObject v with
  | none => none
  | some rows => (Map.fill (fun tenant plan => (decodePlan tenant plan).elim (.error ()) .ok) rows ∅).toOption

end DsseCore.AgentRollout

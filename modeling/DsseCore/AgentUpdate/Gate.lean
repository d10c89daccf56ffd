import DsseCore.AgentUpdate.Version
import DsseCore.Go.Time

/-!
# What an update waits for

A manifest applies to a device when it is for its platform and newer than what runs there.  The gate then decides whether
the update may start now: a plan can hold it, a freeze stops it, and the maintenance window delays it until the deadline
has passed.
-/

namespace DsseCore.AgentUpdate

open Go

/-- `time.Duration(n) * unit`, in the 64 bits of a duration. -/
def duration (n unit : Int) : Int := (n * unit).bmod (2 ^ 64)

def minute : Int := 60 * Time.second

def hour : Int := 60 * minute

structure Manifest where
  version : String
  platform : String := ""
  arch : String := ""
  minFromVersion : String := ""
  deriving DecidableEq

inductive NotApplicable where
  | platformMismatch
  | archMismatch
  | malformedRunning
  | malformedTarget
  | notAnUpgrade
  | malformedMinFrom
  | minFromNotMet
  deriving DecidableEq

def Manifest.applicable (m : Manifest) (currentVersion platform arch : String) : Except NotApplicable Unit :=
  if m.platform ≠ platform then .error .platformMismatch
  else if m.arch ≠ arch then .error .archMismatch
  else match parseVersion currentVersion with
    | none => .error .malformedRunning
    | some current =>
      match parseVersion m.version with
      | none => .error .malformedTarget
      | some target =>
        if compareVersions target current ≠ .gt then .error .notAnUpgrade
        else if trimSpace m.minFromVersion = "" then .ok ()
        else match parseVersion m.minFromVersion with
          | none => .error .malformedMinFrom
          | some minFrom => if compareVersions current minFrom = .lt then .error .minFromNotMet else .ok ()

section Gate

structure MaintenanceWindow where
  localStart : String
  localEnd : String
  requireIdleMinutes : Int := 0
  requireUnattended : Bool := false
  requireACPower : Bool := false
  deadlineDays : Int := 0
  deriving DecidableEq

structure DeviceConditions where
  localNow : Time
  minuteOfDay : Int
  idleFor : Int := 0
  idleKnown : Bool := false
  inUse : Bool := false
  inUseKnown : Bool := false
  onACPower : Bool := false
  powerKnown : Bool := false
  eligibleSince : Time := Time.zero
  frozen : Bool := false
  planHold : String := ""
  deriving DecidableEq

inductive WaitReason where
  | frozen
  | planHold
  | outOfWindow
  | busy
  | idleUnknown
  | onBattery
  | powerUnknown
  | inUse
  | inUseUnknown
  | notYetInWave
  deriving DecidableEq

def WaitReason.text : WaitReason → String
  | frozen => "frozen"
  | planHold => "plan_cannot_authorise"
  | outOfWindow => "out_of_window"
  | busy => "busy"
  | idleUnknown => "idle_unknown"
  | onBattery => "on_battery"
  | powerUnknown => "power_unknown"
  | inUse => "in_use"
  | inUseUnknown => "in_use_unknown"
  | notYetInWave => "not_yet_in_wave"

inductive GateDecision where
  | wait (reason : WaitReason)
  | proceed (forcedByDeadline : Bool)
  deriving DecidableEq

def parseHHMM (v : String) : Option Int := do
  let (h, m) ← cut (trimSpace v) ":"
  let hh ← atoi h
  let mm ← atoi m
  if hh < 0 || 23 < hh || mm < 0 || 59 < mm then none else some (hh * 60 + mm)

/-- `inLocalWindow`, nothing when the window cannot be read.  Equal ends mean the whole day, and a window may pass
midnight. -/
def inLocalWindow (start stop : String) (cur : Int) : Option Bool := do
  let s ← parseHHMM start
  let e ← parseHHMM stop
  if s = e then some true
  else if s < e then some (s ≤ cur && cur < e)
  else some (s ≤ cur || cur < e)

variable (w : MaintenanceWindow) (c : DeviceConditions)

def windowHolds : Option WaitReason :=
  if inLocalWindow w.localStart w.localEnd c.minuteOfDay ≠ some true then some .outOfWindow
  else if 0 < w.requireIdleMinutes && !c.idleKnown then some .idleUnknown
  else if 0 < w.requireIdleMinutes && decide (c.idleFor < duration w.requireIdleMinutes minute) then some .busy
  else if w.requireUnattended && !c.inUseKnown then some .inUseUnknown
  else if w.requireUnattended && c.inUse then some .inUse
  else if w.requireACPower && !c.powerKnown then some .powerUnknown
  else if w.requireACPower && !c.onACPower then some .onBattery
  else none

def deadlinePassed : Bool :=
  !(w.deadlineDays ≤ 0 || c.eligibleSince.isZero) &&
    decide (duration w.deadlineDays (24 * hour) ≤ c.localNow.sub c.eligibleSince)

def evaluateGate : GateDecision :=
  if trimSpace c.planHold ≠ "" then .wait .planHold
  else if c.frozen then .wait .frozen
  else if !c.eligibleSince.isZero && decide (c.localNow < c.eligibleSince) then .wait .notYetInWave
  else match windowHolds w c with
    | none => .proceed false
    | some reason => if deadlinePassed w c then .proceed true else .wait reason

end Gate

end DsseCore.AgentUpdate

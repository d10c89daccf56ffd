import DsseCore.Go.Strings

/-!
# Agent versions

A version is `major.minor.patch`, with an optional pre-release and build metadata.  Build metadata is not ordered: two
builds of one version are the same release.
-/

namespace DsseCore.AgentUpdate

open Go

structure Version where
  major : Int
  minor : Int
  patch : Int
  preRelease : String := ""
  /-- Ignored in every comparison. -/
  build : String := ""
  deriving DecidableEq

def splitAt (c : Char) (s : String) : String × Option String :=
  match cut s (String.singleton c) with
  | some (before, after) => (before,some after)
  | none => (s,none)

/-- A component of the core: a number without leading zeros. -/
def parseComponent (p : String) : Option Int :=
  (atoi p).filter fun n => 0 ≤ n && !(1 < p.length && hasPrefix p "0")

def parseVersion (s : String) : Option Version := do
  let raw := trimSpace s
  if raw = "" then none
  else
    let (raw, build) := splitAt '+' raw
    let (raw, preRelease) := splitAt '-' raw
    if build = some "" || preRelease = some "" then none
    else match split raw '.' with
      | [a, b, c] =>
        let major ← parseComponent a
        let minor ← parseComponent b
        let patch ← parseComponent c
        some ⟨major,minor,patch,preRelease.getD "",build.getD ""⟩
      | _ => none

/-- The identifiers of two pre-releases, compared from the left. -/
def compareIdentifiers : List String → List String → Ordering
  | [], [] => .eq
  | [], _ :: _ => .lt
  | _ :: _, [] => .gt
  | a :: as, b :: bs =>
    if a = b then compareIdentifiers as bs
    else match atoi a, atoi b with
      | some m, some n => if m = n then compareIdentifiers as bs else if m < n then .lt else .gt
      -- numeric identifiers rank below alphanumeric ones
      | some _, none => .lt
      | none, some _ => .gt
      | none, none => if a < b then .lt else .gt

def comparePreRelease (a b : String) : Ordering := compareIdentifiers (split a '.') (split b '.')

def compareVersions (a b : Version) : Ordering :=
  ((compare a.major b.major).then (compare a.minor b.minor)).then (compare a.patch b.patch) |>.then
    (if a.preRelease = b.preRelease then .eq
    else if a.preRelease = "" then .gt
    else if b.preRelease = "" then .lt
    else comparePreRelease a.preRelease b.preRelease)

def sameVersion (a b : String) : Bool :=
  let as := trimSpace a
  let bs := trimSpace b
  if as = "" || bs = "" then false
  else match parseVersion as, parseVersion bs with
    | some av, some bv => compareVersions av bv == .eq
    | _, _ => as == bs

example : sameVersion "0.2.1" "0.2.1+20260811035942" = true := by decide +kernel

example : (parseVersion "0.3.0-rc.10").bind (fun a => (parseVersion "0.3.0-rc.9").map (compareVersions a)) = some .gt := by
  decide +kernel

theorem sameVersion_of_trim {a b : String} (ha : trimSpace a ≠ "") (h : trimSpace a = trimSpace b) :
    sameVersion a b = true := by
  unfold sameVersion
  rw [← h]
  simp only [ha]
  cases parseVersion (trimSpace a) with
  | none => simp
  | some v => simp [compareVersions]

@[simp] theorem sameVersion_trim_left (a b : String) : sameVersion (trimSpace a) b = sameVersion a b := by
  unfold sameVersion
  rw [trimSpace_trimSpace]

/-- A part of a pre-release, as it is compared: a number by its value. -/
def identifierKey (a : String) : Int ⊕ String :=
  match atoi a with
  | some n => .inl n
  | none => .inr a

def Version.release (v : Version) : Int × Int × Int × Bool × List (Int ⊕ String) :=
  (v.major,v.minor,v.patch,decide (v.preRelease = ""),(split v.preRelease '.').map identifierKey)

theorem compareIdentifiers_eq {as bs : List String} :
    compareIdentifiers as bs = .eq ↔ as.map identifierKey = bs.map identifierKey := by
  induction as generalizing bs with
  | nil => cases bs <;> simp [compareIdentifiers]
  | cons a as ih =>
    cases bs with
    | nil => simp [compareIdentifiers]
    | cons b bs =>
      rw [compareIdentifiers]
      by_cases hab : a = b
      · rw [if_pos hab,hab,ih]
        simp
      rw [if_neg hab]
      cases ha : atoi a with
      | none =>
        cases hb : atoi b with
        | none =>
          have hkey : identifierKey a ≠ identifierKey b := by simp [identifierKey,ha,hb,hab]
          dsimp only
          split <;> simp [hkey]
        | some n => simp [identifierKey,ha,hb]
      | some m =>
        cases hb : atoi b with
        | none => simp [identifierKey,ha,hb]
        | some n =>
          by_cases hmn : m = n
          · simp [identifierKey,ha,hb,hmn,ih]
          have hkey : identifierKey a ≠ identifierKey b := by simp [identifierKey,ha,hb,hmn]
          dsimp only
          rw [if_neg hmn]
          split <;> simp [hkey]

theorem compareVersions_eq {a b : Version} : compareVersions a b = .eq ↔ a.release = b.release := by
  have hpre : (if a.preRelease = b.preRelease then Ordering.eq
      else if a.preRelease = "" then .gt
      else if b.preRelease = "" then .lt
      else comparePreRelease a.preRelease b.preRelease) = .eq ↔
      decide (a.preRelease = "") = decide (b.preRelease = "") ∧
        (split a.preRelease '.').map identifierKey = (split b.preRelease '.').map identifierKey := by
    by_cases hab : a.preRelease = b.preRelease
    · simp [hab]
    rw [if_neg hab]
    by_cases ha : a.preRelease = ""
    · have hb : b.preRelease ≠ "" := fun hb => hab (ha.trans hb.symm)
      simp [ha,hb]
    by_cases hb : b.preRelease = ""
    · simp [ha,hb]
    · simp [ha,hb,comparePreRelease,compareIdentifiers_eq]
  unfold compareVersions
  rw [Ordering.then_eq_eq,Ordering.then_eq_eq,Ordering.then_eq_eq,Int.compare_eq_eq,Int.compare_eq_eq,Int.compare_eq_eq,hpre]
  simp only [Version.release,Prod.mk.injEq,and_assoc]

def releaseOf (s : String) : (Int × Int × Int × Bool × List (Int ⊕ String)) ⊕ String :=
  match parseVersion (trimSpace s) with
  | some v => .inl v.release
  | none => .inr (trimSpace s)

theorem sameVersion_iff {a b : String} :
    sameVersion a b = true ↔ trimSpace a ≠ "" ∧ trimSpace b ≠ "" ∧ releaseOf a = releaseOf b := by
  unfold sameVersion releaseOf
  by_cases ha : trimSpace a = ""
  · simp [ha]
  by_cases hb : trimSpace b = ""
  · simp [hb]
  simp only [ha,ne_eq]
  cases hpa : parseVersion (trimSpace a) with
  | none =>
    cases hpb : parseVersion (trimSpace b) with
    | none => simp
    | some bv =>
      have hne : trimSpace a ≠ trimSpace b := fun he => by simp [he,hpb] at hpa
      simp [hne]
  | some av =>
    cases hpb : parseVersion (trimSpace b) with
    | none =>
      have hne : trimSpace a ≠ trimSpace b := fun he => by simp [he,hpb] at hpa
      simp [hne]
    | some bv => simp [compareVersions_eq]

theorem sameVersion_trans {a b c : String} (h : sameVersion a b = true) (h' : sameVersion b c = true) :
    sameVersion a c = true := by
  obtain ⟨ha, -, he⟩ := sameVersion_iff.mp h
  obtain ⟨-, hc, he'⟩ := sameVersion_iff.mp h'
  exact sameVersion_iff.mpr ⟨ha,hc,he.trans he'⟩

end DsseCore.AgentUpdate

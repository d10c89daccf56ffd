import DsseCore.Lib.Run
import DsseCore.Revocation.Admission
import DsseCore.Revocation.Risk

/-!
# Polls of the revocation feed

A node polls the control plane for the revoked identities, the risky devices and the risky users.  A complete answer
replaces all three layers, unless the user marks are refused, and then nothing changes and the next poll tries again.
An answer of an older control plane has no section for users and leaves the user marks as they are.
-/

namespace DsseCore.Revocation

open Go Lib List
open Std (ExtTreeMap)

structure RevocationFeed where
  generation : ℕ
  epoch : String
  revoked : Map String := ∅
  highRisk : Map String := ∅
  userRiskVersion : Int := 0
  userRisk : List UserRisk := []
  legacyRiskVersion : Int := 0
  legacyUnattributed : Map String := ∅
  /-- The answer is the complete set of the control plane, so that an empty one means something. -/
  authoritative : Bool := false
  deriving DecidableEq

def applyUserRiskFeed (overlay : Option HighRiskOverlay) (feed : RevocationFeed) :
    Except String (Option HighRiskOverlay) :=
  if feed.userRiskVersion ≠ 0 ∧ feed.userRiskVersion ≠ 1 ∧ feed.userRiskVersion ≠ 2 then
    .error "unsupported user risk feed version"
  else if feed.legacyRiskVersion ≠ 0 ∧ feed.legacyRiskVersion ≠ 1 then .error "unsupported legacy risk feed version"
  else if feed.legacyUnattributed.isEmpty = false ∧ feed.legacyRiskVersion ≠ 1 ∧ feed.userRiskVersion ≠ 2 then
    .error "legacy risk feed version is missing"
  else if feed.legacyRiskVersion = 1 ∧ feed.userRiskVersion ≠ 1 then
    .error "legacy risk extension requires user risk version 1"
  else if feed.userRiskVersion = 0 then
    if feed.userRisk ≠ [] then .error "user risk feed version is missing" else .ok overlay
  else
    match overlay with
    | none => .ok none
    | some o =>
      if o.health.isSome then .error "local risk state is not ready"
      else if feed.userRisk = [] ∧ feed.legacyUnattributed.isEmpty ∧ feed.authoritative = false then .ok (some o)
      else
        -- an old control plane does not know the unattributed marks: the local ones stay
        let legacy := if feed.legacyRiskVersion = 0 ∧ feed.userRiskVersion ≠ 2 then o.legacyUnattributed
          else feed.legacyUnattributed
        (o.replaceSyncedUserRisks feed.userRisk legacy).map some

/-- What the loop of `run` remembers between two polls. -/
structure Puller where
  lastApplied : ℕ := 0
  lastEpoch : String := ""
  lastAuthoritative : Bool := false
  haveApplied : Bool := false
  deriving DecidableEq

/-- `apply`: the answer is worth applying. -/
def Puller.newer (p : Puller) (feed : RevocationFeed) : Bool :=
  !p.haveApplied || feed.epoch ≠ p.lastEpoch || feed.generation > p.lastApplied ||
    (feed.authoritative && !p.lastAuthoritative && feed.generation = p.lastApplied)

def Puller.applied (feed : RevocationFeed) : Puller := ⟨feed.generation,feed.epoch,feed.authoritative,true⟩

structure Edge where
  overlay : AdmissionRevocations
  highRisk : Option HighRiskOverlay
  puller : Puller

/-- The revoked identities of an answer: an empty one counts only when it is complete. -/
def applyRevoked (overlay : AdmissionRevocations) (feed : RevocationFeed) : AdmissionRevocations × List Notice :=
  if feed.revoked.isEmpty ∧ overlay.synced.isEmpty = false ∧ feed.authoritative = false then (overlay,[])
  else overlay.replaceSynced feed.revoked

def applyDevices (highRisk : HighRiskOverlay) (feed : RevocationFeed) : HighRiskOverlay :=
  if feed.highRisk.isEmpty ∧ feed.authoritative = false then highRisk else highRisk.replaceSynced feed.highRisk

/-- How a poll ended: what the status of the loop records. -/
inductive PollOutcome where
  | failed
  | rejected (err : String)
  | unchanged
  | applied
  deriving DecidableEq

namespace Edge

variable (e : Edge)

def unhealthy : Bool := e.highRisk.any fun h => h.health.isSome

def pull : Option RevocationFeed → Edge × PollOutcome × List Notice
  | none => (e,.failed,[])
  | some feed =>
    if e.unhealthy then (e,.rejected "local risk state is not ready",[])
    else if e.puller.newer feed = false then (e,.unchanged,[])
    else match applyUserRiskFeed e.highRisk feed with
      | .error err => (e,.rejected err,[])
      | .ok highRisk =>
        let (overlay, notices) := applyRevoked e.overlay feed
        (⟨overlay,highRisk.map (applyDevices · feed),.applied feed⟩,.applied,notices)

end Edge

def Polls (e : Edge) (answer : Option RevocationFeed) (e' : Edge) : Prop := (e.pull answer).1 = e'

variable {feed : RevocationFeed} {o o' : HighRiskOverlay} {r : Option HighRiskOverlay}

inductive UserSection (feed : RevocationFeed) (o : HighRiskOverlay) : HighRiskOverlay → Prop
  | absent (h : feed.userRiskVersion = 0) (hl : feed.legacyRiskVersion ≠ 1) : UserSection feed o o
  | kept (hv : feed.userRiskVersion ≠ 0) (hempty : feed.userRisk = [] ∧ feed.legacyUnattributed = ∅)
      (ha : feed.authoritative = false) : UserSection feed o o
  | replaced (users : Map UserRisk) (legacy : Map String) (hv : feed.userRiskVersion ≠ 0)
      (hne : feed.authoritative = false → ¬ (feed.userRisk = [] ∧ feed.legacyUnattributed = ∅))
      (husers : HoldsUsers feed.userRisk users)
      (hlegacy : feed.userRiskVersion = 2 ∨ feed.legacyRiskVersion = 1 → legacy = feed.legacyUnattributed) :
      UserSection feed o
        { o with users := users,legacyUnattributed := legacy,userIndex := rebuildUserIndex users }

theorem applyUserRiskFeed_some (h : applyUserRiskFeed (some o) feed = .ok r) :
    ∃ o', r = some o' ∧ UserSection feed o o' := by
  unfold applyUserRiskFeed at h
  split at h
  · cases h
  split at h
  · cases h
  split at h
  · cases h
  split at h
  · cases h
  next hext =>
  split at h
  · next hv =>
    split at h
    · cases h
    · exact ⟨o,(Except.ok.inj h).symm,.absent hv fun hl => hext ⟨hl,by rw [hv]; decide⟩⟩
  · next hv =>
    dsimp only at h
    split at h
    · cases h
    split at h
    · next hkeep =>
      exact ⟨o,(Except.ok.inj h).symm,.kept hv ⟨hkeep.1,ExtTreeMap.isEmpty_iff.mp hkeep.2.1⟩ hkeep.2.2⟩
    rename_i hne
    cases hr : o.replaceSyncedUserRisks feed.userRisk
        (if feed.legacyRiskVersion = 0 ∧ feed.userRiskVersion ≠ 2 then o.legacyUnattributed
          else feed.legacyUnattributed) with
    | error err =>
      rw [hr] at h
      cases h
    | ok o' =>
      rw [hr] at h
      obtain ⟨users, husers, rfl⟩ := HighRiskOverlay.replaceSyncedUserRisks_ok hr
      refine ⟨_,(Except.ok.inj h).symm,.replaced users _ hv (fun ha hnil => ?_) husers fun hl => ?_⟩
      · exact hne ⟨hnil.1,ExtTreeMap.isEmpty_iff.mpr hnil.2,ha⟩
      refine if_neg fun hold => ?_
      rcases hl with hl | hl
      · exact hold.2 hl
      · rw [hold.1] at hl
        cases hl

theorem applyUserRiskFeed_none (h : applyUserRiskFeed none feed = .ok r) : r = none := by
  unfold applyUserRiskFeed at h
  iterate 4
    split at h
    · cases h
  split at h
  · split at h
    · cases h
    · exact (Except.ok.inj h).symm
  · exact (Except.ok.inj h).symm

theorem UserSection.devices (h : UserSection feed o o') : o'.devices = o.devices := by
  cases h <;> rfl

theorem UserSection.health (h : UserSection feed o o') : o'.health = o.health := by
  cases h <;> rfl

theorem applyDevices_users (o : HighRiskOverlay) (feed : RevocationFeed) :
    (applyDevices o feed).users = o.users ∧ (applyDevices o feed).userIndex = o.userIndex ∧
      (applyDevices o feed).legacyUnattributed = o.legacyUnattributed ∧ (applyDevices o feed).health = o.health := by
  unfold applyDevices
  split
  · exact ⟨rfl,rfl,rfl,rfl⟩
  · exact ⟨rfl,rfl,rfl,rfl⟩

theorem applyDevices_renames (ha : feed.authoritative = true) :
    Map.Renames normalizeDeviceID normalizeSeverity feed.highRisk (applyDevices o feed).devices := by
  have hne : ¬ (feed.highRisk.isEmpty ∧ feed.authoritative = false) := by simp [ha]
  rw [applyDevices,if_neg hne]
  exact Map.renames_foldl feed.highRisk

theorem applyRevoked_renames (a : AdmissionRevocations) (ha : feed.authoritative = true) :
    Map.Renames normalizeIdentity trimSpace feed.revoked (applyRevoked a feed).1.synced := by
  have hne : ¬ (feed.revoked.isEmpty ∧ a.synced.isEmpty = false ∧ feed.authoritative = false) := by simp [ha]
  rw [applyRevoked,if_neg hne]
  exact Map.renames_foldl feed.revoked

theorem applyRevoked_empty {a : AdmissionRevocations} (hempty : feed.revoked = ∅) (ha : feed.authoritative = false) :
    (applyRevoked a feed).1.synced = a.synced := by
  unfold applyRevoked
  split
  · rfl
  rename_i hne
  -- nothing was held, and nothing comes
  have hnone : a.synced.isEmpty = true := by
    by_contra h
    exact hne ⟨by rw [hempty]; rfl,by simpa using h,ha⟩
  rw [hempty,ExtTreeMap.isEmpty_iff.mp hnone]
  rfl

variable {e e' : Edge} {highRisk : Option HighRiskOverlay} {answers : List (Option RevocationFeed)}

inductive Answered (e : Edge) (feed : RevocationFeed) : Edge → Prop
  | rejected (h : e.unhealthy ∨ e.puller.newer feed) : Answered e feed e
  | unchanged (h : e.puller.newer feed = false) : Answered e feed e
  | applied (highRisk : Option HighRiskOverlay) (hok : e.unhealthy = false)
      (h : applyUserRiskFeed e.highRisk feed = .ok highRisk) :
      Answered e feed ⟨(applyRevoked e.overlay feed).1,highRisk.map (applyDevices · feed),.applied feed⟩

theorem pull_answered (e : Edge) (feed : RevocationFeed) : Answered e feed (e.pull (some feed)).1 := by
  simp only [Edge.pull]
  split
  · next h => exact .rejected (.inl h)
  next hok =>
  split
  · next h => exact .unchanged h
  next hnewer =>
  cases h : applyUserRiskFeed e.highRisk feed with
  | error err => exact .rejected (.inr (by simpa using hnewer))
  | ok highRisk => exact .applied highRisk (by simpa using hok) h

/-- The layers are those of the answer.  The user marks are, when the answer has a section for them, and the
unattributed marks, when it says that it knows them. -/
structure Converged (feed : RevocationFeed) (e : Edge) : Prop where
  revoked : Map.Renames normalizeIdentity trimSpace feed.revoked e.overlay.synced
  devices : ∀ o, e.highRisk = some o → Map.Renames normalizeDeviceID normalizeSeverity feed.highRisk o.devices
  users : ∀ o, e.highRisk = some o → feed.userRiskVersion ≠ 0 →
    HoldsUsers feed.userRisk o.users ∧ o.userIndex = rebuildUserIndex o.users
  legacy : ∀ o, e.highRisk = some o → feed.userRiskVersion = 2 ∨ feed.legacyRiskVersion = 1 →
    o.legacyUnattributed = feed.legacyUnattributed

def SameUsers (e e' : Edge) : Prop :=
  ∀ o o', e.highRisk = some o → e'.highRisk = some o' →
    o'.users = o.users ∧ o'.userIndex = o.userIndex ∧ o'.legacyUnattributed = o.legacyUnattributed

section

variable (h : applyUserRiskFeed e.highRisk feed = .ok highRisk)
include h

theorem applied_highRisk (ho' : highRisk.map (applyDevices · feed) = some o') :
    ∃ o u, e.highRisk = some o ∧ UserSection feed o u ∧ o' = applyDevices u feed := by
  cases he : e.highRisk with
  | none =>
    rw [he] at h
    rw [applyUserRiskFeed_none h] at ho'
    cases ho'
  | some o =>
    rw [he] at h
    obtain ⟨u, rfl, hu⟩ := applyUserRiskFeed_some h
    exact ⟨o,u,rfl,hu,(Option.some.inj ho').symm⟩

theorem applied_converged (ha : feed.authoritative = true) :
    Converged feed ⟨(applyRevoked e.overlay feed).1,highRisk.map (applyDevices · feed),.applied feed⟩ := by
  refine ⟨applyRevoked_renames e.overlay ha,fun o' ho' => ?_,fun o' ho' hv => ?_,fun o' ho' hv => ?_⟩
  all_goals obtain ⟨o, u, -, hu, rfl⟩ := applied_highRisk h ho'
  · exact applyDevices_renames ha
  · obtain ⟨husers, hindex, -, -⟩ := applyDevices_users u feed
    rw [husers,hindex]
    cases hu with
    | absent h0 => exact absurd h0 hv
    | kept _ _ hn => simp [ha] at hn
    | replaced users legacy _ _ hholds _ => exact ⟨hholds,rfl⟩
  · obtain ⟨-, -, hlegacy, -⟩ := applyDevices_users u feed
    rw [hlegacy]
    cases hu with
    | absent h0 hl =>
      rcases hv with hv | hv
      · rw [h0] at hv
        cases hv
      · exact absurd hv hl
    | kept _ _ hn => simp [ha] at hn
    | replaced users legacy _ _ _ hl => exact hl hv

theorem applied_unhealthy (hok : e.unhealthy = false) :
    (⟨(applyRevoked e.overlay feed).1,highRisk.map (applyDevices · feed),.applied feed⟩ : Edge).unhealthy = false := by
  cases ho' : highRisk.map (applyDevices · feed) with
  | none => rfl
  | some o' =>
    obtain ⟨o, u, ho, hu, rfl⟩ := applied_highRisk h ho'
    obtain ⟨-, -, -, hhealth⟩ := applyDevices_users u feed
    rw [Edge.unhealthy,ho] at hok
    rw [Edge.unhealthy]
    simpa [hhealth,hu.health] using hok

end

/-- What the loop remembers is true: once an answer was applied the node is healthy, and when the last one was complete
its layers are still there. -/
structure Remembers (answers : List (Option RevocationFeed)) (e : Edge) : Prop where
  healthy : e.puller.haveApplied = true → e.unhealthy = false
  current : e.puller.haveApplied = true → e.puller.lastAuthoritative = true → ∃ feed, some feed ∈ answers ∧
    feed.authoritative = true ∧ feed.epoch = e.puller.lastEpoch ∧ feed.generation = e.puller.lastApplied ∧
      Converged feed e

theorem Remembers.mono {answers' : List (Option RevocationFeed)} (h : Remembers answers e)
    (hsub : ∀ a ∈ answers, a ∈ answers') : Remembers answers' e := by
  refine ⟨h.healthy,fun happ hauth => ?_⟩
  obtain ⟨feed, hmem, hrest⟩ := h.current happ hauth
  exact ⟨feed,hsub _ hmem,hrest⟩

theorem Remembers.poll {answer : Option RevocationFeed} (h : Remembers answers e) (hpoll : Polls e answer e') :
    Remembers (answers ++ [answer]) e' := by
  have hkept : Remembers (answers ++ [answer]) e := h.mono fun a ha => mem_append_left _ ha
  subst hpoll
  cases answer with
  | none => exact hkept
  | some feed =>
    have hans := pull_answered e feed
    generalize (e.pull (some feed)).1 = e' at hans
    cases hans with
    | rejected => exact hkept
    | unchanged => exact hkept
    | applied highRisk hok happ =>
      refine ⟨fun _ => applied_unhealthy happ hok,fun _ hauth => ?_⟩
      exact ⟨feed,mem_append_right _ mem_cons_self,hauth,rfl,rfl,applied_converged happ hauth⟩

theorem Remembers.run {e₀ : Edge} (hstart : e₀.puller.haveApplied = false) (hrun : Run Polls e₀ answers e) :
    Remembers answers e := by
  induction hrun with
  | nil => exact ⟨fun h => by simp [hstart] at h,fun h => by simp [hstart] at h⟩
  | snoc _ hpoll ih => exact ih.poll hpoll

/-- Complete answers of one epoch and generation are the same answer. -/
def Functional (answers : List (Option RevocationFeed)) : Prop :=
  ∀ f g, some f ∈ answers → some g ∈ answers → f.authoritative = true → g.authoritative = true →
    f.epoch = g.epoch → f.generation = g.generation → f = g

/-- The answer is not older than the last one that was applied from its epoch. -/
def Puller.Timely (p : Puller) (feed : RevocationFeed) : Prop :=
  p.haveApplied = true → feed.epoch = p.lastEpoch → p.lastApplied ≤ feed.generation

section

variable (h : Remembers answers e) (hfun : Functional (answers ++ [some feed])) (ha : feed.authoritative = true)
  (htimely : e.puller.Timely feed)
include h hfun ha htimely

theorem Remembers.stale_converged (hold : e.puller.newer feed = false) : Converged feed e := by
  simp only [Puller.newer,ha,Bool.or_eq_false_iff,Bool.not_eq_false',decide_eq_false_iff_not,Bool.true_and,
    Bool.and_eq_false_iff] at hold
  obtain ⟨⟨⟨happ, hepoch⟩, hgen⟩, hlast⟩ := hold
  have hepoch : feed.epoch = e.puller.lastEpoch := not_not.mp hepoch
  have hgen : feed.generation = e.puller.lastApplied := le_antisymm (not_lt.mp hgen) (htimely happ hepoch)
  have hauth : e.puller.lastAuthoritative = true := by simpa [hgen] using hlast
  obtain ⟨last, hmem, hla, hle, hlg, hconv⟩ := h.current happ hauth
  have hsame : last = feed :=
    hfun last feed (mem_append_left _ hmem) (mem_append_right _ mem_cons_self) hla ha
      (hle.trans hepoch.symm) (hlg.trans hgen.symm)
  exact hsame ▸ hconv

/-- A complete answer that is not older than what was applied: the layers are those of the answer, or nothing changed
and the answer is still worth applying. -/
theorem Remembers.converges :
    Converged feed (e.pull (some feed)).1 ∨ (e.pull (some feed)).1 = e ∧ e.puller.newer feed = true := by
  have hans := pull_answered e feed
  generalize (e.pull (some feed)).1 = e' at hans
  cases hans with
  | rejected hrej =>
    refine .inr ⟨rfl,?_⟩
    rcases hrej with hsick | hnewer
    · -- nothing was applied yet on a node whose own state is not ready
      have hnone : e.puller.haveApplied = false := by
        by_contra hne
        rw [h.healthy (by simpa using hne)] at hsick
        cases hsick
      simp [Puller.newer,hnone]
    · exact hnewer
  | unchanged hold => exact .inl (h.stale_converged hfun ha htimely hold)
  | applied highRisk hok happ => exact .inl (applied_converged happ ha)

end

theorem answered_sameUsers (hans : Answered e feed e')
    (hkeep : feed.userRiskVersion = 0 ∨
      feed.authoritative = false ∧ feed.userRisk = [] ∧ feed.legacyUnattributed = ∅) : SameUsers e e' := by
  intro o o' ho ho'
  cases hans with
  | rejected | unchanged =>
    rw [ho] at ho'
    cases ho'
    exact ⟨rfl,rfl,rfl⟩
  | applied highRisk hok happ =>
    obtain ⟨o₁, u, ho₁, hu, rfl⟩ := applied_highRisk happ ho'
    obtain rfl : o = o₁ := Option.some.inj (ho.symm.trans ho₁)
    obtain ⟨husers, hindex, hlegacy, -⟩ := applyDevices_users u feed
    rw [husers,hindex,hlegacy]
    cases hu with
    | absent => exact ⟨rfl,rfl,rfl⟩
    | kept => exact ⟨rfl,rfl,rfl⟩
    | replaced users legacy hv hne =>
      rcases hkeep with h0 | ⟨ha, hempty⟩
      · exact absurd h0 hv
      · exact absurd hempty (hne ha)

theorem answered_sameDevices (hans : Answered e feed e') (ha : feed.authoritative = false)
    (hempty : feed.highRisk = ∅) (ho : e.highRisk = some o) (ho' : e'.highRisk = some o') :
    o'.devices = o.devices := by
  cases hans with
  | rejected | unchanged =>
    rw [ho] at ho'
    cases ho'
    rfl
  | applied highRisk hok happ =>
    obtain ⟨o₁, u, ho₁, hu, rfl⟩ := applied_highRisk happ ho'
    obtain rfl : o = o₁ := Option.some.inj (ho.symm.trans ho₁)
    rw [applyDevices,if_pos ⟨by rw [hempty]; rfl,ha⟩,hu.devices]

theorem answered_sameSynced (hans : Answered e feed e') (ha : feed.authoritative = false) (hempty : feed.revoked = ∅) :
    e'.overlay.synced = e.overlay.synced := by
  cases hans with
  | rejected => rfl
  | unchanged => rfl
  | applied highRisk hok happ => exact applyRevoked_empty hempty ha

/-- After any sequence of polls: a failed fetch changes nothing; an incomplete answer that is empty in a layer keeps
that layer; and a complete answer that is not older than what was applied from its epoch is what the layers hold
then, or nothing changed and the answer will be tried again.  The user marks are those of the answer when it has a
section for them, and they stay as they are when it has none. -/
theorem feed_converges {e₀ e : Edge} {answers : List (Option RevocationFeed)} (hstart : e₀.puller = {})
    (hrun : Run Polls e₀ answers e) :
    (e.pull none).1 = e ∧
    (∀ feed : RevocationFeed, feed.authoritative = false →
      (feed.revoked = ∅ → (e.pull (some feed)).1.overlay.synced = e.overlay.synced) ∧
      (feed.highRisk = ∅ → ∀ o o', e.highRisk = some o → (e.pull (some feed)).1.highRisk = some o' →
        o'.devices = o.devices) ∧
      (feed.userRisk = [] ∧ feed.legacyUnattributed = ∅ → SameUsers e (e.pull (some feed)).1)) ∧
    ∀ feed : RevocationFeed, Functional (answers ++ [some feed]) → feed.authoritative = true → e.puller.Timely feed →
      (feed.userRiskVersion = 0 → SameUsers e (e.pull (some feed)).1) ∧
      (Converged feed (e.pull (some feed)).1 ∨ (e.pull (some feed)).1 = e ∧ e.puller.newer feed = true) := by
  have hrem : Remembers answers e := .run (by rw [hstart]) hrun
  refine ⟨rfl,fun feed ha => ⟨fun hempty => ?_,fun hempty o o' ho ho' => ?_,fun hempty => ?_⟩,
    fun feed hfun ha htimely => ⟨fun h0 => ?_,hrem.converges hfun ha htimely⟩⟩
  · exact answered_sameSynced (pull_answered e feed) ha hempty
  · exact answered_sameDevices (pull_answered e feed) ha hempty ho ho'
  · exact answered_sameUsers (pull_answered e feed) (.inr ⟨ha,hempty⟩)
  · exact answered_sameUsers (pull_answered e feed) (.inl h0)

def freshEdge : Edge := ⟨{},some {},{}⟩

def markedFeed : RevocationFeed :=
  { generation := 1,epoch := "a",userRiskVersion := 1,userRisk := [⟨"acme"," u1 ",["eve"],"High"⟩],authoritative := true }

/-- A complete answer of a control plane that does not know risky users. -/
def olderFeed : RevocationFeed :=
  { generation := 1,epoch := "b",revoked := Map.ofEntries [("laptop-7","lost")],authoritative := true }

def markedEdge : Edge := (freshEdge.pull (some markedFeed)).1

theorem feed_converges_marked : Converged markedFeed markedEdge := by
  have hfun : Functional ([none] ++ [some markedFeed]) := by
    intro f g hf hg _ _ _ _
    simp only [cons_append,nil_append,mem_cons,not_mem_nil,or_false,reduceCtorEq,false_or,
      Option.some.injEq] at hf hg
    rw [hf,hg]
  have hrun : Run Polls freshEdge [none] freshEdge := (Run.nil freshEdge).snoc rfl
  obtain ⟨-, -, hconv⟩ := feed_converges rfl hrun
  have hchanged : markedEdge.puller ≠ freshEdge.puller := by decide +kernel
  rcases (hconv markedFeed hfun rfl nofun).2 with h | ⟨hsame, -⟩
  · exact h
  · exact absurd (congrArg Edge.puller hsame) hchanged

/-- A complete answer without a section for users changes the revoked identities and leaves user marks that it does not
have. -/
theorem older_feed_keeps_users : ∃ (answers : List (Option RevocationFeed)) (e : Edge) (feed : RevocationFeed),
    Run Polls freshEdge answers e ∧ Functional (answers ++ [some feed]) ∧ feed.authoritative = true ∧
    e.puller.Timely feed ∧ (e.pull (some feed)).1.overlay.synced ≠ e.overlay.synced ∧
    ∃ o, (e.pull (some feed)).1.highRisk = some o ∧ ¬ HoldsUsers feed.userRisk o.users := by
  have hfun : Functional ([some markedFeed] ++ [some olderFeed]) := by
    intro f g hf hg _ _ hepoch _
    simp only [cons_append,nil_append,mem_cons,not_mem_nil,or_false,Option.some.injEq] at hf hg
    rcases hf with rfl | rfl <;> rcases hg with rfl | rfl
    · rfl
    · exact absurd hepoch (by decide)
    · exact absurd hepoch (by decide)
    · rfl
  have htimely : markedEdge.puller.Timely olderFeed := fun _ h => absurd h (by decide +kernel)
  have hsynced : (markedEdge.pull (some olderFeed)).1.overlay.synced ≠ markedEdge.overlay.synced := by decide +kernel
  have husers : ((markedEdge.pull (some olderFeed)).1.highRisk.bind (·.users[userRiskKey "acme" "u1"]?)).isSome = true := by
    decide +kernel
  obtain ⟨mark, hmark⟩ := Option.isSome_iff_exists.mp husers
  obtain ⟨o, ho, hget⟩ := Option.bind_eq_some_iff.mp hmark
  refine ⟨[some markedFeed],markedEdge,olderFeed,(Run.nil freshEdge).snoc rfl,hfun,rfl,htimely,hsynced,o,ho,fun h => ?_⟩
  obtain ⟨m, hm, -⟩ := (h _ mark).mp hget
  exact absurd hm (by simp [olderFeed])

end DsseCore.Revocation

import DsseCore.AgentRollout.Snapshot
import DsseCore.Lib.Run
import DsseCore.Lib.SharedRow

/-!
# Rollout control from several processes

Every process of the control plane keeps a copy of the plans and edits the shared row inside a transaction that is shown
the latest row.  The transactions are atomic: one that fails has not changed the row.
-/

namespace DsseCore.AgentRollout

open Go Lib

section Store

def AgentRolloutPlan.merge (before p : AgentRolloutPlan) (now : Time) : AgentRolloutPlan :=
  let merged := { before with waves := p.waves.or before.waves,window := p.window.or before.window }
  let merged := match p.intent with
    | .schedule => merged
    | .follow => { merged with desiredVersion := "",releaseChannel := "" }
    | .freeze =>
      { merged with
        frozen := p.frozen
        reason := p.reason
        desiredVersion := if p.desiredVersion = "" then merged.desiredVersion else p.desiredVersion
        releaseChannel := if p.releaseChannel = "" then merged.releaseChannel else p.releaseChannel }
    | .unset | .rollout | .rollback =>
      { merged with desiredVersion := p.desiredVersion,releaseChannel := p.releaseChannel }
  { merged with intent := p.intent,updatedAt := now.formatRFC3339 }

/-- The plan of an organisation; one without a plan has the empty one. -/
def planOf (plans : Plans) (tenant : String) : AgentRolloutPlan := plans[trimSpace tenant]?.getD {}

/-- `decodeCurrentLocked`: a row that is gone is an error for a process that has plans. -/
def decodeCurrentLocked (plans : Plans) : Option Json → Option Plans
  | none => if plans.isEmpty then some ∅ else none
  | some raw => decodeRolloutSnapshot raw

structure Fleet (ι : Type) where
  row : Option Json
  plans : ι → Plans

variable {ι : Type} [DecidableEq ι]

def Fleet.keep (f : Fleet ι) (i : ι) (row : Option Json) (plans : Plans) : Fleet ι :=
  { row := row,plans := fun j => if j = i then plans else f.plans j }

def mutateLocked (f : Fleet ι) (i : ι) (e : Ending) (edit : Plans → Plans) : Bool × Fleet ι :=
  let t := transact e f.row fun raw => (decodeCurrentLocked (f.plans i) raw).map fun m => (marshal (edit m),edit m)
  match t.confirmed, t.ran with
  | true, some candidate => (true,f.keep i t.row candidate)
  | _, _ => (false,{ f with row := t.row })

def applied (tenant : String) (p : AgentRolloutPlan) (now : Time) (m : Plans) : Plans :=
  m.insert (trimSpace tenant) ((planOf m tenant).merge p now)

/-- What happens: a process is asked to apply an update, or to read the plans, which works when the row can be loaded. -/
inductive Event (ι : Type) where
  | apply (i : ι) (tenant : String) (p : AgentRolloutPlan) (now : Time) (e : Ending)
  | read (i : ι) (available : Bool)

def snapshotChecked (f : Fleet ι) (i : ι) (available : Bool) : Option Plans :=
  if available then decodeCurrentLocked (f.plans i) f.row else none

/-- `Get`: without the plans the answer is that the organisation is halted. -/
def get (f : Fleet ι) (i : ι) (available : Bool) (tenant : String) : AgentRolloutPlan :=
  match snapshotChecked f i available with
  | some m => planOf m tenant
  | none => { frozen := true,intent := .freeze,reason := "rollout state is unavailable" }

def Fleet.after (f : Fleet ι) : Event ι → Bool × Fleet ι
  | .apply i tenant p now e => mutateLocked f i e (applied tenant p now)
  | .read i available =>
    match snapshotChecked f i available with
    | some m => (true,f.keep i f.row m)
    | none => (false,f)

/-- The persister is atomic: what it reports as failed did not happen. -/
def Event.Atomic : Event ι → Prop
  | .apply _ _ _ _ e => e ≠ .unconfirmed
  | .read _ _ => True

def Step (f : Fleet ι) (l : Event ι × Bool) (g : Fleet ι) : Prop := l.1.Atomic ∧ f.after l.1 = (l.2,g)

/-- The last value that a successful freeze or unfreeze of the organisation set. -/
def lastFreeze (tenant : String) (log : List (Event ι × Bool)) : Option Bool :=
  log.foldl (fun last l => match l with
    | (.apply _ t p _ _, true) => if trimSpace t = trimSpace tenant ∧ p.intent = .freeze then some p.frozen else last
    | (.apply _ _ _ _ _, false) | (.read _ _, _) => last) none

/-- The plans that the row holds, also when it cannot be read back. -/
def Stored (row : Option Json) (m : Plans) : Prop :=
  match row with
  | none => m = ∅
  | some raw => decodeRolloutSnapshot raw = some m ∨ raw = marshal m

end Store

section Calls

variable {ι : Type} [DecidableEq ι] {f g : Fleet ι} {i : ι} {m m' : Plans} {row : Option Json}

theorem stored_of_decode {plans : Plans} (h : decodeCurrentLocked plans row = some m) : Stored row m := by
  cases row with
  | none =>
    simp only [decodeCurrentLocked] at h
    split at h
    · exact (Option.some.inj h).symm
    · cases h
  | some raw => exact .inl h

theorem stored_marshal (h : Stored (some (marshal m)) m') : m' = m := by
  rcases h with h | h
  · exact decodeRolloutSnapshot_marshal h
  · exact (marshal_injective h).symm

theorem stored_unique (h : Stored row m) (h' : Stored row m') : m = m' := by
  cases row with
  | none => exact h.trans h'.symm
  | some raw =>
    rcases h with h | rfl
    · rcases h' with h' | rfl
      · exact Option.some.inj (h.symm.trans h')
      · exact decodeRolloutSnapshot_marshal h
    · exact (stored_marshal h').symm

theorem mutateLocked_cases (f : Fleet ι) (i : ι) {e : Ending} (he : e ≠ .unconfirmed) (edit : Plans → Plans) :
    mutateLocked f i e edit = (false,f) ∨ ∃ m, decodeCurrentLocked (f.plans i) f.row = some m ∧
      mutateLocked f i e edit = (true,f.keep i (some (marshal (edit m))) (edit m)) := by
  unfold mutateLocked
  have hspec := transact_spec e f.row fun raw =>
    (decodeCurrentLocked (f.plans i) raw).map fun m => (marshal (edit m),edit m)
  generalize transact e f.row _ = t at hspec ⊢
  cases hspec with
  | stopped h => exact .inl rfl
  | failed h hrow hlands =>
    obtain ⟨rfl, -⟩ := hrow.resolve_right fun h => he (hlands h.2)
    exact .inl rfl
  | committed h _ =>
    obtain ⟨m, hm, heq⟩ := Option.map_eq_some_iff.mp h
    obtain ⟨rfl, rfl⟩ := Prod.mk.inj heq
    exact .inr ⟨m,hm,rfl⟩

theorem merge_frozen (before p : AgentRolloutPlan) (now : Time) :
    (before.merge p now).frozen = if p.intent = .freeze then p.frozen else before.frozen := by
  unfold AgentRolloutPlan.merge
  cases p.intent <;> rfl

theorem planOf_applied (m : Plans) (tenant other : String) (p : AgentRolloutPlan) (now : Time) :
    planOf (applied tenant p now m) other =
      if trimSpace tenant = trimSpace other then (planOf m tenant).merge p now else planOf m other := by
  unfold planOf applied
  rw [Map.getElem?_insert_eq]
  split
  · rfl
  · rfl

omit [DecidableEq ι] in
theorem lastFreeze_snoc (tenant : String) (log : List (Event ι × Bool)) (l : Event ι × Bool) :
    lastFreeze tenant (log ++ [l]) = match l with
      | (.apply _ t p _ _, true) =>
        if trimSpace t = trimSpace tenant ∧ p.intent = .freeze then some p.frozen else lastFreeze tenant log
      | (.apply _ _ _ _ _, false) | (.read _ _, _) => lastFreeze tenant log := by
  unfold lastFreeze
  rw [List.foldl_append]
  rfl

theorem step_cases {l : Event ι × Bool} (h : Step f l g) :
    (g.row = f.row ∧ ∀ tenant (log : List (Event ι × Bool)), lastFreeze tenant (log ++ [l]) = lastFreeze tenant log) ∨
    ∃ i t p now e m, l = (.apply i t p now e,true) ∧ Stored f.row m ∧ g.row = some (marshal (applied t p now m)) := by
  obtain ⟨ev, ok⟩ := l
  obtain ⟨hatomic, hafter⟩ := h
  cases ev with
  | read i available =>
    left
    refine ⟨?_,fun tenant log => by rw [lastFreeze_snoc]⟩
    unfold Fleet.after at hafter
    dsimp only at hafter
    split at hafter
    · obtain ⟨-, rfl⟩ := Prod.mk.inj hafter
      rfl
    · obtain ⟨-, rfl⟩ := Prod.mk.inj hafter
      rfl
  | apply i t p now e =>
    rcases mutateLocked_cases f i hatomic (applied t p now) with hfail | ⟨m, hm, hok⟩
    · obtain ⟨rfl, rfl⟩ := Prod.mk.inj (hafter.symm.trans hfail)
      exact .inl ⟨rfl,fun tenant log => by rw [lastFreeze_snoc]⟩
    · obtain ⟨rfl, rfl⟩ := Prod.mk.inj (hafter.symm.trans hok)
      exact .inr ⟨i,t,p,now,e,m,rfl,stored_of_decode hm,rfl⟩

theorem run_frozen {log : List (Event ι × Bool)} (h : Run Step f log g) (hm : Stored g.row m) :
    ∃ m₀, Stored f.row m₀ ∧ ∀ tenant, (planOf m tenant).frozen =
      (lastFreeze tenant log).getD (planOf m₀ tenant).frozen := by
  induction h generalizing m with
  | nil => exact ⟨m,hm,fun _ => rfl⟩
  | @snoc u g log l _ hl ih =>
    rcases step_cases hl with ⟨hrow, hlast⟩ | ⟨i, t, p, now, e, mu, rfl, hmu, hrow⟩
    · rw [hrow] at hm
      obtain ⟨m₀, hm₀, hfrozen⟩ := ih hm
      exact ⟨m₀,hm₀,fun tenant => by rw [hlast,hfrozen]⟩
    rw [hrow] at hm
    obtain rfl := stored_marshal hm
    obtain ⟨m₀, hm₀, hfrozen⟩ := ih hmu
    refine ⟨m₀,hm₀,fun tenant => ?_⟩
    rw [lastFreeze_snoc,planOf_applied]
    dsimp only
    by_cases ht : trimSpace t = trimSpace tenant
    · rw [if_pos ht,merge_frozen]
      by_cases hp : p.intent = .freeze
      · rw [if_pos hp,if_pos ⟨ht,hp⟩]
        rfl
      · have hsame : planOf mu t = planOf mu tenant := by rw [planOf,ht,← planOf]
        rw [if_neg hp,if_neg fun hc => hp hc.2,hsame,hfrozen]
    · rw [if_neg ht,if_neg fun hc => ht hc.1,hfrozen]

end Calls

section Main

variable {ι : Type} [DecidableEq ι] {f g : Fleet ι}

/-- An update that succeeded wrote the update of the latest stored plan, and changes no other organisation. -/
structure TakesEffect (g h : Fleet ι) (i : ι) (tenant : String) (p : AgentRolloutPlan) (now : Time) : Prop where
  latest : ∃ m, Stored g.row m ∧ h.row = some (marshal (applied tenant p now m)) ∧ h.plans i = applied tenant p now m
  stored : ∀ m m', Stored g.row m → Stored h.row m' → ∀ other, planOf m' other =
    if trimSpace tenant = trimSpace other then (planOf m tenant).merge p now else planOf m other
  halted : ∀ m m', p.intent ≠ .freeze → Stored g.row m → Stored h.row m' → ∀ other,
    (planOf m' other).frozen = (planOf m other).frozen

theorem takesEffect {i : ι} {tenant : String} {p : AgentRolloutPlan} {now : Time} {e : Ending} {h : Fleet ι}
    (he : e ≠ .unconfirmed) (hok : g.after (.apply i tenant p now e) = (true,h)) : TakesEffect g h i tenant p now := by
  rcases mutateLocked_cases g i he (applied tenant p now) with hfail | ⟨m, hm, hdone⟩
  · cases hfail.symm.trans hok
  obtain ⟨-, rfl⟩ := Prod.mk.inj (hdone.symm.trans hok)
  have hstored := stored_of_decode hm
  have hplans : ∀ m₁ m', Stored g.row m₁ → Stored (g.keep i (some (marshal (applied tenant p now m)))
      (applied tenant p now m)).row m' → m' = applied tenant p now m₁ := by
    intro m₁ m' h₁ h'
    rw [stored_unique h₁ hstored]
    exact stored_marshal h'
  refine ⟨⟨m,hstored,rfl,if_pos rfl⟩,fun m₁ m' h₁ h' other => ?_,fun m₁ m' hp h₁ h' other => ?_⟩
  · rw [hplans m₁ m' h₁ h',planOf_applied]
  rw [hplans m₁ m' h₁ h',planOf_applied]
  split
  · rename_i ht
    rw [merge_frozen,if_neg hp,planOf,ht,← planOf]
  · rfl

/-- Between any number of processes no update of a plan is lost: one that succeeds updates the latest stored plan of its
organisation and nothing else, one that fails changes nothing, and an organisation is halted exactly as the last
successful freeze or unfreeze says. -/
theorem rollout_no_lost_updates {log : List (Event ι × Bool)} (hrun : Run Step f log g) :
    (∀ i tenant p now e h, e ≠ .unconfirmed → g.after (.apply i tenant p now e) = (true,h) →
      TakesEffect g h i tenant p now) ∧
    (∀ (ev : Event ι) h, ev.Atomic → g.after ev = (false,h) → h = g) ∧
    (∀ m, Stored g.row m → ∃ m₀, Stored f.row m₀ ∧ ∀ tenant, (planOf m tenant).frozen =
      (lastFreeze tenant log).getD (planOf m₀ tenant).frozen) ∧
    (∀ i m, snapshotChecked g i true = some m → Stored g.row m ∧ ∀ tenant, get g i true tenant = planOf m tenant) ∧
    ∀ req p, validateAgentRolloutUpdate req = .ok p →
      p.frozen = if p.intent = .freeze then req.frozen.getD true else false := by
  refine ⟨fun i tenant p now e h he hok => takesEffect he hok,fun ev h hatomic hfail => ?_,fun m hm => run_frozen hrun hm,
    fun i m hm => ⟨stored_of_decode hm,fun tenant => by rw [get,hm]⟩,fun req p => validated_frozen⟩
  cases ev with
  | read i available =>
    unfold Fleet.after at hfail
    dsimp only at hfail
    split at hfail
    · cases hfail
    · exact (Prod.mk.inj hfail).2.symm
  | apply i tenant p now e =>
    rcases mutateLocked_cases g i hatomic (applied tenant p now) with hdone | ⟨m, -, hdone⟩
    · exact (Prod.mk.inj (hdone.symm.trans hfail)).2.symm
    · cases hdone.symm.trans hfail

def halt : Event Bool := .apply true "acme" { intent := .freeze,frozen := true,reason := "incident" } 0 .committed

def reschedule : Event Bool :=
  .apply false " acme " { intent := .schedule,window := some { localStart := "02:00",localEnd := "04:00" } } 0 .committed

def noPlans : Fleet Bool := { row := none,plans := fun _ => ∅ }

theorem halt_survives_schedule :
    ∃ m, Stored ((noPlans.after halt).2.after reschedule).2.row m ∧ (planOf m "acme").frozen = true := by
  have hcommitted : Ending.committed ≠ .unconfirmed := by decide
  have hhalt : Step noPlans (halt,true) (noPlans.after halt).2 := ⟨hcommitted,Prod.ext (by decide +kernel) rfl⟩
  have hnext : Step (noPlans.after halt).2 (reschedule,true) ((noPlans.after halt).2.after reschedule).2 :=
    ⟨hcommitted,Prod.ext (by decide +kernel) rfl⟩
  have hm : Stored ((noPlans.after halt).2.after reschedule).2.row
      (((noPlans.after halt).2.after reschedule).2.plans false) := .inr (by decide +kernel)
  obtain ⟨m₀, -, hfrozen⟩ := (rollout_no_lost_updates (((Run.nil noPlans).snoc hhalt).snoc hnext)).2.2.1 _ hm
  refine ⟨_,hm,?_⟩
  rfl

end Main

end DsseCore.AgentRollout

import DsseCore.AgentRollout.Plan

/-!
# The saved plans are read back

A document that was written from plans and can be read is read as those plans.
-/

namespace DsseCore.AgentRollout

open Go AgentUpdate Json Option

theorem itoa_inj {m n : Int} : itoa m = itoa n ↔ m = n := ⟨fun h => Int.repr_injective h,fun h => by rw [h]⟩

theorem wave_read {w w' : RolloutWave} (h : w.json.readStruct false RolloutWave.fields {} = some w') : w' = w := by
  unfold RolloutWave.json at h
  split at h
  · rename_i hp
    simp [Json.readStruct,Json.readMember,Json.structField?,RolloutWave.fields,Json.textField,Json.intField,
      Json.string?] at h
    obtain ⟨n, hn, rfl⟩ := h
    rw [eq_of_atoi_itoa hn,← hp]
  · simp [Json.readStruct,Json.readMember,Json.structField?,RolloutWave.fields,Json.textField,Json.intField,
      Json.string?,Option.bind_eq_some_iff] at h
    obtain ⟨n, hn, k, hk, rfl⟩ := h
    rw [eq_of_atoi_itoa hn,eq_of_atoi_itoa hk]

theorem waves_read {l l' : List RolloutWave}
    (h : l.mapM (Json.readStruct false RolloutWave.fields {} ∘ RolloutWave.json) = some l') : l' = l := by
  induction l generalizing l' with
  | nil => simpa using h.symm
  | cons w l ih =>
    simp only [List.mapM_cons,Function.comp_apply,bind_eq_bind,pure_def,bind_eq_some_iff,
      some.injEq] at h
    obtain ⟨w', hw, ws, hws, rfl⟩ := h
    rw [wave_read hw,ih hws]

theorem schedule_read {s s' : WaveSchedule} (h : s.json.readStruct false WaveSchedule.fields {} = some s') : s' = s := by
  unfold WaveSchedule.json at h
  split at h
  · rename_i days hd
    simp [Json.readStruct,Json.readMember,Json.structField?,WaveSchedule.fields,readWaves,readDefaultDelay,
      Option.bind_eq_some_iff] at h
    obtain ⟨ws, hws, n, hn, rfl⟩ := h
    rw [waves_read hws,eq_of_atoi_itoa hn,← hd]
  · rename_i hd
    simp [Json.readStruct,Json.readMember,Json.structField?,WaveSchedule.fields,readWaves] at h
    obtain ⟨ws, hws, rfl⟩ := h
    rw [waves_read hws,← hd]

theorem window_read {w w' : PlanWindow} (h : (windowJson w).readStruct false PlanWindow.fields {} = some w') : w' = w := by
  unfold windowJson at h
  simp [readStruct,readMember,structField?,PlanWindow.fields,textField,intField,boolField,
    string?,bool?,bind_eq_some_iff] at h
  obtain ⟨n, hn, k, hk, rfl⟩ := h
  rw [eq_of_atoi_itoa hn,eq_of_atoi_itoa hk]

theorem ofText?_text (i : Intent) : Intent.ofText? i.text = some i := by cases i <;> rfl

theorem text_injective : Function.Injective Intent.text := by
  intro i j h
  have := ofText?_text i
  rw [h,ofText?_text] at this
  exact (some.inj this).symm

theorem wave_injective : Function.Injective RolloutWave.json := by
  rintro ⟨g, d, p⟩ ⟨g', d', p'⟩ h
  by_cases hp : p = 0
  · by_cases hp' : p' = 0
    · simpa [RolloutWave.json,hp',itoa_inj] using h
    · simp [RolloutWave.json,hp,hp'] at h
  by_cases hp' : p' = 0
  · simp [RolloutWave.json,hp,hp'] at h
  · simpa [RolloutWave.json,hp,hp',itoa_inj] using h

theorem schedule_injective : Function.Injective WaveSchedule.json := by
  rintro ⟨ws, d⟩ ⟨ws', d'⟩ h
  cases d with
  | none =>
    cases d' with
    | none => simpa [WaveSchedule.json,List.map_inj_right fun _ _ h => wave_injective h] using h
    | some n => simp [WaveSchedule.json] at h
  | some n =>
    cases d' with
    | none => simp [WaveSchedule.json] at h
    | some n' =>
      simpa [WaveSchedule.json,List.map_inj_right fun _ _ h => wave_injective h,itoa_inj] using h

theorem window_injective : Function.Injective windowJson := by
  rintro ⟨s, e, i, u, a, d⟩ ⟨s', e', i', u', a', d'⟩ h
  simpa [windowJson,itoa_inj] using h

def AgentRolloutPlan.saved (p : AgentRolloutPlan) : SavedPlan :=
  { plan := { p with intent := .unset },intent := p.intent.text }

theorem accepted_saved {p q : AgentRolloutPlan} (h : p.saved.accepted = some q) : q = p := by
  unfold SavedPlan.accepted AgentRolloutPlan.saved at h
  rw [ofText?_text] at h
  dsimp only at h
  split at h
  · cases h
  split at h
  · cases h
  · exact (some.inj h).symm

def AgentRolloutPlan.members (p : AgentRolloutPlan) : List (String × Json) :=
  [("desired_version",.str p.desiredVersion),("release_channel",.str p.releaseChannel),("frozen",.bool p.frozen),
    ("intent",.str p.intent.text),("reason",.str p.reason),("updated_at",.str p.updatedAt)]

theorem members_read (p : AgentRolloutPlan) :
    p.members.foldl (Json.readMember false SavedPlan.fields) (some {}) =
      some { p.saved with plan := { p.saved.plan with waves := none,window := none } } := by
  simp [AgentRolloutPlan.members,Json.readMember,Json.structField?,SavedPlan.fields,Json.textField,Json.boolField,
    Json.string?,Json.bool?,AgentRolloutPlan.saved]

theorem readMember_waves (v : Json) (p : SavedPlan) :
    Json.readMember false SavedPlan.fields (some p) ("waves",v) = readSchedule v p := by
  simp [Json.readMember,Json.structField?,SavedPlan.fields,Json.textField,Json.boolField]

theorem readMember_window (v : Json) (p : SavedPlan) :
    Json.readMember false SavedPlan.fields (some p) ("window",v) = readPlanWindow v p := by
  simp [Json.readMember,Json.structField?,SavedPlan.fields,Json.textField,Json.boolField]

theorem readSchedule_json {s : WaveSchedule} {p p' : SavedPlan} (hp : p.plan.waves = none)
    (h : readSchedule s.json p = some p') : p' = { p with plan := { p.plan with waves := some s } } := by
  unfold readSchedule at h
  rw [hp] at h
  obtain ⟨s', hs, rfl⟩ := Option.map_eq_some_iff.mp h
  rw [schedule_read hs]

theorem readPlanWindow_json {w : PlanWindow} {p p' : SavedPlan} (hp : p.plan.window = none)
    (h : readPlanWindow (windowJson w) p = some p') : p' = { p with plan := { p.plan with window := some w } } := by
  unfold readPlanWindow at h
  rw [hp] at h
  obtain ⟨w', hw, rfl⟩ := map_eq_some_iff.mp h
  rw [window_read hw]

theorem plan_read {p : AgentRolloutPlan} {q : SavedPlan} (h : p.json.readStruct false SavedPlan.fields {} = some q) :
    q = p.saved := by
  change List.foldl _ _ (p.members ++ _ ++ _) = _ at h
  rw [List.foldl_append,List.foldl_append,members_read] at h
  cases hwaves : p.waves with
  | none =>
    cases hwindow : p.window with
    | none =>
      simpa [AgentRolloutPlan.saved,hwaves,hwindow] using h.symm
    | some w =>
      rw [hwaves,hwindow] at h
      simp only [List.foldl_cons,List.foldl_nil] at h
      rw [readMember_window] at h
      rw [readPlanWindow_json rfl h]
      simp [AgentRolloutPlan.saved,hwaves,hwindow]
  | some s =>
    cases hwindow : p.window with
    | none =>
      rw [hwaves,hwindow] at h
      rw [readSchedule_json rfl h]
      simp [AgentRolloutPlan.saved,hwaves,hwindow]
    | some w =>
      rw [hwaves,hwindow] at h
      simp only [List.foldl_cons,List.foldl_nil] at h
      rw [readMember_waves] at h
      cases hs : readSchedule s.json
          { p.saved with plan := { p.saved.plan with waves := none,window := none } } with
      | none =>
        rw [hs] at h
        cases h
      | some p' =>
        rw [hs,readMember_window] at h
        have hp' := readSchedule_json rfl hs
        rw [readPlanWindow_json (by rw [hp']) h,hp']
        simp [AgentRolloutPlan.saved,hwaves,hwindow]

theorem decodePlan_json {tenant : String} {p q : AgentRolloutPlan} (h : decodePlan tenant p.json = some q) : q = p := by
  unfold decodePlan at h
  split at h
  · cases h
  split at h
  · cases h
  split at h
  · cases h
  split at h
  · obtain ⟨sp, hsp, ha⟩ := bind_eq_some_iff.mp h
    rw [plan_read hsp] at ha
    exact accepted_saved ha
  · cases h

theorem json_injective : Function.Injective AgentRolloutPlan.json := by
  rintro ⟨v, c, f, i, r, u, ws, w⟩ ⟨v', c', f', i', r', u', ws', w'⟩ h
  have hwaves : ∀ x y, WaveSchedule.json x = WaveSchedule.json y ↔ x = y := fun _ _ => schedule_injective.eq_iff
  have hwindow : ∀ x y, windowJson x = windowJson y ↔ x = y := fun _ _ => window_injective.eq_iff
  have htext : ∀ x y, Intent.text x = Intent.text y ↔ x = y := fun _ _ => text_injective.eq_iff
  cases ws <;> cases ws' <;> cases w <;> cases w' <;>
    simp_all [AgentRolloutPlan.json]

theorem decodeRolloutSnapshot_get {v : Json} {plans : Plans} (h : decodeRolloutSnapshot v = some plans) :
    ∃ rows, rolloutSnapshotObject v = some rows ∧
      (∀ tenant p, rows[tenant]? = some p → ∃ q, decodePlan tenant p = some q ∧ plans[tenant]? = some q) ∧
      ∀ tenant : String, rows[tenant]? = none → plans[tenant]? = none := by
  unfold decodeRolloutSnapshot at h
  split at h
  · cases h
  rename_i rows hrows
  refine ⟨rows,hrows,?_⟩
  cases hf : Map.fill (fun tenant plan => (decodePlan tenant plan).elim (.error ()) .ok) rows ∅ with
  | error e =>
    rw [hf] at h
    cases h
  | ok out =>
    rw [hf] at h
    obtain rfl : out = plans := some.inj h
    obtain ⟨hin, hout⟩ := Map.fill_ok.mp hf
    refine ⟨fun tenant p hp => ?_,fun tenant hp => by rw [hout tenant hp]; rfl⟩
    obtain ⟨q, hq, hget⟩ := hin tenant p hp
    cases hd : decodePlan tenant p with
    | none =>
      rw [hd] at hq
      cases hq
    | some q' =>
      rw [hd] at hq
      exact ⟨q,by rw [← Except.ok.inj hq],hget⟩

theorem rolloutSnapshotObject_marshal (plans : Plans) :
    rolloutSnapshotObject (marshal plans) = some (plans.map fun _ p => p.json) := by
  unfold marshal ofMap rolloutSnapshotObject
  dsimp only
  rw [if_pos (Map.nodup_toList_keys _),Map.ofEntries_toList]

theorem decodeRolloutSnapshot_marshal {plans plans' : Plans} (h : decodeRolloutSnapshot (marshal plans) = some plans') :
    plans' = plans := by
  obtain ⟨rows, hrows, hin, hout⟩ := decodeRolloutSnapshot_get h
  rw [rolloutSnapshotObject_marshal] at hrows
  obtain rfl := some.inj hrows
  refine Std.ExtTreeMap.ext_getElem? fun tenant => ?_
  cases hp : plans[tenant]? with
  | none => exact hout tenant (by simp [hp])
  | some p =>
    obtain ⟨q, hq, hget⟩ := hin tenant p.json (by simp [hp])
    rw [hget,decodePlan_json hq]

theorem marshal_injective : Function.Injective marshal := by
  intro plans plans' h
  have hrows := rolloutSnapshotObject_marshal plans
  rw [h,rolloutSnapshotObject_marshal] at hrows
  refine Std.ExtTreeMap.ext_getElem? fun tenant => ?_
  have hget := congrArg (fun m : Map Json => m[tenant]?) (some.inj hrows)
  simp only [Std.ExtTreeMap.getElem?_map] at hget
  exact (map_injective json_injective hget).symm

end DsseCore.AgentRollout

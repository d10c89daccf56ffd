import DsseCore.Decision.Evaluate

/-!
# Which policy wins a tie

Policies are tried in the order of their priority, and at one priority the more restrictive decision is to come first.
The explanation of a decision walks the same order a second time.
-/

namespace DsseCore.Decision

open Go Model List

def winner (now : Time) (policies : List Policy) (req : DecisionRequest) (actorType : String) : Option Policy :=
  (firstMatchedPolicy now policies req actorType).map Prod.fst

/-- The decisions that withhold access until something is proved: those of policy authoring and those the tie-break
names. -/
def withholding : List String :=
  ["require_reauthentication","require_workload_attestation","require_step_up_mfa","require_interactive_mfa",
    "authenticate_required"]

/-- Deny before a demand for proof, and that before everything else. -/
def restrictiveness (decision : String) : ℕ :=
  if decision = "deny" then 0 else if decision ∈ withholding then 1 else 2

structure PolicyTraceEntry where
  policyID : String
  name : String
  priority : Int
  decision : String
  status : String
  isMatched : Bool
  matchedConditions : List String
  isWinner : Bool
  isShadowed : Bool
  deriving DecidableEq

structure DecisionExplanation where
  actorType : String
  trace : List PolicyTraceEntry
  winnerPolicyID : String
  winnerDecision : String
  finalDecision : String
  finalPolicyID : String
  deriving DecidableEq

/-- The loop of `ExplainDecision`, with the winner found so far. -/
def explainTrace (now : Time) (req : DecisionRequest) (actorType : String) :
    List Policy → Option Policy → List PolicyTraceEntry × Option Policy
  | [], found => ([],found)
  | p :: ps, found =>
    let names := matchPolicy now p req actorType
    let entry : PolicyTraceEntry :=
      { policyID := p.id, name := p.name, priority := p.priority, decision := p.action.decision, status := p.status
        isMatched := names.isSome
        matchedConditions := names.getD []
        isWinner := names.isSome && found.isNone
        isShadowed := names.isSome && found.isSome }
    let rest := explainTrace now req actorType ps (if names.isSome && found.isNone then some p else found)
    (entry :: rest.1,rest.2)

def Evaluator.explainDecision (e : Evaluator) (now : Time) (request : DecisionRequest) : DecisionExplanation :=
  let req := e.enriched request
  let actorType := effectiveActorType req
  let walk := explainTrace now req actorType (orderedPolicies e.policies) none
  let final := e.evaluate now request
  { actorType := actorType
    trace := walk.1
    winnerPolicyID := (walk.2.map (·.id)).getD ""
    winnerDecision := (walk.2.map (·.action.decision)).getD ""
    finalDecision := final.decision
    finalPolicyID := final.policyID }

variable {p q : Policy}

theorem policyLess_eq_true_iff :
    policyLess p q = true ↔ p.priority < q.priority ∨ p.priority = q.priority ∧
      (policyDecisionRestrictivenessRank p.action.decision < policyDecisionRestrictivenessRank q.action.decision ∨
        policyDecisionRestrictivenessRank p.action.decision = policyDecisionRestrictivenessRank q.action.decision ∧
          p.id < q.id) := by
  rw [policyLess_iff,policyKey,policyKey,Prod.Lex.toLex_lt_toLex,Prod.Lex.toLex_lt_toLex]

theorem policyLess_eq_false_iff :
    policyLess q p = false ↔ p.priority < q.priority ∨ p.priority = q.priority ∧
      (policyDecisionRestrictivenessRank p.action.decision < policyDecisionRestrictivenessRank q.action.decision ∨
        policyDecisionRestrictivenessRank p.action.decision = policyDecisionRestrictivenessRank q.action.decision ∧
          p.id ≤ q.id) := by
  rw [Bool.eq_false_iff,Ne,policyLess_iff,not_lt,policyKey,policyKey,Prod.Lex.toLex_le_toLex,
    Prod.Lex.toLex_le_toLex]

theorem keys_eq (hp : policyLess p q = false) (hq : policyLess q p = false) :
    p.priority = q.priority ∧ p.id = q.id ∧
      policyDecisionRestrictivenessRank p.action.decision = policyDecisionRestrictivenessRank q.action.decision := by
  rw [Bool.eq_false_iff,Ne,policyLess_iff,not_lt] at hp hq
  have hkey : policyKey p = policyKey q := le_antisymm hq hp
  have hfields := Prod.mk.inj (toLex_inj.mp hkey)
  have hrest := Prod.mk.inj (toLex_inj.mp hfields.2)
  exact ⟨hfields.1,hrest.2,hrest.1⟩

theorem rank_le_two (d : String) : policyDecisionRestrictivenessRank d ≤ 2 := by
  unfold policyDecisionRestrictivenessRank
  split <;> decide

theorem rank_eq (d : String) :
    policyDecisionRestrictivenessRank d = if d = "require_workload_attestation" then 2 else restrictiveness d := by
  unfold policyDecisionRestrictivenessRank
  split
  · decide
  · decide
  · decide
  · decide
  · decide
  next h₀ h₁ h₂ h₃ h₄ =>
    split
    · rfl
    next h₅ =>
      have hnot : d ∉ withholding := by
        simp only [withholding,mem_cons,not_mem_nil,or_false,not_or]
        exact ⟨h₁,h₅,h₂,h₃,h₄⟩
      rw [restrictiveness,if_neg h₀,if_neg hnot]

theorem restrictiveness_le_rank (d : String) : restrictiveness d ≤ policyDecisionRestrictivenessRank d := by
  rw [rank_eq]
  split
  next h =>
    subst h
    decide
  · exact le_rfl

variable {now : Time} {req : DecisionRequest} {actorType : String} {policies l : List Policy} {w : Policy}

theorem winner_eq :
    winner now policies req actorType = (orderedPolicies policies).find? (policyMatches now req actorType) := by
  rw [winner,firstMatchedPolicy_eq,Option.map_map]
  exact Option.map_id'

theorem winner_iff :
    winner now policies req actorType = some w ↔
      ∃ i, FirstSelected policyLess (policyMatches now req actorType) policies i w := by
  rw [winner_eq]
  exact find?_sliceStable_iff policyLess_strictWeak

theorem exists_winner (hq : q ∈ policies) (hmatch : policyMatches now req actorType q = true) :
    ∃ w, winner now policies req actorType = some w := by
  cases hw : winner now policies req actorType with
  | some w => exact ⟨w,rfl⟩
  | none =>
    rw [winner_eq,find?_eq_none] at hw
    exact absurd hmatch (hw q (mem_orderedPolicies.mpr hq))

section Ties

variable (now : Time) (req : DecisionRequest) (actorType : String) (policies : List Policy)

/-- The policy chosen is of the lowest matching priority, and no match of that priority is more restrictive. -/
def MostRestrictive : Prop :=
  ∀ w, winner now policies req actorType = some w → ∀ q ∈ policies, policyMatches now req actorType q = true →
    w.priority ≤ q.priority ∧ (q.priority = w.priority →
      restrictiveness w.action.decision ≤ restrictiveness q.action.decision)

/-- A matching policy that demands workload attestation at the lowest matching priority meets a denial or another demand
for proof there, or one such policy is the first of the matches there by ID and then by position. -/
def AttestationFirst : Prop :=
  ∀ q ∈ policies, policyMatches now req actorType q = true → q.action.decision = "require_workload_attestation" →
    (∀ p ∈ policies, policyMatches now req actorType p = true → q.priority ≤ p.priority) →
    (∃ r ∈ policies, policyMatches now req actorType r = true ∧ r.priority = q.priority ∧
      policyDecisionRestrictivenessRank r.action.decision < 2) ∨
    ∃ (i : ℕ) (a : Policy), policies[i]? = some a ∧ policyMatches now req actorType a = true ∧
      a.priority = q.priority ∧ a.action.decision = "require_workload_attestation" ∧
      ∀ (j : ℕ) (p : Policy), policies[j]? = some p → policyMatches now req actorType p = true →
        p.priority = q.priority → a.id < p.id ∨ a.id = p.id ∧ i ≤ j

variable {now req actorType policies}

theorem attestationFirst_of_mostRestrictive (h : MostRestrictive now req actorType policies) :
    AttestationFirst now req actorType policies := by
  intro q hq hmatch hattest hlowest
  obtain ⟨w, hw⟩ := exists_winner hq hmatch
  obtain ⟨i, hi⟩ := winner_iff.mp hw
  have hwmem := mem_of_getElem? hi.found
  have hpriority : w.priority = q.priority :=
    le_antisymm (h w hw q hq hmatch).1 (hlowest w hwmem hi.selected)
  have hrestrictive : restrictiveness w.action.decision ≤ 1 := by
    have hle := (h w hw q hq hmatch).2 hpriority.symm
    rw [hattest] at hle
    exact hle
  by_cases hrank : policyDecisionRestrictivenessRank w.action.decision < 2
  · exact .inl ⟨w,hwmem,hi.selected,hpriority,hrank⟩
  have hdecision : w.action.decision = "require_workload_attestation" := by
    by_contra hother
    rw [rank_eq,if_neg hother] at hrank
    omega
  refine .inr ⟨i,w,hi.found,hi.selected,hpriority,hdecision,?_⟩
  intro j p hj hp hpq
  have hmin := policyLess_eq_false_iff.mp (hi.minimal j p hj hp)
  have hp2 := rank_le_two p.action.decision
  have hid : w.id ≤ p.id := by
    rcases hmin with hlt | ⟨-, hlt | ⟨-, hid⟩⟩
    · omega
    · omega
    · exact hid
  rcases lt_or_eq_of_le hid with hlt | heq
  · exact .inl hlt
  refine .inr ⟨heq,?_⟩
  by_contra hji
  have hless := policyLess_eq_true_iff.mp (hi.earliest j p hj hp (not_le.mp hji))
  rcases hless with hlt | ⟨-, hlt | ⟨-, hlt⟩⟩
  · omega
  · omega
  · exact absurd heq hlt.ne

theorem mostRestrictive_of_attestationFirst (h : AttestationFirst now req actorType policies) :
    MostRestrictive now req actorType policies := by
  intro w hw q hq hmatch
  obtain ⟨i, hi⟩ := winner_iff.mp hw
  have hminimal : ∀ p ∈ policies, policyMatches now req actorType p = true → policyLess p w = false := by
    intro p hp hpm
    obtain ⟨j, hj⟩ := mem_iff_getElem?.mp hp
    exact hi.minimal j p hj hpm
  have hlowest : ∀ p ∈ policies, policyMatches now req actorType p = true → w.priority ≤ p.priority := by
    intro p hp hpm
    rcases policyLess_eq_false_iff.mp (hminimal p hp hpm) with hlt | ⟨heq, -⟩
    · exact hlt.le
    · exact heq.le
  -- at the priority of the winner nothing has a lower rank
  have hrank : ∀ p ∈ policies, policyMatches now req actorType p = true → p.priority = w.priority →
      policyDecisionRestrictivenessRank w.action.decision ≤ policyDecisionRestrictivenessRank p.action.decision := by
    intro p hp hpm hpw
    rcases policyLess_eq_false_iff.mp (hminimal p hp hpm) with hlt | ⟨-, hlt | ⟨heq, -⟩⟩
    · omega
    · exact hlt.le
    · exact heq.le
  refine ⟨hlowest q hq hmatch,fun hpriority => ?_⟩
  have hwr := restrictiveness_le_rank w.action.decision
  by_cases hattest : q.action.decision = "require_workload_attestation"
  · have hone : restrictiveness q.action.decision = 1 := by
      rw [hattest]
      decide
    rw [hone]
    have hlowest' : ∀ p ∈ policies, policyMatches now req actorType p = true → q.priority ≤ p.priority := by
      intro p hp hpm
      rw [hpriority]
      exact hlowest p hp hpm
    rcases h q hq hmatch hattest hlowest' with ⟨r, hr, hrm, hrp, hlow⟩ | ⟨k, a, hk, ham, hap, had, hfirst⟩
    · have := hrank r hr hrm (hrp.trans hpriority)
      omega
    by_cases hw2 : policyDecisionRestrictivenessRank w.action.decision < 2
    · omega
    -- the winner and the first demand for attestation are the same policy
    have harank : policyDecisionRestrictivenessRank a.action.decision = 2 := by
      rw [had]
      rfl
    have hwa : w.id ≤ a.id := by
      rcases policyLess_eq_false_iff.mp (hi.minimal k a hk ham) with hlt | ⟨-, hlt | ⟨-, hid⟩⟩
      · omega
      · omega
      · exact hid
    have hki : a.id = w.id ∧ k ≤ i := by
      rcases hfirst i w hi.found hi.selected hpriority.symm with hlt | heq
      · exact absurd hwa hlt.not_ge
      · exact heq
    rcases lt_or_eq_of_le hki.2 with hlt | rfl
    · rcases policyLess_eq_true_iff.mp (hi.earliest k a hk ham hlt) with hp | ⟨-, hp | ⟨-, hp⟩⟩
      · omega
      · omega
      · exact absurd hki.1.symm hp.ne
    · obtain rfl : a = w := Option.some.inj (hk.symm.trans hi.found)
      rw [had]
      decide
  · have hqr : policyDecisionRestrictivenessRank q.action.decision = restrictiveness q.action.decision := by
      rw [rank_eq,if_neg hattest]
    have := hrank q hq hmatch hpriority
    omega

end Ties

section Order

variable (now : Time) (req : DecisionRequest) (actorType : String) (policies : List Policy)

/-- With priority, decision and ID pairwise distinct, the choice does not depend on the order of the list. -/
def OrderFree : Prop :=
  (policies.map fun p => (p.priority,p.action.decision,p.id)).Nodup →
    ∀ l : List Policy, l.Perm policies → winner now l req actorType = winner now policies req actorType

/-- With priority, decision and ID pairwise distinct, no two policies that match before all others agree in the priority,
the ID and the rank of their decisions without agreeing in the decisions. -/
def FrontDecided : Prop :=
  (policies.map fun p => (p.priority,p.action.decision,p.id)).Nodup →
    ∀ p ∈ policies, ∀ q ∈ policies, policyMatches now req actorType p = true → policyMatches now req actorType q = true →
      (∀ r ∈ policies, policyMatches now req actorType r = true → policyLess r p = false) →
      p.priority = q.priority → p.id = q.id →
      policyDecisionRestrictivenessRank p.action.decision = policyDecisionRestrictivenessRank q.action.decision →
      p.action.decision = q.action.decision

variable {now req actorType policies}

theorem winner_cons (hp : policyMatches now req actorType p = true)
    (hfront : ∀ r ∈ p :: l, policyMatches now req actorType r = true → policyLess r p = false) :
    winner now (p :: l) req actorType = some p := by
  rw [winner_iff]
  refine ⟨0,rfl,hp,fun j b hj => hfront b (mem_of_getElem? hj),fun j _ _ _ hj => ?_⟩
  exact absurd hj (Nat.not_lt_zero j)

theorem orderFree_iff : OrderFree now req actorType policies ↔ FrontDecided now req actorType policies := by
  constructor
  · intro h hnodup p hp q hq hpm hqm hfront hpriority hid hrank
    have hwins : ∀ r ∈ policies, policyMatches now req actorType r = true →
        (∀ r' ∈ policies, policyMatches now req actorType r' = true → policyLess r' r = false) →
        winner now policies req actorType = some r := by
      intro r hr hrm hrfront
      have hperm : (r :: policies.erase r).Perm policies := (perm_cons_erase hr).symm
      rw [← h hnodup _ hperm]
      exact winner_cons hrm fun r' hr' => hrfront r' (hperm.mem_iff.mp hr')
    have hqfront : ∀ r ∈ policies, policyMatches now req actorType r = true → policyLess r q = false := by
      intro r hr hrm
      have hrp := hfront r hr hrm
      rw [policyLess_eq_false_iff] at hrp ⊢
      rwa [← hpriority,← hid,← hrank]
    have heq := (hwins p hp hpm hfront).symm.trans (hwins q hq hqm hqfront)
    rw [Option.some.inj heq]
  · intro h hnodup l hperm
    cases hw : winner now policies req actorType with
    | none =>
      rw [winner_eq,find?_eq_none] at hw ⊢
      intro p hp
      exact hw p (mem_orderedPolicies.mpr (hperm.mem_iff.mp (mem_orderedPolicies.mp hp)))
    | some w =>
      obtain ⟨i, hi⟩ := winner_iff.mp hw
      have hwmem := mem_of_getElem? hi.found
      obtain ⟨v, hv⟩ := exists_winner (hperm.mem_iff.mpr hwmem) hi.selected
      obtain ⟨j, hj⟩ := winner_iff.mp hv
      have hvmem := hperm.mem_iff.mp (mem_of_getElem? hj.found)
      have hfront : ∀ r ∈ policies, policyMatches now req actorType r = true → policyLess r w = false := by
        intro r hr hrm
        obtain ⟨k, hk⟩ := mem_iff_getElem?.mp hr
        exact hi.minimal k r hk hrm
      have hwv : policyLess w v = false := by
        obtain ⟨k, hk⟩ := mem_iff_getElem?.mp (hperm.mem_iff.mpr hwmem)
        exact hj.minimal k w hk hi.selected
      obtain ⟨hpriority, hid, hrank⟩ := keys_eq hwv (hfront v hvmem hj.selected)
      have hdecision := h hnodup w hwmem v hvmem hi.selected hj.selected hfront hpriority hid hrank
      rw [hv]
      exact congrArg some (inj_on_of_nodup_map hnodup hvmem hwmem (by rw [hpriority,hdecision,hid]))

end Order

/-- What the walk says of one policy, given whether a winner was found before it. -/
def traceEntry (now : Time) (req : DecisionRequest) (actorType : String) (found : Bool) (p : Policy) :
    PolicyTraceEntry :=
  { policyID := p.id, name := p.name, priority := p.priority, decision := p.action.decision, status := p.status
    isMatched := policyMatches now req actorType p
    matchedConditions := (matchPolicy now p req actorType).getD []
    isWinner := policyMatches now req actorType p && !found
    isShadowed := policyMatches now req actorType p && found }

theorem explainTrace_cons (p : Policy) (ps : List Policy) (found : Option Policy) :
    explainTrace now req actorType (p :: ps) found =
      (traceEntry now req actorType found.isSome p ::
          (explainTrace now req actorType ps
            (if policyMatches now req actorType p && found.isNone then some p else found)).1,
        (explainTrace now req actorType ps
          (if policyMatches now req actorType p && found.isNone then some p else found)).2) := by
  cases found <;> rfl

theorem explainTrace_snd (ps : List Policy) (found : Option Policy) :
    (explainTrace now req actorType ps found).2 = found.or (ps.find? (policyMatches now req actorType)) := by
  induction ps generalizing found with
  | nil => cases found <;> rfl
  | cons p ps ih =>
    rw [explainTrace_cons,ih]
    cases found with
    | some w => simp
    | none => cases hp : policyMatches now req actorType p <;> simp [hp]

theorem explainTrace_getElem? (ps : List Policy) (found : Option Policy) (k : ℕ) :
    (explainTrace now req actorType ps found).1[k]? =
      ps[k]?.map (traceEntry now req actorType
        (found.isSome || (ps.take k).any (policyMatches now req actorType))) := by
  induction ps generalizing found k with
  | nil => rfl
  | cons p ps ih =>
    rw [explainTrace_cons]
    cases k with
    | zero => simp
    | succ k =>
      simp only [getElem?_cons_succ,ih,take_succ_cons,any_cons]
      congr 2
      cases found with
      | some w => simp
      | none => cases hp : policyMatches now req actorType p <;> simp

/-- The explanation lists the policies in the order of precedence, marks the chosen one as the winner and every other
match as shadowed. -/
def Explained (e : Evaluator) (now : Time) (request : DecisionRequest) : Prop :=
  let req := e.enriched request
  let actorType := effectiveActorType req
  let chosen := winner now e.policies req actorType
  (e.explainDecision now request).winnerPolicyID = (chosen.map (·.id)).getD "" ∧
    (e.explainDecision now request).winnerDecision = (chosen.map (·.action.decision)).getD "" ∧
    (e.explainDecision now request).trace.length = (orderedPolicies e.policies).length ∧
    ∀ (k : ℕ) (p : Policy), (orderedPolicies e.policies)[k]? = some p →
      ∃ entry, (e.explainDecision now request).trace[k]? = some entry ∧
        entry.policyID = p.id ∧ entry.decision = p.action.decision ∧
        entry.isMatched = policyMatches now req actorType p ∧
        (entry.isWinner = true → chosen = some p) ∧
        (entry.isWinner = true ↔ policyMatches now req actorType p = true ∧
          ∀ q ∈ (orderedPolicies e.policies).take k, policyMatches now req actorType q = false) ∧
        (entry.isShadowed = true ↔ policyMatches now req actorType p = true ∧ entry.isWinner = false)

theorem explainTrace_length (ps : List Policy) (found : Option Policy) :
    (explainTrace now req actorType ps found).1.length = ps.length := by
  induction ps generalizing found with
  | nil => rfl
  | cons p ps ih =>
    rw [explainTrace_cons,length_cons,ih,length_cons]

theorem find?_of_take {m : Policy → Bool} {k : ℕ} (hk : l[k]? = some p) (hp : m p = true)
    (hbefore : ∀ q ∈ l.take k, m q = false) : l.find? m = some p := by
  obtain ⟨hlt, hget⟩ := List.getElem?_eq_some_iff.mp hk
  have hsplit : l = l.take k ++ p :: l.drop (k + 1) := by
    rw [← hget,← drop_eq_getElem_cons hlt,take_append_drop]
  have hnone : (l.take k).find? m = none := by
    rw [find?_eq_none]
    intro q hq
    simp [hbefore q hq]
  rw [hsplit,find?_append,hnone,find?_cons_of_pos hp]
  rfl

theorem explained (e : Evaluator) (now : Time) (request : DecisionRequest) : Explained e now request := by
  have hsnd := @explainTrace_snd now (e.enriched request) (effectiveActorType (e.enriched request))
    (orderedPolicies e.policies) none
  rw [Option.none_or,← winner_eq] at hsnd
  refine ⟨?_,?_,explainTrace_length _ _,?_⟩
  · simp only [Evaluator.explainDecision,hsnd]
  · simp only [Evaluator.explainDecision,hsnd]
  intro k p hk
  have hentry := @explainTrace_getElem? now (e.enriched request) (effectiveActorType (e.enriched request))
    (orderedPolicies e.policies) none k
  rw [hk,Option.isSome_none,Bool.false_or] at hentry
  refine ⟨_,hentry,rfl,rfl,rfl,?_,?_,?_⟩
  · intro hwinner
    simp only [traceEntry,Bool.and_eq_true,Bool.not_eq_true',any_eq_false,Bool.not_eq_true] at hwinner
    rw [winner_eq]
    exact find?_of_take hk hwinner.1 hwinner.2
  · simp only [traceEntry,Bool.and_eq_true,Bool.not_eq_true',any_eq_false,Bool.not_eq_true]
  · simp only [traceEntry]
    cases policyMatches now (e.enriched request) (effectiveActorType (e.enriched request)) p <;> simp

/-- Restrictive ties win, whatever the order of the list, and are explained, exactly when no demand for workload
attestation is beaten to the front by ID and no two decisions of one rank share priority and ID at the front. -/
theorem restrictive_ties_win_iff (e : Evaluator) (now : Time) (request : DecisionRequest) :
    (MostRestrictive now (e.enriched request) (effectiveActorType (e.enriched request)) e.policies ∧
      OrderFree now (e.enriched request) (effectiveActorType (e.enriched request)) e.policies ∧
      Explained e now request) ↔
    (AttestationFirst now (e.enriched request) (effectiveActorType (e.enriched request)) e.policies ∧
      FrontDecided now (e.enriched request) (effectiveActorType (e.enriched request)) e.policies) := by
  rw [orderFree_iff,and_iff_left (explained e now request)]
  exact and_congr_left fun _ => ⟨attestationFirst_of_mostRestrictive,mostRestrictive_of_attestationFirst⟩

/-- An allow policy and a policy that demands workload attestation, at one priority. -/
def tiedPolicies : List Policy :=
  [{ id := "pol-a", priority := 100, status := "active", action := { decision := "allow" } },
    { id := "pol-b", priority := 100, status := "active", action := { decision := "require_workload_attestation" } }]

/-- A global policy and a policy of the tenant that share their ID. -/
def sharedIDPolicies : List Policy :=
  [{ id := "pol-a", priority := 100, status := "active", action := { decision := "allow" } },
    { id := "pol-a", tenantID := "acme", priority := 100, status := "active",
      action := { decision := "require_workload_attestation" } }]

/-- The allow wins the first tie by its ID, and the second one by its place in the list. -/
theorem attestation_loses_ties :
    (winner 0 tiedPolicies { tenantID := "acme" } "human").map (·.action.decision) = some "allow" ∧
      (tiedPolicies.map (policyMatches 0 { tenantID := "acme" } "human")) = [true,true] ∧
      ((sharedIDPolicies.map fun p => (p.priority,p.action.decision,p.id)).Nodup ∧
        (winner 0 sharedIDPolicies { tenantID := "acme" } "human").map (·.action.decision) = some "allow" ∧
        (winner 0 sharedIDPolicies.reverse { tenantID := "acme" } "human").map (·.action.decision) =
          some "require_workload_attestation") := by
  decide +kernel

end DsseCore.Decision

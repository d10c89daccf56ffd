import DsseCore.Go.Numbers
import DsseCore.PolicyRule.EgressRefinement
import DsseCore.PolicyStore.Evaluator

/-!
# Identities of compiled policies

The ID of a compiled policy is the ID of its rule with marks behind dashes.  The mark of the host comes first, and no
mark after it can be taken for one, so the ID can be read from its end whatever dashes the ID of the rule has.
-/

namespace DsseCore.PolicyRule

open Go Model PolicyStore List

variable {ws : List String} {host : String × Conditions} {sources : List Conditions}

theorem nodup_flatMap_of_tag {α β γ : Type} {l : List α} {f : α → List β} (tag : α → γ) (hl : (l.map tag).Nodup)
    (hf : ∀ a ∈ l, (f a).Nodup) (htag : ∀ a ∈ l, ∀ b ∈ l, ∀ x ∈ f a, x ∈ f b → tag a = tag b) :
    (l.flatMap f).Nodup := by
  refine nodup_flatMap.mpr ⟨hf,?_⟩
  refine (pairwise_map.mp hl).imp_of_mem fun {a b} ha hb hne x hx hx' => ?_
  exact hne (htag a ha b hb x hx hx')

def words (s : String) : List (List Char) := splitList '-' s.toList

def dashed (ws : List String) : String := ws.foldr (fun w s => "-" ++ w ++ s) ""

theorem dashed_append (ws ws' : List String) : dashed (ws ++ ws') = dashed ws ++ dashed ws' := by
  induction ws with
  | nil => exact (String.empty_append).symm
  | cons w ws ih =>
    change "-" ++ w ++ dashed (ws ++ ws') = "-" ++ w ++ dashed ws ++ dashed ws'
    rw [ih]
    simp only [String.append_assoc]

theorem words_append_dashed (h : ∀ w ∈ ws, '-' ∉ w.toList) (s : String) :
    words (s ++ dashed ws) = words s ++ ws.map String.toList := by
  induction ws generalizing s with
  | nil => simp [dashed]
  | cons w ws ih =>
    have hw : splitList '-' w.toList = [w.toList] := splitList_of_notMem fun c hc heq =>
      h w mem_cons_self (heq ▸ hc)
    have hstep : words (s ++ ("-" ++ w)) = words s ++ [w.toList] := by
      simp only [words,String.toList_append]
      exact (splitList_append '-' s.toList w.toList).trans (congrArg _ hw)
    change words (s ++ ("-" ++ w ++ dashed ws)) = _
    rw [← String.append_assoc,ih (fun w hw => h w (mem_cons_of_mem _ hw)),hstep,append_assoc]
    rfl

theorem dashed_inj {ws' : List String} (h : ∀ w ∈ ws, '-' ∉ w.toList) (h' : ∀ w ∈ ws', '-' ∉ w.toList)
    (heq : dashed ws = dashed ws') : ws = ws' := by
  have hwords := congrArg (fun s => words ("" ++ s)) heq
  simp only [words_append_dashed h,words_append_dashed h'] at hwords
  exact map_injective_iff.mpr (fun _ _ h => String.toList_injective h) (append_cancel_left hwords)

def isHostWord (w : List Char) : Bool := w == "any".toList || w == "nomatch".toList || (w != [] && w.all Char.isDigit)

inductive HostMark : List String → Prop where
  | any : HostMark ["any"]
  | unresolved : HostMark ["nomatch"]
  | address (i : ℕ) (kind : String) (h : kind = "fqdn" ∨ kind = "sni") : HostMark [itoa i,kind]

theorem toList_itoa (i : ℕ) : (itoa i).toList = Nat.toDigits 10 i := toList_toString i

theorem isDigit_itoa {i : ℕ} : ∀ c ∈ (itoa i).toList, c.isDigit = true := by
  intro c hc
  rw [toList_itoa] at hc
  exact Nat.isDigit_of_mem_toDigits (by omega) (by omega) hc

theorem HostMark.words (h : HostMark ws) :
    (∀ w ∈ ws, '-' ∉ w.toList) ∧ ∃ w ws', ws = w :: ws' ∧ isHostWord w.toList = true ∧
      ∀ v ∈ ws', isHostWord v.toList = false := by
  cases h with
  | any => exact ⟨by decide,_,_,rfl,by decide,by simp⟩
  | unresolved => exact ⟨by decide,_,_,rfl,by decide,by simp⟩
  | address i kind hkind =>
    have hkind' : '-' ∉ kind.toList ∧ isHostWord kind.toList = false := by
      rcases hkind with rfl | rfl <;> decide
    refine ⟨?_,_,_,rfl,?_,by simpa using hkind'.2⟩
    · intro w hw
      rcases mem_pair.mp hw with rfl | rfl
      · intro hdash
        exact absurd (isDigit_itoa _ hdash) (by decide)
      · exact hkind'.1
    · have hne : (itoa i).toList ≠ [] := by
        rw [toList_itoa]
        exact Nat.toDigits_ne_nil
      have hall : (itoa i).toList.all Char.isDigit = true := all_eq_true.mpr isDigit_itoa
      simp [isHostWord,hne,hall]

variable {tenant : String} {r : Rule} {resolver : EgressResolver}

theorem mem_addressConditions {e : String × ℕ} {x : String} (h : x ∈ (addressConditions e).map Prod.fst) :
    ∃ kind, (kind = "fqdn" ∨ kind = "sni") ∧ x = dashed [itoa e.2,kind] := by
  rcases mem_pair.mp h with rfl | rfl
  · exact ⟨_,.inl rfl,by simp [dashed,String.append_assoc]⟩
  · exact ⟨_,.inr rfl,by simp [dashed,String.append_assoc]⟩

theorem hostConditions_mark (h : host ∈ hostConditions tenant r.destination resolver) :
    ∃ ws, HostMark ws ∧ host.1 = dashed ws := by
  unfold hostConditions at h
  dsimp only at h
  split at h
  · cases mem_singleton.mp h
    exact ⟨_,.any,by decide⟩
  split at h
  · cases mem_singleton.mp h
    exact ⟨_,.unresolved,by decide⟩
  obtain ⟨e, -, he⟩ := mem_flatMap.mp h
  obtain ⟨kind, hkind, heq⟩ := mem_addressConditions (mem_map_of_mem he)
  exact ⟨_,.address e.2 kind hkind,heq⟩

theorem nodup_hostConditions : ((hostConditions tenant r.destination resolver).map Prod.fst).Nodup := by
  unfold hostConditions
  dsimp only
  split
  · exact nodup_singleton _
  split
  · exact nodup_singleton _
  rw [map_flatMap]
  apply nodup_flatMap_of_tag Prod.snd
  · exact (filter_sublist.map _).nodup (nodup_zipIdx_map_snd _)
  · intro e _
    have hne : "-" ++ itoa e.2 ++ "-fqdn" ≠ "-" ++ itoa e.2 ++ "-sni" := by
      intro h
      exact absurd ((String.append_right_inj _).mp h) (by decide)
    exact nodup_cons.mpr ⟨fun h => hne (mem_singleton.mp h),nodup_singleton _⟩
  · intro e _ e' _ x hx hx'
    obtain ⟨kind, hkind, rfl⟩ := mem_addressConditions hx
    obtain ⟨kind', hkind', heq⟩ := mem_addressConditions hx'
    have hmarks := dashed_inj (HostMark.address _ _ hkind).words.1 (HostMark.address _ _ hkind').words.1 heq
    exact Int.natCast_inj.mp (itoa_injective (cons.inj hmarks).1)

theorem protocols_transportConditions (transports : Map (List Int)) :
    Sublist ((transportConditions transports).map protocolOf) ["tcp","udp"] := by
  unfold transportConditions
  by_cases htcp : portSet (transports["tcp"]?.getD []) = [] <;>
    by_cases hudp : portSet (transports["udp"]?.getD []) = [] <;>
      simp [htcp,hudp,protocolOf]

theorem protocols_ruleTransports :
    Sublist ((ruleTransports tenant r resolver).map protocolOf) ["","tcp","udp"] := by
  have hnone : Sublist [""] ["","tcp","udp"] := singleton_sublist.mpr mem_cons_self
  unfold ruleTransports
  dsimp only
  split
  · exact hnone
  unfold egressServiceConditions
  split
  · exact hnone
  split
  · exact hnone
  · exact (protocols_transportConditions _).cons _

def marks (sources transports : List Conditions) (si : ℕ) (transport : Conditions) : List String :=
  (if 1 < sources.length then ["s" ++ itoa si] else []) ++
    if 1 < transports.length then [protocolOf transport] else []

theorem ids_appendPolicy (decision : String) (sources transports : List Conditions) (host : String × Conditions) :
    (appendPolicy tenant r decision sources transports host).map (·.id) =
      sources.zipIdx.flatMap fun s => transports.map fun t =>
        "rule-egress-" ++ r.id ++ (host.1 ++ dashed (marks sources transports s.2 t)) := by
  have hmark (w : String) : "-s" ++ w = "-" ++ ("s" ++ w) := @String.append_assoc "-" "s" w
  unfold appendPolicy
  rw [map_flatMap]
  congr 1
  funext s
  rw [map_map]
  congr 1
  funext t
  by_cases hs : 1 < sources.length <;> by_cases ht : 1 < transports.length <;>
    simp [egressPolicy,marks,dashed,hs,ht,String.append_assoc,hmark]

theorem marks_words {transports : List Conditions} {si : ℕ} {t : Conditions} (ht : protocolOf t ∈ ["","tcp","udp"]) :
    ∀ w ∈ marks sources transports si t, '-' ∉ w.toList ∧ isHostWord w.toList = false := by
  intro w hw
  rcases mem_append.mp hw with hw | hw
  · split at hw
    · cases mem_singleton.mp hw
      have hs : ("s" ++ itoa si).toList = 's' :: (itoa si).toList := String.toList_append
      refine ⟨?_,by rw [hs]; rfl⟩
      intro hdash
      rw [hs] at hdash
      rcases mem_cons.mp hdash with heq | hdash
      · exact absurd heq (by decide)
      · exact absurd (isDigit_itoa _ hdash) (by decide)
    · contradiction
  · split at hw
    · cases mem_singleton.mp hw
      revert ht
      generalize protocolOf t = protocol
      intro ht
      fin_cases ht <;> decide
    · contradiction

variable {r' : Rule}

theorem eq_of_id {a b : String} {hw hw' ms ms' : List String} (hhw : HostMark hw) (hhw' : HostMark hw')
    (hms : ∀ w ∈ ms, '-' ∉ w.toList ∧ isHostWord w.toList = false)
    (hms' : ∀ w ∈ ms', '-' ∉ w.toList ∧ isHostWord w.toList = false)
    (h : "rule-egress-" ++ a ++ (dashed hw ++ dashed ms) = "rule-egress-" ++ b ++ (dashed hw' ++ dashed ms')) :
    a = b ∧ hw ++ ms = hw' ++ ms' := by
  have hwords {ws ms : List String} (hws : HostMark ws)
      (hms : ∀ w ∈ ms, '-' ∉ w.toList ∧ isHostWord w.toList = false) (s : String) :
      words (s ++ (dashed ws ++ dashed ms)) = words s ++ (ws ++ ms).map String.toList := by
    rw [← dashed_append]
    apply words_append_dashed
    intro w hw
    rcases mem_append.mp hw with hw | hw
    · exact hws.words.1 w hw
    · exact (hms w hw).1
  have heq := congrArg words h
  rw [hwords hhw hms,hwords hhw' hms'] at heq
  have hid : words ("rule-egress-" ++ a) = words ("rule-egress-" ++ b) := by
    obtain ⟨-, w, ws, rfl, hw, hws⟩ := hhw.words
    obtain ⟨-, w', ws', rfl, hw', hws'⟩ := hhw'.words
    refine (append_cons_inj (P := (isHostWord · = true)) hw hw' ?_ ?_ heq).1
    · simp only [forall_mem_map,Bool.not_eq_true]
      intro v hv
      rcases mem_append.mp hv with hv | hv
      exacts [hws v hv,(hms v hv).2]
    · simp only [forall_mem_map,Bool.not_eq_true]
      intro v hv
      rcases mem_append.mp hv with hv | hv
      exacts [hws' v hv,(hms' v hv).2]
  rw [hid] at heq
  exact ⟨(String.append_right_inj _).mp (String.toList_injective (splitList_injective '-' hid)),
    map_injective_iff.mpr (fun _ _ h => String.toList_injective h) (append_cancel_left heq)⟩

theorem nodup_appendPolicy {decision : String} (hhost : host ∈ hostConditions tenant r.destination resolver) :
    ((appendPolicy tenant r decision sources (ruleTransports tenant r resolver) host).map (·.id)).Nodup := by
  obtain ⟨hw, hhw, hdash⟩ := hostConditions_mark hhost
  have hprotocols : Sublist ((ruleTransports tenant r resolver).map protocolOf) _ := protocols_ruleTransports
  generalize ruleTransports tenant r resolver = transports at hprotocols
  have hmarks {si : ℕ} {t : Conditions} (ht : t ∈ transports) :
      ∀ w ∈ marks sources transports si t, '-' ∉ w.toList ∧ isHostWord w.toList = false :=
    marks_words (hprotocols.subset (mem_map_of_mem ht))
  rw [ids_appendPolicy,hdash]
  apply nodup_flatMap_of_tag Prod.snd (nodup_zipIdx_map_snd _)
  · intro s _
    -- several transports are told apart by their protocols
    refine pairwise_map.mpr ((pairwise_map.mp (hprotocols.nodup (by decide))).imp_of_mem ?_)
    intro t t' ht ht' hne heq
    have hms := append_cancel_left (eq_of_id hhw hhw (hmarks ht) (hmarks ht') heq).2
    have hlen : 1 < transports.length := by
      by_contra hlen
      obtain ⟨u, hu⟩ := length_eq_one_iff.mp (show transports.length = 1 by
        have := length_pos_of_mem ht
        omega)
      rw [hu,mem_singleton] at ht ht'
      exact hne (by rw [ht,ht'])
    simp only [marks,hlen] at hms
    exact hne (cons.inj (append_cancel_left hms)).1
  · intro s hs s' hs' x hx hx'
    obtain ⟨t, ht, rfl⟩ := mem_map.mp hx
    obtain ⟨t', ht', heq⟩ := mem_map.mp hx'
    have hms := append_cancel_left (eq_of_id hhw hhw (hmarks ht') (hmarks ht) heq).2
    have hlt := snd_lt_of_mem_zipIdx hs
    have hlt' := snd_lt_of_mem_zipIdx hs'
    by_cases hlen : 1 < sources.length
    · simp only [marks,hlen] at hms
      have hsi := (String.append_right_inj _).mp (cons.inj hms).1
      exact (Int.natCast_inj.mp (itoa_injective hsi)).symm
    · omega

theorem id_of_mem_appendPolicy {decision x : String}
    (h : x ∈ (appendPolicy tenant r decision sources (ruleTransports tenant r resolver) host).map (·.id)) :
    ∃ si t, x = "rule-egress-" ++ r.id ++
        (host.1 ++ dashed (marks sources (ruleTransports tenant r resolver) si t)) ∧
      ∀ w ∈ marks sources (ruleTransports tenant r resolver) si t, '-' ∉ w.toList ∧ isHostWord w.toList = false := by
  rw [ids_appendPolicy] at h
  obtain ⟨s, -, hs⟩ := mem_flatMap.mp h
  obtain ⟨t, ht, rfl⟩ := mem_map.mp hs
  exact ⟨s.2,t,rfl,marks_words (protocols_ruleTransports.subset (mem_map_of_mem ht))⟩

theorem nodup_compileEgressRule : ((compileEgressRule tenant resolver r).map (·.id)).Nodup := by
  unfold compileEgressRule
  split
  · exact nodup_nil
  split
  · exact nodup_nil
  rw [map_flatMap]
  apply nodup_flatMap_of_tag Prod.fst nodup_hostConditions
  · intro host hhost
    exact nodup_appendPolicy hhost
  intro host hhost host' hhost' x hx hx'
  obtain ⟨hw, hhw, hdash⟩ := hostConditions_mark hhost
  obtain ⟨hw', hhw', hdash'⟩ := hostConditions_mark hhost'
  obtain ⟨si, t, rfl, hms⟩ := id_of_mem_appendPolicy hx
  obtain ⟨si', t', heq, hms'⟩ := id_of_mem_appendPolicy hx'
  rw [hdash,hdash'] at heq
  have happend := (eq_of_id hhw hhw' hms hms' heq).2
  rw [hdash,hdash',(append_inj' happend (by unfold marks; split <;> split <;> rfl)).1]

theorem id_of_mem_compileEgressRule {p : Policy} (h : p ∈ compileEgressRule tenant resolver r) :
    p.tenantID = tenant ∧ ∃ hw ms, HostMark hw ∧ (∀ w ∈ ms, '-' ∉ w.toList ∧ isHostWord w.toList = false) ∧
      p.id = "rule-egress-" ++ r.id ++ (dashed hw ++ dashed ms) := by
  unfold compileEgressRule at h
  split at h
  · contradiction
  split at h
  · contradiction
  obtain ⟨host, hhost, hp⟩ := mem_flatMap.mp h
  obtain ⟨hw, hhw, hdash⟩ := hostConditions_mark hhost
  obtain ⟨si, t, hid, hms⟩ := id_of_mem_appendPolicy (mem_map_of_mem hp)
  refine ⟨?_,hw,_,hhw,hms,hdash ▸ hid⟩
  obtain ⟨source, -, transport, -, suffix, rfl⟩ := mem_appendPolicy hp
  rfl

theorem rule_id_of_id {tenant' : String} {resolver' : EgressResolver} {p q : Policy}
    (hp : p ∈ compileEgressRule tenant resolver r) (hq : q ∈ compileEgressRule tenant' resolver' r')
    (h : p.id = q.id) : r.id = r'.id := by
  obtain ⟨-, hw, ms, hhw, hms, hid⟩ := id_of_mem_compileEgressRule hp
  obtain ⟨-, hw', ms', hhw', hms', hid'⟩ := id_of_mem_compileEgressRule hq
  rw [hid,hid'] at h
  exact (eq_of_id hhw hhw' hms hms' h).1

theorem nodup_compileEgressPolicies {rules : List Rule} (h : (rules.map (·.id)).Nodup) :
    ((compileEgressPolicies tenant rules resolver).map (·.id)).Nodup := by
  unfold compileEgressPolicies
  rw [map_flatMap]
  apply nodup_flatMap_of_tag (·.id) h
  · intro r _
    exact nodup_compileEgressRule
  intro r _ r' _ x hx hx'
  obtain ⟨p, hp, rfl⟩ := mem_map.mp hx
  obtain ⟨q, hq, heq⟩ := mem_map.mp hx'
  exact rule_id_of_id hp hq heq.symm

/-- The rules of an organization have distinct IDs, and so have the policies compiled from them.  In an evaluator
that merges the compiled policies of every organization, a policy is left out only for one that the store holds itself,
and if that was compiled from a rule, then from a rule of the same ID. -/
theorem compiled_policies_distinct (rules : String → List Rule) (resolver : String → EgressResolver)
    (hids : ∀ tenant, ((rules tenant).map (·.id)).Nodup) :
    (∀ tenant, ((compileEgressPolicies tenant (rules tenant) (resolver tenant)).map (·.id)).Nodup) ∧
    ∀ (s : Store) (base : Decision.Evaluator),
      (∀ tenant ps, s.compiledPolicies[tenant]? = some ps →
        ps = compileEgressPolicies tenant (rules tenant) (resolver tenant)) →
      ∀ tenant ps, s.compiledPolicies[tenant]? = some ps →
      ∀ r ∈ rules tenant, ∀ p ∈ compileEgressRule tenant (resolver tenant) r,
        p ∈ (s.runtimeEvaluator base).policies ∨
          ∃ q ∈ s.cachedPolicies, q.tenantID = p.tenantID ∧ q.id = p.id ∧
            ∀ tenant' resolver' r', q ∈ compileEgressRule tenant' resolver' r' → r'.id = r.id := by
  refine ⟨fun tenant => nodup_compileEgressPolicies (hids tenant),?_⟩
  intro s base hcompiled tenant ps hps r hr p hp
  by_cases hheld : ∃ q ∈ s.cachedPolicies, q.tenantID = p.tenantID ∧ q.id = p.id
  · obtain ⟨q, hq, howner, hid⟩ := hheld
    exact .inr ⟨q,hq,howner,hid,fun tenant' resolver' r' hq => rule_id_of_id hq hp hid⟩
  left
  have hmem {tenant : String} {q : Policy} : q ∈ compileEgressPolicies tenant (rules tenant) (resolver tenant) →
      q.tenantID = tenant := by
    intro hq
    obtain ⟨r, -, hq⟩ := mem_flatMap.mp hq
    exact (id_of_mem_compileEgressRule hq).1
  have hp' : p ∈ compileEgressPolicies tenant (rules tenant) (resolver tenant) := mem_flatMap.mpr ⟨r,hr,hp⟩
  apply mem_mergeCompiled
  · exact mem_flatMap.mpr ⟨(tenant,ps),Std.ExtTreeMap.mem_toList_iff_getElem?_eq_some.mpr hps,
      (hcompiled tenant ps hps).symm ▸ hp'⟩
  · intro q hq howner hid
    exact absurd ⟨q,hq,howner,hid⟩ hheld
  intro q hq howner hid
  obtain ⟨⟨tenant', ps'⟩, hps', hq⟩ := mem_flatMap.mp hq
  have hq : q ∈ compileEgressPolicies tenant' (rules tenant') (resolver tenant') :=
    hcompiled tenant' ps' (Std.ExtTreeMap.mem_toList_iff_getElem?_eq_some.mp hps') ▸ hq
  have htenant : tenant' = tenant := (hmem hq).symm.trans (howner.trans (hmem hp'))
  subst htenant
  exact inj_on_of_nodup_map (nodup_compileEgressPolicies (hids tenant')) hq hp' hid

/-- The ID of the second rule reads like that of a policy of the first. -/
theorem dashed_rule_ids_distinct :
    let rules := [authoredRule ["*"] ["*"],{ authoredRule ["*"] ["server"] with id := "r1-any" }]
    ((compileEgressPolicies "t1" rules unresolvedCatalog).map (·.id)).Nodup ∧
      (compileEgressPolicies "t1" rules unresolvedCatalog).map (·.id) =
        ["rule-egress-r1-any","rule-egress-r1-any-0-fqdn","rule-egress-r1-any-0-sni"] :=
  ⟨(compiled_policies_distinct (fun _ => _) (fun _ => _) fun _ => by decide).1 "t1",by decide +kernel⟩

end DsseCore.PolicyRule

import DsseCore.Lib.Run
import DsseCore.TenantCA.Registry

/-!
# The three views of the trusted CAs agree

The pool, the anchors and the keys of the owners denote the same certificates as long as no certificate is twice among the
anchors.  Every operation keeps that; a file that lists a certificate twice breaks it, because a withdrawal then deletes the
key at the first copy and keeps the second.
-/

namespace DsseCore.TenantCA

open Go Lib List Registry

variable {t k : String} {m m' m'' : Map String} {keys : List String}

def KeepsOwners (m m' : Map String) : Prop := ∀ k t t' : String, m[k]? = some t → m'[k]? = some t' → t' = t

def Extends (m m' : Map String) : Prop := ∀ k t : String, m[k]? = some t → m'[k]? = some t

theorem Extends.refl (m : Map String) : Extends m m := fun _ _ h => h

theorem Extends.trans (h : Extends m m') (h' : Extends m' m'') : Extends m m'' := fun k t hk => h' k t (h k t hk)

theorem Extends.insert (t : String) (hk : m[k]? = none) : Extends m (m.insert k t) := by
  intro k' t' h
  rw [Map.getElem?_insert_eq]
  split
  · next he =>
    subst he
    rw [hk] at h
    cases h
  · exact h

theorem Extends.keepsOwners (h : Extends m m') : KeepsOwners m m' := by
  intro k t t' hk hk'
  rw [h k t hk] at hk'
  exact (Option.some.inj hk').symm

/-- The owners stay where each comes from a part of them or is that of the key. -/
theorem KeepsOwners.of_part (hpart : Extends m' m)
    (h : ∀ k t : String, m''[k]? = some t → m'[k]? = some t ∨ ∀ o, m[k]? = some o → o = t) : KeepsOwners m m'' := by
  intro k o t hk ht
  rcases h k t ht with hm | hm
  · exact Option.some.inj ((hpart k t hm).symm.trans hk)
  · exact (hm o hk).symm

theorem contains_false (h : ¬ m.contains k = true) : m[k]? = none := by
  simpa using h

/-- The owners of `m'` are those of `m` and `t` for some of the keys. -/
def Adds (t : String) (keys : List String) (m m' : Map String) : Prop :=
  ∀ k o : String, m'[k]? = some o → m[k]? = some o ∨ (o = t ∧ k ∈ keys)

theorem Adds.refl : Adds t keys m m := fun _ _ => .inl

theorem Adds.cons (k : String) (h : Adds t keys m m') : Adds t (k :: keys) m m' :=
  fun j o hj => (h j o hj).imp_right fun ⟨ho, hmem⟩ => ⟨ho,mem_cons_of_mem _ hmem⟩

theorem Adds.of_insert (h : Adds t keys (m.insert k t) m') : Adds t (k :: keys) m m' := by
  intro j o hj
  rcases h j o hj with hj | ⟨ho, hmem⟩
  · rw [Map.getElem?_insert_eq] at hj
    split at hj
    · next hkey => exact .inr ⟨(Option.some.inj hj).symm,hkey ▸ mem_cons_self⟩
    · exact .inl hj
  · exact .inr ⟨ho,mem_cons_of_mem _ hmem⟩

section Index

variable {C : Type} {anchorKey : C → String} {r r' : Registry C} {cs anchors : List C} {gone : Map String → C → Bool}

/-- The keys of the owners are those of the anchors, each anchor once and each owner named. -/
structure Indexed (anchorKey : C → String) (m : Map String) (anchors : List C) : Prop where
  keys : ∀ k : String, m[k]?.isSome = true ↔ k ∈ anchors.map anchorKey
  nodup : (anchors.map anchorKey).Nodup
  named : ∀ k t : String, m[k]? = some t → t ≠ ""

structure Registry.Consistent (anchorKey : C → String) (r : Registry C) : Prop where
  indexed : Indexed anchorKey r.byAnchorKey r.anchors
  pool : ∀ c, c ∈ r.pool ↔ c ∈ r.anchors

theorem Indexed.empty : Indexed anchorKey ∅ [] := ⟨by simp,by simp,by simp⟩

theorem Indexed.new (h : Indexed anchorKey m anchors) {c : C} (hc : m[anchorKey c]? = none) :
    anchorKey c ∉ anchors.map anchorKey := by
  intro hmem
  have := (h.keys _).mpr hmem
  rw [hc] at this
  cases this

theorem Indexed.insert (h : Indexed anchorKey m anchors) {c : C} (hc : m[anchorKey c]? = none) (ht : t ≠ "") :
    Indexed anchorKey (m.insert (anchorKey c) t) (anchors ++ [c]) := by
  refine ⟨fun k => ?_,?_,fun k t' hk => ?_⟩
  · rw [Map.getElem?_insert_eq,map_append,mem_append,← h.keys]
    split
    · next hk => simp [hk]
    · next hk => simp [Ne.symm hk]
  · rw [map_append,map_cons,map_nil]
    refine nodup_append'.mpr ⟨h.nodup,nodup_singleton _,?_⟩
    rw [disjoint_singleton]
    exact h.new hc
  · rw [Map.getElem?_insert_eq] at hk
    split at hk
    · exact Option.some.inj hk ▸ ht
    · exact h.named k t' hk

theorem consistent_new : (newRegistry : Registry C).Consistent anchorKey := ⟨Indexed.empty,fun _ => by simp [newRegistry]⟩

/-- The later registry is consistent, and no CA of the earlier one has another owner in it. -/
structure Registry.Keeps (anchorKey : C → String) (r r' : Registry C) : Prop where
  consistent : r'.Consistent anchorKey
  owners : KeepsOwners r.byAnchorKey r'.byAnchorKey

structure Registry.Grows (anchorKey : C → String) (r r' : Registry C) : Prop where
  consistent : r'.Consistent anchorKey
  owners : Extends r.byAnchorKey r'.byAnchorKey

theorem Registry.Consistent.grows (h : r.Consistent anchorKey) : r.Grows anchorKey r := ⟨h,.refl _⟩

theorem Registry.Grows.keeps (h : r.Grows anchorKey r') : r.Keeps anchorKey r' := ⟨h.consistent,h.owners.keepsOwners⟩

theorem Registry.Consistent.congr (h : r.Consistent anchorKey)
    (hv : r'.byAnchorKey = r.byAnchorKey ∧ r'.anchors = r.anchors ∧ r'.pool = r.pool) : r'.Consistent anchorKey := by
  obtain ⟨hm, ha, hp⟩ := hv
  exact ⟨hm ▸ ha ▸ h.indexed,fun c => by rw [ha,hp]; exact h.pool c⟩

theorem restoreMaterialOwnership_views {names : List String} (h : r.restoreMaterialOwnership names = .ok r') :
    r'.byAnchorKey = r.byAnchorKey ∧ r'.anchors = r.anchors ∧ r'.pool = r.pool := by
  unfold restoreMaterialOwnership at h
  cases hn : restoreNames r names ∅ with
  | error => rw [hn] at h; cases h
  | ok owned =>
    rw [hn] at h
    obtain rfl := Except.ok.inj h
    exact ⟨rfl,rfl,rfl⟩

theorem beginWithdrawal_grows (h : r.Consistent anchorKey) (tenant fingerprint : String) (trustRequired : Bool) :
    r.Grows anchorKey (r.beginWithdrawal tenant fingerprint trustRequired) := by
  unfold beginWithdrawal
  dsimp only
  split
  · exact ⟨h.congr ⟨rfl,rfl,rfl⟩,.refl _⟩
  · exact h.grows

theorem completeWithdrawal_views (tenant : String) (fingerprints : List String) (r : Registry C) :
    let r' := r.completeWithdrawal tenant fingerprints
    r'.byAnchorKey = r.byAnchorKey ∧ r'.anchors = r.anchors ∧ r'.pool = r.pool := by
  induction fingerprints generalizing r with
  | nil => exact ⟨rfl,rfl,rfl⟩
  | cons f fs ih =>
    unfold completeWithdrawal
    dsimp only
    split <;> exact ih _

/-- What a loop takes out is decided by the certificate and its owner. -/
def Local (anchorKey : C → String) (gone : Map String → C → Bool) : Prop :=
  ∀ (m m' : Map String) c, m[anchorKey c]? = m'[anchorKey c]? → gone m c = gone m' c

theorem withdrawLoop_spec (hlocal : Local anchorKey gone) (hnodup : (cs.map anchorKey).Nodup) (m : Map String) :
    (withdrawLoop anchorKey gone cs m).2.1 = cs.filter (fun c => !gone m c) ∧
      ∀ k : String, (withdrawLoop anchorKey gone cs m).2.2[k]? =
        if k ∈ (cs.filter (gone m)).map anchorKey then none else m[k]? := by
  induction cs generalizing m with
  | nil => simp [withdrawLoop]
  | cons c cs ih =>
    rw [map_cons,nodup_cons] at hnodup
    have hother : ∀ c' ∈ cs, gone (m.erase (anchorKey c)) c' = gone m c' := by
      intro c' hc'
      apply hlocal
      rw [Map.getElem?_erase_eq,if_neg]
      exact fun he => hnodup.1 (he ▸ mem_map_of_mem hc')
    unfold withdrawLoop
    cases hg : gone m c with
    | true =>
      obtain ⟨hkept, hmap⟩ := ih hnodup.2 (m.erase (anchorKey c))
      simp only [if_true]
      refine ⟨?_,fun k => ?_⟩
      · rw [hkept,filter_cons,hg]
        exact filter_congr fun c' hc' => by rw [hother c' hc']
      rw [hmap,Map.getElem?_erase_eq,filter_cons,hg,if_pos rfl,filter_congr hother]
      by_cases hk : k = anchorKey c
      · simp [hk]
      · simp only [map_cons,mem_cons,hk,false_or,Ne.symm hk,if_false]
    | false =>
      obtain ⟨hkept, hmap⟩ := ih hnodup.2 m
      simp only [Bool.false_eq_true,if_false]
      refine ⟨?_,fun k => ?_⟩
      · rw [hkept,filter_cons,hg]
        rfl
      · rw [hmap,filter_cons,hg]
        rfl

theorem Indexed.withdraw (h : Indexed anchorKey m cs) (hlocal : Local anchorKey gone) :
    Indexed anchorKey (withdrawLoop anchorKey gone cs m).2.2 (withdrawLoop anchorKey gone cs m).2.1 ∧
      Extends (withdrawLoop anchorKey gone cs m).2.2 m := by
  obtain ⟨hkept, hmap⟩ := withdrawLoop_spec hlocal h.nodup m
  have hextends : Extends (withdrawLoop anchorKey gone cs m).2.2 m := by
    intro k t hk
    rw [hmap] at hk
    split at hk
    · cases hk
    · exact hk
  refine ⟨⟨fun k => ?_,?_,fun k t hk => h.named k t (hextends k t hk)⟩,hextends⟩
  · rw [hkept,hmap]
    split
    · next hgone =>
      obtain ⟨c, hc, rfl⟩ := mem_map.mp hgone
      rw [mem_filter] at hc
      refine ⟨nofun,fun hin => ?_⟩
      obtain ⟨c', hc', he⟩ := mem_map.mp hin
      rw [mem_filter] at hc'
      obtain rfl := inj_on_of_nodup_map h.nodup hc'.1 hc.1 he
      rw [hc.2] at hc'
      cases hc'.2
    · next hgone =>
      rw [h.keys]
      constructor
      · intro hin
        obtain ⟨c, hc, rfl⟩ := mem_map.mp hin
        refine mem_map_of_mem (mem_filter.mpr ⟨hc,?_⟩)
        cases hg : gone m c with
        | false => rfl
        | true => exact absurd (mem_map_of_mem (mem_filter.mpr ⟨hc,hg⟩)) hgone
      · intro hin
        obtain ⟨c, hc, rfl⟩ := mem_map.mp hin
        exact mem_map_of_mem (mem_filter.mp hc).1
  · rw [hkept]
    exact h.nodup.sublist ((filter_sublist).map anchorKey)

theorem withdrawLoop_zero (h : (withdrawLoop anchorKey gone cs m).1 = 0) :
    (withdrawLoop anchorKey gone cs m).2 = (cs,m) := by
  induction cs with
  | nil => rfl
  | cons c cs ih =>
    unfold withdrawLoop at h ⊢
    split at h
    · cases h
    rename_i hg
    rw [if_neg hg]
    generalize withdrawLoop anchorKey gone cs m = w at ih h ⊢
    obtain ⟨n, kept, m'⟩ := w
    obtain ⟨rfl, rfl⟩ := Prod.mk.inj (ih h)
    rfl

theorem local_owner (p : Option String → C → Bool) : Local anchorKey fun m c => p m[anchorKey c]? c := by
  intro m m' c h
  dsimp only
  rw [h]

theorem foreignOwner_none {o : String} (h : r.foreignOwner t k = none) (ho : r.byAnchorKey[k]? = some o) : o = t := by
  unfold foreignOwner owner at h
  rw [ho,Option.bind_some] at h
  by_contra hne
  rw [if_pos hne] at h
  cases h

theorem free_iff_none (h : ∀ k t : String, r.byAnchorKey[k]? = some t → t ≠ "") (hfree : r.free k = true) :
    r.byAnchorKey[k]? = none := by
  unfold free at hfree
  rw [Bool.and_eq_true,beq_iff_eq,beq_iff_eq] at hfree
  cases hk : r.byAnchorKey[k]? with
  | none => rfl
  | some t =>
    rw [hk] at hfree
    exact absurd hfree.2 (h k t hk)

variable {anchors : List (AnchorRegistration C)}

theorem misassigned_none (h : misassigned anchorKey r anchors = none) :
    ∀ a ∈ anchors, ∀ o, r.byAnchorKey[anchorKey a.cert]? = some o → o = a.tenantID := by
  induction anchors with
  | nil => simp
  | cons a as ih =>
    unfold misassigned at h
    split at h
    · cases h
    rename_i hf
    intro a' ha' o ho
    rcases mem_cons.mp ha' with rfl | ha'
    · exact foreignOwner_none hf ho
    · exact ih h a' ha' o ho

theorem takeUp_spec {kept : List C} (hnamed : ∀ a ∈ anchors, a.tenantID ≠ "")
    (h : Indexed anchorKey r.byAnchorKey kept) :
    Indexed anchorKey (r.takeUp anchorKey anchors kept).2.1 (r.takeUp anchorKey anchors kept).2.2 ∧
      (∀ k o : String, (r.takeUp anchorKey anchors kept).2.1[k]? = some o → r.byAnchorKey[k]? = some o ∨
        ∃ a ∈ anchors, anchorKey a.cert = k ∧ a.tenantID = o) ∧
      ((r.takeUp anchorKey anchors kept).1 = 0 → (r.takeUp anchorKey anchors kept).2 = (r.byAnchorKey,kept)) := by
  induction anchors generalizing r kept with
  | nil => exact ⟨h,fun _ _ hk => .inl hk,fun _ => rfl⟩
  | cons a as ih =>
    have hrest : ∀ a' ∈ as, a'.tenantID ≠ "" := fun a' ha' => hnamed a' (mem_cons_of_mem _ ha')
    unfold takeUp
    split
    · obtain ⟨hi, hm, hz⟩ := ih hrest h
      refine ⟨hi,fun k o hk => ?_,hz⟩
      exact (hm k o hk).imp_right fun ⟨a', ha', hka⟩ => ⟨a',mem_cons_of_mem _ ha',hka⟩
    rename_i hfree
    rw [Bool.not_eq_true',Bool.not_eq_false] at hfree
    have hnone := free_iff_none h.named hfree
    obtain ⟨hi, hm, -⟩ := ih (r := { r with byAnchorKey := r.byAnchorKey.insert (anchorKey a.cert) a.tenantID }) hrest
      (h.insert hnone (hnamed a mem_cons_self))
    refine ⟨hi,fun k o hk => ?_,nofun⟩
    rcases hm k o hk with hk | ⟨a', ha', hka⟩
    · rw [Map.getElem?_insert_eq] at hk
      split at hk
      · next hkey => exact .inr ⟨a,mem_cons_self,hkey,Option.some.inj hk⟩
      · exact .inl hk
    · exact .inr ⟨a',mem_cons_of_mem _ ha',hka⟩

theorem keepOthers_indexed (h : ∀ k o : String, r.byAnchorKey[k]? = some o → o ≠ "")
    (hcs : ∀ c ∈ cs, (r.byAnchorKey[anchorKey c]?).isSome = true) (hnodup : (cs.map anchorKey).Nodup)
    {owners : Map String} (hnew : ∀ c ∈ cs, owners[anchorKey c]? = none) {front : List C}
    (hfront : Indexed anchorKey owners front) (hextends : Extends owners r.byAnchorKey) :
    Indexed anchorKey (r.keepOthers anchorKey t cs owners).1 (front ++ (r.keepOthers anchorKey t cs owners).2) ∧
      Extends (r.keepOthers anchorKey t cs owners).1 r.byAnchorKey := by
  induction cs generalizing owners front with
  | nil =>
    unfold keepOthers
    rw [append_nil]
    exact ⟨hfront,hextends⟩
  | cons c cs ih =>
    rw [map_cons,nodup_cons] at hnodup
    have hcs' : ∀ c' ∈ cs, (r.byAnchorKey[anchorKey c']?).isSome = true :=
      fun c' hc' => hcs c' (mem_cons_of_mem _ hc')
    unfold keepOthers
    dsimp only
    split
    · exact ih hcs' hnodup.2 (fun c' hc' => hnew c' (mem_cons_of_mem _ hc')) hfront hextends
    obtain ⟨o, ho⟩ := Option.isSome_iff_exists.mp (hcs c mem_cons_self)
    rw [ho,Option.getD_some]
    have hnone := hnew c mem_cons_self
    have hnew' : ∀ c' ∈ cs, (owners.insert (anchorKey c) o)[anchorKey c']? = none := by
      intro c' hc'
      have hne : anchorKey c ≠ anchorKey c' := fun heq => hnodup.1 (heq ▸ mem_map_of_mem hc')
      rw [Map.getElem?_insert_eq,if_neg hne]
      exact hnew c' (mem_cons_of_mem _ hc')
    have hextends' : Extends (owners.insert (anchorKey c) o) r.byAnchorKey := by
      intro k t' hk
      rw [Map.getElem?_insert_eq] at hk
      split at hk
      · next heq =>
        rw [← heq,ho]
        exact hk
      · exact hextends k t' hk
    obtain ⟨hi, he⟩ := ih hcs' hnodup.2 hnew' (hfront.insert hnone (h _ o ho)) hextends'
    refine ⟨?_,he⟩
    rw [append_assoc] at hi
    exact hi

theorem putReplacement_indexed (ht : t ≠ "") {v : Map String × List C} (hv : Indexed anchorKey v.1 v.2) :
    Indexed anchorKey (putReplacement anchorKey t cs v).1 (putReplacement anchorKey t cs v).2 ∧
      Adds t (cs.map anchorKey) v.1 (putReplacement anchorKey t cs v).1 := by
  induction cs generalizing v with
  | nil => exact ⟨hv,.refl⟩
  | cons c cs ih =>
    unfold putReplacement
    split
    · obtain ⟨hi, ha⟩ := ih hv
      exact ⟨hi,ha.cons _⟩
    rename_i hnew
    obtain ⟨hi, ha⟩ := ih (v := (v.1.insert (anchorKey c) t,v.2 ++ [c])) (hv.insert (contains_false hnew) ht)
    exact ⟨hi,ha.of_insert⟩

end Index

variable {C : Type} [DecidableEq C] {anchorKey : C → String} {r r' : Registry C} {cs : List C} {x : C}
  {anchors : List (AnchorRegistration C)}

theorem mem_addCert {pool : List C} {c : C} : x ∈ addCert pool c ↔ x ∈ pool ∨ x = c := by
  unfold addCert
  split
  · next h =>
    constructor
    · exact .inl
    rintro (hx | rfl)
    · exact hx
    · exact h
  · simp

theorem mem_foldl_addCert {certs pool : List C} : x ∈ certs.foldl addCert pool ↔ x ∈ pool ∨ x ∈ certs := by
  induction certs generalizing pool with
  | nil => simp
  | cons c cs ih => rw [foldl_cons,ih,mem_addCert,mem_cons,or_assoc]

@[simp] theorem mem_poolOf {certs : List C} : x ∈ poolOf certs ↔ x ∈ certs := by
  unfold poolOf
  simp [mem_foldl_addCert]

theorem Registry.Consistent.add (h : r.Consistent anchorKey) {c : C} (hc : r.byAnchorKey[anchorKey c]? = none)
    (ht : t ≠ "") : (r.add anchorKey t c).Consistent anchorKey := by
  refine ⟨h.indexed.insert hc ht,fun x => ?_⟩
  change x ∈ addCert r.pool c ↔ x ∈ r.anchors ++ [c]
  rw [mem_addCert,h.pool]
  simp

theorem Registry.Consistent.rebuild (h : Indexed anchorKey m cs) :
    (r.rebuild m cs).Consistent anchorKey := ⟨h,fun _ => mem_poolOf⟩

theorem Registry.Grows.of_add {c : C} (hc : r.byAnchorKey[anchorKey c]? = none)
    (h : (r.add anchorKey t c).Grows anchorKey r') : r.Grows anchorKey r' :=
  ⟨h.consistent,(Extends.insert t hc).trans h.owners⟩

theorem registerCerts_grows (ht : t ≠ "") (cs : List C) (h : r.Consistent anchorKey) :
    r.Grows anchorKey (r.registerCerts anchorKey t cs).2 ∧
      Adds t (cs.map anchorKey) r.byAnchorKey (r.registerCerts anchorKey t cs).2.byAnchorKey := by
  induction cs generalizing r with
  | nil => exact ⟨h.grows,.refl⟩
  | cons c cs ih =>
    unfold registerCerts
    split
    · obtain ⟨hg, ha⟩ := ih h
      exact ⟨hg,ha.cons _⟩
    rename_i hnew
    have hnone := contains_false hnew
    obtain ⟨hg, ha⟩ := ih (h.add hnone ht)
    exact ⟨hg.of_add hnone,ha.of_insert⟩

theorem register_grows (h : r.Consistent anchorKey) (tenantID : String) (pem : Pem C) :
    r.Grows anchorKey (r.register anchorKey tenantID pem).2 ∧
      Adds (trimSpace tenantID) ((pem.certs.getD []).map anchorKey) r.byAnchorKey
        (r.register anchorKey tenantID pem).2.byAnchorKey := by
  have hsame : r.Grows anchorKey r ∧
      Adds (trimSpace tenantID) ((pem.certs.getD []).map anchorKey) r.byAnchorKey r.byAnchorKey := ⟨h.grows,.refl⟩
  unfold register
  dsimp only
  split
  · exact hsame
  rename_i ht
  split
  · exact hsame
  · exact hsame
  rename_i cs _ hcs
  split
  · exact hsame
  · rw [hcs]
    exact registerCerts_grows ht cs h

section Loading

variable {es : List (TenantCAEntry C)}

theorem registerEntries_consistent (h : r.Consistent anchorKey) (hr : registerEntries anchorKey es r = .ok r') :
    r'.Consistent anchorKey ∧ ∀ k o : String, r'.byAnchorKey[k]? = some o → r.byAnchorKey[k]? = some o ∨
      ∃ e ∈ es, o = trimSpace e.tenantID ∧ k ∈ (e.caPEM.certs.getD []).map anchorKey := by
  induction es generalizing r with
  | nil =>
    obtain rfl := Except.ok.inj hr
    exact ⟨h,fun _ _ hk => .inl hk⟩
  | cons e es ih =>
    unfold registerEntries at hr
    obtain ⟨hg, ha⟩ := register_grows h e.tenantID e.caPEM
    split at hr
    · cases hr
    rename_i heq
    rw [heq] at hg ha
    obtain ⟨hc', ha'⟩ := ih hg.consistent hr
    refine ⟨hc',fun k o hk => ?_⟩
    rcases ha' k o hk with hk | ⟨e', he', ho, hmem⟩
    · rcases ha k o hk with hk | ⟨ho, hmem⟩
      · exact .inl hk
      · exact .inr ⟨e,mem_cons_self,ho,hmem⟩
    · exact .inr ⟨e',mem_cons_of_mem _ he',ho,hmem⟩

theorem parseEntries_eq (hr : parseEntries anchorKey es r = .ok r') : registerEntries anchorKey es r = .ok r' := by
  induction es generalizing r with
  | nil => exact hr
  | cons e es ih =>
    unfold parseEntries at hr
    unfold registerEntries
    split at hr
    · cases hr
    split at hr
    · cases hr
    split at hr
    · cases hr
    · next heq => exact ih hr

theorem parseSharedAnchors_named {data : Document C} (h : parseSharedAnchors anchorKey data = .ok anchors) :
    ∀ a ∈ anchors, a.tenantID ≠ "" := by
  unfold parseSharedAnchors at h
  split at h
  · cases h
  · cases h
  split at h
  · cases h
  split at h
  · cases h
  rename_i es _
  cases hp : parseEntries anchorKey es newRegistry with
  | error => rw [hp] at h; cases h
  | ok r =>
    rw [hp] at h
    obtain rfl := Except.ok.inj h
    obtain ⟨hc, -⟩ := registerEntries_consistent consistent_new (parseEntries_eq hp)
    intro a ha
    obtain ⟨c, -, hmap⟩ := mem_filterMap.mp ha
    cases ho : r.owner (anchorKey c) with
    | none => rw [ho] at hmap; cases hmap
    | some t =>
      rw [ho] at hmap
      obtain rfl := Option.some.inj hmap
      exact hc.indexed.named _ t ho

def listedCerts (es : List (TenantCAEntry C)) : List C :=
  es.flatMap fun e => match entryCerts e with
    | .ok cs => cs
    | .error _ => []

def Document.ListsOnce (anchorKey : C → String) : Document C → Prop
  | .file doc => ((listedCerts (doc.tenants.getD [])).map anchorKey).Nodup
  | _ => True

theorem loadCerts_consistent (ht : t ≠ "") (h : r.Consistent anchorKey)
    (hnew : ∀ c ∈ cs, r.byAnchorKey[anchorKey c]? = none) (hnodup : (cs.map anchorKey).Nodup)
    (hr : loadCerts anchorKey t cs r = .ok r') :
    r'.Consistent anchorKey ∧ ∀ k : String, k ∉ cs.map anchorKey → r'.byAnchorKey[k]? = r.byAnchorKey[k]? := by
  induction cs generalizing r with
  | nil =>
    obtain rfl := Except.ok.inj hr
    exact ⟨h,fun _ _ => rfl⟩
  | cons c cs ih =>
    unfold loadCerts at hr
    rw [map_cons,nodup_cons] at hnodup
    split at hr
    · cases hr
    have hget : ∀ k : String, k ≠ anchorKey c →
        (r.add anchorKey t c).byAnchorKey[k]? = r.byAnchorKey[k]? := by
      intro k hk
      change (r.byAnchorKey.insert (anchorKey c) t)[k]? = _
      rw [Map.getElem?_insert_eq,if_neg (Ne.symm hk)]
    obtain ⟨hc, hrest⟩ := ih (h.add (hnew c mem_cons_self) ht) (fun c' hc' => by
      rw [hget _ fun he => hnodup.1 (he ▸ mem_map_of_mem hc')]
      exact hnew c' (mem_cons_of_mem _ hc')) hnodup.2 hr
    refine ⟨hc,fun k hk => ?_⟩
    rw [map_cons,mem_cons,not_or] at hk
    rw [hrest k hk.2,hget k hk.1]

theorem loadEntries_consistent (h : r.Consistent anchorKey)
    (hnew : ∀ c ∈ listedCerts es, r.byAnchorKey[anchorKey c]? = none)
    (hnodup : ((listedCerts es).map anchorKey).Nodup) (hr : loadEntries anchorKey es r = .ok r') :
    r'.Consistent anchorKey := by
  induction es generalizing r with
  | nil => exact Except.ok.inj hr ▸ h
  | cons e es ih =>
    unfold loadEntries at hr
    dsimp only at hr
    split at hr
    · cases hr
    rename_i ht
    split at hr
    · cases hr
    rename_i cs hcs
    have hlisted : listedCerts (e :: es) = cs ++ listedCerts es := by
      unfold listedCerts
      rw [flatMap_cons,hcs]
    rw [hlisted] at hnew hnodup
    rw [map_append,nodup_append'] at hnodup
    split at hr
    · cases hr
    rename_i r₁ hload
    obtain ⟨hc, hrest⟩ := loadCerts_consistent ht h (fun c hmem => hnew c (mem_append_left _ hmem)) hnodup.1 hload
    refine ih hc (fun c hmem => ?_) hnodup.2.1 hr
    rw [hrest _ fun hin => hnodup.2.2 hin (mem_map_of_mem hmem)]
    exact hnew c (mem_append_right _ hmem)

theorem load_consistent {doc : Document C} (honce : doc.ListsOnce anchorKey)
    (h : loadTenantCARegistry anchorKey doc = .ok r) : r.Consistent anchorKey := by
  unfold loadTenantCARegistry at h
  split at h
  · cases h
  · cases h
  split at h
  · cases h
  split at h
  · cases h
  rename_i r₁ hload
  split at h
  · cases h
  have hc : r₁.Consistent anchorKey :=
    loadEntries_consistent consistent_new (fun _ _ => by simp [newRegistry]) honce hload
  exact hc.congr (restoreMaterialOwnership_views h)

end Loading

theorem adoptAnchors_grows {skip : List String} (hnamed : ∀ a ∈ anchors, a.tenantID ≠ "") (h : r.Consistent anchorKey) :
    r.Grows anchorKey (r.adoptAnchors anchorKey skip anchors).2 := by
  induction anchors generalizing r with
  | nil => exact h.grows
  | cons a as ih =>
    have hrest : ∀ a' ∈ as, a'.tenantID ≠ "" := fun a' ha' => hnamed a' (mem_cons_of_mem _ ha')
    unfold adoptAnchors
    split
    · exact ih hrest h
    rename_i hskip
    rw [Bool.or_eq_true,not_or,Bool.not_eq_true',Bool.not_eq_false] at hskip
    have hnone := free_iff_none h.indexed.named hskip.2
    exact (ih hrest (h.add hnone (hnamed a mem_cons_self))).of_add hnone

/-- A snapshot that gives no CA of this registry to another tenant. -/
def Document.Attributes (anchorKey : C → String) (r : Registry C) : Document C → Prop
  | .file doc => ∀ e ∈ doc.tenants.getD [], ∀ c ∈ e.caPEM.certs.getD [], ∀ o, r.owner (anchorKey c) = some o →
    o = trimSpace e.tenantID
  | _ => True

theorem registryFromSnapshot_consistent {raw : Document C} {next : Registry C}
    (h : registryFromSnapshot anchorKey raw = .ok next) : next.Consistent anchorKey ∧
      (raw.Attributes anchorKey r → KeepsOwners r.byAnchorKey next.byAnchorKey) := by
  unfold registryFromSnapshot at h
  split at h
  · cases h
  · cases h
  split at h
  · cases h
  split at h
  · cases h
  rename_i es hes
  split at h
  · cases h
  rename_i r₁ hreg
  obtain ⟨hc, hown⟩ := registerEntries_consistent consistent_new hreg
  have hviews := restoreMaterialOwnership_views h
  refine ⟨hc.congr hviews,fun hattr k o o' hk hk' => ?_⟩
  rw [hviews.1] at hk'
  rcases hown k o' hk' with hnew | ⟨e, he, rfl, hmem⟩
  · simp [newRegistry] at hnew
  obtain ⟨c, hc', rfl⟩ := mem_map.mp hmem
  refine (hattr e ?_ c hc' o hk).symm
  rw [hes]
  exact he

section Operations

variable (h : r.Consistent anchorKey)
include h

theorem adoptExcept_grows (data : Document C) (skip : List String) :
    r.Grows anchorKey (r.adoptExcept anchorKey data skip).2 := by
  unfold adoptExcept
  split
  · exact h.grows
  split
  · exact h.grows
  rename_i hparse
  split
  · exact h.grows
  · exact adoptAnchors_grows (parseSharedAnchors_named hparse) h

theorem reconcile_keeps (data : Document C) : r.Keeps anchorKey (r.reconcile anchorKey data).2 := by
  have hsame := h.grows.keeps
  unfold reconcile
  split
  · exact hsame
  split
  · exact hsame
  · exact hsame
  rename_i anchors _ hparse
  split
  · exact hsame
  rename_i hmis
  dsimp only
  have hlocal : Local anchorKey fun _ c => !(anchors.map fun a => anchorKey a.cert).contains (anchorKey c) :=
    fun _ _ _ _ => rfl
  obtain ⟨hi, hsub⟩ := h.indexed.withdraw hlocal
  generalize hw : withdrawLoop anchorKey _ r.anchors r.byAnchorKey = w at hi hsub ⊢
  have hzero : w.1 = 0 → w.2 = (r.anchors,r.byAnchorKey) := by
    rw [← hw]
    exact withdrawLoop_zero
  obtain ⟨removed, kept, m⟩ := w
  obtain ⟨hi', hown, hz⟩ := takeUp_spec (r := { r with byAnchorKey := m }) (parseSharedAnchors_named hparse) hi
  generalize takeUp anchorKey anchors { r with byAnchorKey := m } kept = u at hi' hown hz ⊢
  obtain ⟨added, m', kept'⟩ := u
  have hkeeps : KeepsOwners r.byAnchorKey m' := by
    refine .of_part hsub fun k t hk => (hown k t hk).imp_right ?_
    rintro ⟨a, ha, rfl, rfl⟩
    exact misassigned_none hmis a ha
  split
  · next hnone =>
    obtain ⟨rfl, rfl⟩ : added = 0 ∧ removed = 0 := by omega
    obtain ⟨rfl, rfl⟩ := Prod.mk.inj (hz rfl)
    obtain ⟨rfl, rfl⟩ := Prod.mk.inj (hzero rfl)
    exact hsame
  · exact ⟨.rebuild hi',hkeeps⟩

theorem replaceTenant_keeps (tenantID : String) (pem : Pem C) (persisted managed : Bool) :
    r.Keeps anchorKey (r.replaceTenantPersisted anchorKey tenantID pem persisted managed).2 := by
  have hsame := h.grows.keeps
  unfold replaceTenantPersisted
  dsimp only
  split
  · exact hsame
  rename_i ht
  split
  · exact hsame
  · exact hsame
  rename_i cs _ _
  split
  · exact hsame
  split
  · exact hsame
  rename_i hforeign
  split
  · exact hsame
  have hempty : ∀ c ∈ r.anchors, (∅ : Map String)[anchorKey c]? = none := fun _ _ => by simp
  obtain ⟨hothers, hsub⟩ := keepOthers_indexed (t := trimSpace tenantID) h.indexed.named
    (fun c hc => (h.indexed.keys _).mpr (mem_map_of_mem hc)) h.indexed.nodup hempty Indexed.empty nofun
  obtain ⟨hi, ha⟩ : _ ∧ Adds (trimSpace tenantID) (cs.map anchorKey) _ _ := putReplacement_indexed ht hothers
  refine ⟨(Registry.Consistent.rebuild (r := r) hi).congr ⟨rfl,rfl,rfl⟩,.of_part hsub fun k o hk => ?_⟩
  refine (ha k o hk).imp_right ?_
  rintro ⟨rfl, hmem⟩ o' hk'
  obtain ⟨c, hc, rfl⟩ := mem_map.mp hmem
  exact foreignOwner_none (findSome?_eq_none_iff.mp hforeign c hc) hk'

theorem replaceAuthoritative_consistent (raw : Document C) :
    (r.replaceAuthoritative anchorKey raw).2.Consistent anchorKey ∧
      (raw.Attributes anchorKey r →
        KeepsOwners r.byAnchorKey (r.replaceAuthoritative anchorKey raw).2.byAnchorKey) := by
  have hkept : KeepsOwners r.byAnchorKey r.byAnchorKey := (Extends.refl _).keepsOwners
  unfold replaceAuthoritative
  split
  · exact ⟨h,fun _ => hkept⟩
  rename_i next hnext
  obtain ⟨hc, hkeeps⟩ := registryFromSnapshot_consistent (r := r) hnext
  split
  · exact ⟨h,fun _ => hkept⟩
  split
  · exact ⟨h.congr ⟨rfl,rfl,rfl⟩,fun _ => hkept⟩
  · exact ⟨hc.congr ⟨rfl,rfl,rfl⟩,hkeeps⟩

theorem rebuild_withdrawn {gone : Map String → C → Bool} (hlocal : Local anchorKey gone) :
    let w := withdrawLoop anchorKey gone r.anchors r.byAnchorKey
    r.Keeps anchorKey (r.rebuild w.2.2 w.2.1) ∧ ∀ c ∈ poolOf w.2.1, gone r.byAnchorKey c = false := by
  obtain ⟨hi, hsub⟩ := h.indexed.withdraw hlocal
  refine ⟨⟨.rebuild hi,.of_part hsub fun _ _ => .inl⟩,fun c hc => ?_⟩
  rw [mem_poolOf,(withdrawLoop_spec hlocal h.indexed.nodup _).1,mem_filter] at hc
  simpa using hc.2

theorem withdraw_keeps (tenantID : String) : r.Keeps anchorKey (r.withdraw anchorKey tenantID).2 ∧
      ∀ c ∈ (r.withdraw anchorKey tenantID).2.pool, r.owner (anchorKey c) ≠ some (trimSpace tenantID) := by
  unfold withdraw
  dsimp only
  split
  · next ht =>
    refine ⟨h.grows.keeps,fun c _ ho => ?_⟩
    exact h.indexed.named _ _ ho ht
  obtain ⟨hk, hpool⟩ := rebuild_withdrawn h (local_owner fun o _ => o == some (trimSpace tenantID))
  refine ⟨⟨hk.consistent.congr ⟨rfl,rfl,rfl⟩,hk.owners⟩,fun c hmem ho => ?_⟩
  have hgone := hpool c hmem
  rw [beq_eq_false_iff_ne] at hgone
  exact hgone ho

theorem withdrawAnchor_keeps (tenantID sha256Hex : String) :
    r.Keeps anchorKey (r.withdrawAnchor anchorKey tenantID sha256Hex).2.2 ∧
      (toLower (trimSpace sha256Hex) ≠ "" → ∀ c ∈ (r.withdrawAnchor anchorKey tenantID sha256Hex).2.2.pool,
        r.owner (anchorKey c) = some (trimSpace tenantID) →
        equalFold (anchorKey c) (toLower (trimSpace sha256Hex)) = false) := by
  unfold withdrawAnchor
  dsimp only
  split
  · next hblank =>
    refine ⟨h.grows.keeps,fun hwant c _ ho => ?_⟩
    exact absurd (hblank.resolve_right hwant) (h.indexed.named _ _ ho)
  obtain ⟨hk, hpool⟩ := rebuild_withdrawn h
    (local_owner fun o c => o == some (trimSpace tenantID) && equalFold (anchorKey c) (toLower (trimSpace sha256Hex)))
  refine ⟨hk,fun _ c hmem ho => ?_⟩
  have hgone := hpool c hmem
  rw [Bool.and_eq_false_imp] at hgone
  exact hgone (beq_iff_eq.mpr ho)

theorem saveTo_grows (existing : Option (Document C)) (saved : Bool) (removed : List String) :
    r.Grows anchorKey (r.saveTo anchorKey existing saved removed).2 := by
  unfold saveTo
  split
  · exact h.grows
  split
  · exact h.grows
  rename_i data
  have hadopt := adoptExcept_grows h data removed
  generalize r.adoptExcept anchorKey data removed = adopted at hadopt ⊢
  obtain ⟨_ | _, r'⟩ := adopted
  · exact hadopt
  dsimp only
  split
  · exact hadopt
  · exact hadopt

end Operations

inductive RegistryOp (C : Type) where
  | register (tenantID : String) (pem : Pem C)
  | withdraw (tenantID : String)
  | withdrawAnchor (tenantID sha256Hex : String)
  | adopt (data : Document C)
  | reconcile (data : Document C)
  | replaceTenant (tenantID : String) (pem : Pem C) (persisted managed : Bool)
  | replaceAuthoritative (raw : Document C)
  | saveTo (existing : Option (Document C)) (saved : Bool) (removed : List String)
  | beginWithdrawal (tenant fingerprint : String) (trustRequired : Bool)
  | completeWithdrawal (tenant : String) (fingerprints : List String)

def Registry.after (anchorKey : C → String) (r : Registry C) : RegistryOp C → Registry C
  | .register tenantID pem => (r.register anchorKey tenantID pem).2
  | .withdraw tenantID => (r.withdraw anchorKey tenantID).2
  | .withdrawAnchor tenantID sha256Hex => (r.withdrawAnchor anchorKey tenantID sha256Hex).2.2
  | .adopt data => (r.adoptExcept anchorKey data []).2
  | .reconcile data => (r.reconcile anchorKey data).2
  | .replaceTenant tenantID pem persisted managed =>
    (r.replaceTenantPersisted anchorKey tenantID pem persisted managed).2
  | .replaceAuthoritative raw => (r.replaceAuthoritative anchorKey raw).2
  | .saveTo existing saved removed => (r.saveTo anchorKey existing saved removed).2
  | .beginWithdrawal tenant fingerprint trustRequired => r.beginWithdrawal tenant fingerprint trustRequired
  | .completeWithdrawal tenant fingerprints => r.completeWithdrawal tenant fingerprints

/-- The authoritative snapshot does not move a CA from one tenant to another. -/
def RegistryOp.Attributes (anchorKey : C → String) (r : Registry C) : RegistryOp C → Prop
  | .replaceAuthoritative raw => raw.Attributes anchorKey r
  | _ => True

def Registry.Step (anchorKey : C → String) (r : Registry C) (op : RegistryOp C) (r' : Registry C) : Prop :=
  r' = r.after anchorKey op

def Registry.AttributingStep (anchorKey : C → String) (r : Registry C) (op : RegistryOp C) (r' : Registry C) : Prop :=
  r.Step anchorKey op r' ∧ op.Attributes anchorKey r

theorem Registry.Consistent.step {op : RegistryOp C} (h : r.Consistent anchorKey) :
    (r.after anchorKey op).Consistent anchorKey ∧
      (op.Attributes anchorKey r → KeepsOwners r.byAnchorKey (r.after anchorKey op).byAnchorKey) := by
  have hkeeps : ∀ {r'}, r.Keeps anchorKey r' →
      r'.Consistent anchorKey ∧ (op.Attributes anchorKey r → KeepsOwners r.byAnchorKey r'.byAnchorKey) :=
    fun hk => ⟨hk.consistent,fun _ => hk.owners⟩
  cases op with
  | register tenantID pem => exact hkeeps (register_grows h tenantID pem).1.keeps
  | withdraw tenantID => exact hkeeps (withdraw_keeps h tenantID).1
  | withdrawAnchor tenantID sha256Hex => exact hkeeps (withdrawAnchor_keeps h tenantID sha256Hex).1
  | adopt data => exact hkeeps (adoptExcept_grows h data []).keeps
  | reconcile data => exact hkeeps (reconcile_keeps h data)
  | replaceTenant tenantID pem persisted managed => exact hkeeps (replaceTenant_keeps h tenantID pem persisted managed)
  | replaceAuthoritative raw => exact replaceAuthoritative_consistent h raw
  | saveTo existing saved removed => exact hkeeps (saveTo_grows h existing saved removed).keeps
  | beginWithdrawal tenant fingerprint trustRequired =>
    exact hkeeps (beginWithdrawal_grows h tenant fingerprint trustRequired).keeps
  | completeWithdrawal tenant fingerprints =>
    have hviews := completeWithdrawal_views tenant fingerprints r
    exact ⟨h.congr hviews,fun _ => by rw [after,hviews.1]; exact h.grows.keeps.owners⟩

/-- A registry without entries, or one loaded from a file. -/
inductive Registry.Starts (anchorKey : C → String) : Document C → Registry C → Prop
  | new (doc : Document C) : Starts anchorKey doc newRegistry
  | loaded {doc : Document C} {r : Registry C} (h : loadTenantCARegistry anchorKey doc = .ok r) : Starts anchorKey doc r

/-- From a file that lists no CA twice the pool, the anchors and the keys of the owners denote the same certificates in
every state; what is withdrawn is not trusted any more, and no operation gives a CA to another tenant while it has an owner,
as long as no authoritative snapshot does. -/
theorem registry_views_agree {doc : Document C} {start : Registry C} {ops : List (RegistryOp C)}
    (hstart : Starts anchorKey doc start) (honce : doc.ListsOnce anchorKey)
    (hrun : Run (AttributingStep anchorKey) start ops r) :
    (∀ c, c ∈ r.pool ↔ c ∈ r.anchors) ∧ (∀ k : String, (∃ t, r.owner k = some t) ↔ ∃ c ∈ r.anchors, anchorKey c = k) ∧
      (∀ tenantID, ∀ c ∈ (r.withdraw anchorKey tenantID).2.pool, r.owner (anchorKey c) ≠ some (trimSpace tenantID)) ∧
      (∀ tenantID sha256Hex, toLower (trimSpace sha256Hex) ≠ "" →
        ∀ c ∈ (r.withdrawAnchor anchorKey tenantID sha256Hex).2.2.pool, r.owner (anchorKey c) = some (trimSpace tenantID) →
        equalFold (anchorKey c) (toLower (trimSpace sha256Hex)) = false) ∧
      ∀ op r', r.AttributingStep anchorKey op r' → ∀ k t t', r.owner k = some t → r'.owner k = some t' → t' = t := by
  have hc : r.Consistent anchorKey := by
    refine hrun.inv (P := Consistent anchorKey) ?_ fun s op s' hs hstep => ?_
    · cases hstart with
      | new => exact consistent_new
      | loaded h => exact load_consistent honce h
    · obtain ⟨rfl, -⟩ := hstep
      exact hs.step.1
  refine ⟨hc.pool,fun k => ?_,fun tenantID => (withdraw_keeps hc tenantID).2,
    fun tenantID sha256Hex => (withdrawAnchor_keeps hc tenantID sha256Hex).2,?_⟩
  · have hkeys := hc.indexed.keys k
    rw [Option.isSome_iff_exists,mem_map] at hkeys
    exact hkeys
  · rintro op r' ⟨rfl, hattr⟩ k t t' hk hk'
    exact hc.step.2 hattr k t t' hk hk'

/-- Two organisations with a CA each, the first of which is withdrawn. -/
theorem two_tenants_one_withdrawn :
    let doc : Document String := .file { tenants := some [{ tenantID := "acme", caPEM := { certs := some ["a"] } },
      { tenantID := "globex", caPEM := { certs := some ["b"] } }] }
    ∃ start, loadTenantCARegistry id doc = .ok start ∧ "a" ∈ start.pool ∧
      ∀ c ∈ (start.withdraw id "acme").2.pool, start.owner (id c) ≠ some (trimSpace "acme") := by
  intro doc
  obtain ⟨start, hload⟩ : ∃ start, loadTenantCARegistry id doc = .ok start := ⟨_,rfl⟩
  refine ⟨start,hload,?_,?_⟩
  · obtain rfl := Except.ok.inj hload
    decide +kernel
  · exact (registry_views_agree (.loaded hload) (by change ["a","b"].Nodup; decide) (.nil _)).2.2.1 "acme"

/-- A CA that a file lists twice is trusted after its withdrawal, and an authoritative snapshot moves a CA from its owner to
another tenant. -/
theorem withdrawn_ca_trusted :
    (∃ doc : Document String, ∃ start, loadTenantCARegistry id doc = .ok start ∧
      let r := (start.withdraw id "acme").2
      "a" ∈ r.pool ∧ "a" ∈ r.anchors ∧ r.owner "a" = none) ∧
    ∃ ops : List (RegistryOp String), ∃ r r' : Registry String, ∃ raw, Run (Step id) newRegistry ops r ∧
      r.Step id (.replaceAuthoritative raw) r' ∧ r.owner "a" = some "acme" ∧ r'.owner "a" = some "globex" := by
  refine ⟨⟨.file { tenants := some [{ tenantID := "acme", caPEM := { certs := some ["a","a"] } }] },_,rfl,?_⟩,
    [.register "acme" { certs := some ["a"] }],_,_,
    .file { tenants := some [{ tenantID := "globex", caPEM := { certs := some ["a"] } }] },.snoc (.nil _) rfl,rfl,?_,?_⟩
  · decide +kernel
  · decide +kernel
  · decide +kernel

end DsseCore.TenantCA

import DsseCore.GrantStore.Rolling

/-!
# Reauthentication fences

A revoked grant with a boundary demands a newer authentication from every subject its selector matches.  An empty
part of the selector matches anything, so a selector with fewer parts is wider.  Reads go through an index of the
newest boundary of each selector; this module shows that what the index answers is the latest boundary among the
rows that match, and that dropping the redundant rows keeps every boundary.
-/

namespace DsseCore.GrantStore

open Go List
open Std (ExtTreeMap)

variable {index : FenceIndex} {k p : ReauthenticationSelector} {a b scope : String} {subject : Grant}
  {rows : Map Grant}

structure ReauthenticationSelector where
  tenant : String
  idp : String := ""
  issuer : String := ""
  user : String := ""
  device : String := ""
  principal : String := ""
  scope : String := ""
  deriving DecidableEq

def fenceSelector (g : Grant) : ReauthenticationSelector :=
  ⟨g.tenantID,g.idPID,g.issuer,g.userID,g.deviceID,g.osPrincipal,g.scope⟩

/-- The newest boundary of a selector and the row it comes from. -/
structure FenceCutoff where
  id : String
  time : Time
  deriving DecidableEq

abbrev FenceIndex := List (ReauthenticationSelector × FenceCutoff)

def FenceIndex.set (index : FenceIndex) (key : ReauthenticationSelector) (c : FenceCutoff) : FenceIndex :=
  (key,c) :: index.filter fun e => e.1 ≠ key

/-- The boundary a row sets.  One that cannot be read stands for `9999-01-01`. -/
def fenceTime (g : Grant) : Option Time :=
  if !g.revoked || g.reauthenticateAfter == "" then none
  else some ((Time.parseRFC3339 g.reauthenticateAfter).getD (253370764800 * Time.second))

def indexFence (index : FenceIndex) (e : String × Grant) : FenceIndex :=
  match fenceTime e.2 with
  | none => index
  | some time =>
    match index.lookup (fenceSelector e.2) with
    | none => index.set (fenceSelector e.2) ⟨e.1,time⟩
    | some old =>
      if old.time < time || (time == old.time && old.id < e.1) then index.set (fenceSelector e.2) ⟨e.1,time⟩
      else index

def indexReauthenticationFences (rows : Map Grant) : FenceIndex := rows.toList.foldl indexFence []

/-- Some choice of leaving parts of `rest` out passes the test. -/
def covered (test : List String → Bool) (taken : List String) : List String → Bool
  | [] => test taken
  | v :: rest => covered test (taken ++ [v]) rest || (v != "" && covered test (taken ++ [""]) rest)

def newerElsewhere (g : Grant) (time : Time) (index : FenceIndex) (parent : ReauthenticationSelector) : Bool :=
  match index.lookup parent with
  | some newest => newest.id != g.grantID && !(newest.time < time)
  | none => false

/-- Only a selector at least as wide may stand for a fence. -/
def redundantReauthenticationFence (g : Grant) (index : FenceIndex) : Bool :=
  match Time.parseRFC3339 g.reauthenticateAfter with
  | none => false
  | some time =>
    let key := fenceSelector g
    g.revoked && covered
      (fun v => match v with
        | [idp, issuer, user, device, principal, scope] =>
          newerElsewhere g time index ⟨key.tenant,idp,issuer,user,device,principal,scope⟩
        | _ => false)
      [] [key.idp,key.issuer,key.user,key.device,key.principal,key.scope]

def partMatches (fence subject : String) : Bool := fence == "" || subject == "" || fence == subject

def reauthenticationMatches (fence : ReauthenticationSelector) (subject : Grant) (scope : String) : Bool :=
  fence.tenant == subject.tenantID && partMatches fence.idp subject.idPID && partMatches fence.issuer subject.issuer &&
    partMatches fence.user subject.userID && partMatches fence.device subject.deviceID &&
    partMatches fence.principal subject.osPrincipal && partMatches fence.scope scope

/-- The index that authorization reads: what a tenant-wide cutoff covers is left out. -/
def newReauthenticationReadIndex (rows : Map Grant) : FenceIndex :=
  let all := indexReauthenticationFences rows
  all.filter fun e =>
    match all.lookup { tenant := e.1.tenant } with
    | some wide => !(wide.id != e.2.id && !(wide.time < e.2.time))
    | none => true

/-- The buckets a read visits: the subject's tenant, its user or the users left open, and its scope likewise. -/
def visited (subject : Grant) (scope : String) (s : ReauthenticationSelector) : Bool :=
  s.tenant == subject.tenantID && (subject.userID == "" || s.user == subject.userID || s.user == "") &&
    (scope == "" || s.scope == scope || s.scope == "")

def scanFence (subject : Grant) (scope : String) (boundary : Time) (e : ReauthenticationSelector × FenceCutoff) : Time :=
  if reauthenticationMatches e.1 subject scope && boundary < e.2.time then e.2.time else boundary

def FenceIndex.after (index : FenceIndex) (subject : Grant) (scope : String) : Time :=
  (index.filter fun e => visited subject scope e.1).foldl (scanFence subject scope) Time.zero

def FenceIndex.count (index : FenceIndex) (tenant : String) : ℕ := (index.filter fun e => e.1.tenant == tenant).length

def authorizationFresh (index : FenceIndex) (g : Grant) (scope : String) (now : Time) : Bool :=
  let after := index.after g scope
  if Time.isZero after then true
  else match Time.parseRFC3339 g.authTime with
    | some auth => after < auth && !(now < auth)
    | none => false

theorem lookup_set (index : FenceIndex) (key k : ReauthenticationSelector) (c : FenceCutoff) :
    (index.set key c).lookup k = if k = key then some c else index.lookup k := by
  unfold FenceIndex.set
  rw [lookup_cons]
  by_cases hk : k = key
  · simp [hk]
  rw [if_neg hk,beq_false_of_ne hk]
  dsimp only
  induction index with
  | nil => rfl
  | cons e index ih =>
    obtain ⟨k', c'⟩ := e
    by_cases hk' : k' = key
    · subst hk'
      rw [filter_cons_of_neg (by simp),ih,lookup_cons,beq_false_of_ne hk]
    · rw [filter_cons_of_pos (by simpa using hk'),lookup_cons,lookup_cons,ih]

def Distinct (index : FenceIndex) : Prop := (index.map Prod.fst).Nodup

theorem distinct_set (h : Distinct index) (key : ReauthenticationSelector) (c : FenceCutoff) :
    Distinct (index.set key c) := by
  unfold Distinct FenceIndex.set
  rw [map_cons,nodup_cons]
  refine ⟨?_,List.Nodup.sublist (List.Sublist.map _ filter_sublist) h⟩
  rw [mem_map]
  rintro ⟨e, he, rfl⟩
  simp at he

theorem lookup_eq_some_iff (h : Distinct index) {c : FenceCutoff} : index.lookup k = some c ↔ (k,c) ∈ index := by
  induction index with
  | nil => simp
  | cons e index ih =>
    obtain ⟨k', c'⟩ := e
    unfold Distinct at h
    rw [map_cons,nodup_cons] at h
    rw [lookup_cons]
    by_cases hk : k = k'
    · subst hk
      have hout : (k,c) ∉ index := fun hm => h.1 (mem_map.mpr ⟨_,hm,rfl⟩)
      simp [hout,eq_comm]
    rw [beq_false_of_ne hk]
    rw [ih h.2]
    simp [hk]

/-- `index` holds, for each selector, the newest boundary among the listed rows. -/
structure Indexes (index : FenceIndex) (l : List (String × Grant)) : Prop where
  distinct : Distinct index
  source : ∀ {k c}, index.lookup k = some c →
    ∃ g, (c.id,g) ∈ l ∧ fenceSelector g = k ∧ fenceTime g = some c.time
  newest : ∀ {id g t}, (id,g) ∈ l → fenceTime g = some t →
    ∃ c, index.lookup (fenceSelector g) = some c ∧ (t < c.time ∨ (t = c.time ∧ id ≤ c.id))

theorem Indexes.skip {l : List (String × Grant)} (h : Indexes index l) {id : String} {g : Grant}
    (hold : ∀ t, fenceTime g = some t →
      ∃ c, index.lookup (fenceSelector g) = some c ∧ (t < c.time ∨ (t = c.time ∧ id ≤ c.id))) :
    Indexes index (l ++ [(id,g)]) := by
  refine ⟨h.distinct,fun hk => ?_,fun hm ht => ?_⟩
  · obtain ⟨g', hg', hs⟩ := h.source hk
    exact ⟨g',mem_append_left _ hg',hs⟩
  rcases mem_append.mp hm with hm | hm
  · exact h.newest hm ht
  · obtain ⟨rfl, rfl⟩ := Prod.mk.inj (mem_singleton.mp hm)
    exact hold _ ht

theorem Indexes.step {l : List (String × Grant)} (h : Indexes index l) (e : String × Grant) :
    Indexes (indexFence index e) (l ++ [e]) := by
  obtain ⟨id, g⟩ := e
  unfold indexFence
  cases ht : fenceTime g with
  | none => exact h.skip fun t ht' => by rw [ht] at ht'; cases ht'
  | some t =>
    -- setting the entry of this row's selector to the row itself
    have hset : (∀ old, index.lookup (fenceSelector g) = some old →
        old.time < t ∨ (old.time = t ∧ old.id ≤ id)) →
        Indexes (index.set (fenceSelector g) ⟨id,t⟩) (l ++ [(id,g)]) := by
      intro hold
      refine ⟨distinct_set h.distinct _ _,fun {k c} hk => ?_,fun {id' g' t'} hm ht' => ?_⟩
      · rw [lookup_set] at hk
        split at hk
        · next heq =>
          obtain rfl := Option.some.inj hk
          exact ⟨g,by simp,heq.symm,ht⟩
        · obtain ⟨g', hg', hs⟩ := h.source hk
          exact ⟨g',mem_append_left _ hg',hs⟩
      · rw [lookup_set]
        rcases mem_append.mp hm with hm | hm
        · obtain ⟨c, hc, hle⟩ := h.newest hm ht'
          split
          · next heq =>
            rw [heq] at hc
            refine ⟨_,rfl,?_⟩
            rcases hold c hc with hlt | ⟨heq, hid⟩
            · rcases hle with hle | hle
              · exact .inl (lt_trans hle hlt)
              · exact .inl (hle.1 ▸ hlt)
            rcases hle with hle | hle
            · exact .inl (heq ▸ hle)
            · exact .inr ⟨hle.1.trans heq,hle.2.trans hid⟩
          · exact ⟨c,hc,hle⟩
        · obtain ⟨rfl, rfl⟩ := Prod.mk.inj (mem_singleton.mp hm)
          rw [if_pos rfl]
          rw [ht] at ht'
          exact ⟨_,rfl,.inr ⟨(Option.some.inj ht').symm,le_refl _⟩⟩
    cases hl : index.lookup (fenceSelector g) with
    | none =>
      exact hset fun old hold => by rw [hl] at hold; cases hold
    | some old =>
      dsimp only
      split
      · next hnew =>
        refine hset fun old' hold => ?_
        obtain rfl := Option.some.inj (hl.symm.trans hold)
        simp only [Bool.or_eq_true,decide_eq_true_eq,Bool.and_eq_true,beq_iff_eq] at hnew
        rcases hnew with hlt | ⟨heq, hid⟩
        · exact .inl hlt
        · exact .inr ⟨heq.symm,le_of_lt hid⟩
      · next hnew =>
        refine h.skip fun t' ht' => ?_
        obtain rfl := Option.some.inj (ht.symm.trans ht')
        refine ⟨old,hl,?_⟩
        simp only [Bool.or_eq_true,decide_eq_true_eq,Bool.and_eq_true,beq_iff_eq,not_or,not_and] at hnew
        rcases lt_or_eq_of_le (not_lt.mp hnew.1) with hlt | heq
        · exact .inl hlt
        · exact .inr ⟨heq,not_lt.mp (hnew.2 heq)⟩

theorem indexes_rows (rows : Map Grant) : Indexes (indexReauthenticationFences rows) rows.toList := by
  have hfold : ∀ (l l' : List (String × Grant)) (index : FenceIndex), Indexes index l' →
      Indexes (l.foldl indexFence index) (l' ++ l) := by
    intro l
    induction l with
    | nil => exact fun l' index h => by simpa using h
    | cons e l ih =>
      intro l' index h
      rw [append_cons]
      exact ih _ _ (h.step e)
  exact hfold rows.toList [] [] ⟨nodup_nil,nofun,nofun⟩

/-- `part` is left open or the same. -/
def PartWider (part other : String) : Prop := part = "" ∨ part = other

/-- `p` matches whatever `k` matches: some parts of `k` are left open. -/
structure Wider (p k : ReauthenticationSelector) : Prop where
  tenant : p.tenant = k.tenant
  idp : PartWider p.idp k.idp
  issuer : PartWider p.issuer k.issuer
  user : PartWider p.user k.user
  device : PartWider p.device k.device
  principal : PartWider p.principal k.principal
  scope : PartWider p.scope k.scope

theorem PartWider.refl (a : String) : PartWider a a := .inr rfl

theorem PartWider.trans {c : String} (h : PartWider a b) (h' : PartWider b c) : PartWider a c := by
  rcases h with h | rfl
  · exact .inl h
  · exact h'

theorem PartWider.matches {subject : String} (h : PartWider a b) (hb : partMatches b subject = true) :
    partMatches a subject = true := by
  rcases h with rfl | rfl
  · rfl
  · exact hb

theorem Wider.refl (k : ReauthenticationSelector) : Wider k k :=
  ⟨rfl,.refl _,.refl _,.refl _,.refl _,.refl _,.refl _⟩

theorem Wider.trans {a b c : ReauthenticationSelector} (h : Wider a b) (h' : Wider b c) : Wider a c :=
  ⟨h.tenant.trans h'.tenant,h.idp.trans h'.idp,h.issuer.trans h'.issuer,h.user.trans h'.user,
    h.device.trans h'.device,h.principal.trans h'.principal,h.scope.trans h'.scope⟩

theorem wider_tenant (k : ReauthenticationSelector) : Wider { tenant := k.tenant } k :=
  ⟨rfl,.inl rfl,.inl rfl,.inl rfl,.inl rfl,.inl rfl,.inl rfl⟩

theorem Wider.matches (h : Wider p k) (hk : reauthenticationMatches k subject scope = true) :
    reauthenticationMatches p subject scope = true := by
  simp only [reauthenticationMatches,Bool.and_eq_true,beq_iff_eq] at hk ⊢
  obtain ⟨⟨⟨⟨⟨⟨ht, h1⟩, h2⟩, h3⟩, h4⟩, h5⟩, h6⟩ := hk
  exact ⟨⟨⟨⟨⟨⟨h.tenant.trans ht,h.idp.matches h1⟩,h.issuer.matches h2⟩,h.user.matches h3⟩,h.device.matches h4⟩,
    h.principal.matches h5⟩,h.scope.matches h6⟩

def named (part : String) : ℕ := if part = "" then 0 else 1

def parts (k : ReauthenticationSelector) : ℕ :=
  named k.idp + named k.issuer + named k.user + named k.device + named k.principal + named k.scope

theorem PartWider.named_le (h : PartWider a b) : named a ≤ named b := by
  rcases h with rfl | rfl
  · exact Nat.zero_le _
  · exact le_refl _

theorem PartWider.eq_of_named (h : PartWider a b) (hn : named b ≤ named a) : a = b := by
  rcases h with rfl | rfl
  · unfold named at hn
    split at hn
    · next hb => exact hb.symm
    · simp at hn
  · rfl

theorem Wider.parts_lt (h : Wider p k) (hne : p ≠ k) : parts p < parts k := by
  have l1 := h.idp.named_le
  have l2 := h.issuer.named_le
  have l3 := h.user.named_le
  have l4 := h.device.named_le
  have l5 := h.principal.named_le
  have l6 := h.scope.named_le
  by_contra hle
  unfold parts at hle
  apply hne
  have e1 := h.idp.eq_of_named (by omega)
  have e2 := h.issuer.eq_of_named (by omega)
  have e3 := h.user.eq_of_named (by omega)
  have e4 := h.device.eq_of_named (by omega)
  have e5 := h.principal.eq_of_named (by omega)
  have e6 := h.scope.eq_of_named (by omega)
  have et := h.tenant
  cases p
  cases k
  simp only at e1 e2 e3 e4 e5 e6 et
  rw [e1,e2,e3,e4,e5,e6,et]

theorem covered_iff {test : List String → Bool} {taken rest : List String} : covered test taken rest = true ↔
    ∃ v, Forall₂ PartWider v rest ∧ test (taken ++ v) = true := by
  induction rest generalizing taken with
  | nil => simp [covered]
  | cons w rest ih =>
    rw [covered,Bool.or_eq_true,Bool.and_eq_true,ih,ih]
    constructor
    · rintro (⟨v, hv, ht⟩ | ⟨-, v, hv, ht⟩)
      · exact ⟨w :: v,.cons (.refl w) hv,by simpa using ht⟩
      · exact ⟨"" :: v,.cons (.inl rfl) hv,by simpa using ht⟩
    rintro ⟨v, hv, ht⟩
    cases hv with
    | @cons a _ v _ ha hv =>
      by_cases haw : a = w
      · exact .inl ⟨v,hv,by simpa [haw] using ht⟩
      · obtain rfl : a = "" := ha.resolve_right haw
        exact .inr ⟨by simpa using Ne.symm haw,v,hv,by simpa using ht⟩

theorem redundantReauthenticationFence_iff {g : Grant} :
    redundantReauthenticationFence g index = true ↔ ∃ time, Time.parseRFC3339 g.reauthenticateAfter = some time ∧
      g.revoked = true ∧ ∃ p c, Wider p (fenceSelector g) ∧ index.lookup p = some c ∧ c.id ≠ g.grantID ∧
        time ≤ c.time := by
  have hnewer : ∀ (time : Time) p, newerElsewhere g time index p = true ↔
      ∃ c, index.lookup p = some c ∧ c.id ≠ g.grantID ∧ time ≤ c.time := by
    intro time p
    unfold newerElsewhere
    cases index.lookup p with
    | none => simp
    | some c => simp
  unfold redundantReauthenticationFence
  cases Time.parseRFC3339 g.reauthenticateAfter with
  | none => simp
  | some time =>
    simp only [Bool.and_eq_true,covered_iff,Option.some.injEq,exists_eq_left']
    refine and_congr_right fun _ => ?_
    constructor
    · rintro ⟨v, hv, ht⟩
      match v, hv with
      | [a, b, c, d, e, f], .cons h1 (.cons h2 (.cons h3 (.cons h4 (.cons h5 (.cons h6 .nil))))) =>
        obtain ⟨c', hc⟩ := (hnewer _ _).mp ht
        exact ⟨⟨(fenceSelector g).tenant,a,b,c,d,e,f⟩,c',⟨rfl,h1,h2,h3,h4,h5,h6⟩,hc⟩
    · rintro ⟨p, c, hw, hc⟩
      refine ⟨[p.idp,p.issuer,p.user,p.device,p.principal,p.scope],
        .cons hw.idp (.cons hw.issuer (.cons hw.user (.cons hw.device (.cons hw.principal (.cons hw.scope .nil))))),?_⟩
      have htenant : (fenceSelector g).tenant = p.tenant := hw.tenant.symm
      rw [htenant]
      exact (hnewer _ _).mpr ⟨c,hc⟩

/-- The row under `id` sets a boundary at `t` for the subject. -/
def Bounds (rows : Map Grant) (subject : Grant) (scope : String) (t : Time) : Prop :=
  ∃ (id : String) (g : Grant), rows[id]? = some g ∧ fenceTime g = some t ∧
    reauthenticationMatches (fenceSelector g) subject scope = true

theorem visited_of_matches (h : reauthenticationMatches k subject scope = true) : visited subject scope k = true := by
  simp only [reauthenticationMatches,Bool.and_eq_true,beq_iff_eq] at h
  obtain ⟨⟨⟨⟨⟨⟨ht, -⟩, -⟩, hu⟩, -⟩, -⟩, hs⟩ := h
  have hpart : ∀ {a b : String}, partMatches a b = true → (b == "" || a == b || a == "") = true := by
    intro a b hab
    simp only [partMatches,Bool.or_eq_true] at hab ⊢
    rcases hab with (hab | hab) | hab
    · exact .inr hab
    · exact .inl (.inl hab)
    · exact .inl (.inr hab)
  simp only [visited,Bool.and_eq_true,beq_iff_eq]
  exact ⟨⟨ht,hpart hu⟩,hpart hs⟩

theorem after_le_iff {t : Time} : index.after subject scope ≤ t ↔ Time.zero ≤ t ∧
      ∀ e ∈ index, reauthenticationMatches e.1 subject scope = true → e.2.time ≤ t := by
  have hfold : ∀ (l : FenceIndex) (b : Time), l.foldl (scanFence subject scope) b ≤ t ↔
      b ≤ t ∧ ∀ e ∈ l, reauthenticationMatches e.1 subject scope = true → e.2.time ≤ t := by
    intro l
    induction l with
    | nil => simp
    | cons e l ih =>
      intro b
      rw [foldl_cons,ih,forall_mem_cons,← and_assoc]
      refine and_congr_left fun _ => ?_
      unfold scanFence
      cases hm : reauthenticationMatches e.1 subject scope with
      | false => simp
      | true =>
        simp only [Bool.true_and,decide_eq_true_eq,forall_const]
        split
        · next hlt => exact ⟨fun h => ⟨le_of_lt (lt_of_lt_of_le hlt h),h⟩,fun h => h.2⟩
        · next hlt => exact ⟨fun h => ⟨h,le_trans (not_lt.mp hlt) h⟩,fun h => h.1⟩
  unfold FenceIndex.after
  rw [hfold]
  refine and_congr_right fun _ => ?_
  simp only [mem_filter,and_imp]
  exact ⟨fun h e he hm => h e he (visited_of_matches hm) hm,fun h e he _ hm => h e he hm⟩

theorem after_readIndex_le_iff {t : Time} : (newReauthenticationReadIndex rows).after subject scope ≤ t ↔
      Time.zero ≤ t ∧ ∀ t', Bounds rows subject scope t' → t' ≤ t := by
  have hidx := indexes_rows rows
  rw [after_le_iff]
  refine and_congr_right fun _ => ?_
  constructor
  · rintro h t' ⟨id, g, hg, ht, hm⟩
    obtain ⟨c, hc, hle⟩ := hidx.newest (ExtTreeMap.mem_toList_iff_getElem?_eq_some.mpr hg) ht
    have htc : t' ≤ c.time := by
      rcases hle with hlt | heq
      · exact le_of_lt hlt
      · exact le_of_eq heq.1
    have hmem := (lookup_eq_some_iff hidx.distinct).mp hc
    -- an entry that is left out stands behind the tenant-wide one
    by_cases hkeep : (fenceSelector g,c) ∈ newReauthenticationReadIndex rows
    · exact le_trans htc (h _ hkeep hm)
    have hdrop : ∃ wide, (indexReauthenticationFences rows).lookup { tenant := (fenceSelector g).tenant } =
        some wide ∧ c.time ≤ wide.time := by
      by_contra hno
      refine hkeep (mem_filter.mpr ⟨hmem,?_⟩)
      cases hw : (indexReauthenticationFences rows).lookup { tenant := (fenceSelector g).tenant } with
      | none => rfl
      | some wide =>
        have hlt : wide.time < c.time := not_le.mp fun hle => hno ⟨wide,hw,hle⟩
        simp [hlt]
    obtain ⟨wide, hw, hle⟩ := hdrop
    refine le_trans (le_trans htc hle) (h ({ tenant := (fenceSelector g).tenant },wide) ?_ ?_)
    · refine mem_filter.mpr ⟨(lookup_eq_some_iff hidx.distinct).mp hw,?_⟩
      rw [hw]
      simp
    · exact (wider_tenant _).matches hm
  · rintro h ⟨k, c⟩ he hm
    obtain ⟨g, hg, rfl, ht⟩ := hidx.source ((lookup_eq_some_iff hidx.distinct).mpr (mem_filter.mp he).1)
    exact h c.time ⟨c.id,g,ExtTreeMap.mem_toList_iff_getElem?_eq_some.mp hg,ht,hm⟩

theorem after_mono {rows' : Map Grant}
    (h : ∀ t, Bounds rows subject scope t → ∃ t', Bounds rows' subject scope t' ∧ t ≤ t') :
    (newReauthenticationReadIndex rows).after subject scope ≤
      (newReauthenticationReadIndex rows').after subject scope := by
  obtain ⟨hz, hb⟩ := after_readIndex_le_iff.mp (le_refl ((newReauthenticationReadIndex rows').after subject scope))
  refine after_readIndex_le_iff.mpr ⟨hz,fun t ht => ?_⟩
  obtain ⟨t', ht', hle⟩ := h t ht
  exact le_trans hle (hb t' ht')

/-- A grant is fresh when its authentication is later than every boundary that matches it. -/
theorem authorizationFresh_iff {now : Time} : authorizationFresh (newReauthenticationReadIndex rows) subject scope now ↔
      (∀ t, Bounds rows subject scope t → t ≤ Time.zero) ∨
      ∃ auth, Time.parseRFC3339 subject.authTime = some auth ∧ auth ≤ now ∧ ∀ t, Bounds rows subject scope t → t < auth := by
  have hle (t : Int) := @after_readIndex_le_iff scope subject rows t
  have hlt (t : Int) := hle (t - 1)
  simp only [Int.le_sub_one_iff] at hlt
  unfold authorizationFresh
  dsimp only
  split
  · next h =>
    exact iff_of_true rfl (.inl ((hle _).mp (beq_iff_eq.mp h).le).2)
  · next h =>
    -- a boundary after the zero time is in force
    obtain ⟨t, ht, hpos⟩ : ∃ t, Bounds rows subject scope t ∧ Time.zero < t := by
      by_contra hno
      push Not at hno
      exact h (beq_iff_eq.mpr (le_antisymm ((hle _).mpr ⟨le_rfl,hno⟩) ((hle _).mp le_rfl).1))
    rw [or_iff_right fun hno => not_lt.mpr (hno t ht) hpos]
    cases Time.parseRFC3339 subject.authTime with
    | none => simp
    | some auth =>
      simp only [Bool.and_eq_true,decide_eq_true_eq,hlt,Bool.not_eq_true',decide_eq_false_iff_not,not_lt,
        Option.some.injEq,exists_eq_left']
      exact ⟨fun h => ⟨h.2,h.1.2⟩,fun h => ⟨⟨hpos.trans (h.2 t ht),h.2⟩,h.1⟩⟩

end DsseCore.GrantStore

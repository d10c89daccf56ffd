import DsseCore.GrantStore.Edits

/-!
# What a transaction leaves behind

A transaction is refused, stops in its callback, fails after it or commits.  What it leaves in the store and behind the
authority is said once here.  The rows and the pending denials of a store stay such that they may be rows.
-/

namespace DsseCore.GrantStore

open Go Store
open Std (ExtTreeMap)

variable {s : Store} {rows : Map Grant} {option : SharedGrantMutation} {σ α : Type}

def Store.observing (s : Store) (b : Bool) : Store := { s with authorityKnown := s.authorityKnown || b }

/-- The callback of a transaction ran through: it was shown the rows of the document under the pending denials, and the
edit made the next rows of them. -/
structure Edited (A : Authority σ) (s : Store) (row : σ) (edit : Edit α) (rows : Map Grant) (next : Store) (a : α) :
    Prop where
  source : ∃ raw authority, A.read row = .ok raw ∧ s.authorityRows raw = .ok authority ∧
    rows = overlayPending s.pending authority
  edit : edit (candidateStore rows) = .ok (next,a)
  denied : revivesPending s.pending next.grants = false

inductive Ends (A : Authority σ) (s : Store) (row : σ) (edit : Edit α) (option : SharedGrantMutation) (o : Outcome)
    (clock : Time) : Mutation σ α → Prop
  | refused : Ends A s row edit option o clock
      { store := s.latchAny (s.refusedDenials option), row := row, err := some .persistence }
  | stopped (b : Bool) (e : Err) : Ends A s row edit option o clock { store := s.observing b, row := row, err := some e }
  | failed {rows : Map Grant} {next : Store} {a : α} (h : Edited A s row edit rows next a) (b : Bool) {row' : σ}
      (hrow : row' = row ∨ o = .unconfirmed ∧ A.write (encodeGrantSnapshot next.grants) = .ok row') :
      Ends A s row edit option o clock
      { store := ((s.latchAny (newDenials rows next.grants)).observing b).latchAny (newDenials rows next.grants),
        row := row', captured := some a, err := some .persistence }
  | committed {rows : Map Grant} {next : Store} {a : α} (h : Edited A s row edit rows next a) (b : Bool) {row' : σ}
      (ho : o = .commit) (hrow : A.write (encodeGrantSnapshot next.grants) = .ok row') :
      Ends A s row edit option o clock
      { store := ((s.latchAny (newDenials rows next.grants)).observing b).adoptCommitted next.grants option clock,
        row := row', captured := some a }

theorem mutateShared_ends (A : Authority σ) (s : Store) (row : σ) (edit : Edit α) (option : SharedGrantMutation)
    (o : Outcome) (clock : Time) : Ends A s row edit option o clock (s.mutateShared A row edit option o clock) := by
  unfold mutateShared
  cases hread : A.read row with
  | error e => exact .refused
  | ok raw =>
    dsimp only
    split
    · exact .refused
    unfold build
    cases hrows : s.authorityRows raw with
    | error e => exact .stopped _ _
    | ok authority =>
      dsimp only
      cases hedit : edit (candidateStore (overlayPending s.pending authority)) with
      | error e => exact .stopped _ _
      | ok r =>
        obtain ⟨next, a⟩ := r
        dsimp only
        cases hrevives : revivesPending s.pending next.grants with
        | true => exact .stopped _ _
        | false =>
          have h : Edited A s row edit (overlayPending s.pending authority) next a :=
            ⟨⟨raw,authority,hread,hrows,rfl⟩,hedit,hrevives⟩
          simp only [Bool.false_eq_true,if_false]
          cases hwrite : A.write (encodeGrantSnapshot next.grants) with
          | error e => exact .failed h _ (.inl rfl)
          | ok row' =>
            cases o with
            | commit => exact .committed h _ rfl hwrite
            | unconfirmed => exact .failed h _ (.inr ⟨rfl,hwrite⟩)
            | refuse => exact .failed h _ (.inl rfl)
            | abort => exact .failed h _ (.inl rfl)

variable {B : Books}

structure StoreOk (B : Books) (s : Store) : Prop where
  rows : RowsOk B s.grants
  pending : PendingOk B s.pending

theorem StoreOk.observing (h : StoreOk B s) (b : Bool) : StoreOk B (s.observing b) := ⟨h.rows,h.pending⟩

def NewDenial (before after : Map Grant) (key : String) (g : Grant) : Prop :=
  ∃ (id : String) (g' : Grant), after[id]? = some g' ∧ isNewDenial before id g' = true ∧
    key = pendingGrantKey g'.tenantID id ∧ g = cloneGrant g'

theorem getElem?_newDenials {before after : Map Grant} {key : String} {g : Grant}
    (h : (newDenials before after)[key]? = some g) : NewDenial before after key g := by
  refine Map.foldl_toList_inv (P := fun out => ∀ (key : String) g, out[key]? = some g → NewDenial before after key g)
    after (by simp) (fun out hout id g' hg' key g hg => ?_) key g h
  split at hg
  · next hn =>
    rw [Map.getElem?_insert_eq] at hg
    split at hg
    · next he => exact ⟨id,g',hg',hn,he.symm,(Option.some.inj hg).symm⟩
    · exact hout key g hg
  · exact hout key g hg

theorem newDenials_ok (before : Map Grant) {after : Map Grant} (h : RowsOk B after) : PendingOk B (newDenials before after) := by
  intro key g hg
  obtain ⟨id, g', hg', -, -, rfl⟩ := getElem?_newDenials hg
  rw [cloneGrant_grantID,(h id g' hg').grantID]
  exact (h id g' hg').cloneGrant

theorem publishLocked_persister (s : Store) (next : Map Grant) : (s.publishLocked next).persister = s.persister := by
  unfold publishLocked
  split <;> rfl

theorem publishLocked_pending (s : Store) (next : Map Grant) : (s.publishLocked next).pending = s.pending := by
  unfold publishLocked
  split <;> rfl

theorem publishLocked_ok (hp : PendingOk B s.pending) {next : Map Grant} (h : RowsOk B next) :
    StoreOk B (s.publishLocked next) := by
  refine ⟨?_,publishLocked_pending s next ▸ hp⟩
  rw [publishLocked_grants]
  exact rowsOk_cloneGrants h

theorem latchRow_ok (h : RowsOk B rows) {e : String × Grant} (he : RowOk B e.2.grantID e.2) :
    RowsOk B (latchRow rows e) := by
  have hinsert : RowsOk B (rows.insert e.2.grantID (cloneGrant e.2)) := rowsOk_insert h he.cloneGrant
  unfold latchRow
  split
  · split
    · exact hinsert
    · exact h
  · exact hinsert

def latchedRows (grants denials : Map Grant) : Map Grant := denials.toList.foldl latchRow (cloneGrants grants)

def latchedPending (pending denials : Map Grant) : Map Grant :=
  denials.toList.foldl (fun pending e => pending.insert e.1 (cloneGrant e.2)) pending

theorem latchDenialsLocked_grants (s : Store) (denials : Map Grant) :
    (s.latchDenialsLocked denials).grants = cloneGrants (latchedRows s.grants denials) := by
  exact publishLocked_grants _ _

theorem latchDenialsLocked_pending (s : Store) (denials : Map Grant) :
    (s.latchDenialsLocked denials).pending = latchedPending s.pending denials := by
  exact publishLocked_pending _ _

theorem getElem?_latchedPending (pending denials : Map Grant) (key : String) :
    (latchedPending pending denials)[key]? = (denials[key]?.map cloneGrant).or pending[key]? := by
  unfold latchedPending
  rw [Map.foldl_toList_obs (fun m k => m[k]?) (fun (m : Map Grant) (e : String × Grant) => m.insert e.1 (cloneGrant e.2))
    (fun _ g _ => some (cloneGrant g)) denials]
  · cases denials[key]? <;> rfl
  · intro m a b _ k
    rw [Map.getElem?_insert_eq]

theorem latchAny_ok (h : StoreOk B s) {denials : Map Grant} (hd : PendingOk B denials) :
    StoreOk B (s.latchAny denials) := by
  unfold latchAny
  split
  · exact h
  constructor
  · rw [latchDenialsLocked_grants]
    refine rowsOk_cloneGrants (Map.foldl_toList_inv denials (rowsOk_cloneGrants h.rows) ?_)
    exact fun rows hrows key g hg => latchRow_ok hrows (hd key g hg)
  rw [latchDenialsLocked_pending]
  intro key g hg
  rw [getElem?_latchedPending,Option.or_eq_some_iff,Option.map_eq_some_iff] at hg
  rcases hg with ⟨g', hg', rfl⟩ | ⟨-, hg⟩
  · rw [cloneGrant_grantID]
    exact (hd key g' hg').cloneGrant
  · exact h.pending key g hg

/-- The boundary that a refused revocation sets can be written. -/
def SharedGrantMutation.Dated (option : SharedGrantMutation) : Prop :=
  ∀ t, option.reauthenticateAt = some t → Time.Writable t ∧ 0 < unix t

theorem getElem?_refusedDenials {key : String} {g' : Grant} (h : (s.refusedDenials option)[key]? = some g') :
    ∃ g, s.grants[option.revokeID]? = some g ∧ g.tenantID = option.revokeTenant ∧
      key = pendingGrantKey g.tenantID g.grantID ∧ (g' = g.withRevoked true ∨
        ∃ t, option.reauthenticateAt = some t ∧ g' = cloneGrant (denied g g.consumedAt (Time.formatRFC3339Nano t))) := by
  have hnone : ∀ g : Grant, (∅ : Map Grant)[key]? = some g → False := by simp
  unfold refusedDenials at h
  split at h
  · exact (hnone g' h).elim
  cases hg : s.grants[option.revokeID]? with
  | none =>
    rw [hg] at h
    exact (hnone g' h).elim
  | some g =>
    rw [hg] at h
    dsimp only at h
    split at h
    · exact (hnone g' h).elim
    rename_i htenant
    refine ⟨g,rfl,not_not.mp htenant,?_⟩
    -- whatever boundary it gets, the target keeps its key
    have hsingle : ∀ x : Grant, x.tenantID = g.tenantID → x.grantID = g.grantID →
        ((∅ : Map Grant).insert (pendingGrantKey x.tenantID x.grantID) x)[key]? = some g' →
        key = pendingGrantKey g.tenantID g.grantID ∧ g' = x := by
      intro x ht hid hx
      rw [Map.getElem?_insert_eq,ht,hid] at hx
      split at hx
      · next hkey => exact ⟨hkey.symm,(Option.some.inj hx).symm⟩
      · exact (hnone g' hx).elim
    cases ht : option.reauthenticateAt with
    | none =>
      rw [ht] at h
      exact (hsingle (g.withRevoked true) rfl rfl h).imp_right .inl
    | some t =>
      rw [ht] at h
      by_cases hb : (g.withRevoked true).reauthenticateAfter = ""
      · simp only [if_pos hb] at h
        exact (hsingle _ (by simp) (by simp) h).imp_right fun heq => .inr ⟨t,rfl,heq⟩
      · simp only [if_neg hb] at h
        exact (hsingle (g.withRevoked true) rfl rfl h).imp_right .inl

theorem refusedDenials_ok (h : StoreOk B s) (hd : option.Dated) : PendingOk B (s.refusedDenials option) := by
  intro key g' hg'
  obtain ⟨g, hg, -, -, hcases⟩ := getElem?_refusedDenials hg'
  have hrow : RowOk B g.grantID g := by
    have hrow := h.rows _ g hg
    rw [hrow.grantID]
    exact hrow
  rcases hcases with rfl | ⟨t, ht, rfl⟩
  · exact rowOk_withRevoked hrow fun _ => rfl
  obtain ⟨hw, hpos⟩ := hd t ht
  rw [cloneGrant_grantID]
  exact (rowOk_denied hrow ⟨.inl rfl,.inr (boundaryText_format hw hpos)⟩).cloneGrant

theorem adoptCommitted_grants (s : Store) (rows : Map Grant) (option : SharedGrantMutation) (clock : Time) :
    (s.adoptCommitted rows option clock).grants = cloneGrants rows := publishLocked_grants _ _

theorem adoptCommitted_ok (h : StoreOk B s) (hrows : RowsOk B rows) (option : SharedGrantMutation) (clock : Time) :
    StoreOk B (s.adoptCommitted rows option clock) := by
  have hpublished := publishLocked_ok h.pending hrows
  refine ⟨hpublished.rows,fun key g hg => ?_⟩
  unfold adoptCommitted at hg
  rw [ExtTreeMap.getElem?_filter',Option.filter_eq_some_iff] at hg
  exact hpublished.pending key g hg.1

theorem publishLoaded_cases (s : Store) (seen : RefreshSeen) (answer : LoadAnswer) (clock : Time) :
    (s.publishLoaded seen answer clock).1.pending = s.pending ∧
      (s.publishLoaded seen answer clock).1.persister = s.persister ∧
      ((s.publishLoaded seen answer clock).1.grants = s.grants ∨ ∃ raw rows, answer = .loaded raw ∧
        loadedRows raw = some rows ∧
        (s.publishLoaded seen answer clock).1.grants = cloneGrants (overlayPending s.pending rows)) := by
  unfold publishLoaded
  cases answer with
  | failed => exact ⟨rfl,rfl,.inl rfl⟩
  | unchanged =>
    dsimp only
    split <;> exact ⟨rfl,rfl,.inl rfl⟩
  | loaded raw =>
    dsimp only
    split
    · exact ⟨rfl,rfl,.inl rfl⟩
    split
    · split <;> exact ⟨rfl,rfl,.inl rfl⟩
    cases hl : loadedRows raw with
    | none => exact ⟨rfl,rfl,.inl rfl⟩
    | some rows =>
      dsimp only
      split
      · exact ⟨rfl,rfl,.inl rfl⟩
      · exact ⟨publishLocked_pending _ _,publishLocked_persister _ _,.inr ⟨raw,rows,rfl,hl,publishLocked_grants _ _⟩⟩

theorem publishLoaded_ok (h : StoreOk B s) (seen : RefreshSeen) {answer : LoadAnswer}
    (hrows : ∀ raw rows, answer = .loaded raw → loadedRows raw = some rows → RowsOk B rows) (clock : Time) :
    StoreOk B (s.publishLoaded seen answer clock).1 := by
  obtain ⟨hpending, -, hgrants⟩ := publishLoaded_cases s seen answer clock
  refine ⟨?_,hpending ▸ h.pending⟩
  rcases hgrants with heq | ⟨raw, rows, ha, hl, heq⟩
  · exact heq ▸ h.rows
  · rw [heq]
    exact rowsOk_cloneGrants (overlayPending_carries (hrows raw rows ha hl) h.pending).ok

theorem latchAny_persister (s : Store) (denials : Map Grant) : (s.latchAny denials).persister = s.persister := by
  unfold latchAny
  split
  · rfl
  · exact publishLocked_persister _ _

theorem mutateShared_persister (A : Authority σ) (s : Store) (row : σ) (edit : Edit α) (option : SharedGrantMutation)
    (o : Outcome) (clock : Time) : (s.mutateShared A row edit option o clock).store.persister = s.persister := by
  have hends := mutateShared_ends A s row edit option o clock
  generalize s.mutateShared A row edit option o clock = m at hends ⊢
  cases hends with
  | refused => exact latchAny_persister _ _
  | stopped b e => rfl
  | failed h b hrow => exact (latchAny_persister _ _).trans (latchAny_persister _ _)
  | committed h b _ hrow => exact (publishLocked_persister _ _).trans (latchAny_persister _ _)

/-- The documents behind an authority have rows that may be. -/
def DocumentOk (B : Books) (A : Authority σ) (row : σ) : Prop :=
  ∀ raw rows, A.read row = .ok (some raw) → decodeShared raw = some rows → RowsOk B rows

variable {A : Authority σ} {row : σ}

theorem authorityRows_ok (hs : StoreOk B s) (hd : DocumentOk B A row) {raw : Option Json} {authority : Map Grant}
    (hread : A.read row = .ok raw) (hrows : s.authorityRows raw = .ok authority) : RowsOk B authority := by
  cases raw with
  | none =>
    unfold authorityRows at hrows
    dsimp only at hrows
    split at hrows
    · cases hrows
    · obtain rfl := Except.ok.inj hrows
      exact rowsOk_cloneGrants hs.rows
  | some raw =>
    unfold authorityRows at hrows
    dsimp only at hrows
    split at hrows
    · next rows hdec =>
      obtain rfl := Except.ok.inj hrows
      exact hd raw rows hread hdec
    · cases hrows

theorem Edited.carries (hs : StoreOk B s) (hd : DocumentOk B A row) {edit : Edit α} (hedit : EditCarries B edit)
    {next : Store} {a : α} (h : Edited A s row edit rows next a) : RowsOk B rows ∧ Carries B rows next.grants := by
  obtain ⟨raw, authority, hread, hrows, rfl⟩ := h.source
  have hok := (overlayPending_carries (authorityRows_ok hs hd hread hrows) hs.pending).ok
  exact ⟨hok,hedit _ next a hok h.edit⟩

theorem mutateShared_ok (hs : StoreOk B s) (hd : DocumentOk B A row) {edit : Edit α} (hedit : EditCarries B edit)
    (hdated : option.Dated) (o : Outcome) (clock : Time) :
    StoreOk B (s.mutateShared A row edit option o clock).store := by
  have hends := mutateShared_ends A s row edit option o clock
  generalize s.mutateShared A row edit option o clock = m at hends ⊢
  cases hends with
  | refused => exact latchAny_ok hs (refusedDenials_ok hs hdated)
  | stopped b e => exact hs.observing b
  | @failed rows next a h b row' hrow =>
    have hden := newDenials_ok rows (Edited.carries hs hd hedit h).2.ok
    exact latchAny_ok ((latchAny_ok hs hden).observing b) hden
  | committed h b _ hrow =>
    have hnext := (Edited.carries hs hd hedit h).2.ok
    exact adoptCommitted_ok ((latchAny_ok hs (newDenials_ok _ hnext)).observing b) hnext option clock

end DsseCore.GrantStore

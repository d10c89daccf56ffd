import DsseCore.Dlp.Release

/-!
# Transparency of the guard

At the end of the source everything that was read has been handed out.  A guard counts what a scanner counts that is
given the same pieces, except that it does not move the window when bytes come together with the end.
-/

namespace DsseCore.Dlp

open Go Lib CustomStreamState List GuardReader Scanner EmailStream GuardReader.ReadOutcome Session

variable {r : SourceRead} {g : GuardReader} {k : GuardConfig}

section Order

def StableCustomMatch.slot (m : StableCustomMatch) : ℕ × ℕ := (m.classifier,m.keyword.getD 0)

theorem nextEnd_commits (l : List StableCustomMatch) (ci ki : ℕ) {c c' : CustomStreamState}
    (h : c.nextEnd ci ki = c'.nextEnd ci ki) : (l.foldl commit c).nextEnd ci ki =
      ((l.filter (·.slot = (ci,ki))).foldl commit c').nextEnd ci ki := by
  induction l generalizing c c' with
  | nil => exact h
  | cons m l ih =>
    rw [filter_cons]
    by_cases hm : m.slot = (ci,ki)
    · rw [if_pos (decide_eq_true hm)]
      refine ih ?_
      obtain ⟨hci, hki⟩ := Prod.mk.inj hm
      simp [commit,hci,hki]
    · rw [if_neg (by simpa using hm)]
      refine ih ?_
      rw [← h]
      refine if_neg fun he => hm ?_
      rw [StableCustomMatch.slot,he.1,he.2]

theorem pairwise_window (stop : Stop Byte IdentifierType) (data : List Byte) («from» dropTo : ℕ) :
    (window stop data «from» dropTo).Pairwise fun a b => a.start ≤ b.start := by
  refine List.Pairwise.sublist (takeWhile_sublist _) ?_
  rw [pairwise_map]
  exact (pairwise_sweep none 0 0 _).imp fun h => Nat.add_le_add_right h _

/-- The matches of one matcher come in the order of their positions. -/
def Ordered (l : List StableCustomMatch) : Prop :=
  l.Pairwise fun a b => a.slot = b.slot → a.found.start ≤ b.found.start

theorem ordered_map {l : List Found} (h : l.Pairwise fun a b => a.start ≤ b.start) {f : Found → StableCustomMatch}
    (hf : ∀ m, (f m).found = m) : Ordered (l.map f) := by
  refine pairwise_map.mpr (h.imp fun {a b} hab _ => ?_)
  rwa [hf,hf]

theorem ordered_flatMap {α : Type} (l : List α) {f : α × ℕ → List StableCustomMatch} (hf : ∀ a, Ordered (f a))
    (hslot : ∀ a b, ∀ m ∈ f a, ∀ m' ∈ f b, m.slot = m'.slot → a.2 = b.2) : Ordered (l.zipIdx.flatMap f) := by
  refine pairwise_flatMap.mpr ⟨fun a _ => hf a,?_⟩
  have hnodup : (l.zipIdx.map Prod.snd).Nodup := by
    rw [zipIdx_map_snd]
    exact nodup_range'
  refine (pairwise_map.mp hnodup).imp fun {a b} hne m hm m' hm' he => ?_
  exact absurd (hslot a b m hm m' hm' he) hne

theorem ordered_stableOf (s : CustomStreamState) (opts : Options) (data : List Byte) (origin dropTo : ℕ)
    (c : CompiledClassifier) (ci : ℕ) : Ordered (s.stableOf opts data origin dropTo c ci) := by
  unfold stableOf
  split
  · exact .nil
  split
  · exact ordered_map ((pairwise_window _ _ _ _).filter _) fun m => rfl
  refine ordered_flatMap _ (fun kw => ordered_map (pairwise_window _ _ _ _) fun m => rfl) ?_
  intro a b m hm m' hm' he
  obtain ⟨f, -, rfl⟩ := mem_map.mp hm
  obtain ⟨f', -, rfl⟩ := mem_map.mp hm'
  exact (Prod.mk.inj he).2

theorem classifier_of_mem_stableOf {s : CustomStreamState} {opts : Options} {data : List Byte} {origin dropTo : ℕ}
    {c : CompiledClassifier} {ci : ℕ} {m : StableCustomMatch} (hm : m ∈ s.stableOf opts data origin dropTo c ci) :
    m.classifier = ci := by
  unfold stableOf at hm
  split at hm
  · cases hm
  split at hm
  · obtain ⟨f, -, rfl⟩ := mem_map.mp hm
    rfl
  obtain ⟨kw, -, hm⟩ := mem_flatMap.mp hm
  obtain ⟨f, -, rfl⟩ := mem_map.mp hm
  rfl

theorem ordered_stable (s : CustomStreamState) (opts : Options) (data : List Byte) (origin dropTo : ℕ) :
    Ordered (s.stable opts data origin dropTo) := by
  unfold stable
  split
  · exact .nil
  refine ordered_flatMap _ (fun c => ordered_stableOf s opts data origin dropTo c.1 c.2) ?_
  intro a b m hm m' hm' he
  have hci := (Prod.mk.inj he).1
  rwa [classifier_of_mem_stableOf hm,classifier_of_mem_stableOf hm'] at hci

theorem strictWeak_start : StrictWeak fun a b : Event => decide (a.found.start < b.found.start) where
  asymm a b h := by
    rw [decide_eq_true_eq] at h
    rw [decide_eq_false_iff_not]
    omega
  incomp_trans a b c h h' := by
    rw [decide_eq_false_iff_not] at h h' ⊢
    omega

theorem commits_events (g : GuardReader) (found : List Found) (dropTo : ℕ) :
    commits g.custom (g.events k found dropTo) =
      (g.custom.stable k.opts g.hold g.origin dropTo).foldl commit g.custom := by
  have hordered := ordered_stable g.custom k.opts g.hold g.origin dropTo
  unfold events commits
  generalize g.custom.stable k.opts g.hold g.origin dropTo = stable at *
  refine congrArg CustomStreamState.mk (funext fun ci => funext fun ki => ?_)
  rw [nextEnd_commits _ ci ki rfl,nextEnd_commits stable ci ki rfl]
  -- the events of one matcher are in order before they are sorted
  have hselect : ∀ evs : List Event, (evs.filterMap (·.custom)).filter (·.slot = (ci,ki)) =
      (evs.filter fun ev => ev.custom.any (·.slot = (ci,ki))).filterMap (·.custom) := by
    intro evs
    induction evs with
    | nil => rfl
    | cons ev evs ih =>
      cases hc : ev.custom with
      | none => simp [hc,ih]
      | some m => by_cases hm : m.slot = (ci,ki) <;> simp [hc,hm,ih]
  have hbase : ((found.filter (·.stop ≤ dropTo)).map fun m => (⟨m,none⟩ : Event)).filter
      (fun ev => ev.custom.any (·.slot = (ci,ki))) = [] := by
    rw [filter_eq_nil_iff]
    intro ev hev
    obtain ⟨m, -, rfl⟩ := mem_map.mp hev
    simp
  rw [hselect,filter_sliceStable strictWeak_start,filter_append,hbase,nil_append,sliceStable_eq,← hselect]
  · congr 1
    simp
  rw [filter_map,pairwise_map]
  have hslot : ∀ m ∈ stable.filter ((fun ev : Event => ev.custom.any (·.slot = (ci,ki))) ∘
      fun m => ⟨m.found,some m⟩), m.slot = (ci,ki) := by
    intro m hm
    simpa using (mem_filter.mp hm).2
  refine ((hordered.filter _).imp_of_mem fun {a b} ha hb hab => ?_)
  rw [decide_eq_false_iff_not]
  exact not_lt.mpr (hab ((hslot a ha).trans (hslot b hb).symm))

theorem eventTypes_events (g : GuardReader) (found : List Found) (dropTo : ℕ) :
    (eventTypes (g.events k found dropTo)).Perm (typesBefore found dropTo ++
      customTypes (g.custom.stable k.opts g.hold g.origin dropTo)) := by
  refine (((sliceStable_perm _).filter _).map _).trans (.of_eq ?_)
  rw [filter_append,map_append]
  congr 1
  · rw [filter_eq_self.mpr,map_map]
    · rfl
    intro ev hev
    obtain ⟨m, -, rfl⟩ := mem_map.mp hev
    rfl
  · rw [filter_map,map_map]
    rfl

end Order

section Simulation

variable {g' : GuardReader} {s : Scanner} {released consumed : List Byte}

structure Follows (s : Scanner) (g : GuardReader) : Prop where
  counts : g.counts = s.counts
  hold : g.hold = s.buf
  origin : g.origin = s.origin
  custom : g.custom = s.custom
  email : g.email = s.email
  opened : s.done = false

theorem Follows.of_sameScan (h : Follows s g) (hsame : SameScan g g') : Follows s g' :=
  ⟨hsame.counts.trans h.counts,hsame.hold.trans h.hold,hsame.origin.trans h.origin,hsame.custom.trans h.custom,
    hsame.email.trans h.email,h.opened⟩

theorem counted_zero (s : Scanner) (opts : Options) : s.counted opts (scanBaseAll opts s.buf) 0 = s := by
  unfold counted
  rw [typesBefore_zero]
  rfl

theorem advance_zero (s : Scanner) (opts : Options) (h : windowCommit s.buf (scanBaseAll opts s.buf) false = 0) :
    s.advance opts false = s := by
  rw [Scanner.advance,h,counted_zero]
  rfl

theorem Follows.events (h : Follows s g) (found : List Found) (dropTo : ℕ) :
    g.counts.addAll (eventTypes (g.events k found dropTo)) = (s.counted k.opts found dropTo).counts ∧
      commits g.custom (g.events k found dropTo) = (s.counted k.opts found dropTo).custom := by
  constructor
  · rw [Counts.addAll_perm _ (eventTypes_events g found dropTo),Counts.addAll_append,h.counts,h.custom,h.hold,h.origin]
    rfl
  · rw [commits_events,h.custom,h.hold,h.origin]
    rfl

theorem Follows.cleared {found : List Found} {dropTo : ℕ} (h : Follows s g)
    (hc : Cleared (g.tallied (s.counted k.opts found dropTo).counts (s.counted k.opts found dropTo).custom) g' dropTo) :
    Follows ((s.counted k.opts found dropTo).cut dropTo) g' := by
  have hcut : (s.counted k.opts found dropTo).cut dropTo =
      { s.counted k.opts found dropTo with buf := s.buf.drop dropTo,origin := s.origin + dropTo } := by
    unfold Scanner.cut
    split
    · rfl
    rename_i hpos
    obtain rfl := Nat.eq_zero_of_not_pos hpos
    rfl
  rw [hcut]
  refine ⟨hc.counts,hc.hold.trans ?_,hc.origin.trans ?_,hc.custom,hc.email.trans h.email,h.opened⟩
  · exact congrArg (drop dropTo) h.hold
  · exact congrArg (· + dropTo) h.origin

theorem Advanced.of_open {final : Bool} (hadv : Advanced k released consumed g final g') (hf : g'.failed = none) :
    (windowCommit g.hold (scanBaseAll k.opts g.hold) final = 0 ∧ g' = g) ∨
      Cleared (g.tallied
        (g.counts.addAll (eventTypes (g.events k (scanBaseAll k.opts g.hold)
          (windowCommit g.hold (scanBaseAll k.opts g.hold) final))))
        (commits g.custom (g.events k (scanBaseAll k.opts g.hold)
          (windowCommit g.hold (scanBaseAll k.opts g.hold) final)))) g'
        (windowCommit g.hold (scanBaseAll k.opts g.hold) final) := by
  cases hadv with
  | nothing hzero => exact .inl ⟨hzero,rfl⟩
  | blocked _ ev hb =>
    obtain ⟨cleanup, hfail⟩ := hb.failed
    rw [hfail] at hf
    cases hf
  | failed g' err herr => cases hf
  | cleared _ evs hevs hc =>
    rw [← hevs]
    exact .inr hc

theorem Advanced.eof {final : Bool} (hadv : Advanced k released consumed g final g') (hf : g'.failed = none) :
    g'.eof = g.eof := by
  rcases hadv.of_open hf with ⟨-, rfl⟩ | hc
  · rfl
  · exact hc.eof

theorem Follows.advance (h : Follows s g) (hadv : Advanced k released consumed g false g') (hf : g'.failed = none) :
    Follows (s.advance k.opts false) g' := by
  rcases hadv.of_open hf with ⟨hzero, rfl⟩ | hc
  · rw [h.hold] at hzero
    rwa [advance_zero s k.opts hzero]
  obtain ⟨hcounts, hcustom⟩ := h.events (k := k) (scanBaseAll k.opts g.hold)
    (windowCommit g.hold (scanBaseAll k.opts g.hold) false)
  rw [hcounts,hcustom,h.hold] at hc
  rw [Scanner.advance,if_neg Bool.false_ne_true]
  exact h.cleared hc

theorem Follows.advance_final (h : Follows s g) (hadv : Advanced k released consumed g true g') (hf : g'.failed = none) :
    g'.counts = (s.advance k.opts true).counts := by
  rw [Scanner.advance]
  rcases hadv.of_open hf with ⟨hzero, rfl⟩ | hc
  · rw [h.hold] at hzero
    rw [hzero,counted_zero]
    exact h.counts
  obtain ⟨hcounts, -⟩ := h.events (k := k) (scanBaseAll k.opts g.hold)
    (windowCommit g.hold (scanBaseAll k.opts g.hold) true)
  rw [h.hold] at hcounts hc
  exact hc.counts.trans hcounts

def Scanner.took (opts : Options) (s : Scanner) (piece : List Byte) : Scanner :=
  { s with buf := s.buf ++ piece }.emailed (s.email.write opts.allowlist piece)

theorem Follows.take (h : Follows s g) (hg : g.failed = none) (bytes : List Byte)
    (hf : (g.take k bytes).failed = none) : Follows (s.took k.opts bytes) (g.take k bytes) := by
  unfold GuardReader.take at hf ⊢
  rcases countEmail_cases (k := k) (g := { g with
    hold := g.hold ++ bytes,email := (write k.opts.allowlist g.email bytes).1 }) hg
    (write k.opts.allowlist g.email bytes).2 with hc | ⟨m, -, hb⟩
  · rw [hc]
    unfold took
    rw [← h.hold,← h.email]
    refine ⟨?_,rfl,h.origin,h.custom,rfl,h.opened⟩
    exact congrArg (Counts.addAll · _) h.counts
  · obtain ⟨cleanup, hfail⟩ := hb.failed
    rw [hfail] at hf
    cases hf

theorem Follows.finish (h : Follows s g) (hflow : Flow k released consumed g) (hg : g.failed = none) (heof : g.eof = false)
    (hf : (g.finish k).failed = none) : (g.finish k).counts = (s.finish k.opts).counts ∧ (g.finish k).eof = true := by
  have hcl := hflow.clearing_finish heof
  unfold GuardReader.finish at hf ⊢
  dsimp only at hf ⊢
  rcases countEmail_cases (k := k) (g := { g with eof := true,email := (g.email.finish k.opts.allowlist).1 }) hg
    (g.email.finish k.opts.allowlist).2 with hc | ⟨m, -, hb⟩
  · rw [hc] at hf ⊢
    rw [if_neg (by simp [withCounts,hg])] at hf ⊢
    generalize hcounts : g.counts.addAll (emailTypes (g.email.finish k.opts.allowlist).2) = counts at *
    have hfollows : Follows (s.emailed (s.email.finish k.opts.allowlist))
        ({ g with eof := true,email := (g.email.finish k.opts.allowlist).1 }.withCounts counts) := by
      rw [← h.email]
      refine ⟨?_,h.hold,h.origin,h.custom,rfl,h.opened⟩
      rw [emailed,← h.counts]
      exact hcounts.symm
    have hadv := advance_advanced (g := { g with
      eof := true,email := (g.email.finish k.opts.allowlist).1 }.withCounts counts) hg (hcl counts) true
    refine ⟨(hfollows.advance_final hadv hf).trans ?_,?_⟩
    · rw [Scanner.finish,h.opened,if_neg Bool.false_ne_true]
    · exact hadv.eof hf
  · obtain ⟨cleanup, hfail⟩ := hb.failed
    rw [if_pos (by rw [hfail]; rfl),hfail] at hf
    cases hf

end Simulation

section Pieces

variable {g' : GuardReader} {s : Scanner} {released : List Byte} {used : List SourceRead} {room : ℕ}

def scannerOf (opts : Options) (reads : List SourceRead) : Scanner := written opts (reads.map (·.bytes))

theorem scannerOf_snoc (opts : Options) (used : List SourceRead) (r : SourceRead) : scannerOf opts (used ++ [r]) =
    if r.bytes = [] then scannerOf opts used else ((scannerOf opts used).took opts r.bytes).advance opts false := by
  unfold scannerOf Scanner.written
  rw [List.map_append,List.foldl_append,List.map_singleton,List.foldl_cons,List.foldl_nil,Scanner.write]
  split
  · next h =>
    have hnone : chunks chunkSize ([] : List Byte) = [] := rfl
    rw [h,hnone,List.foldl_nil]
  · next h => rw [chunks_of_le h r.fits,List.foldl_cons,List.foldl_nil,Scanner.feed,Scanner.took]

theorem took_nil (s : Scanner) (opts : Options) : s.took opts [] = s := by
  unfold took
  rw [append_nil]
  rfl

/-- What the guard counted, before and after the end of the source. -/
inductive Tracks (k : GuardConfig) (used : List SourceRead) (g : GuardReader) : Prop
  | reading (hmore : ∀ r ∈ used, r.status = .more) (heof : g.eof = false) (h : Follows (scannerOf k.opts used) g)
  | ended (pre : List SourceRead) (r : SourceRead) (hused : used = pre ++ [r]) (hmore : ∀ r ∈ pre, r.status = .more)
      (hr : r.status = .eof) (heof : g.eof = true)
      (hcounts : r.bytes = [] ∨ (bodyOf used).length ≤ windowSize →
        g.counts = ((scannerOf k.opts used).finish k.opts).counts)

theorem Tracks.of_sameScan (h : Tracks k used g) (hsame : SameScan g g') : Tracks k used g' := by
  cases h with
  | reading hmore heof h => exact .reading hmore (hsame.eof.trans heof) (h.of_sameScan hsame)
  | ended pre r hused hmore hr heof hcounts =>
    exact .ended pre r hused hmore hr (hsame.eof.trans heof) fun h => hsame.counts.trans (hcounts h)

theorem windowCommit_short (opts : Options) {buf : List Byte} (h : buf.length ≤ windowSize) :
    windowCommit buf (scanBaseAll opts buf) false = 0 := by
  have hle := windowCommit_le buf (scanBaseAll opts buf)
  rwa [Nat.sub_eq_zero_of_le h,Nat.le_zero] at hle

theorem scannerOf_last (h : r.bytes = [] ∨ ((scannerOf k.opts used).buf ++ r.bytes).length ≤ windowSize) :
    scannerOf k.opts (used ++ [r]) = (scannerOf k.opts used).took k.opts r.bytes := by
  rw [scannerOf_snoc]
  split
  · next hnil => rw [hnil,took_nil]
  · next hne => exact advance_zero _ _ (windowCommit_short k.opts (h.resolve_left hne))

theorem receive_open (hf : (g.receive k r).failed = none) : (g.take k r.bytes).failed = none ∧
    g.receive k r = match r.status with
      | .eof => (g.take k r.bytes).finish k
      | .failed => (g.take k r.bytes).fail .source
      | .more => if r.bytes = [] then g.take k r.bytes else (g.take k r.bytes).advance k false := by
  unfold receive at hf ⊢
  generalize g.take k r.bytes = taken at *
  by_cases htf : taken.failed.isSome = true
  · rw [if_pos htf] at hf
    rw [hf] at htf
    cases htf
  · rw [if_neg htf]
    exact ⟨by simpa using htf,rfl⟩

theorem Tracks.receive (h : Tracks k used g) (hflow : Flow k released (bodyOf used) g) (hg : g.failed = none)
    (heof : g.eof = false) (r : SourceRead) (hf : (g.receive k r).failed = none) :
    Tracks k (used ++ [r]) (g.receive k r) := by
  cases h with
  | ended pre r' hused hmore hr heof' =>
    rw [heof] at heof'
    cases heof'
  | reading hmore _ h =>
    obtain ⟨htaken, htakenEof⟩ := hflow.take hg heof r.bytes
    have hbefore : (scannerOf k.opts used).buf.length ≤ (bodyOf used).length := by
      have hlen := hflow.lengths.2
      rw [← h.hold]
      omega
    obtain ⟨htf, hreceive⟩ := receive_open hf
    have htook := h.take (k := k) hg r.bytes htf
    have htflow := htaken.flow htf
    have hteof := htakenEof htf
    rw [hreceive] at hf ⊢
    generalize g.take k r.bytes = taken at *
    cases hstatus : r.status with
    | failed =>
      rw [hstatus] at hf
      cases hf
    | more =>
      rw [hstatus] at hf
      have hall : ∀ r' ∈ used ++ [r], r'.status = .more := by
        intro r' hr'
        rcases mem_append.mp hr' with hr' | hr'
        · exact hmore r' hr'
        · rwa [mem_singleton.mp hr']
      by_cases hnil : r.bytes = []
      · rw [if_pos hnil]
        refine .reading hall hteof ?_
        rwa [scannerOf_snoc,if_pos hnil,← took_nil (scannerOf k.opts used) k.opts,← hnil]
      rw [if_neg hnil] at hf ⊢
      have hadv := advance_advanced htf htflow.clearing false
      have hfollows := htook.advance hadv hf
      refine .reading hall ((hadv.eof hf).trans hteof) ?_
      rwa [scannerOf_snoc,if_neg hnil]
    | eof =>
      rw [hstatus] at hf
      obtain ⟨hcounts, hend⟩ := htook.finish htflow htf hteof hf
      refine .ended used r rfl hmore hstatus hend fun hcond => ?_
      rw [hcounts,scannerOf_last]
      refine hcond.imp_right fun hshort => ?_
      rw [bodyOf_append,length_append] at hshort
      rw [length_append]
      have hone : (bodyOf [r]).length = r.bytes.length := by simp [bodyOf]
      omega

def Tracked (k : GuardConfig) (released : List Byte) (used : List SourceRead) (g : GuardReader) : Prop :=
  Guarded k released (bodyOf used) g ∧ (g.failed = none → Tracks k used g)

theorem open_of_offer {o : Option ReadOutcome} (hoff : g.offer k room = (o,g')) (hf : g'.failed = none) :
    g.failed = none := by
  cases hgf : g.failed with
  | none => rfl
  | some f =>
    unfold offer at hoff
    rw [hgf] at hoff
    obtain rfl := (Prod.mk.inj hoff).2
    rw [hgf] at hf
    cases hf

theorem Tracked.round (hroom : room ≠ 0) (h : Tracked k released used g) (hoff : g.offer k room = (none,g')) :
    Tracked k released (used ++ [r]) (g'.receive k r) := by
  obtain ⟨hg, htracks⟩ := h
  refine ⟨hg.round hroom hoff,fun hf => ?_⟩
  have hoffered := hg.offer hroom
  rw [hoff] at hoffered
  cases hoffered with
  | again _ hflow hf' hsame heof =>
    exact ((htracks (open_of_offer hoff hf')).of_sameScan hsame).receive hflow hf' heof r hf

theorem Tracked.read (h : Tracked k released used g) (room : ℕ) (source : List SourceRead) :
    ∃ more, source = more ++ (g.read k room source).2.2 ∧
      Tracked k (released ++ (g.read k room source).1.out) (used ++ more) (g.read k room source).2.1 ∧
      ((g.read k room source).1 = .eof → released = bodyOf (used ++ more) ∧ (g.read k room source).2.1.failed = none ∧
        (g.read k room source).2.1.eof = true) := by
  by_cases hroom : room = 0
  · rw [hroom,read_noRoom]
    refine ⟨[],rfl,?_,fun h => by cases h⟩
    rwa [out,append_nil,append_nil]
  obtain ⟨more, g₀, hsource, ⟨hg₀, htracks⟩, hlast⟩ :=
    read_rule (P := Tracked k released) hroom (fun _ _ _ _ h hoff => h.round hroom hoff) source used g h
  refine ⟨more,hsource,?_⟩
  have hoffered := hg₀.offer hroom
  rcases hlast with hlast | ⟨hpending, hlast⟩
  · rw [hlast] at hoffered
    generalize (g.read k room source).1 = outcome at *
    generalize (g.read k room source).2.1 = g' at *
    cases hoffered with
    | failed _ f hg hf =>
      refine ⟨?_,fun h => by cases h⟩
      rw [out,append_nil]
      exact ⟨hg,fun hn => by rw [hf] at hn; cases hn⟩
    | bytes _ out hg hf hsame =>
      exact ⟨⟨.of_flow hg hf,fun _ => (htracks (open_of_offer hlast hf)).of_sameScan hsame⟩,fun h => by cases h⟩
    | ended _ hg hf hsame heof hall =>
      refine ⟨?_,fun _ => ⟨hall,hf,hsame.eof.trans heof⟩⟩
      rw [out,append_nil]
      exact ⟨.of_flow hg hf,fun _ => (htracks (open_of_offer hlast hf)).of_sameScan hsame⟩
  · rw [hlast] at hoffered
    rw [hpending]
    refine ⟨?_,fun h => by cases h⟩
    cases hoffered with
    | again _ hg hf hsame =>
      rw [out,append_nil]
      exact ⟨.of_flow hg hf,fun _ => (htracks (open_of_offer hlast hf)).of_sameScan hsame⟩

end Pieces

section Session

variable {source : List SourceRead} {w : List Bool} {body : List Byte}

def uptoEOF : List SourceRead → List SourceRead
  | [] => []
  | r :: rest => if r.status = .eof then [r] else r :: uptoEOF rest

theorem uptoEOF_append {pre rest : List SourceRead} (hpre : ∀ r ∈ pre, r.status = .more) (hr : r.status = .eof) :
    uptoEOF (pre ++ [r] ++ rest) = pre ++ [r] := by
  induction pre with
  | nil =>
    rw [nil_append,singleton_append,uptoEOF,if_pos hr]
  | cons p pre ih =>
    have hp : p.status = .more := hpre p mem_cons_self
    have hrest := ih fun r' hr' => hpre r' (mem_cons_of_mem p hr')
    rw [cons_append,cons_append,uptoEOF,if_neg (by rw [hp]; decide),hrest]

theorem tracked_new (k : GuardConfig) (w : List Bool) : Tracked k [] [] (new w) := by
  refine ⟨guarded_new k w,fun hf => ?_⟩
  unfold GuardReader.new at hf ⊢
  dsimp only at hf ⊢
  split
  · exact .reading nofun rfl ⟨rfl,rfl,rfl,rfl,rfl,rfl⟩
  rename_i hno
  rw [if_neg hno] at hf
  cases hf

theorem tracked_run {reads : List (ℕ × ReadOutcome)} {s : Session}
    (h : Run (Step k) ⟨new w,source⟩ reads s) :
    ∃ used, source = used ++ s.source ∧ Tracked k (releasedBy reads) used s.guard := by
  refine session_rule (tracked_new k w) ?_ h
  intro released used g room source hg
  obtain ⟨more, hmore, hg', -⟩ := hg.read room source
  exact ⟨more,hmore,hg'⟩

def EmptyEnd (source : List SourceRead) : Prop := ∀ r ∈ uptoEOF source, r.status = .eof → r.bytes = []

instance (source : List SourceRead) : Decidable (EmptyEnd source) := by
  unfold EmptyEnd
  infer_instance

/-- At the end everything was handed out, in order; and the findings are those of a scanner when no bytes come with the
end of the source, or the body fits into the window. -/
theorem transparent_of_emptyEnd {reads : List (ℕ × ReadOutcome)} {s s' : Session} {room : ℕ}
    (h : Run (Step k) ⟨new w,source⟩ reads s) (hread : Step k s (room,.eof) s') :
    releasedBy reads = bodyOf (uptoEOF source) ∧
      (EmptyEnd source ∨ (bodyOf (uptoEOF source)).length ≤ windowSize →
        findings s'.guard.counts =
          findings ((written k.opts ((uptoEOF source).map (·.bytes))).finish k.opts).counts) := by
  obtain ⟨used, hsource, hg⟩ := tracked_run h
  obtain ⟨more, hmore, ⟨-, htracks⟩, hend⟩ := hg.read room s.source
  rw [hread] at hmore htracks hend
  obtain ⟨hall, hf, heof⟩ := hend rfl
  cases htracks hf with
  | reading _ hne =>
    rw [heof] at hne
    cases hne
  | ended pre r hused hpre hr _ hcounts =>
    have hupto : uptoEOF source = used ++ more := by
      rw [hsource,hmore,← append_assoc,hused]
      exact uptoEOF_append hpre hr
    rw [hupto]
    refine ⟨hall,fun hcond => congrArg findings (hcounts (hcond.imp_left fun hempty => ?_))⟩
    refine hempty r ?_ hr
    rw [hupto,hused]
    exact mem_append_right _ mem_cons_self

def Session.next (k : GuardConfig) (s : Session) (room : ℕ) : Session :=
  ⟨(s.guard.read k room s.source).2.1,(s.guard.read k room s.source).2.2⟩

theorem Session.step_next {s : Session} {room : ℕ} {o : ReadOutcome}
    (h : (s.guard.read k room s.source).1 = o) : Step k s (room,o) (s.next k room) := by
  unfold Step next
  rw [← h]

def watching : GuardConfig := { trip := ∅,cipher := clearCipher }

def addressAlone : Session := ⟨new [],[⟨ascii "a@b.co",.more,address_fits⟩,⟨[],.eof,by decide⟩]⟩

theorem transparent_of_emptyEnd_address : ∃ s s',
    Run (Step watching) addressAlone [(4,.bytes (ascii "a@b.")),(4,.bytes (ascii "co"))] s ∧
      Step watching s (4,.eof) s' ∧
      findings s'.guard.counts = findings ((written {} [ascii "a@b.co",[]]).finish {}).counts := by
  have hfirst : Step watching addressAlone (4,.bytes (ascii "a@b.")) (addressAlone.next watching 4) :=
    step_next (by decide +kernel)
  have hsecond : Step watching (addressAlone.next watching 4) (4,.bytes (ascii "co"))
      ((addressAlone.next watching 4).next watching 4) := step_next (by decide +kernel)
  have hend : Step watching ((addressAlone.next watching 4).next watching 4) (4,.eof)
      (((addressAlone.next watching 4).next watching 4).next watching 4) := step_next (by decide +kernel)
  have hrun := ((Run.nil addressAlone).snoc hfirst).snoc hsecond
  exact ⟨_,_,hrun,hend,(transparent_of_emptyEnd hrun hend).2 (.inl (by decide))⟩

theorem write_candidate {s : EmailStream} {p : List Byte} (hs : s.candidate = none) (hp : 0x40 ∉ p) :
    (write none s p).1.candidate = none ∧ (write none s p).2 = [] := by
  induction p generalizing s with
  | nil => exact ⟨hs,rfl⟩
  | cons b p ih =>
    have hb : ¬ b = 0x40 := fun h => hp (h ▸ mem_cons_self)
    have hstep : (s.writeByte none b).1.candidate = none ∧ (s.writeByte none b).2 = [] := by
      unfold EmailStream.writeByte EmailStream.feed
      rw [hs]
      dsimp only
      rw [beq_false_of_ne hb]
      unfold pushLocal
      split <;> exact ⟨hs,rfl⟩
    obtain ⟨hc, hfound⟩ := ih hstep.1 fun h => hp (mem_cons_of_mem b h)
    rw [EmailStream.write]
    generalize s.writeByte none b = r at *
    refine ⟨hc,?_⟩
    dsimp only
    rw [hstep.2,hfound,nil_append]

theorem offer_ready (hf : g.failed = none) (hready : g.ready ≠ []) (room : ℕ) :
    g.offer k room = (some (.bytes (g.ready.take room)),g.dropReady room) := by
  unfold offer
  rw [hf]
  exact if_pos hready

theorem offer_ended (hf : g.failed = none) (hready : g.ready = []) (hspool : g.spool = none) (heof : g.eof = true)
    (room : ℕ) : g.offer k room = (some .eof,g.releaseWorking) := by
  have hdrain : g.drain k room = ([],g) := by
    unfold drain
    rw [hspool]
  unfold offer
  dsimp only
  rw [if_neg (not_not.mpr hready),hdrain]
  rw [hf]
  rw [if_neg (not_not.mpr rfl),if_pos heof]

theorem finish_quiet (hf : g.failed = none) (hemail : g.email.finish k.opts.allowlist = (g.email,[])) :
    g.finish k = { g with eof := true }.advance k true := by
  unfold GuardReader.finish
  rw [hemail]
  exact if_neg (by
    rw [hf]
    exact Bool.false_ne_true)

/-- The guard after a body that comes with the end, in which nothing is found. -/
def afterQuiet (body : List Byte) : GuardReader :=
  { origin := body.length,email := (write none {} body).1,ready := body,eof := true }

section

variable (hne : body ≠ []) (hno : 0x40 ∉ body) (hscan : scanBaseAll {} body = [])
include hne hno hscan

theorem receive_quiet (r : SourceRead) (hr : r.bytes = body) (heof : r.status = .eof) :
    (new []).receive watching r = afterQuiet body := by
  obtain ⟨hcandidate, hfound⟩ := write_candidate (s := {}) rfl hno
  have htake : (new []).take watching r.bytes =
      { hold := body,email := (write none {} body).1 } := by
    unfold GuardReader.take
    have hemail : write watching.opts.allowlist (new []).email r.bytes =
        write none {} body := by
      rw [hr]
      rfl
    dsimp only
    rw [hemail,hfound,hr]
    rfl
  have hfinish : (write none {} body).1.finish none = ((write none {} body).1,[]) := by
    unfold EmailStream.finish EmailStream.finishCandidate
    rw [hcandidate]
  unfold receive afterQuiet
  rw [htake,heof]
  dsimp only
  rw [if_neg (by decide)]
  generalize (write none {} body).1 = email at *
  obtain ⟨n, hn⟩ := Nat.exists_eq_succ_of_ne_zero fun h => hne (length_eq_zero_iff.mp h)
  have hcommit : windowCommit body [] true = n + 1 := by
    rw [windowCommit,if_pos rfl,hn]
  have hpending : email.pendingStart = none := by
    rw [pendingStart,hcandidate]
    rfl
  have hadvance := advance_noFound (k := watching) (g := ⟨∅,body,0,newCustomStreamState,email,none,[],true,none,[]⟩)
    true rfl hscan hcommit rfl
  rw [finish_quiet rfl hfinish]
  rw [hadvance,clear,hpending,← Nat.succ_eq_add_one,← hn]
  dsimp only [addReady,dropHold]
  rw [take_length,drop_length,nil_append,Nat.zero_add]

theorem run_quiet (r : SourceRead) (hr : r.bytes = body) (heof : r.status = .eof) : ∃ s s',
    Run (Step watching) ⟨new [],[r]⟩ [(body.length,.bytes body)] s ∧
      Step watching s (1,.eof) s' ∧ s'.guard.counts = ∅ := by
  have hroom : body.length ≠ 0 := fun h => hne (length_eq_zero_iff.mp h)
  have hoffer : ∀ n, (new []).offer watching n = (none,new []) := fun n => rfl
  have hfirst : Step watching ⟨new [],[r]⟩ (body.length,.bytes body)
      ⟨(afterQuiet body).dropReady body.length,[]⟩ := by
    unfold Step
    have hready : (afterQuiet body).ready = body := rfl
    rw [GuardReader.read,if_neg hroom,hoffer]
    dsimp only
    rw [receive_quiet hne hno hscan r hr heof,GuardReader.read,if_neg hroom,offer_ready rfl hne,hready,List.take_length]
  have hempty : ((afterQuiet body).dropReady body.length).ready = [] := drop_length
  have hend : Step watching ⟨(afterQuiet body).dropReady body.length,[]⟩ (1,.eof)
      ⟨((afterQuiet body).dropReady body.length).releaseWorking,[]⟩ := by
    unfold Step
    rw [GuardReader.read,if_neg Nat.one_ne_zero,offer_ended rfl hempty rfl rfl]
  exact ⟨_,_,(Run.nil _).snoc hfirst,hend,rfl⟩

end

/-- A number in a cut word that comes with the end: the scanner reports it, and the guard does not. -/
theorem end_with_bytes_differs : ∃ (source : List SourceRead) (reads : List (ℕ × ReadOutcome)) (s s' : Session),
    Run (Step watching) ⟨new [],source⟩ reads s ∧ Step watching s (1,.eof) s' ∧
      findings s'.guard.counts ≠
        findings ((written watching.opts ((uptoEOF source).map (·.bytes))).finish watching.opts).counts := by
  have hfits : cutWord.length ≤ chunkSize := by
    rw [length_cutWord]
    decide
  have hne : cutWord ≠ [] := by simp [cutWord,ascii]
  have hno : (0x40 : Byte) ∉ cutWord := by
    unfold cutWord
    rw [mem_append,not_or]
    exact ⟨by decide,fun h => absurd (eq_of_mem_replicate h) (by decide)⟩
  obtain ⟨s, s', hrun, hend, hcounts⟩ := run_quiet hne hno scanBaseAll_cutWord ⟨cutWord,.eof,hfits⟩ rfl rfl
  refine ⟨_,_,s,s',hrun,hend,fun heq => ?_⟩
  have hupto : (uptoEOF [(⟨cutWord,.eof,hfits⟩ : SourceRead)]).map (·.bytes) = [cutWord] := by
    rw [uptoEOF,if_pos rfl,map_singleton]
  have hopts : watching.opts = {} := rfl
  have hreported := reported_cutWord
  rw [hcounts,hupto,hopts] at heq
  rw [← heq] at hreported
  cases hreported

end Session

end DsseCore.Dlp

import DsseCore.Dlp.Guard
import DsseCore.Dlp.Streaming
import DsseCore.Lib.Run

/-!
# Hold before release

What the guard handed out, what is ready, what the spill holds and the window make up what was read from the source, in
this order.  An unfinished address starts at or after the end of what was handed out, and a match in the window starts in
the window, so the occurrence that stops a guard was not handed out.
-/

namespace DsseCore.Dlp

open Go Lib EmailStream List GuardReader Scanner GuardReader.ReadOutcome Option

variable {occ : Occurrence} {data released consumed : List Byte} {dropTo : ℕ} {g : GuardReader} {k : GuardConfig}
  {sp : EncryptedSpill}

section EmailStream

variable {s : EmailStream} {b : ℕ} (allowlist : Option Allowlist)

/-- The local part ends at the position, and neither it nor an unfinished address starts before `b`. -/
structure EmailStream.From (b : ℕ) (s : EmailStream) : Prop where
  position : s.localStart + s.local.length = s.position
  short : s.local.length ≤ 64
  «local» : b ≤ s.localStart
  candidate : ∀ start, s.pendingStart = some start → b ≤ start

theorem feedDomainByte_start {c c' : EmailCandidate} {x : Byte} {position : ℕ}
    (h : c.feedDomainByte x position = some c') : c'.start = c.start := by
  unfold EmailCandidate.feedDomainByte at h
  split at h
  · split at h
    · cases h
    · exact (some.inj h) ▸ rfl
  split at h
  · exact (some.inj h) ▸ rfl
  split at h
  · cases h
  · exact (some.inj h) ▸ rfl

section

variable (h : s.From b)
include h

theorem EmailStream.From.finishCandidate : (s.finishCandidate allowlist).1.From b ∧
    (s.finishCandidate allowlist).1.candidate = none ∧ (s.finishCandidate allowlist).1.position = s.position ∧
    ∀ m ∈ (s.finishCandidate allowlist).2, b ≤ m.start := by
  unfold EmailStream.finishCandidate
  cases hc : s.candidate with
  | none => exact ⟨h,hc,rfl,by simp⟩
  | some c =>
    have hstart : b ≤ c.start := h.candidate c.start (by rw [pendingStart,hc]; rfl)
    dsimp only
    split
    · exact ⟨⟨h.position,h.short,h.local,nofun⟩,rfl,rfl,by simp⟩
    · exact ⟨⟨h.position,h.short,h.local,nofun⟩,rfl,rfl,by simpa using hstart⟩

theorem EmailStream.From.feed (x : Byte) : (s.feed allowlist x).1.From b ∧
    (s.feed allowlist x).1.position = s.position ∧ ∀ m ∈ (s.feed allowlist x).2, b ≤ m.start := by
  unfold EmailStream.feed
  cases hc : s.candidate with
  | none => exact ⟨h,rfl,by simp⟩
  | some c =>
    dsimp only
    cases hf : c.feedDomainByte x s.position with
    | none =>
      obtain ⟨hfrom, -, hpos, hm⟩ := h.finishCandidate allowlist
      exact ⟨hfrom,hpos,hm⟩
    | some c' =>
      refine ⟨⟨h.position,h.short,h.local,fun start hstart => ?_⟩,rfl,by simp⟩
      obtain rfl : c'.start = start := some.inj hstart
      rw [feedDomainByte_start hf]
      exact h.candidate c.start (by rw [pendingStart,hc]; rfl)

theorem EmailStream.From.startCandidate : s.startCandidate.From b ∧ s.startCandidate.position = s.position := by
  unfold EmailStream.startCandidate
  split
  · exact ⟨h,rfl⟩
  dsimp only
  split
  · exact ⟨h,rfl⟩
  refine ⟨⟨h.position,h.short,h.local,fun start hstart => ?_⟩,rfl⟩
  obtain rfl : max s.localStart s.lastMatchEnd = start := some.inj hstart
  exact le_trans h.local (le_max_left _ _)

theorem EmailStream.From.pushLocal (x : Byte) :
    { s.pushLocal x with position := (s.pushLocal x).position + 1 }.From b ∧ (s.pushLocal x).position = s.position := by
  obtain ⟨hpos, hshort, hlocal, hcand⟩ := h
  unfold EmailStream.pushLocal
  split
  · by_cases hfull : s.local.length = 64
    · have hne : (s.local.drop 1).isEmpty = false := by
        rw [isEmpty_eq_false_iff,← length_pos_iff,length_drop]
        omega
      simp only [if_pos hfull,hne,Bool.false_eq_true,if_false]
      refine ⟨⟨?_,?_,?_,hcand⟩,trivial⟩
      · dsimp only
        rw [length_append,length_drop,length_singleton]
        omega
      · rw [length_append,length_drop,length_singleton]
        omega
      · dsimp only
        omega
    · simp only [if_neg hfull]
      refine ⟨⟨?_,?_,?_,hcand⟩,trivial⟩
      · dsimp only
        rw [length_append,length_singleton]
        split
        · next hnil => rw [isEmpty_iff.mp hnil,length_nil]
        · omega
      · rw [length_append,length_singleton]
        omega
      · dsimp only
        split <;> omega
  · refine ⟨⟨rfl,Nat.zero_le _,?_,hcand⟩,rfl⟩
    dsimp only
    omega

theorem EmailStream.From.writeByte (x : Byte) : (s.writeByte allowlist x).1.From b ∧
    (s.writeByte allowlist x).1.position = s.position + 1 ∧ ∀ m ∈ (s.writeByte allowlist x).2, b ≤ m.start := by
  obtain ⟨hfed, hpos, hm⟩ := h.feed allowlist x
  unfold EmailStream.writeByte
  generalize s.feed allowlist x = fed at *
  obtain ⟨fed, found⟩ := fed
  dsimp only at *
  have hstarted : (if (x == 0x40 && fed.candidate.isNone) = true then fed.startCandidate else fed).From b ∧
      (if (x == 0x40 && fed.candidate.isNone) = true then fed.startCandidate else fed).position = s.position := by
    split
    · obtain ⟨hfrom, hp⟩ := hfed.startCandidate
      exact ⟨hfrom,hp.trans hpos⟩
    · exact ⟨hfed,hpos⟩
  obtain ⟨hfrom, hp⟩ := hstarted.1.pushLocal x
  exact ⟨hfrom,by rw [hp,hstarted.2],hm⟩

end

theorem EmailStream.From.write (h : s.From b) (p : List Byte) : (write allowlist s p).1.From b ∧
    (write allowlist s p).1.position = s.position + p.length ∧
    ∀ m ∈ (write allowlist s p).2, b ≤ m.start := by
  induction p generalizing s with
  | nil => exact ⟨h,rfl,by simp [write]⟩
  | cons x p ih =>
    obtain ⟨hfrom, hpos, hm⟩ := h.writeByte allowlist x
    obtain ⟨hfrom', hpos', hm'⟩ := ih hfrom
    rw [write]
    refine ⟨hfrom',?_,fun m hmem => ?_⟩
    · dsimp only
      rw [length_cons]
      omega
    rcases mem_append.mp hmem with hmem | hmem
    · exact hm m hmem
    · exact hm' m hmem

end EmailStream

/-- The guard stopped at an occurrence, whose type has reached its threshold. -/
structure Blocked (k : GuardConfig) (g : GuardReader) (occ : Occurrence) : Prop where
  failed : ∃ cleanup, g.failed = some ⟨.blocked occ,cleanup⟩
  tripped : ∃ th, k.trip[occ.typ]? = some th ∧ th ≤ (g.counts.of occ.typ : ℤ)

theorem fail_failed (g : GuardReader) (err : ReadError) : ∃ cleanup, (g.fail err).failed = some ⟨err,cleanup⟩ :=
  ⟨_,rfl⟩

theorem fail_counts (g : GuardReader) (err : ReadError) : (g.fail err).counts = g.counts := by
  unfold fail closeSpool
  cases g.spool <;> rfl

def GuardReader.withCounts (g : GuardReader) (counts : Counts) : GuardReader := { g with counts := counts }

theorem count_cases (k : GuardConfig) (g : GuardReader) (occ : Occurrence) :
    g.count k occ = g.withCounts (g.counts.incr occ.typ) ∨ Blocked k (g.count k occ) occ := by
  unfold GuardReader.count
  cases ht : k.trip[occ.typ]? with
  | none => exact .inl rfl
  | some th =>
    dsimp only
    split
    · next hle =>
      refine .inr ⟨fail_failed _ _,th,ht,?_⟩
      rw [fail_counts]
      exact hle
    · exact .inl rfl

theorem countEmail_blocked (h : Blocked k g occ) (found : List EmailStreamMatch) : g.countEmail k found = g := by
  obtain ⟨⟨cleanup, hf⟩, -⟩ := h
  refine foldl_fixed' (fun m => ?_) found
  rw [countEmailMatch,if_pos (.inl (by rw [hf]; rfl))]

theorem countEmail_cases (hg : g.failed = none) (found : List EmailStreamMatch) :
    g.countEmail k found = g.withCounts (g.counts.addAll (emailTypes found)) ∨
      ∃ m ∈ found, Blocked k (g.countEmail k found) ⟨Email,m.start,m.stop⟩ := by
  induction found generalizing g with
  | nil => exact .inl rfl
  | cons m found ih =>
    have hstep : g.countEmail k (m :: found) = (g.countEmailMatch k m).countEmail k found := rfl
    rw [hstep]
    by_cases hallowed : m.allowed = true
    · have hskip : g.countEmailMatch k m = g := if_pos (.inr hallowed)
      have htypes : emailTypes (m :: found) = emailTypes found := by
        simp [emailTypes,hallowed]
      rw [hskip,htypes]
      exact (ih hg).imp_right fun ⟨m', hm', h⟩ => ⟨m',mem_cons_of_mem m hm',h⟩
    · have hcount : g.countEmailMatch k m = g.count k ⟨Email,m.start,m.stop⟩ :=
        if_neg (by simp [hg,hallowed])
      have htypes : emailTypes (m :: found) = Email :: emailTypes found := by
        simp [emailTypes,hallowed]
      rw [hcount,htypes]
      rcases count_cases k g ⟨Email,m.start,m.stop⟩ with h | h
      · rw [h]
        have hrest := ih (g := g.withCounts (g.counts.incr Email)) hg
        exact hrest.imp_right fun ⟨m', hm', h⟩ => ⟨m',mem_cons_of_mem m hm',h⟩
      · rw [countEmail_blocked h]
        exact .inr ⟨m,mem_cons_self,h⟩

def eventTypes (evs : List Event) : List IdentifierType :=
  (evs.filter fun ev => !ev.custom.any (·.allowed)).map (·.found.typ)

def GuardReader.occurrence (g : GuardReader) (ev : Event) : Occurrence :=
  ⟨ev.found.typ,g.origin + ev.found.start,g.origin + ev.found.stop⟩

def commits (custom : CustomStreamState) (evs : List Event) : CustomStreamState :=
  (evs.filterMap (·.custom)).foldl CustomStreamState.commit custom

/-- Only the counts and the custom state of a guard changed. -/
def GuardReader.tallied (g : GuardReader) (counts : Counts) (custom : CustomStreamState) : GuardReader :=
  { g with counts := counts,custom := custom }

theorem countEvents_blocked (h : Blocked k g occ) (evs : List Event) :
    evs.foldl (countEvent k) g = g := by
  obtain ⟨⟨cleanup, hf⟩, -⟩ := h
  refine foldl_fixed' (fun ev => ?_) evs
  rw [countEvent,if_pos (by rw [hf]; rfl)]

theorem countEvent_cases (hg : g.failed = none) (ev : Event) :
    g.countEvent k ev = g.tallied (g.counts.addAll (eventTypes [ev])) (commits g.custom [ev]) ∨
      Blocked k (g.countEvent k ev) (g.occurrence ev) := by
  unfold countEvent
  rw [if_neg (by simp [hg])]
  cases hc : ev.custom with
  | none =>
    have htypes : eventTypes [ev] = [ev.found.typ] := by simp [eventTypes,hc]
    have hcommits : commits g.custom [ev] = g.custom := by simp [commits,hc]
    rw [htypes,hcommits]
    exact count_cases k g (g.occurrence ev)
  | some m =>
    have hcommits : commits g.custom [ev] = g.custom.commit m := by simp [commits,hc]
    rw [hcommits]
    dsimp only
    split
    · next hallowed =>
      have htypes : eventTypes [ev] = [] := by simp [eventTypes,hc,hallowed]
      rw [htypes]
      exact .inl rfl
    · next hallowed =>
      have htypes : eventTypes [ev] = [ev.found.typ] := by simp [eventTypes,hc,hallowed]
      rw [htypes]
      exact count_cases k { g with custom := g.custom.commit m } (g.occurrence ev)

theorem countEvents_cases (hg : g.failed = none) (evs : List Event) :
    evs.foldl (countEvent k) g = g.tallied (g.counts.addAll (eventTypes evs)) (commits g.custom evs) ∨
      ∃ ev ∈ evs, Blocked k (evs.foldl (countEvent k) g) (g.occurrence ev) := by
  induction evs generalizing g with
  | nil => exact .inl rfl
  | cons ev evs ih =>
    rw [foldl_cons]
    rcases countEvent_cases hg ev with h | h
    · have htypes : eventTypes (ev :: evs) = eventTypes [ev] ++ eventTypes evs := by
        rw [← singleton_append,eventTypes,filter_append,map_append]
        rfl
      have hcommits : commits g.custom (ev :: evs) = commits (commits g.custom [ev]) evs := by
        rw [← singleton_append,commits,filterMap_append,foldl_append]
        rfl
      rw [h,htypes,hcommits,Counts.addAll_append]
      have hrest := ih (g := g.tallied (g.counts.addAll (eventTypes [ev])) (commits g.custom [ev])) hg
      exact hrest.imp_right fun ⟨ev', hev', h⟩ => ⟨ev',mem_cons_of_mem ev hev',h⟩
    · rw [countEvents_blocked h]
      exact .inr ⟨ev,mem_cons_self,h⟩

def GuardReader.frontier (g : GuardReader) (released : List Byte) : ℕ := released.length + g.ready.length

/-- The spill holds the bytes between the frontier and the window. -/
def Spooled (k : GuardConfig) (g : GuardReader) (released data : List Byte) : Prop :=
  match g.spool with
  | none => data = [] ∧ g.origin = g.frontier released
  | some sp => Holds k.cipher sp data ∧ sp.endPos = g.origin ∧ sp.readPos = g.frontier released

structure Flow (k : GuardConfig) (released consumed : List Byte) (g : GuardReader) : Prop where
  content : ∃ data, Spooled k g released data ∧ released ++ g.ready ++ data ++ g.hold = consumed
  «local» : g.email.localStart + g.email.local.length = g.email.position
  short : g.email.local.length ≤ 64
  position : g.email.position = consumed.length
  window : g.eof = false → windowSize ≤ g.hold.length ∨ g.origin = 0
  pending : ∀ start, g.email.pendingStart = some start → g.frontier released ≤ start
  ended : g.eof = true → g.hold = [] ∧ g.email.pendingStart = none

theorem Spooled.origin (h : Spooled k g released data) : g.origin = g.frontier released + data.length := by
  unfold Spooled at h
  split at h
  · obtain ⟨rfl, h⟩ := h
    exact h
  obtain ⟨hholds, hend, hread⟩ := h
  have := hholds.positions
  omega

/-- A guard that has not failed is in order, and one that stopped at an occurrence has not handed it out. -/
structure Guarded (k : GuardConfig) (released consumed : List Byte) (g : GuardReader) : Prop where
  flow : g.failed = none → Flow k released consumed g
  kept : released <+: consumed
  held : ∀ f occ, g.failed = some f → f.err = .blocked occ → released.length ≤ occ.start ∧
    ∃ th, k.trip[occ.typ]? = some th ∧ th ≤ (g.counts.of occ.typ : ℤ)

theorem Guarded.of_blocked (hpre : released <+: consumed) (h : Blocked k g occ) (hstart : released.length ≤ occ.start) :
    Guarded k released consumed g := by
  obtain ⟨⟨cleanup, hf⟩, htrip⟩ := h
  refine ⟨fun hn => (by rw [hf] at hn; cases hn),hpre,fun f occ' hf' herr => ?_⟩
  rw [hf,some.injEq] at hf'
  subst hf'
  obtain rfl := ReadError.blocked.inj herr
  exact ⟨hstart,htrip⟩

theorem Guarded.of_fail (hpre : released <+: consumed) (g : GuardReader) {err : ReadError}
    (herr : ∀ occ, err ≠ .blocked occ) : Guarded k released consumed (g.fail err) := by
  obtain ⟨cleanup, hf⟩ := fail_failed g err
  refine ⟨fun hn => (by rw [hf] at hn; cases hn),hpre,fun f occ hf' h => ?_⟩
  rw [hf,some.injEq] at hf'
  subst hf'
  exact absurd h (herr occ)

theorem windowCommit_le (buf : List Byte) (found : List Found) : windowCommit buf found false ≤ buf.length - windowSize := by
  have honce : ∀ d, lowerOnce found d ≤ d := by
    refine fun d => foldlRecOn (motive := (· ≤ d)) found _ le_rfl fun b hb m _ => ?_
    split <;> omega
  have hfuel : ∀ fuel d, lowerFuel found fuel d ≤ d := by
    intro fuel
    induction fuel with
    | zero => exact fun d => le_rfl
    | succ fuel ih =>
      intro d
      rw [lowerFuel]
      split
      · exact le_rfl
      · exact le_trans (ih _) (honce d)
  rw [windowCommit,if_neg Bool.false_ne_true]
  exact hfuel _ _

/-- What the guard is before bytes leave the window, apart from the state of the end. -/
structure Clearing (k : GuardConfig) (released consumed : List Byte) (g : GuardReader) : Prop where
  content : ∃ data, Spooled k g released data ∧ released ++ g.ready ++ data ++ g.hold = consumed
  «local» : g.email.localStart + g.email.local.length = g.email.position
  short : g.email.local.length ≤ 64
  position : g.email.position = consumed.length
  pending : ∀ start, g.email.pendingStart = some start → g.frontier released ≤ start

section

variable (h : Flow k released consumed g)
include h

theorem Flow.lengths : g.frontier released ≤ g.origin ∧ g.origin + g.hold.length = consumed.length := by
  obtain ⟨data, hspool, hcontent⟩ := h.content
  have hlen := congrArg length hcontent
  have horigin := hspool.origin
  simp only [length_append] at hlen
  unfold GuardReader.frontier at *
  omega

theorem Flow.released_prefix : released <+: consumed := by
  obtain ⟨data, -, hcontent⟩ := h.content
  exact ⟨g.ready ++ data ++ g.hold,by rw [← hcontent]; simp⟩

theorem Flow.from_frontier (heof : g.eof = false) : g.email.From (g.frontier released) := by
  obtain ⟨hle, hlen⟩ := h.lengths
  refine ⟨h.local,h.short,?_,h.pending⟩
  have hlocal := h.local
  have hshort := h.short
  have hpos := h.position
  have hsize : 64 ≤ windowSize := by decide
  rcases h.window heof with hw | hw <;> omega

theorem Guarded.of_flow (hg : g.failed = none) : Guarded k released consumed g :=
  ⟨fun _ => h,h.released_prefix,fun f occ hf => by rw [hg] at hf; cases hf⟩

theorem Flow.withCounts (counts : Counts) :
    Flow k released consumed (g.withCounts counts) := ⟨h.content,h.local,h.short,h.position,h.window,h.pending,h.ended⟩

theorem Flow.clearing : Clearing k released consumed g :=
  ⟨h.content,h.local,h.short,h.position,h.pending⟩

theorem Flow.clearing_finish (heof : g.eof = false) (counts : Counts) : Clearing k released consumed
      ({ g with eof := true,email := (g.email.finish k.opts.allowlist).1 }.withCounts counts) := by
  obtain ⟨hfrom, hnone, hpos, -⟩ := (h.from_frontier heof).finishCandidate k.opts.allowlist
  refine ⟨h.content,hfrom.position,hfrom.short,hpos.trans h.position,fun start hstart => ?_⟩
  dsimp only [GuardReader.withCounts,EmailStream.finish] at hstart
  rw [pendingStart,hnone] at hstart
  cases hstart

end

structure Cleared (g g' : GuardReader) (dropTo : ℕ) : Prop where
  failed : g'.failed = none
  hold : g'.hold = g.hold.drop dropTo
  origin : g'.origin = g.origin + dropTo
  email : g'.email = g.email
  eof : g'.eof = g.eof
  counts : g'.counts = g.counts
  custom : g'.custom = g.custom

/-- The bytes that leave the window go on, or the guard fails for another reason than an occurrence. -/
def ClearedOr (k : GuardConfig) (released consumed : List Byte) (g g' : GuardReader) (dropTo : ℕ) : Prop :=
  (Cleared g g' dropTo ∧ Clearing k released consumed g') ∨
    ∃ h err, g' = fail h err ∧ ∀ occ, err ≠ .blocked occ

theorem appendSpool_cleared {p : List Byte} {base : GuardReader}
    (hbase : base.failed = none ∧ base.hold = g.hold ∧ base.origin = g.origin ∧ base.email = g.email ∧ base.eof = g.eof ∧ base.counts = g.counts ∧ base.custom = g.custom)
    (hcl : Clearing k released consumed g) (hholds : Holds k.cipher sp data)
    (hread : sp.readPos = base.frontier released) (hend : sp.endPos + p.length = g.origin + dropTo)
    (hcontent : released ++ base.ready ++ (data ++ p) ++ g.hold.drop dropTo = consumed)
    (hpending : ∀ start, g.email.pendingStart = some start → base.frontier released ≤ start) :
    ClearedOr k released consumed g (base.appendSpool k sp p dropTo) dropTo := by
  obtain ⟨hf, hhold, horigin, hemail, heof, hcounts, hcustom⟩ := hbase
  unfold appendSpool
  split
  · next err w _ => exact .inr ⟨_,_,rfl,fun _ => by cases err <;> exact nofun⟩
  rename_i sp' w happ
  obtain ⟨hholds', hread', hend'⟩ := append_holds hholds ⟨base.world,w,happ⟩
  refine .inl ⟨⟨hf,?_,?_,hemail,heof,hcounts,hcustom⟩,⟨data ++ p,⟨hholds',?_,?_⟩,?_⟩,?_,?_,?_,?_⟩
  · dsimp only [dropHold]
    rw [hhold]
  · dsimp only [dropHold]
    rw [horigin]
  · rw [hend',horigin]
    exact hend
  · exact hread'.trans hread
  · rw [hhold]
    exact hcontent
  · rw [hemail]
    exact hcl.local
  · rw [hemail]
    exact hcl.short
  · rw [hemail]
    exact hcl.position
  intro start hstart
  rw [hemail] at hstart
  exact hpending start hstart

theorem Clearing.tallied (h : Clearing k released consumed g) (counts : Counts) (custom : CustomStreamState) :
    Clearing k released consumed (g.tallied counts custom) := ⟨h.content,h.local,h.short,h.position,h.pending⟩

theorem windowCommit_le_length (buf : List Byte) (found : List Found) (final : Bool) :
    windowCommit buf found final ≤ buf.length := by
  cases final with
  | true => exact le_rfl
  | false => exact le_trans (windowCommit_le buf found) (Nat.sub_le _ _)

section

variable (hg : g.failed = none) (hcl : Clearing k released consumed g)
include hg hcl

theorem ready_cleared (hspool : g.spool = none) (hle : dropTo ≤ g.hold.length)
    (hpending : ∀ start, g.email.pendingStart = some start → g.origin + dropTo ≤ start) :
    ClearedOr k released consumed g ((g.addReady (g.hold.take dropTo)).dropHold dropTo) dropTo := by
  obtain ⟨data, hs, hcontent⟩ := hcl.content
  simp only [Spooled,hspool] at hs
  obtain ⟨rfl, horigin⟩ := hs
  have hfrontier : released.length + (g.ready ++ g.hold.take dropTo).length = g.origin + dropTo := by
    rw [List.length_append,List.length_take,horigin,GuardReader.frontier]
    omega
  refine .inl ⟨⟨hg,rfl,rfl,rfl,rfl,rfl,rfl⟩,⟨[],?_,?_⟩,hcl.local,hcl.short,hcl.position,?_⟩
  · simp only [Spooled,GuardReader.addReady,hspool]
    exact ⟨trivial,hfrontier.symm⟩
  · dsimp only [GuardReader.dropHold,GuardReader.addReady]
    rw [← hcontent]
    simp only [List.append_nil,List.append_assoc,List.take_append_drop]
  intro start hstart
  dsimp only [GuardReader.dropHold,GuardReader.addReady,GuardReader.frontier]
  rw [hfrontier]
  exact hpending start hstart

theorem clear_cleared (hle : dropTo ≤ g.hold.length) : ClearedOr k released consumed g (g.clear k dropTo) dropTo := by
  obtain ⟨data, hs, hcontent⟩ := hcl.content
  have htake : (g.hold.take dropTo).length = dropTo := by rw [length_take,Nat.min_eq_left hle]
  unfold clear
  cases hspool : g.spool with
  | some sp =>
    simp only [Spooled,hspool] at hs
    obtain ⟨hholds, hend, hread⟩ := hs
    dsimp only
    rw [if_neg (by rw [hend]; simp)]
    refine appendSpool_cleared ⟨hg,rfl,rfl,rfl,rfl,rfl,rfl⟩ hcl hholds hread ?_ ?_ hcl.pending
    · rw [htake,hend]
    · rw [← hcontent]
      simp only [append_assoc,take_append_drop]
  | none =>
    have horigin : g.origin = g.frontier released := by
      simp only [Spooled,hspool] at hs
      exact hs.2
    have hdata : data = [] := by
      simp only [Spooled,hspool] at hs
      exact hs.1
    cases hpend : g.email.pendingStart with
    | none => exact ready_cleared hg hcl hspool hle fun start hstart => by rw [hpend] at hstart; cases hstart
    | some start =>
      have hstart : g.frontier released ≤ start := hcl.pending start hpend
      dsimp only
      split
      · next hlt =>
        rw [if_neg (by omega)]
        have hk : ((g.hold.take dropTo).take (start - g.origin)).length = start - g.origin := by
          rw [length_take]
          omega
        have hfrontier : released.length + (g.ready ++ (g.hold.take dropTo).take (start - g.origin)).length = start := by
          rw [length_append]
          unfold GuardReader.frontier at *
          omega
        split
        · exact .inr ⟨_,_,rfl,nofun⟩
        refine appendSpool_cleared ⟨hg,rfl,rfl,rfl,rfl,rfl,rfl⟩ hcl (show Holds _ _ [] from ⟨rfl,le_rfl,rfl,[],by simp,rfl,rfl,trivial⟩) hfrontier.symm ?_ ?_ ?_
        · rw [length_drop,newEncryptedSpill]
          dsimp only
          omega
        · dsimp only [addReady,asked,answered]
          rw [← hcontent,hdata]
          simp only [append_assoc,nil_append]
          rw [← append_assoc ((g.hold.take dropTo).take _),take_append_drop,take_append_drop]
        · intro start' hstart'
          rw [hpend] at hstart'
          dsimp only [GuardReader.frontier,GuardReader.addReady,GuardReader.asked,GuardReader.answered]
          rw [hfrontier,Option.some.inj hstart']
      · next hge =>
        refine ready_cleared hg hcl hspool hle fun start' hstart' => ?_
        rw [hpend,some.injEq] at hstart'
        omega

inductive Advanced (k : GuardConfig) (released consumed : List Byte) (g : GuardReader) (final : Bool) : GuardReader → Prop
  | nothing (h : windowCommit g.hold (scanBaseAll k.opts g.hold) final = 0) : Advanced k released consumed g final g
  | blocked (g' : GuardReader) (ev : Event) (h : Blocked k g' (g.occurrence ev)) : Advanced k released consumed g final g'
  | failed (g' : GuardReader) (err : ReadError) (h : ∀ occ, err ≠ .blocked occ) :
      Advanced k released consumed g final (g'.fail err)
  | cleared (g' : GuardReader) (evs : List Event)
      (hevs : evs = g.events k (scanBaseAll k.opts g.hold) (windowCommit g.hold (scanBaseAll k.opts g.hold) final))
      (hcl : Cleared (g.tallied (g.counts.addAll (eventTypes evs)) (commits g.custom evs)) g'
        (windowCommit g.hold (scanBaseAll k.opts g.hold) final))
      (h : Clearing k released consumed g') : Advanced k released consumed g final g'

theorem advance_advanced (final : Bool) : Advanced k released consumed g final (g.advance k final) := by
  have hle := windowCommit_le_length g.hold (scanBaseAll k.opts g.hold) final
  unfold GuardReader.advance
  dsimp only
  split
  · next h => exact .nothing h
  generalize hevs : g.events k (scanBaseAll k.opts g.hold)
    (windowCommit g.hold (scanBaseAll k.opts g.hold) final) = evs
  rcases countEvents_cases (k := k) hg evs with h | ⟨ev, -, h⟩
  · rw [h,if_neg (by simp [tallied,hg])]
    rcases clear_cleared (g := g.tallied (g.counts.addAll (eventTypes evs)) (commits g.custom evs)) hg
      (hcl.tallied _ _) hle with ⟨hc, hcl'⟩ | ⟨g', err, hfail, herr⟩
    · exact .cleared _ evs hevs.symm hc hcl'
    · rw [hfail]
      exact .failed g' err herr
  · obtain ⟨cleanup, hf⟩ := h.failed
    rw [if_pos (by rw [hf]; rfl)]
    exact .blocked _ ev h

end

theorem Clearing.occurrence_start (h : Clearing k released consumed g) (ev : Event) :
    released.length ≤ (g.occurrence ev).start := by
  obtain ⟨data, hs, -⟩ := h.content
  have := hs.origin
  unfold GuardReader.frontier at this
  dsimp only [occurrence]
  omega

section

variable (h : Flow k released consumed g) (hg : g.failed = none) (heof : g.eof = false)
include h hg heof

theorem Flow.advance : Guarded k released consumed (g.advance k false) := by
  have hadv := advance_advanced hg h.clearing false
  generalize g.advance k false = g' at hadv
  cases hadv with
  | nothing => exact .of_flow h hg
  | blocked _ ev hb => exact .of_blocked h.released_prefix hb (h.clearing.occurrence_start ev)
  | failed g' err herr => exact .of_fail h.released_prefix g' herr
  | cleared _ evs hevs hc hcl =>
    have hle := windowCommit_le g.hold (scanBaseAll k.opts g.hold)
    have heof' : g'.eof = false := hc.eof.trans heof
    refine .of_flow ⟨hcl.content,hcl.local,hcl.short,hcl.position,fun _ => ?_,hcl.pending,fun he => ?_⟩ hc.failed
    · have hhold : g'.hold.length = g.hold.length - windowCommit g.hold (scanBaseAll k.opts g.hold) false := by
        rw [hc.hold]
        exact length_drop
      have horigin : g'.origin = g.origin + windowCommit g.hold (scanBaseAll k.opts g.hold) false := hc.origin
      generalize windowCommit g.hold (scanBaseAll k.opts g.hold) false = dropTo at *
      rcases h.window heof with hw | hw
      · exact .inl (by omega)
      by_cases hzero : dropTo = 0
      · exact .inr (by omega)
      · exact .inl (by omega)
    · rw [heof'] at he
      cases he

theorem Flow.take (bytes : List Byte) : Guarded k released (consumed ++ bytes) (g.take k bytes) ∧
      ((g.take k bytes).failed = none → (g.take k bytes).eof = false) := by
  obtain ⟨hfrom, hpos, hm⟩ := (h.from_frontier heof).write k.opts.allowlist bytes
  unfold GuardReader.take
  generalize write k.opts.allowlist g.email bytes = r at *
  have hflow : Flow k released (consumed ++ bytes) { g with hold := g.hold ++ bytes,email := r.1 } := by
    obtain ⟨data, hs, hcontent⟩ := h.content
    refine ⟨⟨data,hs,?_⟩,hfrom.position,hfrom.short,?_,fun _ => ?_,hfrom.candidate,fun he => ?_⟩
    · rw [← hcontent]
      simp only [append_assoc]
    · rw [hpos,h.position,length_append]
    · rw [length_append]
      exact (h.window heof).imp_left fun hw => le_trans hw (Nat.le_add_right _ _)
    · rw [heof] at he
      cases he
  rcases countEmail_cases (k := k) (g := { g with hold := g.hold ++ bytes,email := r.1 }) hg r.2 with hc | ⟨m, hmem, hb⟩
  · rw [hc]
    exact ⟨.of_flow (hflow.withCounts _) hg,fun _ => heof⟩
  refine ⟨.of_blocked hflow.released_prefix hb ?_,fun hn => ?_⟩
  · have := hm m hmem
    unfold GuardReader.frontier at this
    dsimp only
    omega
  · obtain ⟨cleanup, hf⟩ := hb.failed
    rw [hf] at hn
    cases hn

theorem Flow.finish : Guarded k released consumed (g.finish k) := by
  obtain ⟨-, hnone, -, hm⟩ := (h.from_frontier heof).finishCandidate k.opts.allowlist
  have hcl := h.clearing_finish heof
  unfold GuardReader.finish
  dsimp only [EmailStream.finish] at hcl ⊢
  generalize g.email.finishCandidate k.opts.allowlist = r at *
  have hpending : r.1.pendingStart = none := by rw [EmailStream.pendingStart,hnone]; rfl
  rcases countEmail_cases (k := k) (g := { g with eof := true,email := r.1 }) hg r.2 with hc | ⟨m, hmem, hb⟩
  · rw [hc,if_neg (by simp [GuardReader.withCounts,hg])]
    generalize hcounts : g.counts.addAll (Scanner.emailTypes r.2) = counts
    have hclc := hcl counts
    have hadv := advance_advanced (g := { g with eof := true,email := r.1 }.withCounts counts) hg hclc true
    generalize ({ g with eof := true,email := r.1 }.withCounts counts).advance k true = g' at hadv
    cases hadv with
    | nothing hzero =>
      have hnil : g.hold = [] := List.length_eq_zero_iff.mp hzero
      refine .of_flow ⟨hclc.content,hclc.local,hclc.short,hclc.position,fun he => ?_,hclc.pending,fun _ => ?_⟩ hg
      · cases he
      · exact ⟨hnil,hpending⟩
    | blocked _ ev hb => exact .of_blocked h.released_prefix hb (hclc.occurrence_start ev)
    | failed g' err herr => exact .of_fail h.released_prefix g' herr
    | cleared _ evs hevs hc hcl' =>
      refine .of_flow ⟨hcl'.content,hcl'.local,hcl'.short,hcl'.position,fun he => ?_,hcl'.pending,fun _ => ⟨?_,?_⟩⟩ hc.failed
      · rw [hc.eof] at he
        cases he
      · rw [hc.hold]
        exact List.drop_length
      · rw [hc.email]
        exact hpending
  · obtain ⟨cleanup, hf⟩ := hb.failed
    rw [if_pos (by rw [hf]; rfl)]
    refine .of_blocked h.released_prefix hb ?_
    have := hm m hmem
    unfold GuardReader.frontier at this
    dsimp only
    omega

theorem Flow.receive (r : SourceRead) : Guarded k released (consumed ++ r.bytes) (g.receive k r) := by
  obtain ⟨htaken, heof'⟩ := h.take hg heof r.bytes
  unfold GuardReader.receive
  dsimp only
  generalize g.take k r.bytes = taken at *
  cases hf : taken.failed with
  | some f => exact htaken
  | none =>
    rw [if_neg (by simp)]
    have hflow := htaken.flow hf
    split
    · exact hflow.finish hf (heof' hf)
    · exact .of_fail hflow.released_prefix taken nofun
    split
    · exact htaken
    · exact hflow.advance hf (heof' hf)

end

variable {g' : GuardReader} {room : ℕ} {used : List SourceRead}

structure SameScan (g g' : GuardReader) : Prop where
  counts : g'.counts = g.counts
  hold : g'.hold = g.hold
  origin : g'.origin = g.origin
  custom : g'.custom = g.custom
  email : g'.email = g.email
  eof : g'.eof = g.eof

theorem settle_cases (g : GuardReader) (sp : EncryptedSpill) :
    (sp.readPos ≠ sp.endPos ∧ g.settle sp = { g with spool := some sp }) ∨
      (sp.readPos = sp.endPos ∧ ∃ w, g.settle sp = { g with spool := none,world := w }) ∨
      ∃ h, g.settle sp = fail h .inspectionFailed := by
  unfold settle
  dsimp only
  split
  · next heq =>
    split
    · exact .inr (.inl ⟨heq,_,rfl⟩)
    · exact .inr (.inr ⟨_,rfl⟩)
  · next hne => exact .inl ⟨hne,rfl⟩

/-- What a guard without ready bytes hands out of its spill. -/
structure Drained (k : GuardConfig) (released consumed : List Byte) (g : GuardReader) (room : ℕ) (out : List Byte)
    (g' : GuardReader) : Prop where
  failed : g'.failed = none
  scan : SameScan g g'
  ready : g'.ready = []
  flow : Flow k (released ++ out) consumed g'
  fits : out.length ≤ room
  done : room ≠ 0 → out = [] → g.eof = true → released = consumed

theorem Flow.spilled {sp' : EncryptedSpill} {out : List Byte} (h : Flow k released consumed g) (hready : g.ready = [])
    (hread : sp.readPos = released.length) (hend : sp.endPos = g.origin)
    (hcontent : released ++ data ++ g.hold = consumed) (hr : Reads k.cipher sp data room (g.safeUntil sp) out sp')
    {spool : Option EncryptedSpill} {w : List Bool}
    (hspool : spool = some sp' ∨ spool = none ∧ sp'.readPos = sp'.endPos) :
    Flow k (released ++ out) consumed { g with spool := spool,world := w } := by
  have hlen : (released ++ out).length = sp'.readPos := by
    rw [length_append,hr.readPos,hread]
  refine ⟨⟨data.drop out.length,?_,?_⟩,h.local,h.short,h.position,h.window,fun start hstart => ?_,h.ended⟩
  · unfold Spooled GuardReader.frontier
    rcases hspool with rfl | ⟨rfl, heq⟩
    · refine ⟨hr.holds,hr.endPos.trans hend,?_⟩
      rw [hready,hlen,length_nil,Nat.add_zero]
    have hpos := hr.holds.positions
    refine ⟨length_eq_zero_iff.mp (by omega),?_⟩
    rw [hready,hlen,heq,hr.endPos,hend,length_nil,Nat.add_zero]
  · have hsplit : out ++ data.drop out.length = data := by
      nth_rewrite 1 [hr.out_eq]
      exact take_append_drop _ _
    rw [hready,append_nil,append_assoc released,hsplit,hcontent]
  · -- the spill is read up to the start of an unfinished address
    have hold := h.pending start hstart
    unfold GuardReader.frontier at hold ⊢
    rw [hready,length_nil] at hold ⊢
    by_cases hout : out = []
    · rwa [hout,append_nil]
    have hsafe := hr.safe hout
    have huntil : g.safeUntil sp ≤ start := by
      unfold safeUntil
      rw [hstart]
      exact Nat.min_le_left _ _
    rw [hlen,hr.readPos]
    omega

theorem Flow.drain (h : Flow k released consumed g) (hg : g.failed = none) (hready : g.ready = []) (room : ℕ) :
    Drained k released consumed g room (g.drain k room).1 (g.drain k room).2 ∨
      ∃ h err, (g.drain k room).2 = fail h err ∧ ∀ occ, err ≠ .blocked occ := by
  obtain ⟨data, hs, hcontent⟩ := h.content
  rw [hready,append_nil] at hcontent
  unfold GuardReader.drain
  unfold Spooled GuardReader.frontier at hs
  rw [hready] at hs
  cases hspool : g.spool with
  | none =>
    rw [hspool] at hs
    obtain ⟨rfl, -⟩ := hs
    refine .inl ⟨hg,⟨rfl,rfl,rfl,rfl,rfl,rfl⟩,hready,by rwa [append_nil],Nat.zero_le _,fun _ _ heof => ?_⟩
    rw [(h.ended heof).1] at hcontent
    simpa using hcontent
  | some sp =>
    rw [hspool] at hs
    obtain ⟨hholds, hend, hread⟩ := hs
    dsimp only
    split
    · exact .inr ⟨g,_,rfl,nofun⟩
    cases hr : sp.readSafe k.cipher room (g.safeUntil sp) g.world with
    | mk r w =>
      cases r with
      | error err => exact .inr ⟨g.answered w,.inspectionFailed,rfl,fun occ => nofun⟩
      | ok r =>
        obtain ⟨out, sp'⟩ := r
        have hreads := readSafe_holds hholds ⟨_,_,hr⟩
        have hdone : room ≠ 0 → out = [] → g.eof = true → released = consumed := by
          intro hroom hout heof
          obtain ⟨hhold, hpending⟩ := h.ended heof
          have hsafe : g.safeUntil sp = sp.endPos := by
            unfold safeUntil
            rw [hpending]
          have hpos := hholds.positions
          have hnot : ¬ sp.readPos < sp.endPos := by
            intro hlt
            refine hreads.progress hroom ?_ hout
            rwa [hsafe,Nat.min_self]
          have hnil : data = [] := length_eq_zero_iff.mp (by omega)
          rw [hnil,hhold] at hcontent
          simpa using hcontent
        dsimp only
        rcases settle_cases (g.answered w) sp' with ⟨-, hset⟩ | ⟨heq, w', hset⟩ | ⟨g', hset⟩
        · rw [hset]
          refine .inl ⟨hg,⟨rfl,rfl,rfl,rfl,rfl,rfl⟩,hready,?_,hreads.fits,hdone⟩
          exact h.spilled hready hread hend hcontent hreads (.inl rfl)
        · rw [hset]
          refine .inl ⟨hg,⟨rfl,rfl,rfl,rfl,rfl,rfl⟩,hready,?_,hreads.fits,hdone⟩
          exact h.spilled hready hread hend hcontent hreads (.inr ⟨rfl,heq⟩)
        · rw [hset]
          exact .inr ⟨g',_,rfl,nofun⟩

def GuardReader.ReadOutcome.out : ReadOutcome → List Byte
  | .bytes out => out
  | .eof => []
  | .failed _ => []
  | .pending => []

/-- What a round of `Read` can do before it reads the source. -/
inductive Offered (k : GuardConfig) (released consumed : List Byte) (g : GuardReader) :
    Option ReadOutcome → GuardReader → Prop
  | failed (g' : GuardReader) (f : Failure) (h : Guarded k released consumed g') (hf : g'.failed = some f) :
      Offered k released consumed g (some (.failed f)) g'
  | bytes (g' : GuardReader) (out : List Byte) (h : Flow k (released ++ out) consumed g') (hf : g'.failed = none)
      (scan : SameScan g g') : Offered k released consumed g (some (.bytes out)) g'
  | ended (g' : GuardReader) (h : Flow k released consumed g') (hf : g'.failed = none) (scan : SameScan g g')
      (heof : g.eof = true) (hall : released = consumed) : Offered k released consumed g (some .eof) g'
  | again (g' : GuardReader) (h : Flow k released consumed g') (hf : g'.failed = none) (scan : SameScan g g')
      (heof : g'.eof = false) : Offered k released consumed g none g'

theorem Flow.handOut (h : Flow k released consumed g) (n : ℕ) :
    Flow k (released ++ g.ready.take n) consumed (g.dropReady n) := by
  have hfrontier : (g.dropReady n).frontier (released ++ g.ready.take n) = g.frontier released := by
    unfold GuardReader.frontier GuardReader.dropReady
    rw [length_append,Nat.add_assoc,← length_append,take_append_drop]
  obtain ⟨data, hs, hcontent⟩ := h.content
  refine ⟨⟨data,?_,?_⟩,h.local,h.short,h.position,h.window,?_,h.ended⟩
  · unfold Spooled at hs ⊢
    rw [hfrontier]
    exact hs
  · dsimp only [dropReady]
    rw [append_assoc released,take_append_drop]
    exact hcontent
  · rw [hfrontier]
    exact h.pending

theorem releaseWorking_of_nil (hhold : g.hold = []) (hready : g.ready = []) : g.releaseWorking = g := by
  unfold releaseWorking
  nth_rewrite 1 [← hhold]
  rw [← hready]

theorem Guarded.offer (h : Guarded k released consumed g) (hroom : room ≠ 0) :
    Offered k released consumed g (g.offer k room).1 (g.offer k room).2 := by
  unfold GuardReader.offer
  cases hg : g.failed with
  | some f => exact .failed g f h hg
  | none =>
    have hflow := h.flow hg
    dsimp only
    split
    · exact .bytes _ _ (hflow.handOut room) hg ⟨rfl,rfl,rfl,rfl,rfl,rfl⟩
    rename_i hready
    rw [not_not] at hready
    rcases hflow.drain hg hready room with hd | ⟨g', err, hd, herr⟩
    · generalize g.drain k room = r at hd
      obtain ⟨out, drained⟩ := r
      rw [hd.failed]
      dsimp only
      split
      · exact .bytes drained out hd.flow hd.failed hd.scan
      rename_i hout
      rw [not_not] at hout
      have hflow' := hd.flow
      rw [hout,append_nil] at hflow'
      split
      · next heof =>
        have heof' := hd.scan.eof.symm.trans heof
        rw [releaseWorking_of_nil (hflow'.ended heof).1 hd.ready]
        exact .ended drained hflow' hd.failed hd.scan heof' (hd.done hroom hout heof')
      · next heof => exact .again drained hflow' hd.failed hd.scan (Bool.not_eq_true _ ▸ heof)
    · generalize g.drain k room = r at hd
      obtain ⟨out, drained⟩ := r
      subst hd
      obtain ⟨cleanup, hf⟩ := fail_failed g' err
      rw [hf]
      exact .failed _ _ (.of_fail h.kept g' herr) hf

/-- A rule for `Read`: a property of the reads of the source so far and the guard that every round keeps holds when the
last round begins. -/
theorem read_rule {P : List SourceRead → GuardReader → Prop} (hroom : room ≠ 0)
    (hround : ∀ used g g' r, P used g → g.offer k room = (none,g') → P (used ++ [r]) (g'.receive k r))
    (source used : List SourceRead) (g : GuardReader) (h : P used g) :
    ∃ more g₀, source = more ++ (g.read k room source).2.2 ∧ P (used ++ more) g₀ ∧
      (g₀.offer k room = (some (g.read k room source).1,(g.read k room source).2.1) ∨
        (g.read k room source).1 = .pending ∧ g₀.offer k room = (none,(g.read k room source).2.1)) := by
  induction source generalizing used g with
  | nil =>
    rw [GuardReader.read,if_neg hroom]
    cases hoff : g.offer k room with
    | mk o g' =>
      cases o with
      | some o => exact ⟨[],g,rfl,by rwa [append_nil],.inl hoff⟩
      | none => exact ⟨[],g,rfl,by rwa [append_nil],.inr ⟨rfl,hoff⟩⟩
  | cons r rest ih =>
    rw [GuardReader.read,if_neg hroom]
    cases hoff : g.offer k room with
    | mk o g' =>
      cases o with
      | some o => exact ⟨[],g,rfl,by rwa [append_nil],.inl hoff⟩
      | none =>
        obtain ⟨more, g₀, hsource, hp, hlast⟩ := ih (used ++ [r]) (g'.receive k r) (hround used g g' r h hoff)
        refine ⟨r :: more,g₀,?_,?_,hlast⟩
        · rw [cons_append,← hsource]
        · rwa [append_assoc] at hp

def bodyOf (reads : List SourceRead) : List Byte := reads.flatMap (·.bytes)

theorem bodyOf_append (reads more : List SourceRead) : bodyOf (reads ++ more) = bodyOf reads ++ bodyOf more :=
  flatMap_append

theorem Guarded.round {r : SourceRead} (hroom : room ≠ 0) (h : Guarded k released (bodyOf used) g)
    (hoff : g.offer k room = (none,g')) : Guarded k released (bodyOf (used ++ [r])) (g'.receive k r) := by
  have hoffered := h.offer hroom
  rw [hoff] at hoffered
  cases hoffered with
  | again _ hflow hf _ heof =>
    have := hflow.receive hf heof r
    simpa [bodyOf] using this

theorem read_noRoom (k : GuardConfig) (g : GuardReader) (source : List SourceRead) :
    g.read k 0 source = (.bytes [],g,source) := by
  cases source <;> rw [GuardReader.read,if_pos rfl]

theorem Guarded.read (h : Guarded k released (bodyOf used) g) (room : ℕ) (source : List SourceRead) :
    ∃ more, source = more ++ (g.read k room source).2.2 ∧
      Guarded k (released ++ (g.read k room source).1.out) (bodyOf (used ++ more)) (g.read k room source).2.1 ∧
      ∀ f, (g.read k room source).1 = .failed f → (g.read k room source).2.1.failed = some f := by
  by_cases hroom : room = 0
  · rw [hroom,read_noRoom]
    refine ⟨[],rfl,?_,nofun⟩
    rwa [out,append_nil,append_nil]
  obtain ⟨more, g₀, hsource, hg₀, hlast⟩ :=
    read_rule (P := fun used g => Guarded k released (bodyOf used) g) hroom (fun _ _ _ _ h hoff => h.round hroom hoff)
      source used g h
  refine ⟨more,hsource,?_⟩
  have hoffered := hg₀.offer hroom
  rcases hlast with hlast | ⟨hpending, hlast⟩
  · rw [hlast] at hoffered
    generalize (g.read k room source).1 = outcome at *
    generalize (g.read k room source).2.1 = g' at *
    cases hoffered with
    | failed _ f hg hf =>
      refine ⟨?_,fun f' hf' => ?_⟩
      · rwa [out,append_nil]
      · cases hf'
        exact hf
    | bytes _ out hg hf => exact ⟨.of_flow hg hf,fun f hf' => by cases hf'⟩
    | ended _ hg hf =>
      refine ⟨?_,fun f hf' => (by cases hf')⟩
      rw [out,append_nil]
      exact .of_flow hg hf
  · rw [hlast] at hoffered
    rw [hpending]
    refine ⟨?_,fun f hf' => (by cases hf')⟩
    cases hoffered with
    | again _ hg hf =>
      rw [out,append_nil]
      exact .of_flow hg hf

variable {source : List SourceRead} {w : List Bool}

structure Session where
  guard : GuardReader
  source : List SourceRead

variable {reads : List (ℕ × ReadOutcome)} {s : Session}

/-- `Read` with a buffer for `l.1` bytes gave `l.2`. -/
def Session.Step (k : GuardConfig) (s : Session) (l : ℕ × ReadOutcome) (s' : Session) : Prop :=
  s.guard.read k l.1 s.source = (l.2,s'.guard,s'.source)

def releasedBy (reads : List (ℕ × ReadOutcome)) : List Byte := reads.flatMap (·.2.out)

theorem releasedBy_snoc (reads : List (ℕ × ReadOutcome)) (l : ℕ × ReadOutcome) :
    releasedBy (reads ++ [l]) = releasedBy reads ++ l.2.out := by
  unfold releasedBy
  rw [flatMap_append,flatMap_singleton]

theorem guarded_new (k : GuardConfig) (w : List Bool) : Guarded k [] [] (new w) := by
  unfold GuardReader.new
  dsimp only
  split
  · exact .of_flow ⟨⟨[],⟨rfl,rfl⟩,rfl⟩,rfl,Nat.zero_le _,rfl,fun _ => .inr rfl,nofun,nofun⟩ rfl
  refine ⟨nofun,prefix_rfl,fun f occ hf herr => ?_⟩
  cases hf
  cases herr

theorem session_rule {P : List Byte → List SourceRead → GuardReader → Prop} (h₀ : P [] [] (new w))
    (hread : ∀ released used g room source, P released used g → ∃ more, source = more ++ (g.read k room source).2.2 ∧ P (released ++ (g.read k room source).1.out) (used ++ more) (g.read k room source).2.1)
    (h : Run (Session.Step k) ⟨new w,source⟩ reads s) :
    ∃ used, source = used ++ s.source ∧ P (releasedBy reads) used s.guard := by
  generalize hs₀ : (⟨new w,source⟩ : Session) = s₀ at h
  induction h with
  | nil =>
    subst hs₀
    exact ⟨[],rfl,h₀⟩
  | @snoc t u reads l _ hstep ih =>
    obtain ⟨used, hsource, hp⟩ := ih
    obtain ⟨more, hmore, hp'⟩ := hread (releasedBy reads) used t.guard l.1 t.source hp
    rw [hstep] at hmore hp'
    rw [releasedBy_snoc]
    exact ⟨used ++ more,by rw [append_assoc,← hmore,hsource],hp'⟩

theorem guarded_run (h : Run (Session.Step k) ⟨new w,source⟩ reads s) :
    ∃ used, source = used ++ s.source ∧ Guarded k (releasedBy reads) (bodyOf used) s.guard := by
  refine session_rule (P := fun released used g => Guarded k released (bodyOf used) g) (guarded_new k w) ?_ h
  intro released used g room source hg
  obtain ⟨more, hmore, hg', -⟩ := hg.read room source
  exact ⟨more,hmore,hg'⟩

/-- Nothing of an occurrence that blocks the upload was handed out: the bytes of the reads before are a prefix of the
body that ends before the occurrence. -/
theorem held_before_release {reads : List (ℕ × ReadOutcome)} {s s' : Session} {room : ℕ} {occ : Occurrence}
    {cleanup : Bool} (h : Run (Session.Step k) ⟨new w,source⟩ reads s)
    (hread : Session.Step k s (room,.failed ⟨.blocked occ,cleanup⟩) s') :
    releasedBy reads <+: bodyOf source ∧ (releasedBy reads).length ≤ occ.start ∧
      ∃ th, k.trip[occ.typ]? = some th ∧ th ≤ (s'.guard.counts.of occ.typ : ℤ) := by
  obtain ⟨used, hsource, hg⟩ := guarded_run (h.snoc hread)
  rw [releasedBy_snoc,out,append_nil] at hg
  have hfailed : s'.guard.failed = some ⟨.blocked occ,cleanup⟩ := by
    obtain ⟨used, -, hg⟩ := guarded_run h
    obtain ⟨-, -, -, hf⟩ := hg.read room s.source
    rw [hread] at hf
    exact hf _ rfl
  refine ⟨hg.kept.trans ?_,hg.held _ occ hfailed rfl⟩
  rw [hsource,bodyOf_append]
  exact prefix_append _ _

theorem address_fits : (ascii "a@b.co").length ≤ chunkSize := by decide

/-- The address is the last thing in a body of which the first byte is handed out. -/
def addressReads : List SourceRead :=
  [⟨filler 4097,.more,by rw [filler,length_replicate]; decide⟩,⟨ascii "a@b.co",.eof,address_fits⟩]

def oneAddress : GuardConfig := { trip := Map.ofEntries [(Email,1)],cipher := clearCipher }

theorem write_filler (n p : ℕ) : write none { position := p,localStart := p } (filler n) =
    ({ position := p + n,localStart := p + n },[]) := by
  induction n generalizing p with
  | zero => rfl
  | succ n ih =>
    have hstep : writeByte { position := p,localStart := p } none 0x2C =
        ({ position := p + 1,localStart := p + 1 },[]) := rfl
    rw [filler,List.replicate_succ,EmailStream.write,hstep]
    dsimp only
    rw [← filler,ih,Nat.add_right_comm]
    rfl

theorem advance_noFound (final : Bool) (hk : k.opts = {}) (hfound : scanBaseAll {} g.hold = [])
    (hcommit : windowCommit g.hold [] final = dropTo + 1) (hg : g.failed = none) :
    g.advance k final = g.clear k (dropTo + 1) := by
  have hevents : g.events k [] (dropTo + 1) = [] := by
    unfold events CustomStreamState.stable
    rw [hk]
    rfl
  unfold GuardReader.advance
  dsimp only
  rw [hk,hfound,hcommit,if_neg (Nat.succ_ne_zero dropTo),hevents,foldl_nil,if_neg (by rw [hg]; decide)]

def afterCommas : GuardReader :=
  { hold := filler 4096,origin := 1,email := { position := 4097,localStart := 4097 },ready := [0x2C] }

theorem receive_commas (r : SourceRead) (hr : r.bytes = filler 4097) (hmore : r.status = .more) :
    (new []).receive oneAddress r = afterCommas := by
  have hwrite := write_filler 4097 0
  have htake : (new []).take oneAddress r.bytes =
      { hold := filler 4097,email := { position := 4097,localStart := 4097 } } := by
    unfold GuardReader.take
    have hemail : write oneAddress.opts.allowlist (new []).email r.bytes =
        ({ position := 4097,localStart := 4097 },[]) := by
      rw [hr]
      exact hwrite
    rw [hemail,hr]
    rfl
  have hne : r.bytes ≠ [] := by
    rw [hr]
    exact cons_ne_nil _ _
  have hcommit : windowCommit (filler 4097) [] false = 0 + 1 := by
    rw [windowCommit,filler,length_replicate]
    rfl
  unfold receive
  rw [htake,hmore]
  rw [if_neg (by decide),if_neg hne]
  have hadvance := advance_noFound (k := oneAddress) (g := ⟨∅,filler 4097,0,newCustomStreamState,
    ⟨4097,0,[],4097,none⟩,none,[],false,none,[]⟩) false rfl (scanBaseAll_filler 4097) hcommit rfl
  refine hadvance.trans ?_
  rfl

/-- The second read of an upload stops at an address, of which nothing was handed out. -/
theorem held_before_release_address : ∃ s s',
    Run (Session.Step oneAddress) ⟨new [],addressReads⟩ [(1,.bytes [0x2C])] s ∧
      Session.Step oneAddress s (1,.failed ⟨.blocked ⟨Email,4097,4103⟩,false⟩) s' ∧
      releasedBy [(1,.bytes [0x2C])] <+: bodyOf addressReads ∧
      (releasedBy [(1,.bytes [0x2C])]).length ≤ 4097 := by
  have hfirst : Session.Step oneAddress ⟨new [],addressReads⟩ (1,.bytes [0x2C])
      ⟨afterCommas.dropReady 1,addressReads.drop 1⟩ := by
    have hcommas := receive_commas ⟨filler 4097,.more,by rw [filler,length_replicate]; decide⟩ rfl rfl
    have hoffer : (new []).offer oneAddress 1 = (none,new []) := rfl
    unfold Session.Step addressReads
    rw [GuardReader.read,hoffer]
    dsimp only
    rw [hcommas]
    rfl
  have hsecond : ∃ s', Session.Step oneAddress ⟨afterCommas.dropReady 1,addressReads.drop 1⟩
      (1,.failed ⟨.blocked ⟨Email,4097,4103⟩,false⟩) s' := by
    refine ⟨⟨(afterCommas.dropReady 1).receive oneAddress ⟨ascii "a@b.co",.eof,address_fits⟩,[]⟩,?_⟩
    rfl
  obtain ⟨s', hsecond⟩ := hsecond
  have hrun := (Run.nil (⟨new [],addressReads⟩ : Session)).snoc hfirst
  obtain ⟨hstart, hlen, -⟩ := held_before_release hrun hsecond
  exact ⟨_,s',hrun,hsecond,hstart,hlen⟩

end DsseCore.Dlp

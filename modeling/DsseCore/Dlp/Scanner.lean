import DsseCore.Dlp.Stream
import DsseCore.Go.Value

/-!
# Streaming scan

The scanner keeps a window at the end of what it was given.  A match is counted when it lies before the window, and the
bytes before the window are dropped then.
-/

namespace DsseCore.Dlp

open Go Lib
open Std (ExtTreeMap)

abbrev Counts := Map ℕ

def Counts.of (counts : Counts) (t : IdentifierType) : ℕ := counts[t]?.getD 0

def Counts.incr (counts : Counts) (t : IdentifierType) : Counts := counts.insert t (counts.of t + 1)

def Counts.addAll (counts : Counts) (types : List IdentifierType) : Counts := types.foldl Counts.incr counts

theorem Counts.of_incr (counts : Counts) (t u : IdentifierType) :
    (counts.incr t).of u = counts.of u + if t = u then 1 else 0 := by
  unfold Counts.incr Counts.of
  rw [Map.getElem?_insert_eq]
  split
  · next h => simp [h]
  · simp

@[simp] theorem Counts.of_empty (t : IdentifierType) : Counts.of (∅ : Map ℕ) t = 0 := by
  simp [Counts.of]

theorem Counts.of_addAll (counts : Counts) (types : List IdentifierType) (t : IdentifierType) :
    (counts.addAll types).of t = counts.of t + types.count t := by
  induction types generalizing counts with
  | nil => simp [Counts.addAll]
  | cons u types ih =>
    have hstep : counts.addAll (u :: types) = (counts.incr u).addAll types := rfl
    rw [hstep,ih,Counts.of_incr]
    by_cases h : u = t
    · simp [h]
      omega
    · simp [h]

theorem Counts.incr_comm (counts : Counts) (t u : IdentifierType) :
    (counts.incr t).incr u = (counts.incr u).incr t := by
  by_cases h : t = u
  · rw [h]
  refine ExtTreeMap.ext_getElem? fun k => ?_
  simp only [Counts.incr,Counts.of,Map.getElem?_insert_eq]
  rw [if_neg h,if_neg (Ne.symm h)]
  by_cases hu : u = k
  · have ht : t ≠ k := fun e => h (e.trans hu.symm)
    simp [ht]
  · simp [hu]

theorem Counts.addAll_perm (counts : Counts) {types types' : List IdentifierType} (h : types.Perm types') :
    counts.addAll types = counts.addAll types' :=
  h.foldl_eq' (fun t _ u _ c => Counts.incr_comm c t u) counts

theorem Counts.addAll_append (counts : Counts) (types types' : List IdentifierType) :
    counts.addAll (types ++ types') = (counts.addAll types).addAll types' := List.foldl_append

structure Finding where
  type : IdentifierType
  count : ℕ
  deriving DecidableEq

def findings (counts : Counts) : List Finding := counts.toList.map fun e => ⟨e.1,e.2⟩

structure Scanner where
  counts : Counts := ∅
  buf : List Byte := []
  origin : ℕ := 0
  custom : CustomStreamState
  email : EmailStream := {}
  done : Bool := false

namespace Scanner

def new : Scanner := { custom := newCustomStreamState }

variable (opts : Options) (s : Scanner)

def emailTypes (found : List EmailStreamMatch) : List IdentifierType := (found.filter (!·.allowed)).map fun _ => Email

def customTypes (found : List StableCustomMatch) : List IdentifierType :=
  (found.filter (!·.allowed)).map (·.found.typ)

def typesBefore (found : List Found) (dropTo : ℕ) : List IdentifierType :=
  (found.filter (·.stop ≤ dropTo)).map (·.typ)

def cut (dropTo : ℕ) : Scanner :=
  if 0 < dropTo then { s with buf := s.buf.drop dropTo,origin := s.origin + dropTo } else s

def counted (found : List Found) (dropTo : ℕ) : Scanner :=
  let stable := s.custom.stable opts s.buf s.origin dropTo
  { s with
    counts := (s.counts.addAll (typesBefore found dropTo)).addAll (customTypes stable)
    custom := stable.foldl CustomStreamState.commit s.custom }

def advance (final : Bool) : Scanner :=
  let found := scanBaseAll opts s.buf
  let dropTo := windowCommit s.buf found final
  if final then s.counted opts found dropTo else (s.counted opts found dropTo).cut dropTo

def emailed (r : EmailStream × List EmailStreamMatch) : Scanner :=
  { s with email := r.1,counts := s.counts.addAll (emailTypes r.2) }

def feed (piece : List Byte) : Scanner :=
  ({ s with buf := s.buf ++ piece }.emailed (s.email.write opts.allowlist piece)).advance opts false

def write (p : List Byte) : Scanner := (chunks chunkSize p).foldl (feed opts) s

def finish : Scanner :=
  if s.done then s else { (s.emailed (s.email.finish opts.allowlist)).advance opts true with done := true }

def written (writes : List (List Byte)) : Scanner := writes.foldl (write opts) new

end Scanner

end DsseCore.Dlp

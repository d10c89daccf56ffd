import DsseCore.Go.Unicode

/-!
# Strings

Go's `strings` and `strconv` functions over `String`.  A Go string is a byte sequence; the values the
repository compares are UTF-8 text, so a string is modelled by its code points.  Everything is defined
through the list of characters, which keeps the functions computable inside the kernel.
-/

namespace DsseCore.Go

open List

variable {p : Char → Bool} {l : List Char} {c sep : Char} {s : String}

/-- The list form of `strings.TrimFunc`. -/
def trimList (p : Char → Bool) (l : List Char) : List Char :=
  (l.dropWhile p).rdropWhile p

/-- `strings.TrimSpace`. -/
def trimSpace (s : String) : String := String.ofList (trimList isSpace s.toList)

/-- `strings.Trim` with a set of characters. -/
def trimCutset (s : String) (cutset : List Char) : String :=
  String.ofList (trimList (fun c => cutset.contains c) s.toList)

/-- `strings.ToLower`. -/
def toLower (s : String) : String := String.ofList (s.toList.map runeToLower)

/-- `strings.EqualFold`. -/
def equalFold (s t : String) : Bool := s.toList.map runeFold == t.toList.map runeFold

/-- `strings.HasPrefix`. -/
def hasPrefix (s p : String) : Bool := p.toList.isPrefixOf s.toList

/-- `strings.HasSuffix`. -/
def hasSuffix (s p : String) : Bool := p.toList.isSuffixOf s.toList

/-- `strings.TrimPrefix`. -/
def trimPrefix (s p : String) : String :=
  if hasPrefix s p then String.ofList (s.toList.drop p.toList.length) else s

/-- `strings.TrimSuffix`. -/
def trimSuffix (s p : String) : String :=
  if hasSuffix s p then String.ofList (s.toList.take (s.toList.length - p.toList.length)) else s

/-- The list form of `strings.Cut`: the text around the first occurrence of `sep`. -/
def cutList (sep : List Char) : List Char → Option (List Char × List Char)
  | [] => if sep.isEmpty then some ([],[]) else none
  | c :: l =>
    if sep.isPrefixOf (c :: l) then some ([],(c :: l).drop sep.length)
    else (cutList sep l).map fun r => (c :: r.1,r.2)

/-- `strings.Cut`, which also stands for `strings.SplitN` with a limit of two. -/
def cut (s sep : String) : Option (String × String) :=
  (cutList sep.toList s.toList).map fun r => (String.ofList r.1,String.ofList r.2)

/-- `strings.Contains`. -/
def contains (s sub : String) : Bool := (cutList sub.toList s.toList).isSome

/-- `strings.ReplaceAll` for one character by another. -/
def replaceChar (s : String) (old new : Char) : String :=
  String.ofList (s.toList.map fun c => if c = old then new else c)

def splitList (sep : Char) : List Char → List (List Char)
  | [] => [[]]
  | c :: l =>
    if c = sep then [] :: splitList sep l
    else match splitList sep l with
      | [] => [[c]]
      | w :: ws => (c :: w) :: ws

/-- `strings.Split` on a one-character separator. -/
def split (s : String) (sep : Char) : List String := (splitList sep s.toList).map String.ofList

/-- `strings.Join`. -/
def join (sep : String) : List String → String
  | [] => ""
  | [s] => s
  | s :: l => s ++ sep ++ join sep l

def digitValue? (c : Char) : Option ℕ :=
  if 48 ≤ c.toNat && c.toNat ≤ 57 then some (c.toNat - 48) else none

def isDigit (c : Char) : Bool := (digitValue? c).isSome

def decimal? : List Char → Option ℕ
  | [] => none
  | l => l.foldl (fun acc c => acc.bind fun n => (digitValue? c).map (10 * n + ·)) (some 0)

/-- `strconv.Atoi` on a 64-bit platform. -/
def atoi (s : String) : Option Int :=
  let parsed : Option Int := match s.toList with
    | '+' :: l => (decimal? l).map Int.ofNat
    | '-' :: l => (decimal? l).map fun n => -Int.ofNat n
    | l => (decimal? l).map Int.ofNat
  parsed.filter fun n => -2 ^ 63 ≤ n && n < 2 ^ 63

/-- `strconv.Itoa`. -/
def itoa (n : Int) : String := toString n

/-- `strconv.FormatBool`. -/
def formatBool : Bool → String
  | true => "true"
  | false => "false"

/-- `net.SplitHostPort`, of which the callers use the host only. -/
def splitHostPortHost (hostport : String) : Option String :=
  let l := hostport.toList
  let after := (l.reverse.takeWhile (· ≠ ':')).reverse
  let i := l.length - after.length - 1
  if ¬ l.contains ':' then none
  else match l with
    | '[' :: rest =>
      let host := rest.takeWhile (· ≠ ']')
      let end_ := host.length + 1
      if ¬ rest.contains ']' then none
      else if end_ + 1 ≠ i then none
      else if rest.contains '[' || (l.drop (end_ + 1)).contains ']' then none
      else some (String.ofList host)
    | _ =>
      let host := l.take i
      if host.contains ':' || l.contains '[' || l.contains ']' then none
      else some (String.ofList host)

theorem trimList_trimList (p : Char → Bool) (l : List Char) :
    trimList p (trimList p l) = trimList p l := by
  have hd : (trimList p l).dropWhile p = trimList p l := by
    unfold trimList
    cases h : l.dropWhile p with
    | nil => simp
    | cons c m =>
      have hc : p c = false := by
        have hne : l.dropWhile p ≠ [] := by simp [h]
        simpa [h] using head_dropWhile_not p hne
      have hne : (c :: m).rdropWhile p ≠ [] := by
        intro hnil
        rw [rdropWhile_eq_nil_iff] at hnil
        have := hnil c (by simp)
        simp [hc] at this
      obtain ⟨d, k, hk⟩ := exists_cons_of_ne_nil hne
      have hpre : (c :: m).rdropWhile p <+: c :: m := rdropWhile_prefix p _
      rw [hk] at hpre ⊢
      have hdc : d = c := by simpa using (cons_prefix_cons.mp hpre).1
      subst d
      simp [hc]
  rw [trimList,hd]
  exact rdropWhile_idempotent p (l.dropWhile p)

theorem trimList_eq_self_iff : trimList p l = l ↔ (∀ c ∈ l.head?, p c = false) ∧ ∀ c ∈ l.getLast?, p c = false := by
  cases l with
  | nil => simp [trimList]
  | cons a l =>
    have hlast : (∀ c ∈ (a :: l).getLast?, p c = false) ↔ (a :: l).rdropWhile p = a :: l := by
      rw [getLast?_eq_some_getLast (cons_ne_nil a l)]
      simp
    rw [hlast]
    cases ha : p a with
    | false => simp [trimList,ha]
    | true =>
      have hshort : (trimList p (a :: l)).length ≤ l.length := by
        have hd : (a :: l).dropWhile p = l.dropWhile p := by simp [ha]
        rw [trimList,hd]
        exact ( rdropWhile_prefix p _).length_le.trans (dropWhile_suffix p).length_le
      constructor
      · intro h
        rw [h,length_cons] at hshort
        omega
      · intro h
        simp [ha] at h

theorem trimList_append_singleton (h : trimList p l = l) (hc : p c = false) : trimList p (l ++ [c]) = l ++ [c] := by
  rw [trimList_eq_self_iff] at h ⊢
  refine ⟨?_,by simp [hc]⟩
  cases l with
  | nil => simp [hc]
  | cons a l => exact h.1

theorem trimList_cons (h : trimList p l = l) (hc : p c = false) : trimList p (c :: l) = c :: l := by
  rw [trimList_eq_self_iff] at h ⊢
  refine ⟨by simp [hc],?_⟩
  cases l with
  | nil => simp [hc]
  | cons a l => simpa using h.2

@[simp] theorem trimSpace_trimSpace (s : String) : trimSpace (trimSpace s) = trimSpace s := by
  simp [trimSpace,trimList_trimList]

theorem trimSpace_eq_self_iff : trimSpace s = s ↔ trimList isSpace s.toList = s.toList := by
  rw [trimSpace,← String.toList_inj,String.toList_ofList]

@[simp] theorem trimSpace_empty : trimSpace "" = "" := rfl

theorem trimSpace_ne_empty (hc : c ∈ s.toList) (hs : isSpace c = false) : trimSpace s ≠ "" := by
  intro he
  have hnil : trimList isSpace s.toList = [] := by
    have := congrArg String.toList he
    rwa [trimSpace,String.toList_ofList] at this
  rw [trimList,rdropWhile_eq_nil_iff] at hnil
  cases hd : s.toList.dropWhile isSpace with
  | nil =>
    have := dropWhile_eq_nil_iff.mp hd c hc
    exact Bool.false_ne_true (hs.symm.trans this)
  | cons a l =>
    have ha : a ∈ s.toList.dropWhile isSpace := by
      rw [hd]
      exact mem_cons_self
    have hfalse : isSpace a = false := by
      have := head?_dropWhile_not isSpace s.toList
      rw [hd] at this
      simpa using this
    exact Bool.false_ne_true (hfalse.symm.trans (hnil a ha))

theorem splitList_ne_nil (sep : Char) (l : List Char) : splitList sep l ≠ [] := by
  induction l with
  | nil => simp [splitList]
  | cons c l ih =>
    unfold splitList
    split
    · simp
    · split <;> simp

theorem splitList_cons_of_ne (h : c ≠ sep) {w : List Char} {ws : List (List Char)} (hl : splitList sep l = w :: ws) :
    splitList sep (c :: l) = (c :: w) :: ws := by
  rw [splitList,if_neg h,hl]

theorem splitList_append (sep : Char) (l m : List Char) :
    splitList sep (l ++ sep :: m) = splitList sep l ++ splitList sep m := by
  induction l with
  | nil => simp [splitList]
  | cons c l ih =>
    by_cases hc : c = sep
    · simp [splitList,hc,ih]
    obtain ⟨w, ws, hw⟩ := exists_cons_of_ne_nil (splitList_ne_nil sep l)
    rw [cons_append,splitList_cons_of_ne hc hw,splitList_cons_of_ne hc (w := w) (by rw [ih,hw]; rfl)]
    rfl

theorem splitList_of_notMem (h : ∀ c ∈ l, c ≠ sep) : splitList sep l = [l] := by
  induction l with
  | nil => rfl
  | cons c l ih =>
    exact splitList_cons_of_ne (h c mem_cons_self) (ih fun d hd => h d (mem_cons_of_mem c hd))

theorem intercalate_splitList (sep : Char) (l : List Char) : [sep].intercalate (splitList sep l) = l := by
  induction l with
  | nil => rfl
  | cons c l ih =>
    obtain ⟨w, ws, hw⟩ := exists_cons_of_ne_nil (splitList_ne_nil sep l)
    rw [hw] at ih
    by_cases hc : c = sep
    · rw [splitList,if_pos hc,hw,intercalate_cons_cons,ih,hc]
      rfl
    · rw [splitList_cons_of_ne hc hw]
      cases ws <;> simpa [intercalate] using ih

/-- A text is cut at its last element of a kind in one way only. -/
theorem append_cons_inj {α : Type} {P : α → Prop} {u u' ws ws' : List α} {w w' : α} (hw : P w) (hw' : P w')
    (hws : ∀ v ∈ ws, ¬ P v) (hws' : ∀ v ∈ ws', ¬ P v) (h : u ++ w :: ws = u' ++ w' :: ws') : u = u' ∧ ws = ws' := by
  rcases append_eq_append_iff.mp h with ⟨vs, hu, hv⟩ | ⟨vs, hu, hv⟩
  · cases vs with
    | nil => exact ⟨by simpa using hu.symm,(cons.inj hv).2⟩
    | cons v vs => exact absurd hw' (hws w' (by simp [(cons.inj hv).2]))
  cases vs with
  | nil => exact ⟨by simpa using hu,(cons.inj hv).2.symm⟩
  | cons v vs => exact absurd hw (hws' w (by simp [(cons.inj hv).2]))

theorem append_sep_inj (hs : s.toList = [sep]) {a b c d : String} (hc : sep ∉ c.toList) (hd : sep ∉ d.toList)
    (h : a ++ s ++ c = b ++ s ++ d) : c = d := by
  have hlist := congrArg String.toList h
  simp only [String.toList_append,hs,append_assoc] at hlist
  refine String.toList_inj.mp (append_cons_inj (P := (· = sep)) rfl rfl ?_ ?_ hlist).2
  · exact fun v hv heq => hc (heq ▸ hv)
  · exact fun v hv heq => hd (heq ▸ hv)

theorem splitList_injective (sep : Char) : Function.Injective (splitList sep) :=
  Function.LeftInverse.injective (intercalate_splitList sep)

end DsseCore.Go

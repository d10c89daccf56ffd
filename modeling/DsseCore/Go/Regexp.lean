import DsseCore.Go.Bytes
import DsseCore.Lib.Sweep

/-!
# Regular expressions

Go's `regexp` without position assertions.  An expression gives, at the start of a byte string, the lengths of its
matches in the order of preference of leftmost-first matching; a search takes the first of them at the leftmost
position that has one.

The shape of an expression says which kinds of bytes may begin a match, end it, and stand side by side in it.  It is
what decides whether a match can lie across a seam of the input.
-/

namespace DsseCore.Go

open Lib List

inductive CharSet where
  | literal (r : ℕ) (foldCase : Bool)
  | ranges (l : List (ℕ × ℕ))
  | notNewline
  | any
  deriving DecidableEq

def CharSet.has : CharSet → ℕ → Bool
  | .literal r false, c => c == r
  | .literal r true, c => runeFold (Char.ofNat c) == runeFold (Char.ofNat r)
  | .ranges l, c => l.any fun p => p.1 ≤ c && c ≤ p.2
  | .notNewline, c => c != 10
  | .any, _ => true

inductive Regexp where
  | noMatch
  | emptyMatch
  | char (c : CharSet)
  | concat (a b : Regexp)
  | alternate (a b : Regexp)
  | quest (a : Regexp) (nonGreedy : Bool)
  | star (a : Regexp) (nonGreedy : Bool)
  /-- From `min` to `max` times. -/
  | repeated (a : Regexp) (min max : ℕ) (nonGreedy : Bool)
  deriving DecidableEq

/-- The lengths of matches at the start of a byte string, the preferred one first. -/
abbrev Ends := List Byte → List ℕ

namespace Ends

def andThen (e f : Ends) : Ends := fun s => (e s).flatMap fun n => (f (s.drop n)).map (n + ·)

def optional (nonGreedy : Bool) (e : Ends) : Ends := fun s => if nonGreedy then 0 :: e s else e s ++ [0]

def upTo (nonGreedy : Bool) (e : Ends) : ℕ → Ends
  | 0 => fun _ => [0]
  | k + 1 => optional nonGreedy (andThen e (upTo nonGreedy e k))

/-- `k` times `e`, then `f`. -/
def times (e f : Ends) : ℕ → Ends
  | 0 => f
  | k + 1 => andThen e (times e f k)

end Ends

namespace Regexp

def ends : Regexp → Ends
  | .noMatch => fun _ => []
  | .emptyMatch => fun _ => [0]
  | .char c => fun s => if 0 < (decodeRune s).2 ∧ c.has (decodeRune s).1 then [(decodeRune s).2] else []
  | .concat a b => a.ends.andThen b.ends
  | .alternate a b => fun s => a.ends s ++ b.ends s
  | .quest a nonGreedy => a.ends.optional nonGreedy
  -- an iteration that consumes nothing is not repeated
  | .star a nonGreedy => fun s => Ends.upTo nonGreedy (fun s => (a.ends s).filter (0 < ·)) s.length s
  | .repeated a min max nonGreedy => Ends.times a.ends (Ends.upTo nonGreedy a.ends (max - min)) min

def text : List Byte → Regexp
  | [] => .emptyMatch
  | b :: l => .concat (.char (.literal b.toNat false)) (text l)

/-- One position of a search: a match is passed over as a whole, else the search moves to the next character.
The expressions that are searched for do not match the empty string. -/
def findStop {τ : Type} (t : τ) (re : Regexp) : Stop Byte τ := fun _ s =>
  match (re.ends s).head? with
  | some (n + 1) => ([(t,n + 1)],n + 1)
  | _ => ([],(decodeRune s).2)

/-- `FindAllIndex(data, -1)`, each match with a kind. -/
def findAll {τ : Type} (t : τ) (re : Regexp) (data : List Byte) : List (Match τ) := sweep (re.findStop t) none 0 0 data

end Regexp

/-- Matches do not look past their end: what follows a byte string adds longer matches only. -/
def Ends.Local (e : Ends) : Prop := ∀ a r, (e (a ++ r)).filter (· ≤ a.length) = e a

namespace Ends.Local

variable {e f : Ends}

theorem andThen (he : e.Local) (hf : f.Local) : (e.andThen f).Local := by
  intro a r
  have hstep : ∀ n ∈ e (a ++ r), ((f ((a ++ r).drop n)).map (n + ·)).filter (· ≤ a.length) =
      if n ≤ a.length then (f (a.drop n)).map (n + ·) else [] := by
    intro n _
    rw [filter_map]
    split
    · next hn =>
      rw [drop_append_of_le_length hn,← hf (a.drop n) r]
      congr 1
      refine filter_congr fun m _ => ?_
      simp only [Function.comp_apply,length_drop,decide_eq_decide]
      omega
    · next hn =>
      rw [map_eq_nil_iff,filter_eq_nil_iff]
      intro m _
      simp only [Function.comp_apply,decide_eq_true_eq]
      omega
  have hfilter : ∀ l : List ℕ, (l.flatMap fun n => if n ≤ a.length then (f (a.drop n)).map (n + ·) else []) =
      (l.filter (· ≤ a.length)).flatMap fun n => (f (a.drop n)).map (n + ·) := by
    intro l
    induction l with
    | nil => rfl
    | cons n l ih =>
      rw [flatMap_cons,ih]
      by_cases hn : n ≤ a.length <;> simp [hn]
  rw [Ends.andThen,Ends.andThen,filter_flatMap,flatMap_congr hstep,hfilter,he a r]

theorem optional (he : e.Local) (nonGreedy : Bool) : (e.optional nonGreedy).Local := by
  intro a r
  cases nonGreedy <;> simp [Ends.optional,filter_append,he a r]

theorem upTo (he : e.Local) (nonGreedy : Bool) (k : ℕ) : (Ends.upTo nonGreedy e k).Local := by
  induction k with
  | zero =>
    intro a r
    simp [Ends.upTo]
  | succ k ih => exact (he.andThen ih).optional nonGreedy

theorem times (he : e.Local) (hf : f.Local) (k : ℕ) : (Ends.times e f k).Local := by
  induction k with
  | zero => exact hf
  | succ k ih => exact he.andThen ih

end Ends.Local

def CharSet.ascii : CharSet → Bool
  | .literal r foldCase => r < 0x80 && !foldCase
  | .ranges l => l.all fun p => p.2 < 0x80
  | .notNewline => false
  | .any => false

variable {c : CharSet}

theorem CharSet.lt_of_has (hc : c.ascii = true) {r : ℕ} (hr : c.has r = true) : r < 0x80 := by
  cases c with
  | literal r' foldCase =>
    cases foldCase with
    | false =>
      simp only [CharSet.ascii,CharSet.has,Bool.not_false,Bool.and_true,decide_eq_true_eq,beq_iff_eq] at hc hr
      omega
    | true => simp [CharSet.ascii] at hc
  | ranges l =>
    simp only [CharSet.ascii,CharSet.has,all_eq_true,any_eq_true,Bool.and_eq_true,decide_eq_true_eq] at hc hr
    obtain ⟨p, hp, -, hle⟩ := hr
    exact lt_of_le_of_lt hle (hc p hp)
  | notNewline => simp [CharSet.ascii] at hc
  | any => simp [CharSet.ascii] at hc

theorem Regexp.ends_char (hc : c.ascii = true) (s : List Byte) :
    (Regexp.char c).ends s = if s.head?.any (fun b => c.has b.toNat) then [1] else [] := by
  simp only [Regexp.ends]
  cases s with
  | nil => simp [decodeRune]
  | cons b s =>
    by_cases hb : b.toNat < 0x80
    · by_cases h : c.has b.toNat = true <;> simp [decodeRune,hb,h]
    -- neither the byte nor the code point that it begins is in the set
    have hge : 0x80 ≤ b.toNat := not_lt.mp hb
    have hcode : c.has (decodeRune (b :: s)).1 = false := by
      by_contra h
      exact absurd (c.lt_of_has hc (by simpa using h)) (not_lt.mpr (decodeRune_ge hge s))
    have hbyte : c.has b.toNat = false := by
      by_contra h
      exact hb (c.lt_of_has hc (by simpa using h))
    simp [hcode,hbyte]

theorem Regexp.local_char (hc : c.ascii = true) : (Regexp.char c).ends.Local := by
  intro a r
  rw [Regexp.ends_char hc,Regexp.ends_char hc]
  cases a with
  | nil =>
    split <;> rfl
  | cons b a =>
    rw [cons_append,head?_cons,head?_cons]
    split <;> simp

variable {b : Byte}

section Shapes

variable {κ : Type} (kind : Byte → κ) (joins : κ → κ → Bool)

/-- What the matches of an expression look like: whether one may be empty, the kinds of bytes that one begins and ends
with.  `ok` says that only ASCII bytes occur, and side by side only kinds that join. -/
structure Shape (κ : Type) where
  nullable : Bool
  first : List κ
  last : List κ
  ok : Bool

def joinsAll (l r : List κ) : Bool := l.all fun x => r.all fun y => joins x y

def CharSet.kinds (c : CharSet) : List κ := ((range 0x80).filter c.has).map fun n => kind n.toUInt8

namespace Shape

def andThen (a b : Shape κ) : Shape κ where
  nullable := a.nullable && b.nullable
  first := a.first ++ if a.nullable then b.first else []
  last := b.last ++ if b.nullable then a.last else []
  ok := a.ok && b.ok && joinsAll joins a.last b.first

def alternate (a b : Shape κ) : Shape κ := ⟨a.nullable || b.nullable,a.first ++ b.first,a.last ++ b.last,a.ok && b.ok⟩

def repeated (a : Shape κ) (nullable : Bool) : Shape κ where
  nullable := a.nullable || nullable
  first := a.first
  last := a.last
  ok := a.ok && joinsAll joins a.last a.first

end Shape

def Regexp.shape : Regexp → Shape κ
  | .noMatch => ⟨false,[],[],true⟩
  | .emptyMatch => ⟨true,[],[],true⟩
  | .char c => ⟨false,c.kinds kind,c.kinds kind,c.ascii⟩
  | .concat a b => (a.shape).andThen joins b.shape
  | .alternate a b => a.shape.alternate b.shape
  | .quest a _ => { a.shape with nullable := true }
  -- an unbounded repetition is not looked into
  | .star a _ => ⟨true,a.shape.first,a.shape.last,false⟩
  | .repeated a min _ _ => a.shape.repeated joins (min == 0)

structure Shape.Word (sh : Shape κ) (w : List Byte) : Prop where
  ascii : ∀ b ∈ w, b.toNat < 0x80
  empty : w = [] → sh.nullable = true
  first : ∀ b ∈ w.head?, kind b ∈ sh.first
  last : ∀ b ∈ w.getLast?, kind b ∈ sh.last
  chain : w.IsChain fun x y => joins (kind x) (kind y) = true

def Shape.Fits (sh : Shape κ) (e : Ends) : Prop := ∀ s, ∀ n ∈ e s, n ≤ s.length ∧ sh.Word kind joins (s.take n)

variable {kind joins} {sh sh' : Shape κ} {e f : Ends} {w : List Byte}

theorem Shape.word_nil (h : sh.nullable = true) : sh.Word kind joins [] :=
  ⟨by simp,fun _ => h,by simp,by simp,.nil⟩

theorem Shape.Word.append {sh'' : Shape κ} {w' : List Byte} (hw : sh.Word kind joins w) (hw' : sh'.Word kind joins w')
    (hjoin : joinsAll joins sh.last sh'.first = true)
    (hempty : sh.nullable = true → sh'.nullable = true → sh''.nullable = true)
    (hfirst : ∀ k, k ∈ sh.first ∨ sh.nullable = true ∧ k ∈ sh'.first → k ∈ sh''.first)
    (hlast : ∀ k, k ∈ sh'.last ∨ sh'.nullable = true ∧ k ∈ sh.last → k ∈ sh''.last) :
    sh''.Word kind joins (w ++ w') := by
  refine ⟨?_,?_,?_,?_,?_⟩
  · intro b hb
    rcases mem_append.mp hb with hb | hb
    · exact hw.ascii b hb
    · exact hw'.ascii b hb
  · intro hnil
    obtain ⟨h, h'⟩ := append_eq_nil_iff.mp hnil
    exact hempty (hw.empty h) (hw'.empty h')
  · intro b hb
    cases w with
    | nil => exact hfirst _ (.inr ⟨hw.empty rfl,hw'.first b hb⟩)
    | cons x w => exact hfirst _ (.inl (hw.first b hb))
  · intro b hb
    rw [getLast?_append] at hb
    cases h : w'.getLast? with
    | none =>
      rw [h] at hb
      exact hlast _ (.inr ⟨hw'.empty (getLast?_eq_none_iff.mp h),hw.last b hb⟩)
    | some x =>
      exact hlast _ (.inl (hw'.last b (h ▸ hb)))
  · refine hw.chain.append hw'.chain fun x hx y hy => ?_
    exact all_eq_true.mp (all_eq_true.mp hjoin _ (hw.last x hx)) _ (hw'.first y hy)

theorem Shape.Fits.andThen_of {sh'' : Shape κ} (he : sh.Fits kind joins e) (hf : sh'.Fits kind joins f)
    (hword : ∀ w w', sh.Word kind joins w → sh'.Word kind joins w' → sh''.Word kind joins (w ++ w')) :
    sh''.Fits kind joins (e.andThen f) := by
  intro s n hn
  obtain ⟨n₁, hn₁, hrest⟩ := mem_flatMap.mp hn
  obtain ⟨n₂, hn₂, rfl⟩ := mem_map.mp hrest
  obtain ⟨hle₁, hw₁⟩ := he s n₁ hn₁
  obtain ⟨hle₂, hw₂⟩ := hf (s.drop n₁) n₂ hn₂
  refine ⟨?_,?_⟩
  · rw [length_drop] at hle₂
    omega
  · rw [take_add]
    exact hword _ _ hw₁ hw₂

theorem Shape.Fits.andThen (he : sh.Fits kind joins e) (hf : sh'.Fits kind joins f)
    (hjoin : joinsAll joins sh.last sh'.first = true) : (sh.andThen joins sh').Fits kind joins (e.andThen f) := by
  refine he.andThen_of hf fun w w' hw hw' => hw.append hw' hjoin ?_ ?_ ?_
  · intro h h'
    simp [Shape.andThen,h,h']
  · rintro k (h | ⟨hn, h⟩)
    · exact mem_append_left _ h
    · simp [Shape.andThen,hn,h]
  rintro k (h | ⟨hn, h⟩)
  · exact mem_append_left _ h
  · simp [Shape.andThen,hn,h]

theorem Shape.Word.widen (hw : sh.Word kind joins w) (hn : sh.nullable = true → sh'.nullable = true)
    (hfirst : ∀ k ∈ sh.first, k ∈ sh'.first) (hlast : ∀ k ∈ sh.last, k ∈ sh'.last) : sh'.Word kind joins w :=
  ⟨hw.ascii,fun h => hn (hw.empty h),fun b hb => hfirst _ (hw.first b hb),fun b hb => hlast _ (hw.last b hb),hw.chain⟩

theorem Shape.Fits.again (he : sh.Fits kind joins e) (hjoin : joinsAll joins sh.last sh.first = true)
    (hf : (sh.repeated joins true).Fits kind joins f) (empty : Bool) :
    (sh.repeated joins empty).Fits kind joins (e.andThen f) := by
  refine he.andThen_of hf fun w w' hw hw' => hw.append hw' hjoin ?_ ?_ ?_
  · intro h _
    simp [Shape.repeated,h]
  · rintro k (h | ⟨-, h⟩) <;> exact h
  · rintro k (h | ⟨-, h⟩) <;> exact h

theorem Ends.mem_optional {nonGreedy : Bool} {s : List Byte} {n : ℕ} (hn : n ∈ Ends.optional nonGreedy e s) :
    n = 0 ∨ n ∈ e s := by
  rw [Ends.optional] at hn
  split at hn
  · exact mem_cons.mp hn
  · exact (mem_append.mp hn).symm.imp_left mem_singleton.mp

theorem Shape.Fits.upTo (he : sh.Fits kind joins e) (hjoin : joinsAll joins sh.last sh.first = true)
    (nonGreedy : Bool) (k : ℕ) : (sh.repeated joins true).Fits kind joins (Ends.upTo nonGreedy e k) := by
  have hempty : ∀ s : List Byte, 0 ≤ s.length ∧ (sh.repeated joins true).Word kind joins (s.take 0) :=
    fun s => ⟨Nat.zero_le _,Shape.word_nil (by simp [Shape.repeated])⟩
  induction k with
  | zero =>
    intro s n hn
    rw [Ends.upTo,mem_singleton] at hn
    exact hn ▸ hempty s
  | succ k ih =>
    intro s n hn
    rcases Ends.mem_optional hn with rfl | hn
    · exact hempty s
    · exact he.again hjoin ih true s n hn

theorem Shape.Fits.times (he : sh.Fits kind joins e) (hjoin : joinsAll joins sh.last sh.first = true)
    (nonGreedy : Bool) (min extra : ℕ) :
    (sh.repeated joins (min == 0)).Fits kind joins (Ends.times e (Ends.upTo nonGreedy e extra) min) := by
  have hloose : ∀ min, (sh.repeated joins true).Fits kind joins (Ends.times e (Ends.upTo nonGreedy e extra) min) := by
    intro min
    induction min with
    | zero => exact he.upTo hjoin nonGreedy extra
    | succ min ih => exact he.again hjoin ih true
  cases min with
  | zero => exact hloose 0
  | succ min => exact he.again hjoin (hloose min) _

theorem CharSet.kind_mem (kind : Byte → κ) (hb : b.toNat < 0x80) (hc : c.has b.toNat = true) :
    kind b ∈ c.kinds kind := by
  refine mem_map.mpr ⟨b.toNat,mem_filter.mpr ⟨mem_range.mpr hb,hc⟩,?_⟩
  rw [Nat.toUInt8_eq,UInt8.ofNat_toNat]

theorem Regexp.fits_shape (re : Regexp) (hok : (re.shape kind joins).ok = true) :
    (re.shape kind joins).Fits kind joins re.ends ∧ re.ends.Local := by
  induction re with
  | noMatch => exact ⟨fun s n hn => by simp [ends] at hn,fun a r => rfl⟩
  | emptyMatch =>
    refine ⟨fun s n hn => ?_,fun a r => by simp [ends]⟩
    rw [ends,mem_singleton] at hn
    exact hn ▸ ⟨Nat.zero_le _,Shape.word_nil rfl⟩
  | char c =>
    refine ⟨fun s n hn => ?_,local_char hok⟩
    rw [ends_char hok] at hn
    cases s with
    | nil => simp at hn
    | cons b s =>
      split at hn
      · next hb =>
        rw [mem_singleton] at hn
        have hmem := c.kind_mem kind (c.lt_of_has hok hb) hb
        subst hn
        refine ⟨by simp,by simpa using c.lt_of_has hok hb,by simp,by simpa [shape] using hmem,by simpa [shape] using hmem,?_⟩
        exact isChain_singleton b
      · simp at hn
  | concat a b iha ihb =>
    simp only [shape,Shape.andThen,Bool.and_eq_true] at hok
    obtain ⟨hfa, hla⟩ := iha hok.1.1
    obtain ⟨hfb, hlb⟩ := ihb hok.1.2
    exact ⟨hfa.andThen hfb hok.2,hla.andThen hlb⟩
  | alternate a b iha ihb =>
    simp only [shape,Shape.alternate,Bool.and_eq_true] at hok
    obtain ⟨hfa, hla⟩ := iha hok.1
    obtain ⟨hfb, hlb⟩ := ihb hok.2
    refine ⟨fun s n hn => ?_,fun x r => ?_⟩
    · rcases mem_append.mp hn with hn | hn
      · obtain ⟨hle, hw⟩ := hfa s n hn
        exact ⟨hle,hw.widen (by simp +contextual [shape,Shape.alternate]) (fun k => mem_append_left _)
          fun k => mem_append_left _⟩
      obtain ⟨hle, hw⟩ := hfb s n hn
      exact ⟨hle,hw.widen (by simp +contextual [shape,Shape.alternate]) (fun k => mem_append_right _)
        fun k => mem_append_right _⟩
    · simp only [ends,filter_append,hla x r,hlb x r]
  | quest a nonGreedy iha =>
    obtain ⟨hf, hl⟩ := iha hok
    refine ⟨fun s n hn => ?_,hl.optional nonGreedy⟩
    rcases Ends.mem_optional hn with rfl | hn
    · exact ⟨Nat.zero_le _,Shape.word_nil rfl⟩
    · obtain ⟨hle, hw⟩ := hf s n hn
      exact ⟨hle,hw.widen (fun _ => rfl) (fun _ h => h) fun _ h => h⟩
  | star a nonGreedy => cases hok
  | repeated a min max nonGreedy iha =>
    simp only [shape,Shape.repeated,Bool.and_eq_true] at hok
    obtain ⟨hf, hl⟩ := iha hok.1
    exact ⟨hf.times hok.2 nonGreedy min (max - min),hl.times (hl.upTo nonGreedy (max - min)) min⟩

end Shapes

variable {κ τ : Type} {kind : Byte → κ} {joins : κ → κ → Bool} {re : Regexp} {l r a : List Byte}

/-- The bytes at the two sides of a seam are of kinds that do not join. -/
def Apart (kind : Byte → κ) (joins : κ → κ → Bool) (l r : List Byte) : Prop :=
  ∀ x ∈ l.getLast?, ∀ y ∈ r.head?, joins (kind x) (kind y) = false

theorem Apart.of_suffix {b : List Byte} (h : Apart kind joins l r) (hl : l = b ++ a) (ha : a ≠ []) :
    Apart kind joins a r := by
  intro x hx y hy
  refine h x ?_ y hy
  rw [hl,getLast?_append_of_ne_nil b ha]
  exact hx

theorem Regexp.ends_append (hok : (re.shape kind joins).ok = true) (ha : a ≠ []) (hapart : Apart kind joins a r) :
    re.ends (a ++ r) = re.ends a := by
  obtain ⟨hfits, hlocal⟩ := re.fits_shape hok
  rw [← hlocal a r]
  refine (filter_eq_self.mpr fun n hn => ?_).symm
  rw [decide_eq_true_eq]
  by_contra hlong
  -- a longer match would have the two bytes of the seam side by side
  obtain ⟨hle, hw⟩ := hfits (a ++ r) n hn
  obtain ⟨k, hk⟩ : ∃ k, n = a.length + (k + 1) := ⟨n - a.length - 1,by omega⟩
  have htake : (a ++ r).take n = a ++ r.take (k + 1) := by
    rw [hk,take_length_add_append]
  cases r with
  | nil =>
    rw [append_nil] at hle
    omega
  | cons y r =>
    have hchain := hw.chain
    rw [htake,isChain_append] at hchain
    have hjoin := hchain.2.2 (a.getLast ha) (getLast?_eq_some_getLast ha) y rfl
    rw [hapart _ (getLast?_eq_some_getLast ha) y rfl] at hjoin
    cases hjoin

def Regexp.byteStop (t : τ) (re : Regexp) : Stop Byte τ := fun _ s =>
  match (re.ends s).head? with
  | some (n + 1) => ([(t,n + 1)],n + 1)
  | _ => ([],1)

theorem Regexp.byteStop_quiet (hok : (re.shape kind joins).ok = true) (hne : (re.shape kind joins).nullable = false)
    (t : τ) (hb : 0x80 ≤ b.toNat) (p : Option Byte) (s : List Byte) : re.byteStop t p (b :: s) = ([],1) := by
  have hnil : re.ends (b :: s) = [] := by
    rw [eq_nil_iff_forall_not_mem]
    intro n hn
    obtain ⟨-, hw⟩ := (re.fits_shape hok).1 _ _ hn
    cases n with
    | zero =>
      rw [hw.empty rfl] at hne
      cases hne
    | succ n => exact absurd (hw.ascii b (by simp)) (not_lt.mpr hb)
  rw [byteStop,hnil]
  rfl

theorem decodeRune_tail {s : List Byte} {k : ℕ} (hk : k + 1 < (decodeRune (b :: s)).2) {x : Byte}
    (hx : s[k]? = some x) : 0x80 ≤ x.toNat := by
  have hsecond : ∀ {b1 : Byte}, secondByte b b1 = true → 0x80 ≤ b1.toNat := by
    intro b1 h
    unfold secondByte at h
    repeat' split at h
    all_goals
      have hle := Byte.le_of_between h
      omega
  unfold decodeRune at hk
  dsimp only at hk
  split at hk
  · simp at hk
  split at hk
  · split at hk
    · next b1 _ =>
      split at hk
      · next h1 =>
        obtain rfl : k = 0 := by omega
        simp only [getElem?_cons_zero,Option.some.injEq] at hx
        exact hx ▸ Byte.le_of_between h1
      · simp at hk
    · simp at hk
  split at hk
  · split at hk
    · next b1 b2 _ =>
      split at hk
      · next h =>
        rw [Bool.and_eq_true] at h
        match k, hk with
        | 0, _ => exact (Option.some.inj hx) ▸ hsecond h.1
        | 1, _ => exact (Option.some.inj hx) ▸ Byte.le_of_between h.2
      · simp at hk
    · simp at hk
  split at hk
  · split at hk
    · next b1 b2 b3 _ =>
      split at hk
      · next h =>
        rw [Bool.and_eq_true,Bool.and_eq_true] at h
        match k, hk with
        | 0, _ => exact (Option.some.inj hx) ▸ hsecond h.1.1
        | 1, _ => exact (Option.some.inj hx) ▸ Byte.le_of_between h.1.2
        | 2, _ => exact (Option.some.inj hx) ▸ Byte.le_of_between h.2
      · simp at hk
    · simp at hk
  · simp at hk

theorem Regexp.sweep_bytes (hok : (re.shape kind joins).ok = true) (hne : (re.shape kind joins).nullable = false)
    (t : τ) (l : List Byte) (prev : Option Byte) (pos : ℕ) :
    (∀ skip, (∀ k < skip, ∀ x, l[k]? = some x → 0x80 ≤ x.toNat) →
        sweep (re.findStop t) prev pos skip l = sweep (re.byteStop t) prev pos 0 l) ∧
      ∀ skip, sweep (re.findStop t) prev pos skip l = sweep (re.byteStop t) prev pos skip l := by
  induction l generalizing prev pos with
  | nil => simp
  | cons b l ih =>
    obtain ⟨ihquiet, ihsame⟩ := ih (some b) (pos + 1)
    have htail : ∀ k < (decodeRune (b :: l)).2 - 1, ∀ x, l[k]? = some x → 0x80 ≤ x.toNat := by
      intro k hk x hx
      exact decodeRune_tail (b := b) (by omega) hx
    have hzero : sweep (re.findStop t) prev pos 0 (b :: l) = sweep (re.byteStop t) prev pos 0 (b :: l) := by
      rw [sweep,sweep]
      unfold findStop byteStop
      cases hends : (re.ends (b :: l)).head? with
      | none =>
        exact congrArg _ (ihquiet _ htail)
      | some n =>
        cases n with
        | zero =>
          exact congrArg _ (ihquiet _ htail)
        | succ n => exact congrArg _ (ihsame n)
    refine ⟨fun skip hquiet => ?_,fun skip => ?_⟩
    · cases skip with
      | zero => exact hzero
      | succ skip =>
        have hb := hquiet 0 (Nat.succ_pos _) b rfl
        rw [sweep,ihquiet skip fun k hk x hx => hquiet (k + 1) (Nat.succ_lt_succ hk) x hx,sweep,
          byteStop_quiet hok hne t hb]
        rfl
    · cases skip with
      | zero => exact hzero
      | succ skip =>
        rw [sweep,sweep,ihsame]

theorem Regexp.findAll_append (hok : (re.shape kind joins).ok = true) (hne : (re.shape kind joins).nullable = false)
    (t : τ) (hapart : Apart kind joins l r) :
    re.findAll t (l ++ r) = re.findAll t l ++ (re.findAll t r).map (Match.shift l.length) := by
  have hbytes : ∀ s, re.findAll t s = sweep (re.byteStop t) none 0 0 s := fun s => (sweep_bytes hok hne t s none 0).2 0
  rw [hbytes,hbytes,hbytes]
  refine sweep_append (fun prev a b hl ha => ?_) fun _ _ => rfl
  have hends : re.ends (a ++ r) = re.ends a := ends_append hok ha (hapart.of_suffix hl ha)
  refine ⟨by simp only [byteStop,hends],?_⟩
  have hpos : 1 ≤ a.length := length_pos_iff.mpr ha
  unfold byteStop
  split
  · next n hn => exact ((re.fits_shape hok).1 a _ (mem_of_head? hn)).1
  · exact hpos

end DsseCore.Go

import DsseCore.Go.Unicode

/-!
# Byte strings

Go's `bytes`, `unicode/utf8` and `strings` functions over arbitrary bytes, which need not be UTF-8 text.
-/

namespace DsseCore.Go

variable {b : Byte} {n : ℕ} {p : List Byte}

abbrev Byte := UInt8

def ascii (s : String) : List Byte := s.toList.map fun c => c.toNat.toUInt8

def Byte.between (lo hi : ℕ) (b : Byte) : Bool := lo ≤ b.toNat && b.toNat ≤ hi

theorem Byte.le_of_between {lo hi : ℕ} (h : b.between lo hi = true) : lo ≤ b.toNat := by
  simp only [Byte.between,Bool.and_eq_true,decide_eq_true_eq] at h
  exact h.1

def asciiDigit (b : Byte) : Bool := b.between 0x30 0x39

def asciiUpper (b : Byte) : Bool := b.between 0x41 0x5A

def asciiLower (b : Byte) : Bool := b.between 0x61 0x7A

def asciiAlpha (b : Byte) : Bool := asciiLower b || asciiUpper b

def lowerASCIIByte (b : Byte) : Byte := if asciiUpper b then b + 0x20 else b

/-- `bytes.Index`: where `sub` starts for the first time. -/
def bytesIndex (sub : List Byte) : List Byte → Option ℕ
  | [] => if sub.isEmpty then some 0 else none
  | b :: data => if sub.isPrefixOf (b :: data) then some 0 else (bytesIndex sub data).map (· + 1)

def bytesContains (data sub : List Byte) : Bool := (bytesIndex sub data).isSome

def slice (data : List Byte) (start stop : ℕ) : List Byte := (data.drop start).take (stop - start)

/-- The pieces of at most `n` bytes that a loop over a byte string takes. -/
def chunksFuel (n : ℕ) : ℕ → List Byte → List (List Byte)
  | _, [] => []
  | 0, _ :: _ => []
  | fuel + 1, b :: p => (b :: p).take n :: chunksFuel n fuel ((b :: p).drop n)

def chunks (n : ℕ) (p : List Byte) : List (List Byte) := chunksFuel n p.length p

theorem flatten_chunksFuel (hn : 0 < n) {fuel : ℕ} (hfuel : p.length ≤ fuel) : (chunksFuel n fuel p).flatten = p := by
  induction fuel generalizing p with
  | zero =>
    obtain rfl : p = [] := List.length_eq_zero_iff.mp (Nat.le_zero.mp hfuel)
    rfl
  | succ fuel ih =>
    cases p with
    | nil => rfl
    | cons b p =>
      have hle : ((b :: p).drop n).length ≤ fuel := by
        rw [List.length_drop,List.length_cons]
        rw [List.length_cons] at hfuel
        omega
      rw [chunksFuel,List.flatten_cons,ih hle,List.take_append_drop]

@[simp] theorem flatten_chunks (hn : 0 < n) (p : List Byte) : (chunks n p).flatten = p :=
  flatten_chunksFuel hn le_rfl

theorem mem_chunksFuel (hn : 0 < n) {fuel : ℕ} {c : List Byte} (hc : c ∈ chunksFuel n fuel p) :
    c ≠ [] ∧ c.length ≤ n := by
  induction fuel generalizing p with
  | zero => cases p <;> simp [chunksFuel] at hc
  | succ fuel ih =>
    cases p with
    | nil => simp [chunksFuel] at hc
    | cons b p =>
      rw [chunksFuel,List.mem_cons] at hc
      rcases hc with rfl | hc
      · refine ⟨?_,List.length_take_le n _⟩
        obtain ⟨k, rfl⟩ : ∃ k, n = k + 1 := ⟨n - 1,by omega⟩
        simp
      · exact ih hc

theorem chunks_of_le (hp : p ≠ []) (hle : p.length ≤ n) : chunks n p = [p] := by
  cases p with
  | nil => exact absurd rfl hp
  | cons b p =>
    rw [chunks,List.length_cons,chunksFuel,List.take_of_length_le hle,List.drop_of_length_le hle]
    cases p.length <;> rfl

def runeError : ℕ := 0xFFFD

def continuation (b : Byte) : Bool := b.between 0x80 0xBF

/-- The second byte that may follow a first byte: overlong forms, surrogates and values that are too large are not
encodings. -/
def secondByte (b0 b1 : Byte) : Bool :=
  if b0.toNat = 0xE0 then b1.between 0xA0 0xBF
  else if b0.toNat = 0xED then b1.between 0x80 0x9F
  else if b0.toNat = 0xF0 then b1.between 0x90 0xBF
  else if b0.toNat = 0xF4 then b1.between 0x80 0x8F
  else continuation b1

def low6 (b : Byte) : ℕ := b.toNat - 0x80

/-- `utf8.DecodeRune`: the first code point and its width; one byte of an invalid encoding is a code point of its own. -/
def decodeRune : List Byte → ℕ × ℕ
  | [] => (runeError,0)
  | b0 :: rest =>
    if b0.toNat < 0x80 then (b0.toNat,1)
    else if b0.between 0xC2 0xDF then
      match rest with
      | b1 :: _ => if continuation b1 then ((b0.toNat - 0xC0) * 64 + low6 b1,2) else (runeError,1)
      | _ => (runeError,1)
    else if b0.between 0xE0 0xEF then
      match rest with
      | b1 :: b2 :: _ =>
        if secondByte b0 b1 && continuation b2 then ((b0.toNat - 0xE0) * 4096 + low6 b1 * 64 + low6 b2,3)
        else (runeError,1)
      | _ => (runeError,1)
    else if b0.between 0xF0 0xF4 then
      match rest with
      | b1 :: b2 :: b3 :: _ =>
        if secondByte b0 b1 && continuation b2 && continuation b3 then
          ((b0.toNat - 0xF0) * 262144 + low6 b1 * 4096 + low6 b2 * 64 + low6 b3,4)
        else (runeError,1)
      | _ => (runeError,1)
    else (runeError,1)

/-- `utf8.AppendRune` of a valid code point. -/
def encodeRune (r : ℕ) : List Byte :=
  if r < 0x80 then [r.toUInt8]
  else if r < 0x800 then [(0xC0 + r / 64).toUInt8,(0x80 + r % 64).toUInt8]
  else if r < 0x10000 then [(0xE0 + r / 4096).toUInt8,(0x80 + r / 64 % 64).toUInt8,(0x80 + r % 64).toUInt8]
  else [(0xF0 + r / 262144).toUInt8,(0x80 + r / 4096 % 64).toUInt8,(0x80 + r / 64 % 64).toUInt8,(0x80 + r % 64).toUInt8]

/-- The code points of a byte string, each with the bytes it stands for. -/
def runesFuel : ℕ → List Byte → List (ℕ × List Byte)
  | _, [] => []
  | 0, _ :: _ => []
  | fuel + 1, b :: rest =>
    let w := (decodeRune (b :: rest)).2
    ((decodeRune (b :: rest)).1,(b :: rest).take w) :: runesFuel fuel ((b :: rest).drop w)

def runes (data : List Byte) : List (ℕ × List Byte) := runesFuel data.length data

def isSpaceRune (r : ℕ) : Bool := isSpace (Char.ofNat r)

def trimSpaceBytes (data : List Byte) : List Byte :=
  (((runes data).dropWhile fun r => isSpaceRune r.1).rdropWhile fun r => isSpaceRune r.1).flatMap (·.2)

def toLowerBytes (data : List Byte) : List Byte :=
  (runes data).flatMap fun r => encodeRune (runeToLower (Char.ofNat r.1)).toNat

theorem decodeRune_ge (hb : 0x80 ≤ b.toNat) (rest : List Byte) : 0x80 ≤ (decodeRune (b :: rest)).1 := by
  have herr : 0x80 ≤ runeError := by decide
  unfold decodeRune
  dsimp only
  rw [if_neg (not_lt.mpr hb)]
  split
  · next h2 =>
    have hle := Byte.le_of_between h2
    split
    · split
      · omega
      · exact herr
    · exact herr
  split
  · next h3 =>
    have hle := Byte.le_of_between h3
    split
    · next b1 b2 _ =>
      split
      · next h =>
        rw [Bool.and_eq_true] at h
        -- an E0 is followed by a byte from A0 on, every other first byte adds at least 4096
        have hsecond : b.toNat = 0xE0 → 0xA0 ≤ b1.toNat := by
          intro he
          have h1 := h.1
          rw [secondByte,if_pos he] at h1
          exact Byte.le_of_between h1
        dsimp only [low6]
        omega
      · exact herr
    · exact herr
  split
  · next h4 =>
    have hle := Byte.le_of_between h4
    split
    · next b1 b2 b3 _ =>
      split
      · next h =>
        rw [Bool.and_eq_true,Bool.and_eq_true] at h
        have hsecond : b.toNat = 0xF0 → 0x90 ≤ b1.toNat := by
          intro he
          have h1 := h.1.1
          rw [secondByte,if_neg (by omega),if_neg (by omega),if_pos he] at h1
          exact Byte.le_of_between h1
        dsimp only [low6]
        omega
      · exact herr
    · exact herr
  · exact herr

end DsseCore.Go

import DsseCore.Dlp.Detect
import DsseCore.Lib.Outside
import DsseCore.Lib.Run

/-!
# Encrypted spill

Bytes that were scanned and cannot be released yet are kept in an encrypted file.  The file is a sequence of frames; it
is read from the front, and what was read is removed by moving the unread frames down.  The spill is a queue: bytes come
out once and in the order in which they were appended.
-/

namespace DsseCore.Dlp

open Go Lib List Outside

/-- `k` bytes of a number, the most significant first. -/
def beBytes : ℕ → ℕ → List Byte
  | 0, _ => []
  | k + 1, n => beBytes k (n / 256) ++ [(n % 256).toUInt8]

def beNat (l : List Byte) : ℕ := l.foldl (fun acc b => acc * 256 + b.toNat) 0

@[simp] theorem length_beBytes (k n : ℕ) : (beBytes k n).length = k := by
  induction k generalizing n with
  | zero => rfl
  | succ k ih => rw [beBytes,length_append,ih]; rfl

theorem beNat_beBytes (k n : ℕ) : beNat (beBytes k n) = n % 256 ^ k := by
  induction k generalizing n with
  | zero => simp [beBytes,beNat,Nat.mod_one]
  | succ k ih =>
    have hbyte : (n % 256).toUInt8.toNat = n % 256 := by
      exact Nat.mod_mod_of_dvd n (by decide)
    have hfold : beNat (beBytes (k + 1) n) = beNat (beBytes k (n / 256)) * 256 + (n % 256).toUInt8.toNat := by
      simp [beNat,beBytes]
    rw [hfold,ih,Nat.pow_succ,Nat.mul_comm (256 ^ k),Nat.mod_mul]
    omega

/-- `WriteAt` inside the file or at its end. -/
def overwrite (file : List Byte) (offset : ℕ) (data : List Byte) : List Byte :=
  file.take offset ++ data ++ file.drop (offset + data.length)

/-- `ReadAt`; a short read is a failure for every caller. -/
def readAt (file : List Byte) (offset n : ℕ) : Option (List Byte) :=
  if offset + n ≤ file.length then some ((file.drop offset).take n) else none

variable {file data : List Byte} {offset : ℕ}

theorem length_overwrite (h : offset + data.length ≤ file.length) :
    (overwrite file offset data).length = file.length := by
  simp only [overwrite,length_append,length_take,length_drop]
  omega

theorem take_overwrite (h : offset ≤ file.length) (data : List Byte) :
    (overwrite file offset data).take (offset + data.length) = file.take offset ++ data := by
  unfold overwrite
  have hlen : (file.take offset ++ data).length = offset + data.length := by
    rw [length_append,length_take,Nat.min_eq_left h]
  rw [← hlen,take_left]

theorem drop_overwrite {k : ℕ} (h : offset ≤ file.length) (hk : offset + data.length ≤ k) :
    (overwrite file offset data).drop k = file.drop k := by
  unfold overwrite
  have hlen : (file.take offset ++ data).length = offset + data.length := by
    rw [length_append,length_take,Nat.min_eq_left h]
  obtain ⟨j, rfl⟩ : ∃ j, k = offset + data.length + j := ⟨k - (offset + data.length),by omega⟩
  rw [← hlen,drop_length_add_append,drop_drop]

/-- Authenticated encryption with the nonces that the spill draws. -/
structure Cipher where
  nonce : ℕ → List Byte
  sealBytes : List Byte → List Byte → List Byte → List Byte
  openBytes : List Byte → List Byte → List Byte → Option (List Byte)
  overhead : ℕ
  length_nonce : ∀ k, (nonce k).length = 12
  length_sealBytes : ∀ nonce plain header, (sealBytes nonce plain header).length = plain.length + overhead
  openBytes_sealBytes : ∀ nonce plain header, openBytes nonce (sealBytes nonce plain header) header = some plain

inductive SpillError where
  | retention
  | random
  | write
  | unreadableFrame
  | invalidFrame
  | unreadablePayload
  | authentication
  | compactionRead
  | compactionWrite
  | truncate
  deriving DecidableEq

def spillHeaderSize : ℕ := 24

def spillCompactThreshold : ℕ := 2 * 1024 * 1024

structure EncryptedSpill where
  file : List Byte := []
  writeAt : ℕ := 0
  readAt : ℕ := 0
  /-- The offset in the body after the last byte that was appended. -/
  endPos : ℕ
  /-- The offset in the body of the next byte to release. -/
  readPos : ℕ
  plain : List Byte := []
  frames : ℕ := 0

def newEncryptedSpill (start : ℕ) : EncryptedSpill := { endPos := start,readPos := start }

abbrev SpillM := Outside SpillError

namespace EncryptedSpill

/-- The loop of `compactConsumed`: the unread bytes move to the front, piece by piece. -/
def copyDown (from' remaining : ℕ) : ℕ → ℕ → List Byte → SpillM (List Byte)
  | 0, _, file => pure file
  | fuel + 1, copied, file =>
    if copied < remaining then do
      let n := min chunkSize (remaining - copied)
      attempt .compactionRead
      match Dlp.readAt file (from' + copied) n with
      | none => fail .compactionRead
      | some buf =>
        attempt .compactionWrite
        copyDown from' remaining fuel (copied + n) (overwrite file copied buf)
    else pure file

variable (c : Cipher) (s : EncryptedSpill)

def compactConsumed (force : Bool) : SpillM EncryptedSpill :=
  let remaining := s.writeAt - s.readAt
  if force = false ∧ (s.readAt < spillCompactThreshold ∨ s.readAt < remaining) then pure s
  else do
    let file ← copyDown s.readAt remaining remaining 0 s.file
    attempt .truncate
    pure { s with file := file.take remaining,readAt := 0,writeAt := remaining }

/-- Room for a frame, if need be after what was read has been removed. -/
def reserve : SpillM EncryptedSpill := do
  let ok ← ask
  if ok then pure s
  else do
    ensure (s.readAt ≠ 0) .retention
    let s' ← s.compactConsumed true
    attempt .retention
    pure s'

def header (start n k : ℕ) : List Byte := beBytes 8 start ++ beBytes 4 n ++ c.nonce k

def frame (start k : ℕ) (p : List Byte) : List Byte :=
  header c start p.length k ++ c.sealBytes (c.nonce k) p (header c start p.length k)

def appendFrame (p : List Byte) : SpillM EncryptedSpill := do
  let s ← s.reserve
  attempt .random
  let frame := frame c s.endPos s.frames p
  attempt .write
  pure { s with
    file := overwrite s.file s.writeAt frame
    writeAt := s.writeAt + frame.length
    endPos := s.endPos + p.length
    frames := s.frames + 1 }

def appendAll : EncryptedSpill → List (List Byte) → SpillM EncryptedSpill
  | s, [] => pure s
  | s, p :: ps => do
    let s' ← s.appendFrame c p
    appendAll s' ps

def append (p : List Byte) : SpillM EncryptedSpill := appendAll c s (chunks chunkSize p)

def loadFrame : SpillM EncryptedSpill := do
  attempt .unreadableFrame
  match Dlp.readAt s.file s.readAt spillHeaderSize with
  | none => fail .unreadableFrame
  | some header =>
    let start := beNat (header.take 8)
    let length := beNat ((header.drop 8).take 4)
    ensure (start = s.readPos ∧ length ≠ 0 ∧ length ≤ chunkSize ∧ start + length ≤ s.endPos) .invalidFrame
    attempt .unreadablePayload
    match Dlp.readAt s.file (s.readAt + spillHeaderSize) (length + c.overhead) with
    | none => fail .unreadablePayload
    | some ciphertext =>
      match c.openBytes (header.drop 12) ciphertext header with
      | none => fail .authentication
      | some plain => pure { s with plain := plain,readAt := s.readAt + spillHeaderSize + ciphertext.length }

def loaded : SpillM EncryptedSpill := if s.plain = [] then s.loadFrame c else pure s

def release (n : ℕ) : SpillM (List Byte × EncryptedSpill) :=
  let s' := { s with plain := s.plain.drop n,readPos := s.readPos + n }
  if s'.plain = [] ∧ s'.readPos < s'.endPos then do
    let s'' ← s'.compactConsumed false
    pure (s.plain.take n,s'')
  else pure (s.plain.take n,s')

def readSafe (room safeUntil : ℕ) : SpillM (List Byte × EncryptedSpill) :=
  if room = 0 ∨ min safeUntil s.endPos ≤ s.readPos then pure ([],s)
  else do
    let s' ← s.loaded c
    s'.release (min (min room s'.plain.length) (min safeUntil s.endPos - s'.readPos))

end EncryptedSpill

open EncryptedSpill (copyDown compactConsumed header appendAll loadFrame loaded release readSafe)

variable {c : Cipher} {s s' : EncryptedSpill} {data p : List Byte}

structure Frame where
  start : ℕ
  number : ℕ
  payload : List Byte

def Frame.encode (c : Cipher) (f : Frame) : List Byte := EncryptedSpill.frame c f.start f.number f.payload

/-- Frames that follow each other in the body, the first one at `start`. -/
def Consecutive : ℕ → List Frame → Prop
  | _, [] => True
  | start, f :: frames => f.start = start ∧ Consecutive (start + f.payload.length) frames

/-- The spill holds the bytes `data`: those of a frame that was opened, and those of the unread frames of the file. -/
structure Holds (c : Cipher) (s : EncryptedSpill) (data : List Byte) : Prop where
  written : s.writeAt = s.file.length
  read : s.readAt ≤ s.writeAt
  positions : s.endPos = s.readPos + data.length
  unread : ∃ frames : List Frame, (∀ f ∈ frames, f.payload ≠ [] ∧ f.payload.length ≤ chunkSize) ∧
    s.file.drop s.readAt = frames.flatMap (Frame.encode c) ∧ data = s.plain ++ frames.flatMap (·.payload) ∧
    Consecutive (s.readPos + s.plain.length) frames

theorem consecutive_snoc {frames : List Frame} {f : Frame} {start : ℕ} (h : Consecutive start frames)
    (hf : f.start = start + (frames.flatMap (·.payload)).length) : Consecutive start (frames ++ [f]) := by
  induction frames generalizing start with
  | nil => exact ⟨hf,trivial⟩
  | cons g frames ih =>
    refine ⟨h.1,ih h.2 ?_⟩
    rw [hf,flatMap_cons,length_append,Nat.add_assoc]

theorem copyDown_spec {from' remaining fuel copied : ℕ} {file' orig : List Byte}
    (h : (copyDown from' remaining fuel copied file).Yields file') (hfuel : remaining ≤ copied + fuel)
    (hcopied : copied ≤ remaining) (hlen : from' + remaining ≤ file.length)
    (hmoved : file.take copied = (orig.drop from').take copied)
    (hrest : file.drop (from' + copied) = orig.drop (from' + copied)) :
    file'.take remaining = (orig.drop from').take remaining := by
  induction fuel generalizing copied file with
  | zero =>
    obtain rfl := h.of_pure
    obtain rfl : copied = remaining := by omega
    exact hmoved
  | succ fuel ih =>
    rw [copyDown] at h
    split at h
    · next hlt =>
      obtain ⟨_, -, h⟩ := h.of_bind
      have hn : from' + copied + min chunkSize (remaining - copied) ≤ file.length := by omega
      simp only [readAt,if_pos hn] at h
      obtain ⟨_, -, h⟩ := h.of_bind
      generalize hbuf : (file.drop (from' + copied)).take (min chunkSize (remaining - copied)) = buf at h
      have hlenbuf : buf.length = min chunkSize (remaining - copied) := by
        rw [← hbuf,length_take,length_drop]
        omega
      have hpos : 0 < chunkSize := by decide
      refine ih h ?_ ?_ ?_ ?_ ?_
      · omega
      · omega
      · rw [length_overwrite]
        · exact hlen
        · omega
      · have htake := take_overwrite (show copied ≤ file.length by omega) buf
        rw [hlenbuf] at htake
        rw [htake,hmoved,take_add,drop_drop,← hbuf,hrest]
      · rw [drop_overwrite (by omega) (by omega),← Nat.add_assoc,← drop_drop,hrest,drop_drop]
    · next hge =>
      obtain rfl := h.of_pure
      obtain rfl : copied = remaining := by omega
      exact hmoved

theorem copyDown_succeeds {from' remaining : ℕ} (fuel copied : ℕ) (hlen : from' + remaining ≤ file.length) :
    ∃ file', (copyDown from' remaining fuel copied file).Succeeds file' := by
  induction fuel generalizing copied file with
  | zero => exact ⟨file,rfl⟩
  | succ fuel ih =>
    rw [copyDown]
    split
    · have hn : from' + copied + min chunkSize (remaining - copied) ≤ file.length := by omega
      simp only [readAt,if_pos hn]
      have hbuf := length_take_le (min chunkSize (remaining - copied)) (file.drop (from' + copied))
      generalize (file.drop (from' + copied)).take (min chunkSize (remaining - copied)) = buf at hbuf ⊢
      have hsame := length_overwrite (show copied + buf.length ≤ file.length by omega)
      obtain ⟨file', h⟩ := ih _ (hlen.trans_eq hsame.symm)
      exact ⟨file',(succeeds_attempt _).bind ((succeeds_attempt _).bind h)⟩
    · exact ⟨file,rfl⟩

theorem length_header (c : Cipher) (start n k : ℕ) : (header c start n k).length = spillHeaderSize := by
  simp only [header,length_append,length_beBytes,c.length_nonce]
  rfl

theorem readAt_prefix {rest : List Byte} (pre : List Byte) (h : file.drop offset = pre ++ (data ++ rest))
    (hd : data ≠ []) : readAt file (offset + pre.length) data.length = some data := by
  have hlen := congrArg length h
  simp only [length_drop,length_append] at hlen
  have hpos := length_pos_iff.mpr hd
  rw [readAt,if_pos (by omega),← drop_drop,h,drop_left,take_left]

theorem header_fields (c : Cipher) (start n k : ℕ) (hn : n ≤ chunkSize) :
    beNat ((header c start n k).take 8) = start % 2 ^ 64 ∧
      beNat (((header c start n k).drop 8).take 4) = n := by
  have hstart : (header c start n k).take 8 = beBytes 8 start := by
    rw [header,append_assoc]
    exact take_left' (length_beBytes 8 start)
  have hdrop : (header c start n k).drop 8 = beBytes 4 n ++ c.nonce k := by
    rw [header,append_assoc]
    exact drop_left' (length_beBytes 8 start)
  have htake : (beBytes 4 n ++ c.nonce k).take 4 = beBytes 4 n := take_left' (length_beBytes 4 n)
  rw [hstart,hdrop,htake,beNat_beBytes,beNat_beBytes]
  exact ⟨rfl,Nat.mod_eq_of_lt (lt_of_le_of_lt hn (by decide))⟩

section

variable (hs : Holds c s data)
include hs

theorem Holds.unread_length : s.readAt + (s.writeAt - s.readAt) ≤ s.file.length := by
  have := hs.written
  have := hs.read
  omega

theorem compactConsumed_succeeds (force : Bool) : ∃ s', (s.compactConsumed force).Succeeds s' := by
  unfold compactConsumed
  dsimp only
  split
  · exact ⟨s,rfl⟩
  · obtain ⟨file, h⟩ := copyDown_succeeds (s.writeAt - s.readAt) 0 hs.unread_length
    exact ⟨_,h.bind ((succeeds_attempt _).bind rfl)⟩

theorem compactConsumed_holds {force : Bool} (h : (s.compactConsumed force).Yields s') :
    Holds c s' data ∧ s'.readPos = s.readPos ∧ s'.endPos = s.endPos ∧ s'.plain = s.plain := by
  unfold compactConsumed at h
  dsimp only at h
  split at h
  · obtain rfl := h.of_pure
    exact ⟨hs,rfl,rfl,rfl⟩
  obtain ⟨file, hfile, h⟩ := h.of_bind
  obtain ⟨_, -, h⟩ := h.of_bind
  obtain rfl := h.of_pure
  have hmoved := copyDown_spec hfile (by omega) (Nat.zero_le _) hs.unread_length rfl rfl
  have hall : (s.file.drop s.readAt).take (s.writeAt - s.readAt) = s.file.drop s.readAt := by
    rw [hs.written,← length_drop,take_length]
  rw [hall] at hmoved
  obtain ⟨frames, hframes, henc, hdata⟩ := hs.unread
  refine ⟨⟨?_,Nat.zero_le _,hs.positions,frames,hframes,?_,hdata⟩,rfl,rfl,rfl⟩
  · rw [hmoved,length_drop,hs.written]
  · rw [drop_zero,hmoved,henc]

theorem reserve_holds (h : s.reserve.Yields s') :
    Holds c s' data ∧ s'.readPos = s.readPos ∧ s'.endPos = s.endPos := by
  obtain ⟨ok, -, h⟩ := h.of_bind
  split at h
  · obtain rfl := h.of_pure
    exact ⟨hs,rfl,rfl⟩
  obtain ⟨_, -, h⟩ := h.of_bind
  obtain ⟨s₁, h₁, h⟩ := h.of_bind
  obtain ⟨_, -, h⟩ := h.of_bind
  obtain rfl := h.of_pure
  obtain ⟨hs₁, hpos, hend, -⟩ := compactConsumed_holds hs h₁
  exact ⟨hs₁,hpos,hend⟩

theorem appendFrame_holds (hp : p ≠ []) (hsize : p.length ≤ chunkSize) (h : (s.appendFrame c p).Yields s') :
    Holds c s' (data ++ p) ∧ s'.readPos = s.readPos ∧ s'.endPos = s.endPos + p.length := by
  obtain ⟨s₁, h₁, h⟩ := h.of_bind
  obtain ⟨_, -, h⟩ := h.of_bind
  obtain ⟨_, -, h⟩ := h.of_bind
  obtain rfl := h.of_pure
  obtain ⟨hs₁, hpos, hend⟩ := reserve_holds hs h₁
  obtain ⟨frames, hframes, henc, hdata, hchain⟩ := hs₁.unread
  have hfile : overwrite s₁.file s₁.writeAt (EncryptedSpill.frame c s₁.endPos s₁.frames p) =
      s₁.file ++ EncryptedSpill.frame c s₁.endPos s₁.frames p := by
    simp [hs₁.written,overwrite]
  refine ⟨⟨?_,?_,?_,frames ++ [⟨s₁.endPos,s₁.frames,p⟩],?_,?_,?_,consecutive_snoc hchain ?_⟩,hpos,by rw [hend]⟩
  · rw [hfile,length_append,hs₁.written]
  · exact le_trans hs₁.read (Nat.le_add_right _ _)
  · dsimp only
    rw [length_append,hs₁.positions]
    omega
  · intro f hf
    rcases mem_append.mp hf with hf | hf
    · exact hframes f hf
    · rw [mem_singleton.mp hf]
      exact ⟨hp,hsize⟩
  · dsimp only
    rw [hfile,drop_append_of_le_length (hs₁.written ▸ hs₁.read),henc]
    simp [Frame.encode]
  · rw [hdata]
    simp
  · rw [hs₁.positions,hdata,length_append,Nat.add_assoc]

end

theorem appendAll_holds {ps : List (List Byte)} (hps : ∀ p ∈ ps, p ≠ [] ∧ p.length ≤ chunkSize) (hs : Holds c s data)
    (h : (appendAll c s ps).Yields s') :
    Holds c s' (data ++ ps.flatten) ∧ s'.readPos = s.readPos ∧ s'.endPos = s.endPos + ps.flatten.length := by
  induction ps generalizing s data with
  | nil =>
    obtain rfl := h.of_pure
    simpa using hs
  | cons p ps ih =>
    obtain ⟨s₁, h₁, h⟩ := h.of_bind
    obtain ⟨hne, hsize⟩ := hps p mem_cons_self
    obtain ⟨hs₁, hpos₁, hend₁⟩ := appendFrame_holds hs hne hsize h₁
    obtain ⟨hs', hpos, hend⟩ := ih (fun q hq => hps q (mem_cons_of_mem p hq)) hs₁ h
    refine ⟨?_,hpos.trans hpos₁,?_⟩
    · rw [flatten_cons,← append_assoc]
      exact hs'
    · rw [flatten_cons,length_append]
      omega

theorem append_holds (hs : Holds c s data) (h : (s.append c p).Yields s') :
    Holds c s' (data ++ p) ∧ s'.readPos = s.readPos ∧ s'.endPos = s.endPos + p.length := by
  have hspec := appendAll_holds (fun q (hq : q ∈ chunks chunkSize p) => mem_chunksFuel (by decide) hq) hs h
  rwa [flatten_chunks (by decide)] at hspec

section

variable {n room safeUntil : ℕ} {out : List Byte} (hs : Holds c s data)
include hs

/-- What is loaded is the next frame.  It passes the check of its header as long as the position has 64 bits. -/
theorem loadFrame_eq (hplain : s.plain = []) (hdata : data ≠ []) :
    ∃ (valid : Prop) (_ : Decidable valid) (s' : EncryptedSpill), s.loadFrame c = (do
        attempt .unreadableFrame
        ensure valid .invalidFrame
        attempt .unreadablePayload
        pure s') ∧ (s.readPos < 2 ^ 64 → valid) ∧
      Holds c s' data ∧ s'.readPos = s.readPos ∧ s'.endPos = s.endPos ∧ s'.plain ≠ [] := by
  obtain ⟨frames, hframes, henc, hbytes, hchain⟩ := hs.unread
  cases frames with
  | nil =>
    rw [hplain] at hbytes
    exact absurd hbytes hdata
  | cons f frames =>
    obtain ⟨hne, hsize⟩ := hframes f mem_cons_self
    generalize hhead : header c f.start f.payload.length f.number = header at *
    generalize hsealed : c.sealBytes (c.nonce f.number) f.payload header = ciphertext at *
    have hfile : s.file.drop s.readAt = header ++ (ciphertext ++ frames.flatMap (Frame.encode c)) := by
      rw [henc,flatMap_cons,Frame.encode,EncryptedSpill.frame,hhead,hsealed,append_assoc]
    have hlen : header.length = spillHeaderSize := hhead ▸ length_header c _ _ _
    have hcipher : ciphertext.length = f.payload.length + c.overhead := hsealed ▸ c.length_sealBytes _ _ _
    have hpos := length_pos_iff.mpr hne
    have hread : readAt s.file s.readAt spillHeaderSize = some header := by
      rw [← hlen]
      refine readAt_prefix [] hfile fun h0 => ?_
      rw [h0] at hlen
      cases hlen
    have hread' : readAt s.file (s.readAt + spillHeaderSize) (f.payload.length + c.overhead) = some ciphertext := by
      rw [← hlen,← hcipher]
      refine readAt_prefix _ hfile fun h0 => ?_
      rw [h0,length_nil] at hcipher
      omega
    obtain ⟨hstart, hn⟩ : beNat (header.take 8) = f.start % 2 ^ 64 ∧ beNat ((header.drop 8).take 4) = f.payload.length :=
      hhead ▸ header_fields c _ _ _ hsize
    rw [hplain] at hbytes hchain
    have hfirst : f.start = s.readPos := hchain.1
    have hopen : c.openBytes (header.drop 12) ciphertext header = some f.payload := by
      have hnonce : header.drop 12 = c.nonce f.number := hhead ▸ drop_left' (by rw [length_append,length_beBytes,length_beBytes])
      rw [hnonce,← hsealed]
      exact c.openBytes_sealBytes _ _ _
    unfold loadFrame
    rw [hread]
    dsimp only
    rw [hn,hread']
    dsimp only
    rw [hopen]
    have hdrop : s.file.drop (s.readAt + spillHeaderSize + ciphertext.length) = frames.flatMap (Frame.encode c) := by
      rw [← drop_drop,← drop_drop,hfile,← hlen,drop_left,drop_left]
    refine ⟨_,_,_,rfl,fun hlt => ?_,
      ⟨hs.written,?_,hs.positions,frames,fun g hg => hframes g (mem_cons_of_mem f hg),hdrop,hbytes,hchain.2⟩,rfl,rfl,hne⟩
    · have hend := hs.positions
      rw [hbytes,nil_append,flatMap_cons,length_append] at hend
      rw [hstart,hfirst,Nat.mod_eq_of_lt hlt]
      omega
    · have htotal := congrArg length hfile
      simp only [length_drop,length_append] at htotal
      have := hs.written
      dsimp only
      omega

theorem take_holds (hn : n ≤ s.plain.length) :
    Holds c { s with plain := s.plain.drop n,readPos := s.readPos + n } (data.drop n) ∧ s.plain.take n = data.take n := by
  obtain ⟨frames, hframes, henc, hbytes, hchain⟩ := hs.unread
  have hle : n ≤ data.length := by
    rw [hbytes,length_append]
    omega
  refine ⟨⟨hs.written,hs.read,?_,frames,hframes,henc,?_,?_⟩,?_⟩
  · have := hs.positions
    rw [length_drop]
    dsimp only
    omega
  · rw [hbytes,drop_append_of_le_length hn]
  · rwa [length_drop,Nat.add_assoc,Nat.add_sub_cancel' hn]
  · rw [hbytes,take_append_of_le_length hn]

/-- What is read are the next bytes, and none of them lies at or after `safeUntil`. -/
structure Reads (c : Cipher) (s : EncryptedSpill) (data : List Byte) (room safeUntil : ℕ) (out : List Byte)
    (s' : EncryptedSpill) : Prop where
  out_eq : out = data.take out.length
  fits : out.length ≤ room
  safe : out ≠ [] → s.readPos + out.length ≤ safeUntil
  holds : Holds c s' (data.drop out.length)
  readPos : s'.readPos = s.readPos + out.length
  endPos : s'.endPos = s.endPos
  progress : room ≠ 0 → s.readPos < min safeUntil s.endPos → out ≠ []

theorem loaded_holds (hdata : data ≠ []) (h : (s.loaded c).Yields s') :
    Holds c s' data ∧ s'.readPos = s.readPos ∧ s'.endPos = s.endPos ∧ s'.plain ≠ [] := by
  unfold loaded at h
  split at h
  · next hplain =>
    obtain ⟨valid, _, s₁, heq, -, hs₁⟩ := loadFrame_eq hs hplain hdata
    rw [heq] at h
    obtain ⟨_, -, h⟩ := h.of_bind
    obtain ⟨_, -, h⟩ := h.of_bind
    obtain ⟨_, -, h⟩ := h.of_bind
    obtain rfl := h.of_pure
    exact hs₁
  rename_i hplain
  obtain rfl := h.of_pure
  exact ⟨hs,rfl,rfl,hplain⟩

theorem release_holds (hn : n ≤ s.plain.length) (h : (s.release n).Yields (out,s')) :
    out = data.take n ∧ out.length = n ∧ Holds c s' (data.drop n) ∧
      s'.readPos = s.readPos + n ∧ s'.endPos = s.endPos := by
  obtain ⟨htaken, htake⟩ := take_holds hs hn
  have hout : (s.plain.take n).length = n := by
    rw [length_take]
    omega
  unfold release at h
  dsimp only at h
  split at h
  · obtain ⟨s₂, h₂, h⟩ := h.of_bind
    obtain ⟨rfl, rfl⟩ := Prod.mk.inj h.of_pure
    obtain ⟨hs₂, hpos₂, hend₂, -⟩ := compactConsumed_holds htaken h₂
    exact ⟨htake,hout,hs₂,hpos₂,hend₂⟩
  · obtain ⟨rfl, rfl⟩ := Prod.mk.inj h.of_pure
    exact ⟨htake,hout,htaken,rfl,rfl⟩

theorem Holds.data_ne_nil (h : s.readPos < s.endPos) : data ≠ [] := by
  rintro rfl
  exact h.ne' hs.positions

theorem readSafe_holds (h : (s.readSafe c room safeUntil).Yields (out,s')) :
    Reads c s data room safeUntil out s' := by
  unfold readSafe at h
  split at h
  · next hstop =>
    obtain ⟨rfl, rfl⟩ := Prod.mk.inj h.of_pure
    refine ⟨rfl,Nat.zero_le _,fun hne => absurd rfl hne,hs,rfl,rfl,fun hroom hlt => ?_⟩
    rcases hstop with h0 | hle
    · exact absurd h0 hroom
    · omega
  · next hgo =>
    obtain ⟨s₁, h₁, h⟩ := h.of_bind
    obtain ⟨hs₁, hpos₁, hend₁, hplain₁⟩ := loaded_holds hs (hs.data_ne_nil (by omega)) h₁
    have hlen₁ := length_pos_iff.mpr hplain₁
    obtain ⟨htake, hlen, hs', hpos, hend⟩ := release_holds hs₁ (by omega) h
    refine ⟨hlen.symm ▸ htake,by omega,fun _ => by omega,hlen.symm ▸ hs',by omega,hend.trans hend₁,fun _ _ hnil => ?_⟩
    rw [hnil,length_nil] at hlen
    omega

theorem readSafe_succeeds (hrange : s.readPos < 2 ^ 64) (room safeUntil : ℕ) :
    ∃ r, (s.readSafe c room safeUntil).Succeeds r := by
  unfold readSafe
  split
  · exact ⟨_,rfl⟩
  next hgo =>
  have hloaded : ∃ s', (s.loaded c).Succeeds s' := by
    unfold loaded
    split
    · next hplain =>
      obtain ⟨valid, _, s', heq, hvalid, -⟩ := loadFrame_eq hs hplain (hs.data_ne_nil (by omega))
      rw [heq,ensure,if_pos (hvalid hrange)]
      exact ⟨s',rfl⟩
    · exact ⟨s,rfl⟩
  obtain ⟨s', h'⟩ := hloaded
  obtain ⟨hs', -⟩ := loaded_holds hs (hs.data_ne_nil (by omega)) ⟨[],[],h'⟩
  have hrelease : ∀ n ≤ s'.plain.length, ∃ r, (s'.release n).Succeeds r := by
    intro n hn
    unfold release
    dsimp only
    split
    · obtain ⟨s₂, h₂⟩ := compactConsumed_succeeds (take_holds hs' hn).1 false
      exact ⟨_,h₂.bind rfl⟩
    · exact ⟨_,rfl⟩
  obtain ⟨r, hr⟩ := hrelease (min (min room s'.plain.length) (min safeUntil s.endPos - s'.readPos)) (by omega)
  exact ⟨r,h'.bind hr⟩

end

inductive SpillCall where
  | append (p : List Byte)
  | readSafe (room safeUntil : ℕ) (out : List Byte)
  | compactConsumed (force : Bool)

def SpillCall.Leads (c : Cipher) (s : EncryptedSpill) : SpillCall → EncryptedSpill → Prop
  | append p, s' => (s.append c p).Yields s'
  | readSafe room safeUntil out, s' => (s.readSafe c room safeUntil).Yields (out,s')
  | compactConsumed force, s' => (s.compactConsumed force).Yields s'

def SpillCall.appended : SpillCall → List Byte
  | append p => p
  | _ => []

def SpillCall.returned : SpillCall → List Byte
  | readSafe _ _ out => out
  | _ => []

/-- What was appended and not returned is held. -/
theorem holds_of_run {start : ℕ} {calls : List SpillCall} (h : Run (SpillCall.Leads c) (newEncryptedSpill start) calls s) :
    ∃ data, Holds c s data ∧ calls.flatMap (·.appended) = calls.flatMap (·.returned) ++ data ∧
      s.readPos = start + (calls.flatMap (·.returned)).length := by
  generalize hnew : newEncryptedSpill start = new at h
  induction h with
  | nil =>
    subst hnew
    exact ⟨[],⟨rfl,le_rfl,rfl,[],by simp,rfl,rfl,trivial⟩,rfl,rfl⟩
  | @snoc s s' calls call _ hcall ih =>
    obtain ⟨data, hs, hdata, hpos⟩ := ih
    simp only [flatMap_append,flatMap_singleton]
    generalize calls.flatMap (·.appended) = appended at hdata ⊢
    generalize calls.flatMap (·.returned) = returned at hdata hpos ⊢
    subst hdata
    cases call with
    | append p =>
      obtain ⟨hs', hpos', -⟩ := append_holds hs hcall
      exact ⟨_,hs',by simp [SpillCall.appended,SpillCall.returned],by simp [SpillCall.returned,hpos',hpos]⟩
    | readSafe room safeUntil out =>
      have hr := readSafe_holds hs hcall
      refine ⟨_,hr.holds,?_,by simp [SpillCall.returned,hr.readPos,hpos,Nat.add_assoc]⟩
      have hsplit := take_append_drop out.length data
      rw [← hr.out_eq] at hsplit
      simp [SpillCall.appended,SpillCall.returned,hsplit]
    | compactConsumed force =>
      obtain ⟨hs', hpos', -⟩ := compactConsumed_holds hs hcall
      exact ⟨_,hs',by simp [SpillCall.appended,SpillCall.returned],by simp [SpillCall.returned,hpos',hpos]⟩

/-- After every sequence of calls the bytes returned are those appended up to the read position, a read stops before
`safeUntil`, and while the positions fit an `int64` no frame is rejected. -/
theorem spill_fifo {start : ℕ} {calls : List SpillCall} (h : Run (SpillCall.Leads c) (newEncryptedSpill start) calls s) :
    start ≤ s.readPos ∧ s.readPos - start ≤ (calls.flatMap (·.appended)).length ∧
      calls.flatMap (·.returned) = (calls.flatMap (·.appended)).take (s.readPos - start) ∧
      (∀ room safeUntil out s', (s.readSafe c room safeUntil).Yields (out,s') → ∀ i < out.length, s.readPos + i < safeUntil) ∧
      (start + (calls.flatMap (·.appended)).length < 2 ^ 63 → ∀ room safeUntil, ∃ r, (s.readSafe c room safeUntil).Succeeds r) := by
  obtain ⟨data, hs, hdata, hpos⟩ := holds_of_run h
  rw [hdata,hpos,Nat.add_sub_cancel_left]
  refine ⟨Nat.le_add_right _ _,?_,take_left.symm,fun room safeUntil out s' hread i hi => ?_,fun hrange => ?_⟩
  · rw [length_append]
    omega
  · have := (readSafe_holds hs hread).safe (ne_nil_of_length_pos (by omega))
    omega
  · rw [length_append] at hrange
    exact readSafe_succeeds hs (by omega)

def clearCipher : Cipher where
  nonce _ := replicate 12 0
  sealBytes _ plain _ := plain
  openBytes _ sealed _ := some sealed
  overhead := 0
  length_nonce _ := length_replicate
  length_sealBytes _ _ _ := rfl
  openBytes_sealBytes _ _ _ := rfl

theorem two_of_three_bytes_read : ∃ s, Run (SpillCall.Leads clearCipher) (newEncryptedSpill 5)
      [.append [1,2,3],.readSafe 4 7 [1,2]] s ∧
    [1,2] = ([1,2,3] : List Byte).take (s.readPos - 5) ∧ ∃ r, (s.readSafe clearCipher 4 8).Succeeds r := by
  have hrun : Run (SpillCall.Leads clearCipher) (newEncryptedSpill 5) [.append [1,2,3],.readSafe 4 7 [1,2]] _ :=
    ((Run.nil _).snoc ⟨[],[],rfl⟩).snoc ⟨[],[],rfl⟩
  obtain ⟨-, -, htake, -, hread⟩ := spill_fifo hrun
  exact ⟨_,hrun,htake,hread (by decide) 4 8⟩

end DsseCore.Dlp

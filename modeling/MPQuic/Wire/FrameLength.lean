import MPQuic.Lib.RunningMax
import MPQuic.Wire.AckBlocks
import MPQuic.Wire.Frame

/-!
# The length of frames

`MinLength` of a frame is the number of bytes that `Write` appends, for a STREAM frame without its
data. The packet packer rests on it: it adds up the lengths before it writes a packet.

`Frame.minLength_exact_iff` says for which frames this holds. The exception are PATHS frames with
85 paths or more, whose length is computed in `uint8`. ACK and CLOSE_PATH frames share the argument
about their blocks, `AckedPackets.length_writeAckBlocks`.

An ACK frame is bounded because at most 255 blocks are written: `AckFrame.minLength_le`.
-/

namespace MPQuic

open Bytes

/-! ## STREAM and STOP_WAITING frames -/

/-- The header of a STREAM frame is as long as it says, and its data follows. -/
theorem StreamFrame.length_write {f : StreamFrame} {o : Order} {bytes : List UInt8}
    (h : f.write o = .ok bytes) : bytes.length = f.minLength + f.dataLen := by
  by_cases hempty : f.data.length = 0 ∧ f.finBit = false
  · rw [StreamFrame.write, if_pos hempty] at h
    cases h
  · rw [StreamFrame.write, if_neg hempty] at h
    obtain rfl := Except.ok.inj h
    simp only [List.length_cons, List.length_append, length_toBytes, apply_ite List.length,
      List.length_nil, StreamFrame.minLength, StreamFrame.dataLen]
    omega

namespace StopWaitingFrame

theorem minLength_of_write {f : StopWaitingFrame} {o : Order} {bytes : List UInt8}
    (hwrite : f.write o = .ok bytes) : f.minLength = .ok bytes.length := by
  unfold write at hwrite
  split_ifs at hwrite with h₁ h₂ h₃
  obtain rfl := Except.ok.inj hwrite
  rw [minLength, if_neg h₃, List.length_cons, length_toBytes, Nat.add_comm]

theorem length_write {f : StopWaitingFrame} {o : Order} {bytes : List UInt8} {n : ℕ}
    (hwrite : f.write o = .ok bytes) (hlen : f.minLength = .ok n) : bytes.length = n :=
  Except.ok.inj ((minLength_of_write hwrite).symm.trans hlen)

theorem minLength_le {f : StopWaitingFrame} {n : ℕ} (hlen : f.minLength = .ok n) : n ≤ 7 := by
  unfold minLength at hlen
  split_ifs at hlen
  obtain rfl := Except.ok.inj hlen
  have := f.packetNumberLen.toNat_le
  omega

end StopWaitingFrame

/-! ## ACK frames -/

namespace AckedPackets

section Write

variable {put : ℕ → Except WriteError (List UInt8)} {w : ℕ}

theorem length_writeBlocks (hput : ∀ n bytes, put n = .ok bytes → bytes.length = w)
    {bs : List (ℕ × ℕ)} {bytes : List UInt8} (h : writeBlocks put bs = .ok bytes) :
    bytes.length = (1 + w) * bs.length := by
  induction bs generalizing bytes with
  | nil =>
    obtain rfl := Except.ok.inj h
    rfl
  | cons b bs ih =>
    obtain ⟨lengthBytes, hlength, h₁⟩ := bind_eq_ok h
    obtain ⟨restBytes, hrest, h₂⟩ := bind_eq_ok h₁
    obtain rfl := Except.ok.inj h₂
    rw [List.cons_append, List.length_cons, List.length_append, hput _ _ hlength, ih hrest,
      List.length_cons, Nat.mul_succ]
    omega

/-- The loop of `Write` counts the blocks it has written. -/
theorem length_writeRanges (hput : ∀ n bytes, put n = .ok bytes → bytes.length = w)
    {numRanges : ℕ} {hi : AckRange} {l : List AckRange} {t : ℕ} {r : List UInt8 × ℕ}
    (h : writeRanges put numRanges hi l t = .ok r) :
    (1 + w) * t + r.1.length = (1 + w) * r.2 := by
  induction l generalizing hi t r with
  | nil =>
    obtain rfl := Except.ok.inj h
    rfl
  | cons a rest ih =>
    obtain ⟨bytes, hbytes, h₁⟩ := bind_eq_ok h
    have hlen := length_writeBlocks hput hbytes
    split_ifs at h₁
    · obtain rfl := Except.ok.inj h₁
      rw [Nat.mul_add, hlen]
    · obtain ⟨r', hr', h₂⟩ := bind_eq_ok h₁
      obtain rfl := Except.ok.inj h₂
      have hrest := ih hr'
      rw [Nat.mul_add] at hrest
      dsimp only
      rw [List.length_append, hlen]
      omega

/-- The length of the blocks, with the field that has their number. -/
def blocksLength (f : AckedPackets) (w : ℕ) : ℕ :=
  if f.hasMissingRanges then (1 + w) * f.numWritableNackRanges else w

theorem length_writeAckBlocks (hput : ∀ n bytes, put n = .ok bytes → bytes.length = w)
    {f : AckedPackets} {numBlocks ackBlocks : List UInt8} (hnum : f.writeNumBlocks = .ok numBlocks)
    (hblocks : f.writeAckBlocks put = .ok ackBlocks) :
    numBlocks.length + ackBlocks.length = f.blocksLength w := by
  unfold writeNumBlocks at hnum
  unfold writeAckBlocks at hblocks
  unfold blocksLength
  cases hranges : f.ackRanges with
  | nil =>
    rw [hasMissingRanges, hranges, if_neg (by simp)] at hnum
    obtain rfl := Except.ok.inj hnum
    rw [hranges] at hblocks
    rw [hasMissingRanges, hranges, if_neg (by simp), hput _ _ hblocks]
    exact Nat.zero_add _
  | cons range rest =>
    rw [hasMissingRanges, hranges, if_pos (by simp)] at hnum
    split_ifs at hnum
    obtain rfl := Except.ok.inj hnum
    rw [hranges] at hblocks
    dsimp only at hblocks
    split_ifs at hblocks
    obtain ⟨firstBlock, hfirst, h₁⟩ := bind_eq_ok hblocks
    obtain ⟨r, hr, h₂⟩ := bind_eq_ok h₁
    split_ifs at h₂ with hsame
    obtain rfl := Except.ok.inj h₂
    have hrest := length_writeRanges hput hr
    rw [hasMissingRanges, hranges, if_pos (by simp), List.length_singleton, List.length_append,
      hput _ _ hfirst, not_not.mp hsame, ← hrest]
    omega

end Write

theorem numWritableNackRanges_le (f : AckedPackets) : f.numWritableNackRanges ≤ 255 := by
  unfold numWritableNackRanges
  split
  · omega
  · next range rest _ =>
    have hle : 0 + totalBlocks range (kept range rest 0) ≤ 254 := totalBlocks_kept_le (by omega)
    rw [writableBlocks_eq]
    omega

/-- Lengths below `2 ^ 32` are written in at most four bytes. -/
theorem deltaLen_le {f : AckedPackets} (hranges : ∀ r ∈ f.ackRanges, rangeLength r < 2 ^ 32)
    (hmissing : f.hasMissingRanges) : f.getMissingSequenceNumberDeltaLen.toNat ≤ 4 := by
  have hmax : f.maxRangeLength < 2 ^ 32 := by
    rw [maxRangeLength, if_pos hmissing]
    refine RunningMax.foldl_max_lt (by norm_num) fun n hn => ?_
    obtain ⟨r, hr, rfl⟩ := List.mem_map.mp hn
    exact hranges r hr
  unfold getMissingSequenceNumberDeltaLen
  split_ifs with h₁ h₂ h₃
  · decide
  · decide
  · decide
  · omega

/-- All blocks together take at most `5 * 255` bytes. -/
theorem blocksLength_le {f : AckedPackets} (hranges : ∀ r ∈ f.ackRanges, rangeLength r < 2 ^ 32) :
    f.blocksLength f.getMissingSequenceNumberDeltaLen.toNat ≤ 5 * 255 := by
  unfold blocksLength
  split_ifs with hmissing
  · have hlen := deltaLen_le hranges hmissing
    exact Nat.mul_le_mul (by omega) f.numWritableNackRanges_le
  · have := f.getMissingSequenceNumberDeltaLen.toNat_le
    omega

end AckedPackets

namespace AckFrame

theorem minLength_eq (f : AckFrame) :
    f.minLength = 1 + 2 + 1 + (getPacketNumberLength f.largestAcked).toNat +
      f.blocksLength f.getMissingSequenceNumberDeltaLen.toNat +
      if f.pathID ≠ initialPathID then 1 else 0 := by
  unfold minLength AckedPackets.blocksLength
  dsimp only
  split_ifs <;> omega

theorem length_write {f : AckFrame} {o : Order} {now : ℕ} {bytes : List UInt8}
    (h : f.write o now = .ok bytes) : bytes.length = f.minLength := by
  obtain ⟨numBlocks, hnum, h₁⟩ := bind_eq_ok h
  obtain ⟨ackBlocks, hblocks, h₂⟩ := bind_eq_ok h₁
  obtain rfl := Except.ok.inj h₂
  have hlen := AckedPackets.length_writeAckBlocks
    (w := f.getMissingSequenceNumberDeltaLen.toNat) (fun n bytes hbytes => by
      obtain rfl := Except.ok.inj hbytes
      exact length_toBytes _ _ _) hnum hblocks
  rw [minLength_eq]
  simp only [List.length_cons, List.length_append, length_toBytes, writeUfloat16, List.length_nil,
    apply_ite List.length]
  split_ifs <;> omega

/-- An ACK frame whose ranges are shorter than `2 ^ 32` packets leaves room in every packet. -/
theorem minLength_le {f : AckFrame}
    (hranges : ∀ r ∈ f.ackRanges, AckedPackets.rangeLength r < 2 ^ 32) : f.minLength ≤ 1286 := by
  have hblocks := AckedPackets.blocksLength_le hranges
  have hlargest := (getPacketNumberLength f.largestAcked).toNat_le
  rw [minLength_eq]
  split_ifs <;> omega

end AckFrame

/-! ## CLOSE_PATH frames -/

namespace ClosePathFrame

theorem length_put {o : Order} {len : PacketNumberLen} {n : ℕ} {bytes : List UInt8}
    (h : put o len n = .ok bytes) : bytes.length = len.toNat := by
  unfold put at h
  split_ifs at h
  obtain rfl := Except.ok.inj h
  exact length_toBytes _ _ _

theorem minLength_eq (f : ClosePathFrame) :
    f.minLength = 1 + 1 + 1 + (getPacketNumberLength f.largestAcked).toNat +
      f.blocksLength f.getMissingSequenceNumberDeltaLen.toNat := by
  unfold minLength AckedPackets.blocksLength
  dsimp only
  split_ifs <;> rfl

theorem length_write {f : ClosePathFrame} {o : Order} {bytes : List UInt8}
    (h : f.write o = .ok bytes) : bytes.length = f.minLength := by
  obtain ⟨numBlocks, hnum, h₁⟩ := bind_eq_ok h
  obtain ⟨largestAcked, hlargest, h₂⟩ := bind_eq_ok h₁
  obtain ⟨ackBlocks, hblocks, h₃⟩ := bind_eq_ok h₂
  obtain rfl := Except.ok.inj h₃
  have hlen := AckedPackets.length_writeAckBlocks (fun _ _ => length_put) hnum hblocks
  rw [minLength_eq, ← hlen, ← length_put hlargest]
  simp only [List.length_cons, List.length_append]
  omega

end ClosePathFrame

/-! ## ADD_ADDRESS and PATHS frames -/

namespace UDPAddr

theorem length_to4 {a : UDPAddr} {ip : List UInt8} (h : a.to4 = some ip) : ip.length = 4 := by
  unfold to4 at h
  split_ifs at h with h₁ h₂
  · obtain rfl := Option.some.inj h
    exact h₁
  · obtain rfl := Option.some.inj h
    rw [List.length_drop, h₂.1]

theorem length_to16 {a : UDPAddr} {ip : List UInt8} (h : a.to16 = some ip) : ip.length = 16 := by
  unfold to16 at h
  split_ifs at h with h₁ h₂
  · obtain rfl := Option.some.inj h
    rw [List.length_append, h₁]
    rfl
  · obtain rfl := Option.some.inj h
    exact h₂

end UDPAddr

/-- Both IP versions have a length, and `Write` accepts no other. -/
theorem AddAddressFrame.length_write {f : AddAddressFrame} {o : Order} {bytes : List UInt8}
    (h : f.write o = .ok bytes) : f.minLength = .ok bytes.length := by
  unfold write at h
  unfold minLength
  dsimp only at h
  split_ifs at h with h₄ h₆
  · rw [if_pos h₄]
    cases hip : f.addr.to4 with
    | none =>
      rw [hip] at h
      cases h
    | some ip =>
      rw [hip] at h
      obtain rfl := Except.ok.inj h
      simp only [List.length_cons, List.length_append, length_toBytes, UDPAddr.length_to4 hip]
  · rw [if_neg h₄, if_pos h₆]
    cases hip : f.addr.to16 with
    | none =>
      rw [hip] at h
      cases h
    | some ip =>
      rw [hip] at h
      obtain rfl := Except.ok.inj h
      simp only [List.length_cons, List.length_append, length_toBytes, UDPAddr.length_to16 hip]

namespace PathsFrame

theorem length_writePaths (o : Order) (l : List (PathID × ℕ)) :
    (l.flatMap fun p => p.1 :: writeUfloat16 o (p.2 / 1000)).length = 3 * l.length := by
  induction l with
  | nil => rfl
  | cons p l ih =>
    rw [List.flatMap_cons, List.length_append, ih, List.length_cons, List.length_cons,
      writeUfloat16, length_toBytes, Nat.mul_succ]
    omega

/-- Three bytes for each path. -/
theorem length_write {f : PathsFrame} {o : Order} {bytes : List UInt8}
    (h : f.write o = .ok bytes) : bytes.length = 3 + 3 * f.numPaths.toNat := by
  unfold write at h
  split_ifs at h with hnum hrtt
  obtain rfl := Except.ok.inj h
  rw [List.length_cons, List.length_cons, List.length_cons, length_writePaths, List.length_zip,
    ← not_not.mp hrtt, Nat.min_self, ← not_not.mp hnum]
  omega

/-- The length in `uint8` is that of the frame up to 84 paths. -/
theorem minLength_eq_iff (f : PathsFrame) :
    f.minLength = 3 + 3 * f.numPaths.toNat ↔ f.numPaths.toNat ≤ 84 := by
  have hlt := f.numPaths.toNat_lt
  have heq : f.minLength = (3 + 3 * f.numPaths.toNat) % 256 := by
    unfold minLength
    simp only [UInt8.toNat_add, UInt8.toNat_mul, UInt8.toNat_ofNat]
    omega
  rw [heq]
  omega

end PathsFrame

/-! ## All frames -/

namespace Frame

/-- The length of the data that follows the header of a STREAM frame. -/
def dataLen (store : FrameStore) : Frame → ℕ
  | stream ref => (store ref).dataLen
  | _ => 0

/-- `MinLength`, together with the data of a STREAM frame, is the number of bytes that were
written. -/
def LengthIs (store : FrameStore) (f : Frame) (bytes : List UInt8) : Prop :=
  ∃ n, f.minLength store = .ok n ∧ bytes.length = n + f.dataLen store

/-- The frame has at most as many paths as its length can be computed for. -/
def fewPaths : Frame → Bool
  | paths f => f.numPaths.toNat ≤ 84
  | _ => true

/-- `MinLength` is exact for every frame that is written, PATHS frames with more than 84 paths
apart. -/
theorem minLength_exact_iff (store : FrameStore) (o : Order) (now : ℕ) (f : Frame)
    (bytes : List UInt8) (h : f.write store o now = .ok bytes) :
    f.LengthIs store bytes ↔ f.fewPaths := by
  cases f with
  | paths f =>
    have hlen := PathsFrame.length_write h
    unfold fewPaths
    rw [decide_eq_true_iff, ← f.minLength_eq_iff, ← hlen]
    constructor
    · rintro ⟨n, hn, hbytes⟩
      obtain rfl := Except.ok.inj hn
      exact hbytes.symm
    · intro hmin
      exact ⟨_, rfl, hmin.symm⟩
  | stream ref => exact iff_of_true ⟨_, rfl, StreamFrame.length_write h⟩ rfl
  | ack f => exact iff_of_true ⟨_, rfl, AckFrame.length_write h⟩ rfl
  | stopWaiting f => exact iff_of_true ⟨_, StopWaitingFrame.minLength_of_write h, rfl⟩ rfl
  | addAddress f => exact iff_of_true ⟨_, AddAddressFrame.length_write h, rfl⟩ rfl
  | closePath f => exact iff_of_true ⟨_, rfl, ClosePathFrame.length_write h⟩ rfl
  | connectionClose f =>
    unfold write at h
    dsimp only at h
    split_ifs at h
    obtain rfl := Except.ok.inj h
    refine iff_of_true ⟨_, rfl, ?_⟩ rfl
    simp only [List.length_cons, List.length_append, length_toBytes, dataLen]
    omega
  | goaway f =>
    obtain rfl := Except.ok.inj h
    refine iff_of_true ⟨_, rfl, ?_⟩ rfl
    simp only [List.length_cons, List.length_append, length_toBytes, dataLen]
    omega
  | rstStream f | windowUpdate f | blocked f | ping =>
    obtain rfl := Except.ok.inj h
    refine iff_of_true ⟨_, rfl, ?_⟩ rfl
    simp only [List.length_cons, List.length_append, length_toBytes, List.length_nil, dataLen]

/-- A PATHS frame with one path. -/
theorem minLength_exact_pathsOne :
    LengthIs (fun _ => default) (paths ⟨2, 1, [0], [3000]⟩) [0x12, 2, 1, 0, 3, 0] :=
  (minLength_exact_iff (fun _ => default) .little 0 (paths ⟨2, 1, [0], [3000]⟩)
    [0x12, 2, 1, 0, 3, 0] (by decide)).mpr (by decide)

/-- The length of a PATHS frame with 85 paths is 2 in `uint8`; 258 bytes are written. -/
theorem minLength_paths85 :
    let f := paths ⟨255, 85, List.replicate 85 0, List.replicate 85 0⟩
    f.minLength (fun _ => default) = .ok 2 ∧
      ∃ bytes, f.write (fun _ => default) .little 0 = .ok bytes ∧ bytes.length = 258 ∧
        ¬ f.LengthIs (fun _ => default) bytes := by
  obtain ⟨bytes, hbytes⟩ : ∃ bytes, PathsFrame.write
      ⟨255, 85, List.replicate 85 0, List.replicate 85 0⟩ .little = .ok bytes := by
    rw [PathsFrame.write, if_neg (by decide), if_neg (by decide)]
    exact ⟨_, rfl⟩
  have hlen : bytes.length = 258 := PathsFrame.length_write hbytes
  refine ⟨rfl, bytes, hbytes, hlen, ?_⟩
  rintro ⟨n, hn, hsame⟩
  obtain rfl : 2 = n := Except.ok.inj hn
  exact absurd (hlen.symm.trans hsame) (by decide)

end Frame

end MPQuic

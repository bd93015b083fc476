import MPQuic.Lib.Transition
import MPQuic.Wire.Frame

/-!
# Sealing packets

`writeAndSealPacket` of `packet_packer.go` with the packet number generator of each path
(`packet_number_generator.go`) and the nonces of the AES-GCM sealer
(`internal/crypto/aesgcm12_aead.go`).

A nonce is made of the sealer's IV and the packet number. All paths of a session share the sealer,
each path counts its packets from 1, and the path does not enter the nonce. `nonces_distinct` says
that packets of one path never share a nonce, and that two paths do as soon as they use the same
packet number.
-/

namespace MPQuic

open Bytes Transition

/-! ## Packet numbers -/

/-- The state of a packet number generator, which skips a packet number now and then. -/
structure PacketNumberGenerator where
  averagePeriod : ℕ
  next : ℕ
  nextToSkip : ℕ

namespace PacketNumberGenerator

/-- The average period length in which one packet number is skipped. -/
def skipPacketAveragePeriodLength : ℕ := 500

/-- A packet number generator that skips one packet number every `averagePeriod` on average. -/
def newPacketNumberGenerator (averagePeriod : ℕ) : PacketNumberGenerator where
  averagePeriod := averagePeriod
  next := 1
  -- the zero value: `generateNewSkip` is not called
  nextToSkip := 0

/-- The packet number generator of a new path. -/
def new : PacketNumberGenerator := newPacketNumberGenerator skipPacketAveragePeriodLength

/-- The next packet number. -/
def peek (p : PacketNumberGenerator) : ℕ := p.next

/-- Choose the next packet number to skip. There may be no random number to be had. -/
def generateNewSkip (p : PacketNumberGenerator) : Option UInt16 → PacketNumberGenerator
  | none => p
  | some num =>
    let skip := num.toNat * (p.averagePeriod - 1) / ((2 ^ 16 - 1) / 2)
    -- make sure that there are never two consecutive packet numbers that are skipped
    { p with nextToSkip := uint64Add (uint64Add p.next 2) skip }

/-- Take the next packet number. -/
def pop (p : PacketNumberGenerator) (random : Option UInt16) : ℕ × PacketNumberGenerator :=
  let p' := { p with next := uint64Add p.next 1 }
  if p'.next = p'.nextToSkip then
    (p.next, { p' with next := uint64Add p'.next 1 }.generateNewSkip random)
  else (p.next, p')

/-- Packet numbers increase as long as they fit into 64 bits. -/
theorem next_lt_pop {p : PacketNumberGenerator} (h : p.next + 2 < uint64Size)
    (random : Option UInt16) : p.next < (p.pop random).2.next := by
  have h₁ : uint64Add p.next 1 = p.next + 1 := uint64Add_eq (by omega)
  have h₂ : uint64Add (p.next + 1) 1 = p.next + 1 + 1 := uint64Add_eq (by omega)
  unfold pop
  dsimp only
  rw [h₁, h₂]
  split_ifs
  · cases random <;> simp only [generateNewSkip] <;> omega
  · dsimp only
    omega

/-- A packet number is skipped at most once. -/
theorem next_pop_le (p : PacketNumberGenerator) (random : Option UInt16) :
    (p.pop random).2.next ≤ p.next + 2 := by
  have h₁ : uint64Add p.next 1 ≤ p.next + 1 := Nat.mod_le _ _
  have h₂ : uint64Add (uint64Add p.next 1) 1 ≤ uint64Add p.next 1 + 1 := Nat.mod_le _ _
  unfold pop
  dsimp only
  split_ifs
  · cases random <;> simp only [generateNewSkip] <;> omega
  · dsimp only
    omega

end PacketNumberGenerator

/-! ## The sealer -/

/-- The sending half of AES-GCM with 12 bytes tag size. -/
structure AEADAESGCM12 where
  myKey : List UInt8
  myIV : List UInt8
  key_length : myKey.length = 16
  iv_length : myIV.length = 4
  deriving DecidableEq

namespace AEADAESGCM12

/-- A new AEAD; `none` is the error about the lengths of the keys and IVs. -/
def new (otherKey myKey otherIV myIV : List UInt8) : Option AEADAESGCM12 :=
  if h : myKey.length = 16 ∧ otherKey.length = 16 ∧ myIV.length = 4 ∧ otherIV.length = 4 then
    some { myKey, myIV, key_length := h.1, iv_length := h.2.2.1 }
  else none

/-- The nonce for a packet number. -/
def makeNonce (iv : List UInt8) (packetNumber : ℕ) : List UInt8 :=
  iv ++ toBytes .little 8 packetNumber

/-- The length of the tag. -/
def overhead : ℕ := 12

/-- The nonces of a sealer are those of the packet numbers. -/
theorem makeNonce_inj {iv : List UInt8} {n m : ℕ} (hn : n < uint64Size) (hm : m < uint64Size)
    (h : makeNonce iv n = makeNonce iv m) : n = m := by
  unfold uint64Size at hn hm
  exact toBytes_injective (by omega) (by omega) (List.append_cancel_left h)

end AEADAESGCM12

/-! ## Writing and sealing -/

/-- The errors of the packet packer. -/
inductive PackError where
  | write (e : WriteError)
  | packetTooLarge
  | payloadTooLarge
  | noAckFrameQueued
  /-- "Peeked and Popped packet numbers do not match" -/
  | numbersDoNotMatch
  deriving DecidableEq

/-- The bytes of a list of frames. -/
def writeFrames (store : FrameStore) (o : Order) (now : ℕ) :
    List Frame → Except WriteError (List UInt8)
  | [] => .ok []
  | f :: fs => do
    let bytes ← f.write store o now
    let rest ← writeFrames store o now fs
    return bytes ++ rest

variable {store : FrameStore} {fs : List Frame}

theorem writeFrames_cons {o : Order} {now : ℕ} {f : Frame} {bytes : List UInt8}
    (h : writeFrames store o now (f :: fs) = .ok bytes) :
    ∃ b bs, f.write store o now = .ok b ∧ writeFrames store o now fs = .ok bs ∧
      bytes = b ++ bs := by
  obtain ⟨b, hb, h₁⟩ := bind_eq_ok h
  obtain ⟨bs, hbs, h₂⟩ := bind_eq_ok h₁
  exact ⟨b, bs, hb, hbs, (Except.ok.inj h₂).symm⟩

theorem writeFrames_cons_ok {o : Order} {now : ℕ} {f : Frame} {b bs : List UInt8}
    (hb : f.write store o now = .ok b) (hbs : writeFrames store o now fs = .ok bs) :
    writeFrames store o now (f :: fs) = .ok (b ++ bs) := by
  rw [writeFrames, hb, ok_bind, hbs, ok_bind]
  rfl

theorem writeFrames_append {o : Order} {now : ℕ} {gs : List Frame} {bytes : List UInt8}
    (h : writeFrames store o now (fs ++ gs) = .ok bytes) :
    ∃ b bs, writeFrames store o now fs = .ok b ∧ writeFrames store o now gs = .ok bs ∧
      bytes = b ++ bs := by
  induction fs generalizing bytes with
  | nil => exact ⟨[], bytes, rfl, h, rfl⟩
  | cons f fs ih =>
    obtain ⟨b, bs, hb, hbs, rfl⟩ := writeFrames_cons h
    obtain ⟨b', bs', hb', hbs', rfl⟩ := ih hbs
    exact ⟨b ++ b', bs', writeFrames_cons_ok hb hb', hbs', (List.append_assoc ..).symm⟩

/-- A call of `Seal`. -/
structure SealedPacket where
  pathID : PathID
  sealer : AEADAESGCM12
  packetNumber : ℕ
  nonce : List UInt8
  associatedData : List UInt8
  plaintext : List UInt8

/-- Write a packet with a public header and frames, both already encoded, and seal it. The result is
the length of the packet or an error, the call of `Seal` if it was made, and the generator. -/
def writeAndSealPacket (pathID : PathID) (packetNumber : ℕ)
    (publicHeader payload : Except WriteError (List UInt8)) (sealer : AEADAESGCM12)
    (generator : PacketNumberGenerator) (random : Option UInt16) :
    Except PackError ℕ × Option SealedPacket × PacketNumberGenerator :=
  match publicHeader, payload with
  | .error e, _ => (.error (.write e), none, generator)
  | .ok _, .error e => (.error (.write e), none, generator)
  | .ok header, .ok payload =>
    let length := header.length + payload.length + AEADAESGCM12.overhead
    if maxPacketSize < length then (.error .packetTooLarge, none, generator)
    else
      let sealed : SealedPacket :=
        { pathID, sealer, packetNumber, associatedData := header, plaintext := payload,
          nonce := AEADAESGCM12.makeNonce sealer.myIV packetNumber }
      let (num, generator) := generator.pop random
      if num ≠ packetNumber then (.error .numbersDoNotMatch, some sealed, generator)
      else (.ok length, some sealed, generator)

/-- A packet that was written and sealed: its header and payload could be written and fit, they are
what was sealed, and the generator moved on. -/
theorem writeAndSealPacket_ok {pathID : PathID} {packetNumber : ℕ}
    {publicHeader payload : Except WriteError (List UInt8)} {sealer : AEADAESGCM12}
    {generator : PacketNumberGenerator} {random : Option UInt16} {length : ℕ}
    (h : (writeAndSealPacket pathID packetNumber publicHeader payload sealer generator random).1 =
      .ok length) :
    ∃ header plaintext, publicHeader = .ok header ∧ payload = .ok plaintext ∧
      length = header.length + plaintext.length + AEADAESGCM12.overhead ∧ length ≤ maxPacketSize ∧
      (writeAndSealPacket pathID packetNumber publicHeader payload sealer generator random).2.2 =
        (generator.pop random).2 := by
  rcases publicHeader with e | header
  · cases h
  rcases payload with e | plaintext
  · cases h
  unfold writeAndSealPacket at h ⊢
  dsimp only at h ⊢
  by_cases hlong : maxPacketSize < header.length + plaintext.length + AEADAESGCM12.overhead
  · rw [if_pos hlong] at h
    cases h
  · rw [if_neg hlong] at h ⊢
    split_ifs at h ⊢
    obtain rfl := Except.ok.inj h
    exact ⟨header, plaintext, rfl, rfl, rfl, not_lt.mp hlong, rfl⟩

/-- What is sealed is the payload, and it fits into a packet. -/
theorem writeAndSealPacket_sealed {pathID : PathID} {packetNumber : ℕ}
    {publicHeader payload : Except WriteError (List UInt8)} {sealer : AEADAESGCM12}
    {generator : PacketNumberGenerator} {random : Option UInt16} {sealed : SealedPacket}
    (h : (writeAndSealPacket pathID packetNumber publicHeader payload sealer generator random).2.1 =
      some sealed) : payload = .ok sealed.plaintext ∧ sealed.plaintext.length ≤ maxPacketSize := by
  rcases publicHeader with e | header
  · cases h
  rcases payload with e | plaintext
  · cases h
  unfold writeAndSealPacket at h
  dsimp only at h
  split_ifs at h with hlong
  all_goals
    obtain rfl := Option.some.inj h
    have hfits : plaintext.length ≤ maxPacketSize := by omega
    exact ⟨rfl, hfits⟩

/-- The generator moves on if a packet is sealed, and only then. -/
theorem writeAndSealPacket_generator (pathID : PathID) (packetNumber : ℕ)
    (publicHeader payload : Except WriteError (List UInt8)) (sealer : AEADAESGCM12)
    (generator : PacketNumberGenerator) (random : Option UInt16) :
    let r := writeAndSealPacket pathID packetNumber publicHeader payload sealer generator random
    r.2.2 = generator ∨ r.2.2 = (generator.pop random).2 := by
  unfold writeAndSealPacket
  dsimp only
  split
  · exact .inl rfl
  · exact .inl rfl
  · split_ifs
    · exact .inl rfl
    · exact .inr rfl
    · exact .inr rfl

/-! ## Runs -/

/-- The generators of all paths, and the packets that were sealed, the last one first. -/
structure SealingState where
  generator : PathID → PacketNumberGenerator
  sealed : List SealedPacket

/-- A packet is packed for a path. The number in its header is the next one of the path. -/
structure PackCall where
  pathID : PathID
  sealer : AEADAESGCM12
  publicHeader : Except WriteError (List UInt8)
  payload : Except WriteError (List UInt8)
  random : Option UInt16

/-- The call comes to seal a packet: the header and the frames can be written and fit. -/
def PackCall.Seals (c : PackCall) : Prop :=
  ∃ header payload, c.publicHeader = .ok header ∧ c.payload = .ok payload ∧
    header.length + payload.length + AEADAESGCM12.overhead ≤ maxPacketSize

namespace SealingState

/-- A session in which no packet was sent. -/
def init : SealingState where
  generator := fun _ => .new
  sealed := []

/-- What a call does. -/
def pack (s : SealingState) (c : PackCall) : SealingState :=
  let generator := s.generator c.pathID
  let r := writeAndSealPacket c.pathID generator.peek c.publicHeader c.payload c.sealer generator
    c.random
  { generator := Function.update s.generator c.pathID r.2.2
    sealed := r.2.1.toList ++ s.sealed }

/-- No two packets were sealed by one sealer with the same nonce. -/
def NoncesDistinct (s : SealingState) : Prop :=
  s.sealed.Pairwise fun a b => a.sealer = b.sealer → a.nonce ≠ b.nonce

instance (s : SealingState) : Decidable s.NoncesDistinct :=
  inferInstanceAs (Decidable (List.Pairwise _ _))

/-- No other path has sealed a packet with the call's sealer and the next number of its path. -/
def NumberUnused (s : SealingState) (c : PackCall) : Prop :=
  ∀ p ∈ s.sealed, p.sealer = c.sealer → p.pathID ≠ c.pathID →
    p.packetNumber ≠ (s.generator c.pathID).next

/-- The packet numbers of the path are not used up. -/
def NumbersLeft (s : SealingState) (c : PackCall) : Prop :=
  (s.generator c.pathID).next + 2 < uint64Size

instance (s : SealingState) (c : PackCall) : Decidable (s.NumbersLeft c) :=
  inferInstanceAs (Decidable (_ < _))

/-- The calls whose packet number no other path has used. -/
def Step (s : SealingState) (c : PackCall) (t : SealingState) : Prop :=
  s.NumbersLeft c ∧ s.NumberUnused c ∧ t = s.pack c

variable {s : SealingState} {c : PackCall}

/-- A call that fails before sealing changes nothing. -/
theorem pack_of_not_seals (h : ¬ c.Seals) : s.pack c = s := by
  obtain ⟨pathID, sealer, publicHeader, payload, random⟩ := c
  unfold pack writeAndSealPacket
  dsimp only
  rcases publicHeader with e | header
  · simp
  rcases payload with e | payload
  · simp
  have hlong : maxPacketSize < header.length + payload.length + AEADAESGCM12.overhead :=
    not_le.mp fun hle => h ⟨header, payload, rfl, rfl, hle⟩
  simp [hlong]

/-- A call that seals uses the next number of the path, and the generator moves on. -/
theorem pack_of_seals (h : c.Seals) :
    ∃ p : SealedPacket, p.pathID = c.pathID ∧ p.sealer = c.sealer ∧
      p.packetNumber = (s.generator c.pathID).next ∧
      p.nonce = AEADAESGCM12.makeNonce p.sealer.myIV p.packetNumber ∧
      s.pack c =
        { generator := Function.update s.generator c.pathID
            ((s.generator c.pathID).pop c.random).2
          sealed := p :: s.sealed } := by
  obtain ⟨pathID, sealer, publicHeader, payload, random⟩ := c
  obtain ⟨header, payload, rfl, rfl, hle⟩ := h
  unfold pack writeAndSealPacket
  dsimp only
  rw [if_neg (not_lt.mpr hle)]
  -- the packet is sealed before the popped number is compared with the peeked one
  split_ifs <;> exact ⟨_, rfl, rfl, rfl, rfl, rfl⟩

/-- Every sealed packet has a number below the next one of its path, and the nonce for it. -/
structure Inv (s : SealingState) : Prop where
  lt_next : ∀ p ∈ s.sealed, p.packetNumber < (s.generator p.pathID).next
  lt_size : ∀ p ∈ s.sealed, p.packetNumber < uint64Size
  nonce_eq : ∀ p ∈ s.sealed, p.nonce = AEADAESGCM12.makeNonce p.sealer.myIV p.packetNumber

theorem Inv.init : Inv init where
  lt_next := fun _ h => by cases h
  lt_size := fun _ h => by cases h
  nonce_eq := fun _ h => by cases h

/-- Every call keeps the invariant. -/
theorem Inv.pack (hinv : s.Inv) (hleft : s.NumbersLeft c) :
    (s.pack c).Inv := by
  by_cases hseals : c.Seals
  · obtain ⟨p, hpath, -, hnumber, hnonce, hpack⟩ := pack_of_seals (s := s) hseals
    have hlt := PacketNumberGenerator.next_lt_pop hleft c.random
    rw [hpack]
    refine ⟨?_, ?_, ?_⟩ <;> dsimp only <;> rw [List.forall_mem_cons]
    · -- only the generator of the packet's own path moves on
      refine ⟨by rw [hpath, hnumber, Function.update_self]; exact hlt, fun q hq => ?_⟩
      have hq := hinv.lt_next q hq
      by_cases heq : q.pathID = c.pathID
      · rw [heq] at hq ⊢
        rw [Function.update_self]
        omega
      · rwa [Function.update_of_ne heq]
    · unfold NumbersLeft at hleft
      exact ⟨by omega, hinv.lt_size⟩
    · exact ⟨hnonce, hinv.nonce_eq⟩
  · rwa [pack_of_not_seals hseals]

/-- A sealed packet keeps the nonces distinct exactly if no other path has used its number. -/
theorem Inv.noncesDistinct_pack_iff (hinv : s.Inv) (hleft : s.NumbersLeft c)
    (hdistinct : s.NoncesDistinct) (hseals : c.Seals) :
    (s.pack c).NoncesDistinct ↔ s.NumberUnused c := by
  obtain ⟨p, hpath, hsealer, hnumber, hnonce, hpack⟩ := pack_of_seals (s := s) hseals
  unfold NumbersLeft at hleft
  rw [hpack, NoncesDistinct, List.pairwise_cons]
  refine (and_iff_left hdistinct).trans ?_
  constructor
  · intro h q hq hqsealer _ hqnumber
    refine h q hq (hsealer.trans hqsealer.symm) ?_
    rw [hnonce, hinv.nonce_eq q hq, hqsealer, hsealer, hqnumber, hnumber]
  · intro h q hq hqsealer heq
    rw [hnonce, hinv.nonce_eq q hq, ← hqsealer] at heq
    have hnumbers : q.packetNumber = (s.generator c.pathID).next :=
      (AEADAESGCM12.makeNonce_inj (by omega) (hinv.lt_size q hq) heq).symm.trans hnumber
    by_cases hqpath : q.pathID = c.pathID
    -- on one path the numbers increase
    · have hlt := hinv.lt_next q hq
      rw [hqpath] at hlt
      omega
    · exact h q hq (hqsealer.symm.trans hsealer) hqpath hnumbers

/-- Along a run the invariant holds and the nonces are distinct. -/
theorem inv_of_run {calls : List PackCall} (hrun : Run Step init calls s) :
    s.Inv ∧ s.NoncesDistinct := by
  refine hrun.invariant (I := fun _ s => s.Inv ∧ s.NoncesDistinct) ⟨.init, .nil⟩ ?_
  rintro _ s c t ⟨hinv, hdistinct⟩ ⟨hleft, hunused, rfl⟩
  refine ⟨hinv.pack hleft, ?_⟩
  by_cases hseals : c.Seals
  · exact (hinv.noncesDistinct_pack_iff hleft hdistinct hseals).mpr hunused
  · rwa [pack_of_not_seals hseals]

/-- Nonces are not reused in a run in which no path uses a packet number that another path has used
with the same sealer, and the next packet that does so reuses a nonce. -/
theorem nonces_distinct {calls : List PackCall} {s : SealingState}
    (hrun : Run Step init calls s) :
    s.NoncesDistinct ∧
      ∀ c, s.NumbersLeft c → c.Seals → ((s.pack c).NoncesDistinct ↔ s.NumberUnused c) := by
  obtain ⟨hinv, hdistinct⟩ := inv_of_run hrun
  exact ⟨hdistinct, fun c hleft hseals => hinv.noncesDistinct_pack_iff hleft hdistinct hseals⟩

/-- A sealer with a zero key and IV. -/
def exampleSealer : AEADAESGCM12 where
  myKey := List.replicate 16 0
  myIV := List.replicate 4 0
  key_length := rfl
  iv_length := rfl

/-- A packet with a short header and a PING frame. -/
def examplePacket (pathID : PathID) : PackCall where
  pathID
  sealer := exampleSealer
  publicHeader := .ok [0, 1]
  payload := .ok [7]
  random := none

/-- Two packets on one path have different nonces. -/
theorem nonces_distinct_example :
    ((init.pack (examplePacket 1)).pack (examplePacket 1)).NoncesDistinct := by
  have hstep : ∀ s : SealingState, (∀ p ∈ s.sealed, p.pathID = 1) →
      s.NumbersLeft (examplePacket 1) → Step s (examplePacket 1) (s.pack (examplePacket 1)) :=
    fun s hpath hleft => ⟨hleft, fun p hp _ hne => absurd (hpath p hp) hne, rfl⟩
  have hrun : Run Step init _ _ :=
    (Run.nil.snoc (hstep init (by decide) (by decide))).snoc
      (hstep (init.pack (examplePacket 1)) (by decide) (by decide))
  exact (nonces_distinct hrun).1

/-- The first packets of two paths have the same nonce. -/
theorem nonce_reused_on_second_path :
    ¬ ((init.pack (examplePacket 1)).pack (examplePacket 3)).NoncesDistinct := by
  decide

end SealingState

end MPQuic

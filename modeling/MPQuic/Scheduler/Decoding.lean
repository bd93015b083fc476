import MPQuic.Scheduler.NoLoss
import MPQuic.Wire.FrameLength

/-!
# Composed packets and what they decode to

The last STREAM frame of a packet omits its data length, and the parser takes everything up to the
end of the packet as its data. The flag is a field of the shared frame, so that clearing it for the
last frame of a packet clears it for all frames of the packet with the same reference.

`composed_decodes` says that the payload decodes to the frames it was composed of if the
retransmission queue of the stream framer does not hold a frame twice. The queue can hold a frame
twice: `composed_twice` has a frame that was sent on two paths and lost on both.
-/

namespace MPQuic

open Bytes Transition

/-! ## Parsing frame by frame -/

/-- Parse STREAM frames up to the end of the packet. Every frame takes at least one byte, so that
the length of the packet is enough fuel. -/
def parseStreamFrames (o : Order) : ℕ → List UInt8 → Except ParseError (List StreamFrame)
  | _, [] => .ok []
  | 0, _ :: _ => .error .eof
  | n + 1, bs => do
    let r ← StreamFrame.parse o bs
    let frames ← parseStreamFrames o n r.2
    return r.1 :: frames

/-- One round of the loop. -/
theorem parseStreamFrames_cons {o : Order} {n : ℕ} {x : UInt8} {xs rest : List UInt8}
    {f : StreamFrame} {fs : List StreamFrame}
    (hparse : StreamFrame.parse o (x :: xs) = .ok (f, rest))
    (hrest : parseStreamFrames o n rest = .ok fs) :
    parseStreamFrames o (n + 1) (x :: xs) = .ok (f :: fs) := by
  rw [parseStreamFrames, hparse, ok_bind, hrest]
  · rfl
  · nofun

/-- STREAM frames of which all but the last carry their length are read back. -/
theorem parse_writeFrames {store : FrameStore} {o : Order} {now : ℕ} {refs : List FrameRef}
    (hsendable : ∀ ref ∈ refs, (store ref).Sendable)
    (hpresent : ∀ ref ∈ refs.dropLast, (store ref).dataLenPresent = true) {bytes : List UInt8}
    (hwrite : writeFrames store o now (refs.map .stream) = .ok bytes)
    (hle : bytes.length ≤ maxPacketSize) {n : ℕ} (hn : bytes.length ≤ n) :
    parseStreamFrames o n bytes = .ok (refs.map store) := by
  induction refs generalizing bytes n with
  | nil =>
    obtain rfl := Except.ok.inj hwrite
    cases n <;> rfl
  | cons ref refs ih =>
    obtain ⟨b, bs, hb, hbs, rfl⟩ := writeFrames_cons hwrite
    obtain ⟨hs, hsendable⟩ := List.forall_mem_cons.mp hsendable
    -- a written frame has a type byte and its data
    have hlen : (store ref).data.length < b.length := by
      rw [StreamFrame.length_write hb, StreamFrame.minLength, StreamFrame.dataLen]
      omega
    rw [List.length_append] at hle hn
    have hfits : (store ref).Fits := ⟨hs.streamID_lt, hs.end_lt, by omega⟩
    obtain ⟨n, rfl⟩ : ∃ m, n = m + 1 := ⟨n - 1, by omega⟩
    obtain ⟨x, xs, rfl⟩ := List.exists_cons_of_length_pos (Nat.zero_lt_of_lt hlen)
    have hparse : StreamFrame.parse o (x :: xs ++ bs) = .ok (store ref, bs) := by
      refine StreamFrame.parse_write hfits hb bs ?_
      -- only the last frame may go without its length: nothing follows it
      cases refs with
      | nil => exact .inr (Except.ok.inj hbs).symm
      | cons ref' refs => exact .inl (hpresent ref (by simp))
    have hrest := ih hsendable (fun r hr => hpresent r ?_) hbs (by omega) (n := n)
      (by rw [List.length_cons] at hn; omega)
    · exact parseStreamFrames_cons hparse hrest
    · cases refs with
      | nil => cases hr
      | cons ref' refs => exact List.mem_cons_of_mem _ hr

/-! ## Composed packets -/

namespace PacketPacker

variable {p : PacketPacker} {pathID : PathID} {r : Composed} {control : List ControlFrame}
  {popped : List FrameRef} {heap : FrameHeap}

/-- Clearing the flag of the last frame leaves those before it alone if they are other frames. -/
theorem present_omitLastDataLen (hnodup : popped.Nodup)
    (hpresent : ∀ ref ∈ popped, (heap.get ref).dataLenPresent = true) :
    ∀ ref ∈ popped.dropLast, ((omitLastDataLen popped heap).get ref).dataLenPresent = true := by
  intro ref href
  rcases List.eq_nil_or_concat popped with rfl | ⟨init, last, rfl⟩
  · cases href
  · rw [List.concat_eq_append] at *
    rw [List.dropLast_concat] at href
    have hne : ref ≠ last := by
      rw [List.nodup_append] at hnodup
      exact fun heq => hnodup.2.2 ref href last (by simp) heq
    rw [omitLastDataLen, List.getLast?_concat]
    dsimp only
    rw [CellHeap.get_modify_of_ne hne]
    exact hpresent ref (List.mem_append_left _ href)

/-- The frames that are popped from a queue without repetitions are all different. -/
theorem nodup_popped {queue queue' : List FrameRef} {heap heap' : FrameHeap}
    (h : StreamFramer.PopsFrom queue heap popped queue' heap')
    (hqueue : ∀ ref ∈ queue, ref < heap.next) (hnodup : queue.Nodup) : popped.Nodup := by
  obtain ⟨-, first, k, rfl, rfl, -⟩ := h
  refine (List.nodup_append.mp hnodup).1.append List.nodup_range' ?_
  intro ref hfirst hnew
  have hlt := hqueue ref (List.mem_append_left _ hfirst)
  exact absurd hlt (not_lt.mpr (List.mem_range'_1.mp hnew).1)

end PacketPacker

namespace Sender

/-- The frames of the next packet of a path with room for `maxFrameSize` bytes. -/
def compose (s : Sender) (i : PacketPacker.PackInput) (maxFrameSize : ℕ) :
    Except PackError PacketPacker.Composed :=
  (s.packer.numberStopWaiting i.pathID (s.generator i.pathID).peek
    i.header.packetNumberLen).composeNextPacket maxFrameSize
      (PacketPacker.canSendData i.isClient i.encryptionLevel) i.pathID i.visits

/-- The packet with these frames when it is sealed. -/
def sealComposed (s : Sender) (i : PacketPacker.PackInput) (r : PacketPacker.Composed) :
    Option SealedPacket :=
  (writeAndSealPacket i.pathID (s.generator i.pathID).peek i.header.raw
    (writeFrames r.packer.heap.get i.order i.now r.frames) i.sealer (s.generator i.pathID)
    i.random).2.1

/-- The next packet decodes to the frames it is composed of: the STREAM frames are written with
their data length, except for the last frame of the packet, and after the other frames the payload
parses to the STREAM frames one by one. -/
def PayloadDecodes (s : Sender) (i : PacketPacker.PackInput) (maxFrameSize : ℕ) : Prop :=
  ∀ r, s.compose i maxFrameSize = .ok r →
    (∀ ref ∈ streamRefs r.frames.dropLast, (r.packer.heap.get ref).dataLenPresent = true) ∧
      ∀ sealed, s.sealComposed i r = some sealed →
        ∃ others streams, sealed.plaintext = others ++ streams ∧
          writeFrames r.packer.heap.get i.order i.now
            (r.frames.filter fun f => f.streamRef?.isNone) = .ok others ∧
          parseStreamFrames i.order streams.length streams =
            .ok ((streamRefs r.frames).map r.packer.heap.get)

/-- The frames of a packet without its STREAM frames. -/
theorem filter_composed (control : List ControlFrame) (refs : List FrameRef) :
    (control.map (·.1) ++ refs.map Frame.stream).filter (fun f => f.streamRef?.isNone) =
      control.map (·.1) := by
  have hcontrol : (control.map (·.1)).filter (fun f => f.streamRef?.isNone) =
      control.map (·.1) := by
    refine List.filter_eq_self.mpr fun f hf => ?_
    obtain ⟨c, -, rfl⟩ := List.mem_map.mp hf
    rw [c.2]
    rfl
  rw [List.filter_append, hcontrol, List.filter_map]
  simp [Frame.streamRef?, Function.comp_def]

/-- The STREAM frames other than the last frame of a packet. -/
theorem streamRefs_dropLast (control : List ControlFrame) (refs : List FrameRef) :
    streamRefs (control.map (·.1) ++ refs.map Frame.stream).dropLast = refs.dropLast := by
  rcases List.eq_nil_or_concat refs with rfl | ⟨init, last, rfl⟩
  · rw [List.map_nil, List.append_nil, ← List.map_dropLast]
    exact PacketPacker.streamRefs_control _
  · rw [List.concat_eq_append, List.map_append, ← List.append_assoc, List.map_singleton,
      List.dropLast_concat, List.dropLast_concat, PacketPacker.streamRefs_append,
      PacketPacker.streamRefs_control, PacketPacker.streamRefs_stream, List.nil_append]

/-- In every run, the next packet decodes to the frames it is composed of if the retransmission
queue of the stream framer does not hold a frame twice. -/
theorem composed_decodes {events : List Event} {s : Sender} (hrun : Run Step new events s)
    (hnodup : s.packer.streamFramer.retransmissionQueue.Nodup) {i : PacketPacker.PackInput}
    (hvisits : ∀ v ∈ i.visits, v.stream.InRange) (maxFrameSize : ℕ) :
    s.PayloadDecodes i maxFrameSize := by
  intro r hr
  have hinv := (inv_of_run hrun).1
  obtain ⟨control, popped, heap, hcomposes⟩ :=
    PacketPacker.composeNextPacket_ok (p := s.packer.numberStopWaiting _ _ _) hinv.queue_lt
      hvisits hr
  obtain ⟨hframes, hpops, hheap, -, -⟩ := hcomposes
  -- the length is taken from the last frame, which no earlier position shares
  have hpresent : ∀ ref ∈ popped.dropLast, (r.packer.heap.get ref).dataLenPresent = true := by
    rw [hheap]
    exact PacketPacker.present_omitLastDataLen
      (PacketPacker.nodup_popped hpops hinv.queue_lt hnodup) hpops.evolves.popped_present
  have hrefs : streamRefs r.frames = popped := by
    rw [hframes, PacketPacker.streamRefs_append, PacketPacker.streamRefs_control,
      PacketPacker.streamRefs_stream, List.nil_append]
  constructor
  · rw [hframes, streamRefs_dropLast]
    exact hpresent
  · intro sealed hsealed
    obtain ⟨hwrite, hle⟩ := writeAndSealPacket_sealed hsealed
    rw [hframes] at hwrite
    obtain ⟨others, streams, hothers, hstreams, heq⟩ := writeFrames_append hwrite
    refine ⟨others, streams, heq, ?_, ?_⟩
    · rw [hframes, filter_composed]
      exact hothers
    · rw [hrefs]
      refine parse_writeFrames (fun ref href => ?_) hpresent hstreams ?_ le_rfl
      · rw [hheap]
        exact PacketPacker.omitLastDataLen_of_forall
          (fun f hf => ⟨hf.streamID_lt, hf.end_lt, hf.carries⟩)
          (hpops.evolves.sendable hinv.sendable ref (hpops.evolves.popped_lt ref href))
      · rw [heq, List.length_append] at hle
        omega

/-- A packet with nothing but retransmissions. -/
def exampleRetransmission : PacketPacker.PackInput := { exampleSend.input with visits := [] }

/-- The tail loss probes of the paths, after which their packets are dequeued. -/
def exampleLosses (paths : List PathID) : List Event :=
  paths.map (.onAlarm · exampleSend.env false) ++ paths.map (.getRetransmission (fun _ => true) ·)

/-- The packet was sent and lost on the paths. -/
def exampleLost (paths : List PathID) : Sender :=
  (exampleLosses paths).foldl after (new.after (.sendPacket exampleSend))

theorem run_exampleLost (paths : List PathID) :
    Run Step new ([.sendPacket exampleSend] ++ exampleLosses paths) (exampleLost paths) := by
  have hsteps : ∀ e ∈ exampleLosses paths, ∀ s, Step s e (s.after e) := by
    intro e he s
    rcases List.mem_append.mp he with he | he
    · obtain ⟨pathID, -, rfl⟩ := List.mem_map.mp he
      exact ⟨trivial, rfl⟩
    · obtain ⟨pathID, -, rfl⟩ := List.mem_map.mp he
      exact ⟨trivial, rfl⟩
  exact (Run.nil.snoc step_exampleSend).foldl hsteps

/-- A frame that was copied to path 3 and lost on path 1 is sent again. -/
theorem composed_decodes_example :
    (exampleLost [1]).packer.streamFramer.retransmissionQueue = [0] ∧
      (exampleLost [1]).PayloadDecodes exampleRetransmission 100 := by
  have hqueue : (exampleLost [1]).packer.streamFramer.retransmissionQueue = [0] := by
    decide +kernel
  refine ⟨hqueue, composed_decodes (run_exampleLost [1]) ?_ (fun _ hv => by cases hv) 100⟩
  rw [hqueue]
  exact List.nodup_singleton 0

/-- The frame is lost on both paths before it is sent again: the packet has it twice and both times
without its length, and the payload parses to one frame with the second frame as data. -/
theorem composed_twice :
    let s := exampleLost [1, 3]
    Run Step new ([.sendPacket exampleSend] ++ exampleLosses [1, 3]) s ∧
      s.packer.streamFramer.retransmissionQueue = [0, 0] ∧
      ¬ s.PayloadDecodes exampleRetransmission 100 ∧
      (s.compose exampleRetransmission 100).map (fun r => (r.frames,
        (s.sealComposed exampleRetransmission r).map fun p =>
          parseStreamFrames .big p.plaintext.length p.plaintext)) =
        .ok ([.stream 0, .stream 0],
          some (.ok [{ streamID := 5, finBit := true, dataLenPresent := false, offset := 0
                       data := [7, 8, 9, 0xc0, 5, 7, 8, 9] }])) := by
  intro s
  have hcomposed : (s.compose exampleRetransmission 100).map (fun r =>
      (streamRefs r.frames.dropLast, (r.packer.heap.get 0).dataLenPresent)) = .ok ([0], false) := by
    decide +kernel
  refine ⟨run_exampleLost [1, 3], by decide +kernel, fun h => ?_, by decide +kernel⟩
  cases hr : s.compose exampleRetransmission 100 with
  | error e =>
    rw [hr] at hcomposed
    cases hcomposed
  | ok r =>
    rw [hr] at hcomposed
    obtain ⟨hrefs, hpresent⟩ := Prod.mk.inj (Except.ok.inj hcomposed)
    have htrue := (h r hr).1 0 (hrefs ▸ List.mem_singleton_self 0)
    rw [hpresent] at htrue
    cases htrue

end Sender

end MPQuic

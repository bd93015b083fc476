import MPQuic.AckHandler.InFlight
import MPQuic.Wire.AckParse
import MPQuic.Wire.AckRoundTrip

/-!
# Which packets a frame acknowledges

`determineNewlyAckedPackets` walks through the history and the ranges of a frame together. For a
well-formed frame and a sorted history it never reports its internal error, and collects exactly
the packets for which `AcksPacket` holds. The frames that the receiver side builds and those that
the parsers accept are well formed.
-/

namespace MPQuic

open KeyedList

/-- The frames that the receiver side builds are well formed. -/
theorem AckedPackets.Valid.wellFormed {f : AckedPackets} (h : f.Valid) : f.WellFormed := by
  refine ⟨?_, ?_, ?_, ?_, h.lowest_eq, h.lowest_le_largest, h.largest_lt⟩
  all_goals
    rcases hranges : f.ackRanges with _ | ⟨r, rest⟩
    · simp
  all_goals
    obtain ⟨hne, hlast, hle, hcons⟩ := (validateAckRanges_cons_iff hranges).mp h.validRanges
    have hlt := h.last_lt
    rw [hranges] at hle hlt
  · right
    have := List.length_pos_iff.mpr hne
    rw [List.length_cons]
    omega
  · exact hle
  · exact pairwise_of_consistentRanges hcons (List.forall_mem_cons.mp hle).2
      (List.forall_mem_cons.mp hlt).2
  · intro a ha
    obtain rfl : r = a := by simpa using ha
    exact hlast

namespace SentPacketHandler

open AckedPackets TrackedPackets

/-- Ranges in ascending order. -/
def Ascending (ranges : List AckRange) : Prop := ranges.Pairwise fun a b => a.last < b.first

variable {f : AckedPackets}

/-- The ranges of a well-formed frame, with the lowest first. -/
theorem ascending_of_wellFormed (h : f.WellFormed) :
    Ascending f.ackRanges.reverse := by
  rw [Ascending, List.pairwise_reverse]
  exact h.descending.imp fun hlt => by omega

/-- The walk stops at the first range that does not end below `n`. -/
theorem advanceRange_spec {n : ℕ} {ranges : List AckRange} {top : AckRange}
    (htop : ranges.getLast? = some top) (hn : n ≤ top.last) :
    ∃ earlier r later, ranges = earlier ++ r :: later ∧ advanceRange n ranges = r :: later ∧
      (∀ a ∈ earlier, a.last < n) ∧ n ≤ r.last := by
  fun_induction advanceRange n ranges with
  | case1 r r' rest hlt ih =>
    obtain ⟨earlier, a, later, hsplit, hadv, hearlier, ha⟩ := ih (by simpa using htop)
    refine ⟨r :: earlier, a, later, by rw [hsplit]; rfl, hadv, ?_, ha⟩
    exact List.forall_mem_cons.mpr ⟨hlt, hearlier⟩
  | case2 r r' rest hle => exact ⟨[], r, r' :: rest, rfl, rfl, by simp, by omega⟩
  | case3 ranges hne =>
    rcases ranges with _ | ⟨r, _ | ⟨r', rest⟩⟩
    · simp at htop
    · obtain rfl : r = top := by simpa using htop
      exact ⟨[], r, [], rfl, rfl, by simp, hn⟩
    · exact absurd rfl (hne r r' rest)

/-- A packet above the ranges before `r` and not above `r` is acknowledged if and only if it is in
`r`. -/
theorem acksPacket_iff_first_le {before later : List AckRange} {r : AckRange} {n : ℕ}
    (hsplit : f.ackRanges.reverse = before ++ r :: later) (hasc : Ascending f.ackRanges.reverse)
    (hbefore : ∀ a ∈ before, a.last < n) (hr : n ≤ r.last) (hlow : f.lowestAcked ≤ n)
    (hlarge : n ≤ f.largestAcked) :
    f.acksPacket n = true ↔ r.first ≤ n := by
  have hmem : ∀ a, a ∈ f.ackRanges ↔ a ∈ before ∨ a = r ∨ a ∈ later := by
    intro a
    rw [← List.mem_reverse, hsplit, List.mem_append, List.mem_cons]
  have hself : r ∈ f.ackRanges := (hmem r).mpr (.inr (.inl rfl))
  rw [f.acksPacket_iff]
  constructor
  · rintro ⟨-, -, hex⟩
    obtain ⟨a, ha, hfirst, hlast⟩ := hex (List.ne_nil_of_mem hself)
    rcases (hmem a).mp ha with ha | rfl | ha
    · exact absurd (hbefore a ha) (not_lt.mpr hlast)
    · exact hfirst
    · -- the ranges after `r` begin above it
      rw [hsplit, Ascending, List.pairwise_append] at hasc
      have := (List.pairwise_cons.mp hasc.2.1).1 a ha
      omega
  · exact fun hfirst => ⟨hlow, hlarge, fun _ => ⟨r, hself, hfirst, hr⟩⟩

/-- Collecting with the ranges that are left gives the packets that the frame acknowledges. The
ranges that were passed end below all packets that are left. -/
theorem newlyAcked_eq_filter {passed ranges : List AckRange} {l : List Packet}
    (hsplit : f.ackRanges.reverse = passed ++ ranges) (hasc : Ascending f.ackRanges.reverse)
    (htop : f.ackRanges ≠ [] → ∃ top, ranges.getLast? = some top ∧ top.last = f.largestAcked)
    (hpassed : ∀ a ∈ passed, ∀ p ∈ l, a.last < p.packetNumber)
    (hsorted : l.Pairwise (·.packetNumber < ·.packetNumber)) :
    newlyAcked f ranges l = .ok (l.filter fun p => f.acksPacket p.packetNumber) := by
  induction l generalizing passed ranges with
  | nil => rfl
  | cons p l ih =>
    obtain ⟨hp, hl⟩ := List.pairwise_cons.mp hsorted
    have hacks := f.acksPacket_iff p.packetNumber
    have hpassed' : ∀ a ∈ passed, ∀ q ∈ l, a.last < q.packetNumber :=
      fun a ha q hq => hpassed a ha q (List.mem_cons_of_mem _ hq)
    rw [newlyAcked, List.filter_cons]
    by_cases hlow : p.packetNumber < f.lowestAcked
    · rw [if_pos hlow, if_neg (by rw [hacks]; omega), ih hsplit htop hpassed' hl]
    by_cases hlarge : f.largestAcked < p.packetNumber
    · -- all packets from here on are above the largest acked one
      rw [if_neg hlow, if_pos hlarge, if_neg (by rw [hacks]; omega), Eq.comm]
      congr 1
      refine List.filter_eq_nil_iff.mpr fun q hq => ?_
      have := hp q hq
      rw [acksPacket_iff]
      omega
    rw [if_neg hlow, if_neg hlarge]
    by_cases hnil : f.ackRanges = []
    · rw [if_neg (by simp [hasMissingRanges, hnil]), ih hsplit htop hpassed' hl,
        if_pos (hacks.mpr ⟨by omega, by omega, fun h => absurd hnil h⟩)]
      rfl
    · rw [if_pos (by simpa [hasMissingRanges] using hnil)]
      obtain ⟨top, hlast, hlargest⟩ := htop hnil
      -- the walk passes the ranges below the packet, and they stay behind for the packets after it
      obtain ⟨earlier, r, later, hranges, hadv, hearlier, hr⟩ :=
        advanceRange_spec (n := p.packetNumber) hlast (by omega)
      have hsplit' : f.ackRanges.reverse = (passed ++ earlier) ++ r :: later := by
        rw [hsplit, hranges, List.append_assoc]
      have hbefore : ∀ a ∈ passed ++ earlier, a.last < p.packetNumber :=
        List.forall_mem_append.mpr
          ⟨fun a ha => hpassed a ha p List.mem_cons_self, hearlier⟩
      have hrest : newlyAcked f (r :: later) l =
          .ok (l.filter fun p => f.acksPacket p.packetNumber) := by
        refine ih hsplit' (fun _ => ⟨top, ?_, hlargest⟩) (fun a ha q hq => ?_) hl
        · rw [← hlast, hranges, List.getLast?_append_of_ne_nil _ (by simp)]
        · exact (hbefore a ha).trans (hp q hq)
      have hacked := acksPacket_iff_first_le hsplit' hasc hbefore hr (by omega) (by omega)
      rw [hadv]
      dsimp only
      by_cases hfirst : r.first ≤ p.packetNumber
      · rw [if_pos hfirst, if_neg (by omega), hrest, if_pos (hacked.mpr hfirst)]
        rfl
      · rw [if_neg hfirst, hrest, if_neg (mt hacked.mp hfirst)]

/-- For a well-formed frame, exactly the packets that it acknowledges are collected. -/
theorem determineNewlyAckedPackets_of_wellFormed {h : SentPacketHandler}
    (hsorted : h.packetHistory.Pairwise (·.packetNumber < ·.packetNumber)) (hf : f.WellFormed) :
    h.determineNewlyAckedPackets f =
      .ok (h.packetHistory.filter fun p => f.acksPacket p.packetNumber) := by
  refine newlyAcked_eq_filter (List.nil_append _).symm (ascending_of_wellFormed hf)
    (fun hne => ?_) (by simp) hsorted
  obtain ⟨r, rest, hranges⟩ := List.exists_cons_of_ne_nil hne
  have hhead : f.ackRanges.head? = some r := by rw [hranges, List.head?_cons]
  exact ⟨r, by rw [List.getLast?_reverse, hhead], hf.largest_eq r hhead⟩

theorem determineNewlyAckedPackets_eq {h : SentPacketHandler} (hinv : h.InFlight)
    (hvalid : f.Valid) :
    h.determineNewlyAckedPackets f =
      .ok (h.packetHistory.filter fun p => f.acksPacket p.packetNumber) :=
  determineNewlyAckedPackets_of_wellFormed hinv.sorted hvalid.wellFormed

/-- For every ACK and CLOSE_PATH frame that is accepted, exactly the packets that it acknowledges
are collected. -/
theorem determineNewlyAckedPackets_of_parse {h : SentPacketHandler}
    (hsorted : h.packetHistory.Pairwise (·.packetNumber < ·.packetNumber)) (o : Bytes.Order)
    (bs : List UInt8) :
    (∀ f rest, AckFrame.parse o bs = .ok (f, rest) →
      h.determineNewlyAckedPackets f.toAckedPackets =
        .ok (h.packetHistory.filter fun p => f.acksPacket p.packetNumber)) ∧
    (∀ f rest, ClosePathFrame.parse o bs = .ok (f, rest) →
      h.determineNewlyAckedPackets f.toAckedPackets =
        .ok (h.packetHistory.filter fun p => f.acksPacket p.packetNumber)) := by
  constructor
  · intro f rest hf
    obtain ⟨_, _, _, hreads⟩ := AckFrame.parse_reads hf
    exact determineNewlyAckedPackets_of_wellFormed hsorted hreads.wellFormed
  · intro f rest hf
    obtain ⟨_, _, _, hreads⟩ := ClosePathFrame.parse_reads hf
    exact determineNewlyAckedPackets_of_wellFormed hsorted hreads.wellFormed

/-- Of the packets 1 to 6, a received frame acknowledges 1, 2, 4 and 5. -/
theorem determineNewlyAckedPackets_of_received :
    let packet (n : ℕ) : Packet :=
      { packetNumber := n, frames := [], length := 100, encryptionLevel := .forwardSecure,
        sendTime := 0 }
    let h := { SentPacketHandler.new with packetHistory := [1, 2, 3, 4, 5, 6].map packet }
    ∃ f : AckFrame, AckFrame.parse .big [0x60, 5, 0, 0, 1, 2, 1, 2, 0] = .ok (f, []) ∧
      h.determineNewlyAckedPackets f.toAckedPackets = .ok ([1, 2, 4, 5].map packet) := by
  intro packet h
  have hok : AckFrame.parse .big [0x60, 5, 0, 0, 1, 2, 1, 2, 0] =
      .ok (⟨⟨5, 1, [⟨4, 5⟩, ⟨1, 2⟩]⟩, 0, 0, 0⟩, []) := by decide
  exact ⟨_, hok, (determineNewlyAckedPackets_of_parse (h := h) (by decide) .big _).1 _ _ hok⟩

end SentPacketHandler

/-! ## What is left of the history -/

namespace TrackedPackets

variable {t : TrackedPackets}

theorem foldl_remove_packetHistory (t : TrackedPackets) (acked : List Packet) :
    (acked.foldl TrackedPackets.remove t).packetHistory =
      acked.foldl (fun l p => eraseKey Packet.packetNumber p.packetNumber l) t.packetHistory := by
  induction acked generalizing t with
  | nil => rfl
  | cons p acked ih => exact ih (t.remove p)

theorem foldl_queue_packetHistory (t : TrackedPackets) (lost : List Packet) :
    (lost.foldl queue t).packetHistory =
      lost.foldl (fun l p => eraseKey Packet.packetNumber p.packetNumber l) t.packetHistory := by
  induction lost generalizing t with
  | nil => rfl
  | cons p lost ih => exact ih (t.queue p)

variable {p : Packet}

/-- After the acknowledged packets are processed, the others are left in the history. -/
theorem InFlight.mem_foldl_remove {acked : List Packet} (h : t.InFlight)
    (hacked : acked.Sublist t.packetHistory) :
    p ∈ (acked.foldl TrackedPackets.remove t).packetHistory ↔
      p ∈ t.packetHistory ∧ p ∉ acked := by
  rw [foldl_remove_packetHistory]
  exact mem_foldl_eraseKey h.nodup hacked

/-- After the lost packets are queued, the others are left in the history. -/
theorem InFlight.mem_foldl_queue {lost : List Packet} (h : t.InFlight)
    (hlost : lost.Sublist t.packetHistory) :
    p ∈ (lost.foldl TrackedPackets.queue t).packetHistory ↔ p ∈ t.packetHistory ∧ p ∉ lost := by
  rw [foldl_queue_packetHistory]
  exact mem_foldl_eraseKey h.nodup hlost

theorem foldl_queue_retransmissionQueue (t : TrackedPackets) (lost : List Packet) :
    (lost.foldl queue t).retransmissionQueue = t.retransmissionQueue ++ lost := by
  induction lost generalizing t with
  | nil => simp
  | cons p lost ih =>
    rw [List.foldl_cons, ih]
    simp [queue]

/-- In a sorted history the leading packets up to `n` are all packets up to `n`. -/
theorem mem_takeWhile_of_sorted {l : List Packet}
    (hsorted : l.Pairwise (·.packetNumber < ·.packetNumber)) {n : ℕ} :
    p ∈ l.takeWhile (·.packetNumber ≤ n) ↔ p ∈ l ∧ p.packetNumber ≤ n := by
  induction l with
  | nil => simp
  | cons q l ih =>
    obtain ⟨hq, hl⟩ := List.pairwise_cons.mp hsorted
    rw [List.takeWhile_cons]
    by_cases hle : q.packetNumber ≤ n
    · rw [if_pos (decide_eq_true hle), List.mem_cons, List.mem_cons, ih hl]
      constructor
      · rintro (rfl | ⟨hmem, hp⟩)
        · exact ⟨.inl rfl, hle⟩
        · exact ⟨.inr hmem, hp⟩
      · rintro ⟨rfl | hmem, hp⟩
        · exact .inl rfl
        · exact .inr ⟨hmem, hp⟩
    · rw [if_neg (by simpa using hle)]
      simp only [List.not_mem_nil, List.mem_cons, false_iff, not_and]
      rintro (rfl | hmem)
      · exact hle
      · have := hq p hmem
        omega

/-- Declaring the packets up to `n` lost leaves those above `n` in the history. -/
theorem InFlight.mem_queue_takeWhile (h : t.InFlight) {n : ℕ} :
    p ∈ ((t.packetHistory.takeWhile (·.packetNumber ≤ n)).foldl TrackedPackets.queue
        t).packetHistory ↔
      p ∈ t.packetHistory ∧ n < p.packetNumber := by
  rw [h.mem_foldl_queue (List.takeWhile_sublist _), mem_takeWhile_of_sorted h.sorted, not_and,
    not_le]
  exact and_congr_right fun hp => ⟨fun hn => hn hp, fun hn _ => hn⟩

end TrackedPackets

end MPQuic

import MPQuic.Packer.Seal
import MPQuic.Scheduler.StopWaiting

/-!
# The length of the packet number

The public header and a STOP_WAITING frame write numbers in the length that is chosen from the
distance between the packet number and `GetLeastUnacked`. Neither of the two numbers that have to
be restored from the written bytes is the one that this distance is measured to:

* a STOP_WAITING frame carries `nextLeastUnacked`, which stays behind when packets are dropped from
  the history because a copy was acknowledged on another path (`stopWaiting_survives_iff`);
* the peer restores the packet number from the largest packet it has received, which stays behind
  when packets are lost (`packetNumber_decodable_iff`).

The redundant scheduler on a path that delivers nothing does both: `copies` is such a run.
-/

namespace MPQuic

open Bytes Transition SentPacketHandler

namespace PathHandlers

variable {s : PathHandlers} {pathID : PathID} {calls : List ManagerCall}

/-- The sender waits for no packet that is not sent yet. -/
theorem Announces.getLeastUnacked_le (hs : s.Announces) (pathID : PathID) :
    (s.handler pathID).getLeastUnacked ≤ (s.handler pathID).lastSentPacketNumber + 1 := by
  have hrange := (hs.inv.handler pathID).inFlight.range
  have hlargest := (hs.stopWaiting pathID).largestAcked_le
  unfold getLeastUnacked largestInOrderAcked
  split
  · next p rest hhistory =>
    have := hrange p (by simp [hhistory])
    omega
  · omega

/-- After every run, a STOP_WAITING frame for the next packet `n` can be written, and the receiver
of the packet gets the same number if and only if this condition on the state holds: less than
`2 ^ 16` packet numbers were used since the number that is announced, or the oldest packet of the
history is at least `2 ^ 15` below `n`, so that a longer packet number is used. -/
theorem stopWaiting_survives_iff (hcalls : ∀ c ∈ calls, c.Admissible)
    (hrun : Run ManagerStep new calls s) {force : Bool} {u : ℕ}
    (hframe : ((s.handler pathID).stopWaitingManager.getStopWaitingFrame force).1 = some u) {n : ℕ}
    (hn : (s.handler pathID).lastSentPacketNumber < n) (hsize : n < uint64Size) (o : Order) :
    let g := (s.handler pathID).getLeastUnacked
    let m := (s.handler pathID).stopWaitingManager.nextLeastUnacked
    let f : StopWaitingFrame :=
      { leastUnacked := u, packetNumber := n
        packetNumberLen := getPacketNumberLengthForPublicHeader n g }
    0 < u ∧ u ≤ n ∧ (∃ bytes, f.write o = .ok bytes) ∧
      (f.Survives o ↔ n < m + 2 ^ 16 ∨ (g + 2 ^ 15 ≤ n ∧ n < m + 2 ^ 32) ∨
        (g + 2 ^ 31 ≤ n ∧ n < m + 2 ^ 48)) := by
  intro g m f
  have hs := announces_of_run hcalls hrun
  obtain ⟨rfl, hpos⟩ := (hs.stopWaiting pathID).announced.leastUnacked_eq hframe
  have hnext := (hs.stopWaiting pathID).next_le
  have hg := hs.getLeastUnacked_le pathID
  have hle : m ≤ n := by omega
  have hlen := getPacketNumberLengthForPublicHeader_ne n g
  refine ⟨hpos, hle, ⟨_, StopWaitingFrame.write_of_le hpos hle hlen⟩, ?_⟩
  rw [StopWaitingFrame.survives_iff hpos hle hlen]
  dsimp only [f]
  rw [getPacketNumberLengthForPublicHeader_eq (by omega) hsize]
  split_ifs <;> simp only [PacketNumberLen.toNat] <;> norm_num <;> omega

/-- The packet number of the path that a call acknowledges last. -/
def acknowledged (pathID : PathID) : ManagerCall → Option ℕ
  | .handler (.receivedAck q f _ _) => if q = pathID then some f.largestAcked else none
  | .handler (.receivedClosePath q f _) => if q = pathID then some f.largestAcked else none
  | _ => none

/-- The largest packet number of the path that the peer acknowledged. -/
def largestAcknowledged (pathID : PathID) (calls : List ManagerCall) : ℕ :=
  (calls.filterMap (acknowledged pathID)).foldl max 0

/-- After every run, the peer restores the number of the next packet `n` from its low bytes,
whatever its largest packet is, if and only if this condition holds: `n` is at most half an epoch
above the largest packet number `l` that was acknowledged, or in the first epoch. The length of the
epoch `d` depends on the oldest packet of the history, not on `l`. -/
theorem packetNumber_decodable_iff (hcalls : ∀ c ∈ calls, c.Admissible)
    (hrun : Run ManagerStep new calls s) {n : ℕ}
    (hn : (s.handler pathID).lastSentPacketNumber < n) (hsize : n < 2 ^ 63) :
    let g := (s.handler pathID).getLeastUnacked
    let l := largestAcknowledged pathID calls
    let len := getPacketNumberLengthForPublicHeader n g
    let d := if n < g + 2 ^ 15 then 2 ^ 16 else if n < g + 2 ^ 31 then 2 ^ 32 else 2 ^ 48
    (∀ r, l ≤ r → r < n → inferPacketNumber len r (n % 2 ^ (8 * len.toNat)) = n) ↔
      n < d ∨ n ≤ l + d / 2 ∨ (n = l + d / 2 + 1 ∧ l / d < n / d) := by
  intro g l len d
  have hg := (announces_of_run hcalls hrun).getLeastUnacked_le pathID
  have hsize' : (2 : ℕ) ^ 63 + 2 ^ 50 < uint64Size := by decide
  have hlen : len = if n < g + 2 ^ 15 then .len2 else if n < g + 2 ^ 31 then .len4 else .len6 :=
    getPacketNumberLengthForPublicHeader_eq (by omega) (by omega)
  have hd : epochDelta len = d := by
    rw [hlen]
    dsimp only [d]
    split_ifs <;> rfl
  have hhalf : epochDelta len = 2 * (d / 2) := by
    rw [hd]
    dsimp only [d]
    split_ifs <;> rfl
  have hbound : n + 4 * (d / 2) < uint64Size := by
    have : d ≤ 2 ^ 48 := by
      dsimp only [d]
      split_ifs <;> norm_num
    omega
  have hiff := forall_inferPacketNumber_eq_iff (l := l) hhalf hbound
  rw [hd] at hiff
  rw [show 2 ^ (8 * len.toNat) = d from hd]
  exact hiff

/-! ## A path that delivers nothing -/

/-- Packet `n` is sent on path 1 and copied to path 3, where it is acknowledged. -/
def copyRound (n : ℕ) : List Call :=
  [.sentPacket 1 (pingPacket n) (envAt n), .sentPacket 3 (pingPacket n) (envAt n),
    .addDuplicate ⟨1, n⟩ ⟨3, n⟩ true, .receivedAck 3 (ackFrame 3 n n []) n (envAt n)]

/-- The first packet of each path is acknowledged, and `k` more packets are copied. -/
def copies (k : ℕ) : List Call :=
  [.sentPacket 1 (pingPacket 1) (envAt 1), .receivedAck 1 (ackFrame 1 1 1 []) 1 (envAt 1),
    .sentPacket 3 (pingPacket 1) (envAt 1), .receivedAck 3 (ackFrame 3 1 1 []) 1 (envAt 1)] ++
    (List.range k).flatMap fun i => copyRound (i + 2)

/-- The handler has sent the packets up to `n` without a gap, and keeps the packets `l`. -/
structure Keeps (h : SentPacketHandler) (n : ℕ) (l : List Packet) : Prop where
  history : h.packetHistory = l
  queue : h.retransmissionQueue = []
  lastSent : h.lastSentPacketNumber = n
  skipped : h.skippedPackets = []

/-- The state after the packets up to `n` were copied. -/
structure Copied (n : ℕ) (s : PathHandlers) : Prop where
  original : Keeps (s.handler 1) n []
  copy : Keeps (s.handler 3) n []
  stopWaiting : (s.handler 1).stopWaitingManager =
    { largestLeastUnackedSent := 0, nextLeastUnacked := 2, lastStopWaitingFrame := none }
  received : (s.handler 3).largestReceivedPacketWithAck = n

/-- What the handler keeps of a packet with a PING frame. -/
def sentPing (n now : ℕ) : Packet := { pingPacket n with sendTime := now }

/-- A handler that keeps no packet sends one with a PING frame. -/
theorem Keeps.sentPacket {h : SentPacketHandler} {n : ℕ} (hk : Keeps h n []) (env : Env) :
    ∃ h', h.sentPacket (pingPacket (n + 1)) env = .ok h' ∧
      Keeps h' (n + 1) [sentPing (n + 1) env.now] ∧
      h'.stopWaitingManager = h.stopWaitingManager ∧
      h'.largestReceivedPacketWithAck = h.largestReceivedPacketWithAck := by
  obtain ⟨hhistory, hqueue, hlast, hskipped⟩ := hk
  obtain ⟨h', hok⟩ : ∃ h', h.sentPacket (pingPacket (n + 1)) env = .ok h' := by
    unfold SentPacketHandler.sentPacket
    rw [if_neg (by simp [pingPacket, hlast]), if_neg (by rw [hhistory, hqueue]; decide)]
    exact ⟨_, rfl⟩
  obtain ⟨-, -, hack, ⟨hnil, -⟩ | ⟨-, heq⟩⟩ := sentPacket_ok hok
  · cases hnil
  · refine ⟨h', hok, ⟨?_, ?_, ?_, ?_⟩, sentPacket_stopWaitingManager hok, by rw [hack]⟩
    · rw [heq, TrackedPackets.push, hhistory]
      rfl
    · rw [heq]
      exact hqueue
    · rw [heq]
      rfl
    · rw [hack]
      -- the number follows the last one, so that none is skipped
      simp [skipPackets, pingPacket, hlast, hskipped]

/-- Without packets in the history, nothing is lost. -/
theorem finishAck_of_nil {h : SentPacketHandler} (hhistory : h.packetHistory = [])
    (largestAcked : ℕ) (env : Env) :
    (finishAck h largestAcked env).toTrackedPackets = h.toTrackedPackets ∧
      (finishAck h largestAcked env).skippedPackets ⊆ h.skippedPackets ∧
      (finishAck h largestAcked env).largestReceivedPacketWithAck =
        h.largestReceivedPacketWithAck := by
  have hlost : h.detectLostPackets env = { h with lossTime := none } := by
    unfold detectLostPackets
    rw [hhistory]
    rfl
  have hack : (({ h with lossTime := none } : SentPacketHandler).updateLossDetectionAlarm
      env).toAckState = h.toAckState := updateLossDetectionAlarm_ackState _ env
  unfold finishAck
  rw [hlost]
  dsimp only [garbageCollectSkippedPackets]
  rw [hack]
  exact ⟨updateLossDetectionAlarm_tracked _ env, fun _ => List.mem_of_mem_drop, rfl⟩

/-- The only packet is dropped from the history. -/
theorem Keeps.removePacketByNumber {h : SentPacketHandler} {n now : ℕ}
    (hkeeps : Keeps h n [sentPing n now]) : Keeps (h.removePacketByNumber n).2 n [] := by
  obtain ⟨hhist, hqueue, hlast, hskipped⟩ := hkeeps
  have hfind : h.find n = some (sentPing n now) := by
    simp [TrackedPackets.find, hhist, sentPing, pingPacket]
  unfold SentPacketHandler.removePacketByNumber
  simp only [hfind]
  rw [if_pos (by simp [sentPing, pingPacket])]
  refine ⟨?_, hqueue, hlast, hskipped⟩
  simp [TrackedPackets.remove, hhist, KeyedList.eraseKey, sentPing, pingPacket]

/-- The copy is acknowledged on path 3, and the original is dropped from path 1. -/
theorem receivedAck_copy {n now : ℕ} (env : Env) (hpos : 0 < n)
    (horiginal : Keeps (s.handler 1) n [sentPing n now])
    (hcopy : Keeps (s.handler 3) n [sentPing n now])
    (hreceived : (s.handler 3).largestReceivedPacketWithAck < n)
    (hdup : s.dupPackets ⟨3, n⟩ = some ⟨1, n⟩) :
    let t := (s.receivedAck 3 (ackFrame 3 n n []) n env).2
    Keeps (t.handler 1) n [] ∧ Keeps (t.handler 3) n [] ∧
      (t.handler 1).stopWaitingManager = (s.handler 1).stopWaitingManager ∧
      (t.handler 3).largestReceivedPacketWithAck = n := by
  let h : SentPacketHandler :=
    { s.handler 3 with largestReceivedPacketWithAck := n, largestAcked := n }
  have hhistory : h.packetHistory = [sentPing n now] := hcopy.history
  -- the ACK frame passes all checks and acknowledges the packet
  have hacked : h.determineNewlyAckedPackets (ackFrame 3 n n []).toAckedPackets =
      .ok [sentPing n now] := by
    rw [determineNewlyAckedPackets, hhistory]
    simp [ackFrame, newlyAcked, sentPing, pingPacket, AckedPackets.hasMissingRanges]
  have hack : (s.receivedAck 3 (ackFrame 3 n n []) n env).2 =
      (((s.modify 3 fun _ => h).crossAckHandling 3 n).modify 3
        (·.onPacketAcked (sentPing n now))).modify 3 (finishAck · n env) := by
    unfold PathHandlers.receivedAck
    dsimp only
    rw [if_neg (by simp [ackFrame, hcopy.lastSent]), if_neg (by omega),
      if_neg (by simp [largestInOrderAcked, hcopy.history, ackFrame, sentPing, pingPacket]; omega),
      if_neg (by simp [skippedPacketsAcked, hcopy.skipped])]
    simp only [ackFrame] at hacked ⊢
    rw [hacked]
    rfl
  -- the acknowledgement of the copy counts for the original
  have hcross : ((s.modify 3 fun _ => h).crossAckHandling 3 n).handler =
      Function.update (s.modify 3 fun _ => h).handler 1
        ((s.handler 1).removePacketByNumber n).2 := by
    unfold crossAckHandling
    have hdup' : (s.modify 3 fun _ => h).dupPackets ⟨3, n⟩ = some ⟨1, n⟩ := hdup
    simp only [hdup']
    rfl
  have hone : (s.receivedAck 3 (ackFrame 3 n n []) n env).2.handler 1 =
      ((s.handler 1).removePacketByNumber n).2 := by
    rw [hack, modify_handler_of_ne (by decide), modify_handler_of_ne (by decide), hcross,
      Function.update_self]
  have hthree : (s.receivedAck 3 (ackFrame 3 n n []) n env).2.handler 3 =
      finishAck (h.onPacketAcked (sentPing n now)) n env := by
    rw [hack, modify_handler_self, modify_handler_self, hcross, Function.update_of_ne (by decide),
      modify_handler_self]
  have hnil : (h.onPacketAcked (sentPing n now)).packetHistory = [] := by
    simp [onPacketAcked, TrackedPackets.remove, hhistory, KeyedList.eraseKey]
  obtain ⟨htracked, hskipped, hlargest⟩ := finishAck_of_nil hnil n env
  intro t
  refine ⟨hone ▸ horiginal.removePacketByNumber, hthree ▸ ⟨?_, ?_, ?_, ?_⟩, ?_, hthree ▸ hlargest⟩
  · rw [htracked]
    exact hnil
  · rw [htracked]
    exact hcopy.queue
  · rw [htracked]
    exact hcopy.lastSent
  · exact List.eq_nil_of_subset_nil (hcopy.skipped ▸ hskipped)
  · rw [hone]
    exact (drops_removePacketByNumber _ n).stopWaiting

theorem Copied.round {n : ℕ} (hc : Copied n s) :
    Copied (n + 1) ((copyRound (n + 1)).foldl apply s) := by
  obtain ⟨h₁, hok₁, hk₁, hm₁, -⟩ := hc.original.sentPacket (envAt (n + 1))
  obtain ⟨h₃, hok₃, hk₃, -, hr₃⟩ := hc.copy.sentPacket (envAt (n + 1))
  let t := ((s.modify 1 fun _ => h₁).modify 3 fun _ => h₃).addDuplicate ⟨1, n + 1⟩ ⟨3, n + 1⟩ true
  have hone : t.handler 1 = h₁ := by
    change ((s.modify 1 fun _ => h₁).modify 3 fun _ => h₃).handler 1 = h₁
    rw [modify_handler_of_ne (by decide), modify_handler_self]
  have hthree : t.handler 3 = h₃ := by
    change ((s.modify 1 fun _ => h₁).modify 3 fun _ => h₃).handler 3 = h₃
    rw [modify_handler_self]
  have hdup : t.dupPackets ⟨3, n + 1⟩ = some ⟨1, n + 1⟩ := Function.update_self ..
  have hround : (copyRound (n + 1)).foldl apply s =
      (t.receivedAck 3 (ackFrame 3 (n + 1) (n + 1) []) (n + 1) (envAt (n + 1))).2 := by
    have hsame : (s.modify 1 fun _ => h₁).handler 3 = s.handler 3 :=
      modify_handler_of_ne (by decide) _
    simp only [copyRound, List.foldl_cons, List.foldl_nil, PathHandlers.apply, hok₁, hsame, hok₃]
    rfl
  obtain ⟨horiginal, hcopy, hmanager, hreceived⟩ := receivedAck_copy (s := t)
    (envAt (n + 1)) n.succ_pos (hone ▸ hk₁) (hthree ▸ hk₃)
    (by rw [hthree, hr₃, hc.received]; exact n.lt_succ_self) hdup
  rw [hround]
  refine ⟨horiginal, hcopy, ?_, hreceived⟩
  rw [hmanager, hone, hm₁]
  exact hc.stopWaiting

theorem copied_copies (k : ℕ) : Copied (k + 1) ((copies k).foldl apply new) := by
  induction k with
  | zero => exact ⟨⟨rfl, rfl, rfl, rfl⟩, ⟨rfl, rfl, rfl, rfl⟩, rfl, rfl⟩
  | succ k ih =>
    have hlast : copies (k + 1) = copies k ++ copyRound (k + 2) := by
      simp [copies, List.range_succ]
    rw [hlast, List.foldl_append]
    exact ih.round

/-- The copies, and one more packet that is outstanding on path 1. -/
def outstandingCopy (k : ℕ) : List Call :=
  copies k ++ [.sentPacket 1 (pingPacket (k + 2)) (envAt (k + 2))]

theorem admissible_outstandingCopy (k : ℕ) :
    ∀ c ∈ (outstandingCopy k).map ManagerCall.handler, c.Admissible := by
  have hsent : ∀ q n, (Call.sentPacket q (pingPacket n) (envAt n)).Admissible :=
    fun q n => ⟨by simp [pingPacket], by simp [pingPacket]⟩
  have hround : ∀ n, ∀ c ∈ copyRound n, c.Admissible := by
    intro n
    simp only [copyRound, List.forall_mem_cons]
    exact ⟨hsent 1 n, hsent 3 n, by simp [Call.Admissible], trivial, by simp⟩
  simp only [outstandingCopy, copies, List.forall_mem_map, List.forall_mem_append,
    List.forall_mem_cons, List.mem_flatMap, ManagerCall.Admissible]
  refine ⟨⟨⟨hsent 1 1, trivial, hsent 3 1, trivial, by simp⟩, ?_⟩, hsent 1 (k + 2), by simp⟩
  intro c hc
  obtain ⟨i, -, hc⟩ := hc
  exact hround (i + 2) c hc

theorem largestAcknowledged_outstandingCopy (k : ℕ) :
    largestAcknowledged 1 ((outstandingCopy k).map ManagerCall.handler) = 1 := by
  have hround : ∀ n, (copyRound n).filterMap (acknowledged 1 ∘ ManagerCall.handler) = [] :=
    fun n => rfl
  have hrounds : (List.range k).flatMap (fun _ => ([] : List ℕ)) = [] :=
    List.flatMap_eq_nil_iff.mpr fun _ _ => rfl
  simp only [largestAcknowledged, outstandingCopy, copies, List.filterMap_map,
    List.filterMap_append, List.filterMap_flatMap, hround, hrounds]
  rfl

/-- The run with one outstanding packet: the handler waits for this packet, but announces the
number after the first one. -/
theorem exists_outstandingCopy (k : ℕ) : ∃ (calls : List ManagerCall) (s : PathHandlers),
    (∀ c ∈ calls, c.Admissible) ∧ Run ManagerStep new calls s ∧ largestAcknowledged 1 calls = 1 ∧
      (s.handler 1).getLeastUnacked = k + 2 ∧ (s.handler 1).lastSentPacketNumber = k + 2 ∧
      ((s.handler 1).stopWaitingManager.getStopWaitingFrame true).1 = some 2 := by
  refine ⟨_, _, admissible_outstandingCopy k, run_handler _,
    largestAcknowledged_outstandingCopy k, ?_⟩
  have hc := copied_copies k
  obtain ⟨h, hok, hk, hm, -⟩ := hc.original.sentPacket (envAt (k + 2))
  have hself : ((outstandingCopy k).foldl apply new).handler 1 = h := by
    rw [outstandingCopy, List.foldl_append, List.foldl_cons, List.foldl_nil]
    simp only [PathHandlers.apply, hok]
    rw [modify_handler_self]
  rw [hself, hm, hc.stopWaiting, getLeastUnacked, largestInOrderAcked, hk.history]
  exact ⟨rfl, hk.lastSent, rfl⟩

/-- Packets 1 and 2 are acknowledged and packet 3 is outstanding. -/
def smallRun : List Call :=
  [.sentPacket 1 (pingPacket 1) (envAt 5), .sentPacket 1 (pingPacket 2) (envAt 6),
    .receivedAck 1 (ackFrame 1 1 2 []) 1 (envAt 50), .sentPacket 1 (pingPacket 3) (envAt 51)]

theorem admissible_smallRun : ∀ c ∈ smallRun.map ManagerCall.handler, c.Admissible := by
  simp [smallRun, ManagerCall.Admissible, Call.Admissible, pingPacket]

/-- The frame that announces packet 3 is sent with packet 4. -/
theorem stopWaiting_survives_iff_example :
    ({ leastUnacked := 3, packetNumberLen := .len2, packetNumber := 4 } :
      StopWaitingFrame).Survives .big := by
  have hframe : (((smallRun.foldl apply new).handler 1).stopWaitingManager.getStopWaitingFrame
    false).1 = some 3 := by decide
  have hlast : ((smallRun.foldl apply new).handler 1).lastSentPacketNumber < 4 := by decide
  obtain ⟨-, -, -, hiff⟩ := stopWaiting_survives_iff admissible_smallRun (run_handler smallRun)
    hframe hlast (by decide) .big
  exact hiff.mpr (by decide)

/-- The first packet of path 1 is acknowledged there, and the following ones on path 3. The frame
that announces packet 2 is sent with packet 65538, and tells the peer not to wait for any packet
below 65538. -/
theorem stopWaiting_truncated : ∃ (calls : List ManagerCall) (s : PathHandlers),
    (∀ c ∈ calls, c.Admissible) ∧ Run ManagerStep new calls s ∧
      (s.handler 1).lastSentPacketNumber < 65538 ∧
      ((s.handler 1).stopWaitingManager.getStopWaitingFrame true).1 = some 2 ∧
      let len := getPacketNumberLengthForPublicHeader 65538 (s.handler 1).getLeastUnacked
      ({ leastUnacked := 2, packetNumber := 65538, packetNumberLen := len } :
        StopWaitingFrame).write .big = .ok [0x06, 0, 0] ∧
      StopWaitingFrame.parse .big 65538 len [0x06, 0, 0] =
        .ok ({ leastUnacked := 65538, packetNumberLen := .invalid, packetNumber := 0 }, []) := by
  obtain ⟨calls, s, hcalls, hrun, -, hleast, hlast, hframe⟩ := exists_outstandingCopy 65535
  refine ⟨calls, s, hcalls, hrun, by omega, hframe, ?_⟩
  rw [hleast]
  decide

/-- Packet 2 is acknowledged, and the number of packet 4 is restored, whether or not packet 3 was
received. -/
theorem packetNumber_decodable_iff_example :
    ((smallRun.foldl apply new).handler 1).lastSentPacketNumber < 4 ∧
      largestAcknowledged 1 (smallRun.map .handler) = 2 ∧
      inferPacketNumber .len2 2 (4 % 2 ^ 16) = 4 ∧ inferPacketNumber .len2 3 (4 % 2 ^ 16) = 4 := by
  have hlast : ((smallRun.foldl apply new).handler 1).lastSentPacketNumber < 4 := by decide
  have hrestored := (packetNumber_decodable_iff admissible_smallRun (run_handler smallRun) hlast
    (by decide)).mpr (by decide)
  exact ⟨hlast, by decide, hrestored 2 (by decide) (by decide), hrestored 3 (by decide) (by decide)⟩

theorem iterate_pop_peek {k : ℕ} (hk : k + 1 < uint64Size) :
    ((fun g : PacketNumberGenerator => (g.pop none).2)^[k] .new).peek = k + 1 ∧
      ((fun g : PacketNumberGenerator => (g.pop none).2)^[k] .new).nextToSkip = 0 := by
  induction k with
  | zero => exact ⟨rfl, rfl⟩
  | succ k ih =>
    obtain ⟨hpeek, hskip⟩ := ih (by omega)
    rw [Function.iterate_succ_apply']
    generalize (fun g : PacketNumberGenerator => (g.pop none).2)^[k] .new = g at *
    have hnext : uint64Add g.next 1 = k + 1 + 1 := by
      rw [show g.next = k + 1 from hpeek, uint64Add_eq hk]
    have hne : ¬ uint64Add g.next 1 = g.nextToSkip := by omega
    simp only [PacketNumberGenerator.pop, if_neg hne]
    exact ⟨hnext, hskip⟩

/-- The peer has received packet 1 of path 1 and nothing since, while the sender has used the
numbers up to 65537 of its generator. The peer takes packet 65538 for packet 2. -/
theorem packetNumber_misread : ∃ (calls : List ManagerCall) (s : PathHandlers) (n : ℕ),
    (∀ c ∈ calls, c.Admissible) ∧ Run ManagerStep new calls s ∧ largestAcknowledged 1 calls = 1 ∧
      (s.handler 1).lastSentPacketNumber = 65537 ∧
      n = ((fun g : PacketNumberGenerator => (g.pop none).2)^[65537] .new).peek ∧ n = 65538 ∧
      let len := getPacketNumberLengthForPublicHeader n (s.handler 1).getLeastUnacked
      inferPacketNumber len 1 (n % 2 ^ (8 * len.toNat)) = 2 := by
  obtain ⟨calls, s, hcalls, hrun, hlargest, hleast, hlast, -⟩ := exists_outstandingCopy 65535
  have hn := (iterate_pop_peek (k := 65537) (by decide)).1
  refine ⟨calls, s, 65538, hcalls, hrun, hlargest, hlast, hn.symm, rfl, ?_⟩
  rw [hleast]
  decide

end PathHandlers

end MPQuic

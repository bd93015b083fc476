import Mathlib.Data.List.Count
import MPQuic.Streams.Operations

/-!
# The limits for open streams

`GetMaxIncomingStreams` limits the streams that the peer opens, and `GetMaxOutgoingStreams` those
that the session opens itself. The check for a stream of the peer looks at `numIncomingStreams`, and
the check for an own stream at `numOutgoingStreams`. On the server these are the right counters. On
the client the streams of the peer are counted in `numOutgoingStreams` and the own streams in
`numIncomingStreams`, so each check looks at the counter of the other side.
-/

namespace MPQuic

namespace StreamsMap

open Transition

variable {m m' : StreamsMap} {id : ℕ} {p : Perspective}

/-- The number of open streams that a side opened. -/
def openedBy (m : StreamsMap) (p : Perspective) : ℕ := m.ids.countP p.opens

/-- The limit for the open streams of a side. -/
def limit (m : StreamsMap) (p : Perspective) : ℕ :=
  if p = m.perspective then m.maxOutgoingStreams else getMaxIncomingStreams

theorem Opened.openedBy_le (h : Opened m p id m') (q : Perspective) :
    m'.openedBy q ≤ m.openedBy q + if q.opens id then 1 else 0 := by
  rw [openedBy, openedBy, h.ids]
  split_ifs with hmem
  all_goals simp_all [List.countP_append]

theorem Removed.openedBy_eq (h : Removed m id m') (q : Perspective) :
    m'.openedBy q = m.openedBy q - if q.opens id then 1 else 0 := by
  rw [openedBy, openedBy, h.ids, List.countP_erase]
  simp only [h.mem, true_and]

/-- A stream that is removed was counted. -/
theorem Removed.openedBy_pos (h : Removed m id m') (hq : p.opens id) : 0 < m.openedBy p :=
  List.countP_pos_iff.mpr ⟨id, h.mem, hq⟩

/-- The counters count the open streams, and they are within the limits. -/
structure Limited (m : StreamsMap) : Prop where
  numbered : m.Numbered
  counted : ∀ p, m.openedBy p ≤ m.numStreams p
  limited : ∀ p, m.numStreams p ≤ m.limit p
  /-- The limit is a `uint32`. -/
  maxOutgoingStreams : m.maxOutgoingStreams < uint32Size

/-- The limits are themselves in the range of the counters. -/
theorem Limited.limit_lt (h : Limited m) (p : Perspective) : m.limit p < uint32Size := by
  unfold limit
  split
  · exact h.maxOutgoingStreams
  · decide

theorem limit_eq (hp : m'.perspective = m.perspective)
    (hmax : m'.maxOutgoingStreams = m.maxOutgoingStreams) : m'.limit = m.limit := by
  funext p
  rw [limit, limit, hp, hmax]

theorem Limited.same (h : Limited m) (hsame : SameStreams m m') : Limited m' where
  numbered := h.numbered.of_eq hsame.perspective hsame.nextStream hsame.highestStreamOpenedByPeer
  counted p := by
    rw [openedBy, hsame.ids, hsame.numStreams]
    exact h.counted p
  limited p := by
    rw [hsame.numStreams, limit_eq hsame.perspective hsame.maxOutgoingStreams]
    exact h.limited p
  maxOutgoingStreams := hsame.maxOutgoingStreams ▸ h.maxOutgoingStreams

/-- A side may open a stream while its counter is below its limit. -/
theorem Limited.opened (h : Limited m) (hopened : Opened m p id m') (hm' : m'.Numbered)
    (hid : p.opens id) (hlt : m.numStreams p < m.limit p) : Limited m' := by
  -- the counter is below a limit that is a `uint32`, so it does not wrap around
  have hcount : m'.numStreams p = m.numStreams p + 1 := by
    rw [hopened.counted, uint32Add_eq (lt_of_le_of_lt hlt (h.limit_lt p))]
  have hlimit := limit_eq hopened.perspective hopened.maxOutgoingStreams
  have hpeer : ¬p.peer.opens id := by rw [Perspective.opens_peer, hid]; decide
  refine ⟨hm', fun q => ?_, fun q => ?_, hopened.maxOutgoingStreams ▸ h.maxOutgoingStreams⟩
  · have hle := hopened.openedBy_le q
    have hq := h.counted q
    rcases p.eq_or_eq_peer q with rfl | rfl
    · rw [if_pos hid] at hle
      omega
    · rw [if_neg hpeer] at hle
      rw [hopened.uncounted]
      omega
  · rw [hlimit]
    rcases p.eq_or_eq_peer q with rfl | rfl
    · omega
    · rw [hopened.uncounted]
      exact h.limited _

theorem Limited.removed (h : Limited m) (hremoved : Removed m id m') : Limited m' := by
  have hlimit := limit_eq hremoved.perspective hremoved.maxOutgoingStreams
  -- the counter of the side that opened the stream is positive
  have hcount : ∀ q : Perspective, q.opens id → m'.numStreams q = m.numStreams q - 1 := by
    intro q hq
    have hpos := hremoved.openedBy_pos hq
    have hlt := lt_of_le_of_lt (h.limited q) (h.limit_lt q)
    rw [hremoved.counted q hq, uint32Sub_eq hlt (le_trans hpos (h.counted q))]
  refine ⟨h.numbered.of_eq hremoved.perspective hremoved.nextStream
    hremoved.highestStreamOpenedByPeer, fun q => ?_, fun q => ?_,
    hremoved.maxOutgoingStreams ▸ h.maxOutgoingStreams⟩
  · rw [hremoved.openedBy_eq q]
    have hq := h.counted q
    by_cases hid : q.opens id
    · rw [if_pos hid, hcount q hid]
      omega
    · rw [if_neg hid, hremoved.uncounted q hid]
      exact hq
  · rw [hlimit]
    have hq := h.limited q
    by_cases hid : q.opens id
    · rw [hcount q hid]
      omega
    · rw [hremoved.uncounted q hid]
      exact hq

/-! ## The calls -/

/-- What the client has to see to itself: the streams that the peer opens with a stream are within
the limit, and so is a stream that is opened. -/
def WithinLimits (m : StreamsMap) : Call → Prop
  | .getOrOpenStream id => m.perspective = .client → id % 2 = 0 →
    m.numOutgoingStreams + (id - m.highestStreamOpenedByPeer) / 2 ≤ getMaxIncomingStreams
  | .openStream => m.perspective = .client → m.numIncomingStreams < m.maxOutgoingStreams
  | _ => True

/-- The streams that are opened for a stream of the peer are counted, and they are within the
limit. -/
theorem Limited.getOrOpenStream (h : Limited m) (hguard : m.WithinLimits (.getOrOpenStream id)) :
    Limited (m.getOrOpenStream id).2 ∧
      (m.getOrOpenStream id).2.opened.length ≤ m.opened.length + getMaxIncomingStreams := by
  -- what the loop opened so far was counted, and the rest is within the limit on the client
  let Loop (m₁ : StreamsMap) : Prop :=
    Limited m₁ ∧ m₁.perspective = m.perspective ∧
      m₁.opened.length + m.numStreams m.perspective.peer =
        m.opened.length + m₁.numStreams m.perspective.peer ∧
      (m.perspective = .client → id % 2 = 0 →
        m₁.numOutgoingStreams + (id - m₁.highestStreamOpenedByPeer) / 2 ≤ getMaxIncomingStreams)
  have hlimit : ∀ m₁ : StreamsMap, m₁.perspective = m.perspective →
      m₁.limit m.perspective.peer = getMaxIncomingStreams := by
    intro m₁ hp
    rw [limit, hp, if_neg (by cases m.perspective <;> decide)]
  have hloop : Loop (m.getOrOpenStream id).2 := by
    refine (getOrOpenStream_induction ?_ h.numbered ⟨h, rfl, rfl, hguard⟩).2
    rintro hside - m₁ m₂ hm₁ ⟨hlimited, hp, hcount, hrest⟩ hid hopen
    obtain ⟨hmax, -, hopened, -⟩ := openRemoteStream_spec hopen
    obtain ⟨hm₂, hhighest, -⟩ := hm₁.opened hopen
    obtain ⟨-, -, hpeer, hfirst⟩ := hm₁.firstToOpen
    rw [hp] at hopened hpeer hfirst
    have hlt : m₁.numStreams m.perspective.peer < m₁.limit m.perspective.peer := by
      rw [hlimit m₁ hp]
      cases hm : m.perspective with
      | server => exact hmax
      | client =>
        -- the source checks the other counter here; that this one is low enough is the guard
        have := hrest hm (by simpa [hm, Perspective.opens] using hside)
        have := hfirst (.inr hm)
        show m₁.numOutgoingStreams < _
        omega
    have hcounted : m₂.numStreams m.perspective.peer = m₁.numStreams m.perspective.peer + 1 := by
      rw [hopened.counted, uint32Add_eq (lt_of_le_of_lt hlt (hlimited.limit_lt _))]
    refine ⟨hlimited.opened hopened hm₂ ?_ hlt, hopened.perspective.trans hp, ?_, ?_⟩
    · rw [Perspective.opens_peer]
      simpa using hpeer
    · rw [hopened.opened, List.length_append, List.length_singleton, hcounted]
      omega
    · intro hm heven
      have := hrest hm heven
      have := hfirst (.inr hm)
      rw [hm] at hcounted
      change m₂.numOutgoingStreams = m₁.numOutgoingStreams + 1 at hcounted
      omega
  obtain ⟨hlimited, hp, hcount, -⟩ := hloop
  refine ⟨hlimited, ?_⟩
  have := hlimited.limited m.perspective.peer
  rw [hlimit _ hp] at this
  omega

/-- Every call within the limits keeps them. -/
theorem Limited.apply (h : Limited m) {c : Call} (hguard : m.WithinLimits c) :
    Limited (m.apply c) := by
  by_cases hc : ∃ id, c = .getOrOpenStream id
  · obtain ⟨id, rfl⟩ := hc
    exact (h.getOrOpenStream hguard).1
  · refine apply_induction h.numbered h (fun hid => absurd hid hc) (fun hopen hmax => ?_)
      (fun _ _ _ h hremoved => h.removed hremoved) fun _ hstreams _ => h.same hstreams
    subst hopen
    refine h.opened (openStreamImpl_spec hmax).1 (h.numbered.openStreamImpl hmax) h.numbered.own ?_
    rw [limit, if_pos rfl]
    -- the client checks the counter of its peer, so the guard has to check its own one
    cases hp : m.perspective with
    | server => exact hmax
    | client => exact hguard hp

/-- On the server the open streams of each side are within their limit after every run. On the
client they are if every call is within the limits. -/
theorem openStreams_limited {maxOutgoingStreams : ℕ} (hmax : maxOutgoingStreams < uint32Size)
    {calls : List Call}
    (hrun : Run (fun m c m' => m.WithinLimits c ∧ m' = m.apply c) (new p maxOutgoingStreams)
      calls m) :
    m.openedBy p.peer ≤ getMaxIncomingStreams ∧ m.openedBy p ≤ maxOutgoingStreams ∧
      ∀ id, m.WithinLimits (.getOrOpenStream id) →
        (m.getOrOpenStream id).2.opened.length ≤ m.opened.length + getMaxIncomingStreams := by
  have hinit : Limited (new p maxOutgoingStreams) :=
    ⟨.new p maxOutgoingStreams, fun q => Nat.zero_le _, fun q => by cases q <;> exact Nat.zero_le _,
      hmax⟩
  have h : Limited m ∧ m.perspective = p ∧ m.maxOutgoingStreams = maxOutgoingStreams := by
    refine Run.invariant
      (I := fun _ m => Limited m ∧ m.perspective = p ∧ m.maxOutgoingStreams = maxOutgoingStreams)
      ⟨hinit, rfl, rfl⟩ ?_ hrun
    rintro - m c - ⟨h, hp, hmax⟩ ⟨hguard, rfl⟩
    have hnext := h.numbered.apply c
    exact ⟨h.apply hguard, hnext.perspective.trans hp, hnext.maxOutgoingStreams.trans hmax⟩
  obtain ⟨h, rfl, rfl⟩ := h
  have hle : ∀ q, m.openedBy q ≤ m.limit q := fun q => le_trans (h.counted q) (h.limited q)
  refine ⟨le_of_le_of_eq (hle _) (if_neg ?_), le_of_le_of_eq (hle _) (if_pos rfl),
    fun id hguard => (h.getOrOpenStream hguard).2⟩
  cases m.perspective <;> decide

/-- A client that opened a stream, and whose peer opens two. -/
theorem openStreams_limited_example :
    (((new .client 100).apply .openStream).apply (.getOrOpenStream 4)).openedBy .server ≤
      getMaxIncomingStreams := by
  have hfirst : (new .client 100).WithinLimits .openStream := fun _ => by decide
  have hsecond : ((new .client 100).apply .openStream).WithinLimits (.getOrOpenStream 4) :=
    fun _ _ => by decide
  exact (openStreams_limited (p := .client) (by decide)
    ((Run.nil.snoc ⟨hfirst, rfl⟩).snoc ⟨hsecond, rfl⟩)).1

/-- A client that may open one stream opens two. Its peer, which may open 110 streams, opens 111
with one frame. -/
theorem openStreams_unlimited :
    ∃ m, Run (fun m c m' => m' = m.apply c) (new .client 1) [.openStream, .openStream] m ∧
      m.maxOutgoingStreams < m.openedBy .client ∧
      getMaxIncomingStreams < (m.getOrOpenStream 222).2.openedBy .server ∧
      m.opened.length + getMaxIncomingStreams < (m.getOrOpenStream 222).2.opened.length :=
  ⟨_, (Run.nil.snoc rfl).snoc rfl, by decide +kernel⟩

end StreamsMap

end MPQuic

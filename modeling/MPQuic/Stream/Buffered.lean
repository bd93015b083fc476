import Mathlib.Algebra.Order.BigOperators.Group.Finset
import Mathlib.Order.CompletePartialOrder
import Mathlib.Order.Interval.Finset.Nat
import MPQuic.Lib.RunningMax
import MPQuic.Stream.Reassembly

/-!
# How much the stream frame sorter buffers

The frames that wait in `queuedFrames` (`stream_frame_sorter.go`), and how many bytes they hold.

A frame that spans several gaps covers the frames that lie between them. `push` deletes the frame
that is queued at the end of each of these gaps, and no other one: where two frames are queued
back to back, the second one stays in the map under the longer frame, and below the read position
once that is popped. An empty frame with the FIN bit is queued at any offset, in the place of the
frame that was queued there, and below the read position too.

* `StreamFrameSorter.Tight`: the queued frames are pairwise disjoint and still to be read.
* `Trace.NoByteTwice`: no byte is buffered twice, which bounds the number of buffered bytes.
* `StreamFrameSorter.Clears`: the frames that a pushed frame covers are not empty and all start
  right after a gap.
* `noByteTwice_of_clears`: no byte is ever buffered twice if every push clears what it covers, and
  empty frames come only where no byte was received.

The invariant of `Reassembly` is about sorters with at most one empty frame, at the end of the
stream. It is used for what is left of a sorter without its empty frames (`dataFrames`).
-/

namespace MPQuic

open IntervalList Transition
open StreamFrame (stop range_of_empty mem_range)

/-- The bytes of the frame agree with the stream `S`, and it ends within the 64-bit range, which the
parser checks. -/
structure StreamFrame.OfStream (S : List UInt8) (f : StreamFrame) : Prop where
  agrees : f.Agrees S
  stop_lt : f.stop < uint64Size

instance (S : List UInt8) (f : StreamFrame) : Decidable (f.OfStream S) :=
  decidable_of_iff (f.Agrees S ∧ f.stop < uint64Size)
    ⟨fun ⟨h₁, h₂⟩ => ⟨h₁, h₂⟩, fun ⟨h₁, h₂⟩ => ⟨h₁, h₂⟩⟩

namespace StreamFrameSorter

/-- The queued frames are pairwise disjoint, and none of them starts below the read position. -/
structure Tight (s : StreamFrameSorter) : Prop where
  disjoint : ∀ k l f g, s.queuedFrames k = some f → s.queuedFrames l = some g → k ≠ l →
    Disjoint f.range g.range
  ahead : ∀ k f, s.queuedFrames k = some f → s.readPosition ≤ f.offset

/-- The number of bytes that are queued at the offset `k`. -/
def bytesAt (s : StreamFrameSorter) (k : ℕ) : ℕ :=
  match s.queuedFrames k with
  | none => 0
  | some f => f.dataLen

/-- The end of the highest frame that was received. -/
def Trace.highest (t : Trace) : ℕ := (t.pushed.map stop).foldl max 0

/-- No byte is buffered twice: the queued frames are disjoint and still to be read, and together
they hold no more than what lies between the read position and the end of the highest frame. -/
structure Trace.NoByteTwice (t : Trace) : Prop where
  tight : t.sorter.Tight
  total : ∀ offsets : Finset ℕ,
    t.sorter.readPosition + ∑ k ∈ offsets, t.sorter.bytesAt k ≤ t.highest

/-- Between missing bytes of the frame, only frames with data are queued, and only right after a
gap. -/
def Clears (s : StreamFrameSorter) (f : StreamFrame) : Prop :=
  ∀ k q, s.queuedFrames k = some q → ∀ x ∈ f.range, ∀ y ∈ f.range, s.Missing x → s.Missing y →
    x < k → k ≤ y → 0 < q.dataLen ∧ s.Missing (k - 1)

/-- The frame of a push clears what it covers. An empty one comes at an offset that was not
received. -/
def Call.Clears (t : Trace) : Call → Prop
  | .push f => (f.dataLen = 0 → f.offset ∉ t.covered) ∧ t.sorter.Clears f
  | _ => True

/-- The effect of a call when the pushed frames belong to the stream `S`, and `Push` returns nil or
an error for duplicate data. -/
def BufferStep (S : List UInt8) (t : Trace) (c : Call) (t' : Trace) : Prop :=
  match c with
  | .push f => f.OfStream S ∧ ∃ err, (err = none ∨ err = some .duplicateStreamData) ∧
      t.sorter.push f = (t'.sorter, err) ∧ t'.pushed = t.pushed ++ [f] ∧ t'.popped = t.popped
  | .head => t' = t
  | .pop => t' = t.pop

variable {S : List UInt8} {C B : Set ℕ} {s s' : StreamFrameSorter} {f : StreamFrame}
  {t t' : Trace}

/-! ## Forgetting the empty frames -/

/-- The sorter without its empty frames. -/
def dataFrames (s : StreamFrameSorter) : StreamFrameSorter :=
  { s with queuedFrames := fun k => (s.queuedFrames k).filter fun f => 0 < f.dataLen }

variable {k : ℕ}

theorem dataFrames_eq_some :
    s.dataFrames.queuedFrames k = some f ↔ s.queuedFrames k = some f ∧ 0 < f.dataLen := by
  simp [dataFrames, Option.filter_eq_some_iff]

/-- An empty frame is put to or taken from an offset where no data is queued. -/
theorem dataFrames_update {readPosition : ℕ} {r : Option StreamFrame}
    (hr : ∀ q, r = some q → q.dataLen = 0) (hk : s.dataFrames.queuedFrames k = none)
    (hs' : s' = { s with readPosition, queuedFrames := Function.update s.queuedFrames k r }) :
    s'.dataFrames = { s.dataFrames with readPosition } := by
  have hqueued : s'.dataFrames.queuedFrames = s.dataFrames.queuedFrames := by
    funext l
    by_cases hl : l = k
    · rw [hl, hk, hs']
      cases r with
      | none => simp [dataFrames]
      | some q => simp [dataFrames, hr q rfl]
    · simp [dataFrames, hs', Function.update_of_ne hl]
  rw [hs'] at hqueued ⊢
  simpa [dataFrames] using hqueued

/-- Data that is queued at the offset of a frame with data is cut away, an empty frame is not. -/
theorem cutQueued_dataFrames (s : StreamFrameSorter) (f : StreamFrame) (hne : 0 < f.dataLen) :
    s.dataFrames.cutQueued f = s.cutQueued f := by
  have hdata : s.dataFrames.queuedFrames f.offset =
      (s.queuedFrames f.offset).filter fun f => 0 < f.dataLen := rfl
  rw [cutQueued, cutQueued, hdata]
  cases s.queuedFrames f.offset with
  | none => rfl
  | some old =>
    rcases Nat.eq_zero_or_pos old.dataLen with hzero | hpos
    · rw [Option.filter_some, if_neg (by simp [hzero])]
      dsimp only
      rw [hzero, if_neg (by omega)]
      rfl
    · rw [Option.filter_some, if_pos (by simpa using hpos)]

variable {g : StreamFrame}

theorem Inserted.dataFrames (hg : Inserted s f g s') :
    Inserted s.dataFrames f g s'.dataFrames :=
  have hne : 0 < g.dataLen := by
    have := hg.offset_lt
    unfold stop at this
    omega
  { hg with
    queued_offset := dataFrames_eq_some.mpr ⟨hg.queued_offset, hne⟩
    queued_outside := fun k hk => congrArg (Option.filter _) (hg.queued_outside k hk)
    queued_of_ne := fun k q hk hq => by
      rw [dataFrames_eq_some] at hq ⊢
      exact ⟨hg.queued_of_ne k q hk hq.1, hq.2⟩ }

variable {q : StreamFrame}

/-- An empty frame that is queued after data was inserted was queued before. -/
theorem Inserted.queued_of_empty (hg : Inserted s f g s') (hq : s'.queuedFrames k = some q)
    (hempty : q.dataLen = 0) :
    k ≠ g.offset ∧ s.queuedFrames k = some q := by
  have hk : k ≠ g.offset := by
    rintro rfl
    have hlt := hg.offset_lt
    rw [stop, Option.some.inj (hg.queued_offset.symm.trans hq)] at hlt
    omega
  exact ⟨hk, hg.queued_of_ne k q hk hq⟩

theorem ClearsGapEnds.dataFrames (h : ClearsGapEnds s g s') :
    ClearsGapEnds s.dataFrames g s'.dataFrames := by
  intro k hlow hhigh
  refine (congrArg (Option.filter _) (h k hlow hhigh)).trans ?_
  rw [apply_ite (Option.filter _)]
  rfl

/-- A push of data does the same with and without empty frames in the queue. -/
theorem Inv.push_inserted_of_dataFrames (h : Inv S C B s.dataFrames) (hagree : f.Agrees S)
    (hne : 0 < f.dataLen) (hstop : f.stop ≤ maxByteCount) (hpush : s.push f = (s', none)) :
    ∃ n g, n < f.dataLen ∧ (∀ x, f.offset ≤ x → x < f.offset + n → x ∈ C) ∧
      Inserted s (f.cutHead n) g s' ∧ ClearsGapEnds s g s' := by
  rw [StreamFrameSorter.push, if_neg (by omega), ← cutQueued_dataFrames s f hne] at hpush
  cases hcut : s.dataFrames.cutQueued f with
  | none => simp [hcut] at hpush
  | some f₁ =>
    rw [hcut] at hpush
    obtain ⟨n, hn, rfl, hcovered, hnone⟩ := h.cutQueued_some hagree hne hcut
    have hlt : (f.cutHead n).offset < (f.cutHead n).stop := by
      rw [StreamFrame.stop_cutHead hn.le]
      exact Nat.add_lt_add_left hn _
    obtain ⟨g, hg⟩ := insertFrame_inserted (s := s) h.separated hlt
      (fun b hb => h.offset_ne_gap_stop hn hstop hcovered hnone hb) hpush
    exact ⟨n, g, hn, hcovered, hg⟩

/-- A duplicate is refused with and without empty frames in the queue. -/
theorem push_duplicate_dataFrames (hne : 0 < f.dataLen)
    (hpush : s.push f = (s', some .duplicateStreamData)) :
    s' = s ∧ s.dataFrames.push f = (s.dataFrames, some .duplicateStreamData) := by
  rw [push, if_neg (by omega), ← cutQueued_dataFrames s f hne] at hpush
  rw [push, if_neg (by omega)]
  cases hcut : s.dataFrames.cutQueued f with
  | none =>
    rw [hcut] at hpush
    exact ⟨(Prod.mk.inj hpush).1.symm, rfl⟩
  | some f₁ =>
    rw [hcut] at hpush
    obtain ⟨hsame, hfind⟩ := insertFrame_duplicate hpush
    refine ⟨hsame, ?_⟩
    dsimp only
    rw [insertFrame, show s.dataFrames.gaps = s.gaps from rfl, hfind]

/-- An empty frame is queued at its offset. -/
theorem sorter_of_push_empty (hempty : f.dataLen = 0) {err : Option PushError}
    (herr : err = none ∨ err = some .duplicateStreamData) (hpush : s.push f = (s', err)) :
    s' = { s with queuedFrames := Function.update s.queuedFrames f.offset (some f) } := by
  rw [push, if_pos hempty] at hpush
  split_ifs at hpush
  · exact (Prod.mk.inj hpush).1.symm
  · obtain ⟨-, rfl⟩ := Prod.mk.inj hpush
    simp at herr

theorem Tight.dataFrames (h : s.Tight) : s.dataFrames.Tight :=
  ⟨fun k l q r hq hr hkl =>
    h.disjoint k l q r (dataFrames_eq_some.mp hq).1 (dataFrames_eq_some.mp hr).1 hkl,
    fun k q hq => h.ahead k q (dataFrames_eq_some.mp hq).1⟩

theorem Clears.dataFrames (h : s.Clears f) : s.dataFrames.Clears f :=
  fun k q hq => h k q (dataFrames_eq_some.mp hq).1

/-- Without its empty frames the sorter has received what was pushed, and the empty frames are where
nothing was received. -/
structure Trace.BufferInv (S : List UInt8) (t : Trace) : Prop where
  sorter : ∃ B, StreamFrameSorter.Inv S t.covered B t.sorter.dataFrames
  empty : ∀ k q, t.sorter.queuedFrames k = some q → q.dataLen = 0 → q.offset = k ∧ k ∉ t.covered

theorem Trace.bufferInv_init (S : List UInt8) : Trace.init.BufferInv S where
  sorter := by
    obtain ⟨B, hinv⟩ := (Trace.inv_init S).sorter
    exact ⟨B, hinv⟩
  empty := fun _ _ hq => nomatch hq

/-- Empty frames above the read position make no difference. -/
theorem Trace.BufferInv.tight_iff (h : t.BufferInv S) :
    t.sorter.Tight ↔ t.sorter.dataFrames.Tight := by
  obtain ⟨B, hinv⟩ := h.sorter
  refine ⟨Tight.dataFrames, fun htight => ⟨fun k l q r hq hr hkl => ?_, fun k q hq => ?_⟩⟩
  · rcases Nat.eq_zero_or_pos q.dataLen with hzero | hqpos
    · simp [range_of_empty hzero]
    rcases Nat.eq_zero_or_pos r.dataLen with hzero | hrpos
    · simp [range_of_empty hzero]
    exact htight.disjoint k l q r (dataFrames_eq_some.mpr ⟨hq, hqpos⟩)
      (dataFrames_eq_some.mpr ⟨hr, hrpos⟩) hkl
  · rcases Nat.eq_zero_or_pos q.dataLen with hzero | hpos
    · obtain ⟨hoff, hnot⟩ := h.empty k q hq hzero
      rw [hoff]
      exact not_lt.mp fun hlt => hnot (hinv.read_received k hlt)
    · exact htight.ahead k q (dataFrames_eq_some.mpr ⟨hq, hpos⟩)

/-! ## The number of buffered bytes -/

/-- Disjoint intervals within `[a, b)` are together at most as long as it. -/
theorem sum_le_of_disjoint {a b : ℕ} (hab : a ≤ b) (offsets : Finset ℕ) (len : ℕ → ℕ)
    (hdisjoint : ∀ k l, k ≠ l → Disjoint (Finset.Ico k (k + len k)) (Finset.Ico l (l + len l)))
    (hwithin : ∀ k x, x ∈ Finset.Ico k (k + len k) → a ≤ x ∧ x < b) :
    a + ∑ k ∈ offsets, len k ≤ b := by
  have hsub : offsets.biUnion (fun k => Finset.Ico k (k + len k)) ⊆ Finset.Ico a b := by
    intro x hx
    obtain ⟨k, -, hx⟩ := Finset.mem_biUnion.mp hx
    exact Finset.mem_Ico.mpr (hwithin k x hx)
  have hcard := Finset.card_le_card hsub
  rw [Finset.card_biUnion fun k _ l _ hkl => hdisjoint k l hkl, Nat.card_Ico] at hcard
  simp only [Nat.card_Ico, Nat.add_sub_cancel_left] at hcard
  omega

theorem Trace.lt_highest {x : ℕ} (hx : x ∈ t.covered) : x < t.highest := by
  obtain ⟨f, hf, hxf⟩ := hx
  exact hxf.2.trans_le (RunningMax.le_foldl_max (.inr (List.mem_map_of_mem hf)))

/-- The offsets counted by `bytesAt` are those of the queued frame. -/
theorem Inv.mem_Ico_bytesAt (h : Inv S C B s.dataFrames) {x : ℕ}
    (hx : x ∈ Finset.Ico k (k + s.bytesAt k)) :
    ∃ f, s.dataFrames.queuedFrames k = some f ∧ x ∈ f.range := by
  rw [Finset.mem_Ico, bytesAt] at hx
  cases hq : s.queuedFrames k with
  | none =>
    rw [hq] at hx
    dsimp only at hx
    omega
  | some f =>
    rw [hq] at hx
    dsimp only at hx
    have hdata := dataFrames_eq_some.mpr ⟨hq, (by omega : 0 < f.dataLen)⟩
    refine ⟨f, hdata, ?_⟩
    rw [mem_range, stop, (h.queued k f hdata).1]
    exact hx

/-- Disjoint frames that are still to be read hold no byte twice. -/
theorem Trace.BufferInv.noByteTwice (h : t.BufferInv S) (htight : t.sorter.Tight) :
    t.NoByteTwice := by
  obtain ⟨B, hinv⟩ := h.sorter
  have hdata := htight.dataFrames
  refine ⟨htight, fun offsets => sum_le_of_disjoint ?_ offsets _ (fun k l hkl => ?_) ?_⟩
  · -- what was read was received
    by_contra! hlt
    exact (Trace.lt_highest (hinv.read_received _ hlt)).false
  · rw [Finset.disjoint_left]
    intro x hxk hxl
    obtain ⟨f, hf, hxf⟩ := hinv.mem_Ico_bytesAt hxk
    obtain ⟨g, hg, hxg⟩ := hinv.mem_Ico_bytesAt hxl
    exact Set.disjoint_left.mp (hdata.disjoint k l f g hf hg hkl) hxf hxg
  · intro k x hx
    obtain ⟨f, hf, hxf⟩ := hinv.mem_Ico_bytesAt hx
    exact ⟨(hdata.ahead k f hf).trans hxf.1,
      Trace.lt_highest ((hinv.queued k f hf).2.2.1 hxf)⟩

/-! ## What the calls do to the queued frames -/

/-- The frame that was inserted reaches from the first to the last missing byte of the pushed
one. -/
theorem Inv.mem_inserted (h : Inv S C B s) {n : ℕ} (hn : n < f.dataLen)
    (hcovered : ∀ x, f.offset ≤ x → x < f.offset + n → x ∈ C) (hg : Inserted s (f.cutHead n) g s')
    {x : ℕ} (hx : x ∈ f.range) (hmissing : s.Missing x) :
    x ∈ g.range := by
  have hstop : (f.cutHead n).stop = f.stop := StreamFrame.stop_cutHead hn.le
  have hlow : f.offset + n ≤ x := by
    by_contra! hlt
    exact h.not_mem_of_missing hmissing (hcovered x hx.1 hlt)
  refine ⟨?_, ?_⟩
  · by_contra! hlt
    exact hg.head_received x hlow hlt hmissing
  · by_contra! hle
    exact hg.tail_received x hle (hstop ▸ hx.2) hmissing

/-- A frame that is queued before the end of the stream holds data there. -/
theorem Inv.mem_range_of_queued (h : Inv S C B s) (hq : s.queuedFrames k = some q)
    (hk : k < S.length) : k ∈ q.range := by
  obtain ⟨hoff, -, -, hempty⟩ := h.queued k q hq
  have hne : q.dataLen ≠ 0 := fun hz => hk.ne (hempty hz).1
  rw [mem_range, stop]
  omega

/-- An offset that was received is the end of a gap exactly if the offset before it is missing. -/
theorem Inv.exists_gap_stop_iff (h : Inv S C B s) (hpos : 0 < k) (hk : k ∈ C) :
    (∃ b ∈ s.gaps, b.stop = k) ↔ s.Missing (k - 1) := by
  constructor
  · rintro ⟨b, hb, rfl⟩
    exact h.gap_last_missing hb
  · rintro ⟨b, hb, hle, hlt⟩
    refine ⟨b, hb, ?_⟩
    by_contra hne
    exact h.not_mem_of_missing ⟨b, hb, by omega, by omega⟩ hk

/-- Where a pushed frame clears what it covers, no other frame is queued where the new one lies. -/
theorem Clears.disjoint_inserted (hf : s.Clears f) (h : Inv S C B s) (hagree : f.Agrees S) {n : ℕ}
    (hn : n < f.dataLen) (hg : Inserted s (f.cutHead n) g s') (hclears : ClearsGapEnds s g s')
    (hk : k ≠ g.offset) (hq : s'.queuedFrames k = some q) : Disjoint g.range q.range := by
  have hqs := hg.queued_of_ne k q hk hq
  obtain ⟨hoff, -, hrange, -⟩ := h.queued k q hqs
  refine Set.disjoint_left.mpr fun x hxg hxq => ?_
  -- a frame that starts below the new one does not reach its first byte, which was missing
  have hle : g.offset ≤ k := by
    by_contra! hlt
    exact h.not_mem_of_missing hg.missing_offset (hrange ⟨by omega, hxg.1.trans_lt hxq.2⟩)
  have hkg : g.offset < k ∧ k < g.stop :=
    ⟨lt_of_le_of_ne hle hk.symm, (hoff ▸ hxq.1).trans_lt hxg.2⟩
  -- and one that starts inside of it started right after a gap, where it was deleted
  have hkC := hrange (h.mem_range_of_queued hqs (hkg.2.trans_le (hg.stop_le_length hagree hn)))
  have hsub := hg.range_subset hn
  obtain ⟨-, hmissing⟩ := hf k q hqs g.offset (hsub ⟨le_rfl, hg.offset_lt⟩) (g.stop - 1)
    (hsub ⟨by omega, by omega⟩) hg.missing_offset hg.missing_last hkg.1 (by omega)
  rw [hclears k hkg.1 hkg.2, if_pos ((h.exists_gap_stop_iff (by omega) hkC).mpr hmissing)] at hq
  cases hq

/-- After a frame was inserted that cleared what it covers, the queued frames are disjoint. -/
theorem Tight.inserted (htight : s.Tight) (h : Inv S C B s) (hagree : f.Agrees S) {n : ℕ}
    (hn : n < f.dataLen) (hg : Inserted s (f.cutHead n) g s') (hclears : ClearsGapEnds s g s')
    (hf : s.Clears f) : s'.Tight := by
  refine ⟨fun k l q r hq hr hkl => ?_, fun k q hq => ?_⟩
  · by_cases hk : k = g.offset
    · obtain rfl : g = q := by simpa [hk, hg.queued_offset] using hq
      exact hf.disjoint_inserted h hagree hn hg hclears (fun hl => hkl (hk.trans hl.symm)) hr
    · by_cases hl : l = g.offset
      · obtain rfl : g = r := by simpa [hl, hg.queued_offset] using hr
        exact (hf.disjoint_inserted h hagree hn hg hclears hk hq).symm
      · exact htight.disjoint k l q r (hg.queued_of_ne k q hk hq) (hg.queued_of_ne l r hl hr) hkl
  · rw [hg.readPosition]
    by_cases hk : k = g.offset
    · obtain rfl : g = q := by simpa [hk, hg.queued_offset] using hq
      by_contra! hlt
      exact h.not_mem_of_missing hg.missing_offset (h.read_received _ hlt)
    · exact htight.ahead k q (hg.queued_of_ne k q hk hq)

/-- Popping a frame leaves the frames above it. -/
theorem Tight.pop (htight : s.Tight) (h : Inv S C B s) (hpop : s.pop = (s', some f)) :
    s'.Tight := by
  obtain ⟨hhead, rfl⟩ := pop_eq_some hpop
  obtain ⟨hoff, hagree, -, -⟩ := h.queued _ _ hhead
  refine ⟨fun k l q r hq hr hkl => htight.disjoint k l q r (queuedFrames_of_pop hpop hq)
    (queuedFrames_of_pop hpop hr) hkl, fun k q hq => ?_⟩
  have hqs := queuedFrames_of_pop hpop hq
  have hahead := htight.ahead k q hqs
  rw [(h.queued k q hqs).1] at hahead ⊢
  -- the other frames start above the read position, and outside of the popped frame
  by_contra! hlt
  dsimp only at hlt
  have hne : k ≠ s.readPosition := by
    rintro rfl
    simp [hoff] at hq
  have hstop : f.stop = s.readPosition + f.dataLen := by rw [stop, hoff]
  have hlength := hagree.stop_le (by omega)
  have hkq : k ∈ q.range := h.mem_range_of_queued hqs (by omega)
  have hkf : k ∈ f.range := ⟨by omega, by omega⟩
  exact Set.disjoint_left.mp (htight.disjoint _ k f q hhead hqs hne.symm) hkf hkq

/-- A frame with data is popped with and without empty frames in the queue. -/
theorem pop_dataFrames (hpop : s.pop = (s', some f)) (hpos : 0 < f.dataLen) :
    s.dataFrames.pop = (s'.dataFrames, some f) := by
  obtain ⟨hhead, rfl⟩ := pop_eq_some hpop
  have hhead' : s.dataFrames.head = some f := dataFrames_eq_some.mpr ⟨hhead, hpos⟩
  have hqueued : Function.update s.dataFrames.queuedFrames f.offset none = fun k =>
      (Function.update s.queuedFrames f.offset none k).filter fun f => 0 < f.dataLen := by
    funext k
    by_cases hk : k = f.offset
    · simp [hk]
    · simp [hk, dataFrames]
  rw [StreamFrameSorter.pop, hhead']
  dsimp only
  rw [hqueued]
  rfl

theorem Trace.BufferInv.pop (h : t.BufferInv S) (htight : t.sorter.Tight) :
    t.pop.BufferInv S ∧ t.pop.sorter.Tight := by
  cases hpop : t.sorter.pop with
  | mk s' r =>
    have hsorter : t.pop.sorter = s' := congrArg Prod.fst hpop
    cases r with
    | none =>
      have ht : t.pop.sorter = t.sorter := hsorter.trans (pop_eq_none hpop)
      exact ⟨⟨by rw [ht]; exact h.sorter, by rw [ht]; exact h.empty⟩, by rw [ht]; exact htight⟩
    | some f =>
      obtain ⟨B, hinv⟩ := h.sorter
      have hempty : ∀ k q, s'.queuedFrames k = some q → q.dataLen = 0 →
          q.offset = k ∧ k ∉ t.covered := fun k q hq =>
        h.empty k q (queuedFrames_of_pop hpop hq)
      obtain ⟨hhead, hs'⟩ := pop_eq_some hpop
      have hinv' : (∃ B', StreamFrameSorter.Inv S t.covered B' s'.dataFrames) ∧
          s'.dataFrames.Tight := by
        rcases Nat.eq_zero_or_pos f.dataLen with hzero | hpos
        · -- an empty frame leaves the frames with data as they are
          have hnone : t.sorter.dataFrames.queuedFrames f.offset = none := by
            rw [(h.empty _ f hhead hzero).1]
            exact (congrArg (Option.filter _) hhead).trans (by simp [hzero])
          rw [hzero] at hs'
          rw [dataFrames_update (r := none) (by simp) hnone hs']
          exact ⟨⟨B, hinv⟩, htight.dataFrames⟩
        · have hpop' := pop_dataFrames hpop hpos
          exact ⟨(hinv.pop hpop').2.2.2, htight.dataFrames.pop hinv hpop'⟩
      have hinvPop : t.pop.BufferInv S :=
        ⟨by rw [hsorter]; exact hinv'.1, by rw [hsorter]; exact hempty⟩
      refine ⟨hinvPop, hinvPop.tight_iff.mpr ?_⟩
      rw [hsorter]
      exact hinv'.2

/-- An empty frame is queued where nothing was received. -/
theorem Trace.BufferInv.push_empty (h : t.BufferInv S) (htight : t.sorter.Tight)
    (hempty : f.dataLen = 0) (hnot : f.offset ∉ t.covered)
    (hsorter : t'.sorter = { t.sorter with
      queuedFrames := Function.update t.sorter.queuedFrames f.offset (some f) })
    (hpushed : t'.pushed = t.pushed ++ [f]) : t'.BufferInv S ∧ t'.sorter.Tight := by
  obtain ⟨B, hinv⟩ := h.sorter
  have hcovered : t'.covered = t.covered := by
    rw [Trace.covered_of_pushed hpushed, range_of_empty hempty, Set.union_empty]
  have hnone : t.sorter.dataFrames.queuedFrames f.offset = none := by
    cases hq : t.sorter.dataFrames.queuedFrames f.offset with
    | none => rfl
    | some q =>
      obtain ⟨hoff, -, hrange, -⟩ := hinv.queued _ q hq
      have hpos := (dataFrames_eq_some.mp hq).2
      exact absurd (hrange ⟨hoff.le, by rw [stop]; omega⟩) hnot
  have hdata : t'.sorter.dataFrames = t.sorter.dataFrames :=
    dataFrames_update (by rintro q hq; exact Option.some.inj hq ▸ hempty) hnone hsorter
  have hinv' : t'.BufferInv S := by
    refine ⟨⟨B, by rw [hcovered, hdata]; exact hinv⟩, fun k q hq hzero => ?_⟩
    rw [hcovered]
    rw [hsorter] at hq
    by_cases hk : k = f.offset
    · subst hk
      dsimp only at hq
      rw [Function.update_self, Option.some.injEq] at hq
      exact ⟨hq ▸ rfl, hnot⟩
    · exact h.empty k q ((Function.update_of_ne hk _ _).symm.trans hq) hzero
  exact ⟨hinv', hinv'.tight_iff.mpr (hdata ▸ htight.dataFrames)⟩

/-- A frame with data is inserted where it clears what it covers. -/
theorem Trace.BufferInv.push_inserted (h : t.BufferInv S) (hf : f.OfStream S)
    (hne : 0 < f.dataLen) (hclears : t.sorter.Clears f)
    (hpush : t.sorter.push f = (t'.sorter, none)) (hpushed : t'.pushed = t.pushed ++ [f]) :
    t'.BufferInv S := by
  have hstop : f.stop ≤ maxByteCount := Nat.le_sub_one_of_lt hf.stop_lt
  obtain ⟨B, hinv⟩ := h.sorter
  obtain ⟨n, g, hn, hcovered, hg, -⟩ :=
    hinv.push_inserted_of_dataFrames hf.agrees hne hstop hpush
  refine ⟨⟨_, Trace.covered_of_pushed hpushed ▸
    hinv.inserted hf.agrees hstop hn hcovered hg.dataFrames⟩, fun k q hq hzero => ?_⟩
  obtain ⟨hk, hqs⟩ := hg.queued_of_empty hq hzero
  obtain ⟨hoff, hnot⟩ := h.empty k q hqs hzero
  refine ⟨hoff, ?_⟩
  rw [Trace.covered_of_pushed hpushed]
  rintro (hmem | hmem)
  · exact hnot hmem
  -- an empty frame that is covered would lie above a missing byte of the new frame
  · have hmissing : t.sorter.Missing k :=
      (hinv.missing_iff k (hmem.2.trans_le hstop)).mpr hnot
    have hkg := hinv.mem_inserted hn hcovered hg.dataFrames hmem hmissing
    have hpos := (hclears k q hqs g.offset (hg.range_subset hn ⟨le_rfl, hg.offset_lt⟩) k hmem
      hg.missing_offset hmissing (lt_of_le_of_ne hkg.1 hk.symm) le_rfl).1
    omega

/-- A push that clears what it covers keeps the invariant, and the queued frames stay disjoint. -/
theorem Trace.BufferInv.push (h : t.BufferInv S) (htight : t.sorter.Tight)
    (hstep : BufferStep S t (.push f) t') (hclears : (Call.push f).Clears t) :
    t'.BufferInv S ∧ t'.sorter.Tight := by
  obtain ⟨hf, err, herr, hpush, hpushed, -⟩ := hstep
  obtain ⟨B, hinv⟩ := h.sorter
  rcases Nat.eq_zero_or_pos f.dataLen with hempty | hne
  · exact h.push_empty htight hempty (hclears.1 hempty)
      (sorter_of_push_empty hempty herr hpush) hpushed
  have hstop : f.stop ≤ maxByteCount := Nat.le_sub_one_of_lt hf.stop_lt
  rcases herr with rfl | rfl
  · have hinv' := h.push_inserted hf hne hclears.2 hpush hpushed
    obtain ⟨n, g, hn, -, hg, hgap⟩ :=
      hinv.push_inserted_of_dataFrames hf.agrees hne hstop hpush
    refine ⟨hinv', hinv'.tight_iff.mpr ?_⟩
    exact htight.dataFrames.inserted hinv hf.agrees hn hg.dataFrames hgap.dataFrames
      hclears.2.dataFrames
  · -- a duplicate changes nothing
    obtain ⟨hsame, hpush'⟩ := push_duplicate_dataFrames hne hpush
    obtain ⟨-, hsub⟩ := hinv.push_duplicate hf.agrees hne hstop hpush'
    have hcovered : t'.covered = t.covered := by
      rw [Trace.covered_of_pushed hpushed, Set.union_eq_self_of_subset_right hsub]
    exact ⟨⟨by rw [hsame, hcovered]; exact h.sorter, by rw [hsame, hcovered]; exact h.empty⟩,
      by rw [hsame]; exact htight⟩

/-! ## Runs -/

/-- A call that clears what it covers keeps the queued frames disjoint. -/
theorem Trace.BufferInv.step (h : t.BufferInv S) (htight : t.sorter.Tight) {c : Call}
    (hstep : BufferStep S t c t') (hclears : c.Clears t) : t'.BufferInv S ∧ t'.sorter.Tight := by
  cases c with
  | push f => exact h.push htight hstep hclears
  | head =>
    obtain rfl := hstep
    exact ⟨h, htight⟩
  | pop =>
    obtain rfl := hstep
    exact h.pop htight

/-- In every run of calls with frames of one stream no byte is ever buffered twice, if no push
covers a queued frame that is empty or does not start right after a gap, and empty frames come only
where nothing was received. An empty frame below the read position always breaks it. -/
theorem noByteTwice_of_clears (S : List UInt8) (calls : List Call) (t : Trace) :
    (Run (fun t c t' => BufferStep S t c t' ∧ c.Clears t) Trace.init calls t →
      Run (fun t c t' => BufferStep S t c t' ∧ t'.NoByteTwice) Trace.init calls t) ∧
    ∀ t' f, BufferStep S t (.push f) t' → f.dataLen = 0 → f.offset < t.sorter.readPosition →
      ¬ t'.NoByteTwice := by
  have hinit : Trace.init.sorter.Tight := by
    constructor <;> simp [Trace.init, new]
  refine ⟨fun hrun => ?_, fun t' f hstep hempty hlt hnone => ?_⟩
  · refine (hrun.simulates (f := id) (I := fun t => t.BufferInv S ∧ t.sorter.Tight)
      ⟨Trace.bufferInv_init S, hinit⟩ ?_).2
    rintro t c t' ⟨h, htight⟩ ⟨hstep, hclears⟩
    obtain ⟨h', htight'⟩ := h.step htight hstep hclears
    exact ⟨⟨h', htight'⟩, hstep, h'.noByteTwice htight'⟩
  · obtain ⟨-, err, herr, hpush, -, -⟩ := hstep
    have hsorter := sorter_of_push_empty hempty herr hpush
    have hahead := hnone.tight.ahead f.offset f (by rw [hsorter]; exact Function.update_self ..)
    rw [hsorter] at hahead
    exact absurd hlt (not_lt.mpr hahead)

/-- A frame of a stream of five bytes. -/
def exampleFrame (offset : ℕ) (data : List UInt8) : StreamFrame :=
  { streamID := 5, finBit := false, dataLenPresent := true, offset, data }

/-- A frame that waits right after a gap is replaced by the frame that covers it. -/
theorem covered_frame_cleared : ∃ t : Trace,
    Run (fun t c t' => BufferStep [10, 11, 12, 13, 14] t c t' ∧ t'.NoByteTwice) Trace.init
      [.push (exampleFrame 2 [12, 13]), .push (exampleFrame 0 [10, 11, 12, 13, 14])] t ∧
      t.sorter.queuedFrames 2 = none := by
  refine ⟨_, (noByteTwice_of_clears _ _ _).1
    ((Run.nil.snoc (t := ⟨_, [_], []⟩) ⟨⟨by decide, none, .inl rfl, rfl, rfl, rfl⟩, ?_⟩).snoc
      (t := ⟨_, [_, _], []⟩) ⟨⟨by decide, none, .inl rfl, rfl, rfl, rfl⟩, ?_⟩), rfl⟩
  · refine ⟨fun hempty => absurd hempty (by decide), fun k q hq x _ y _ _ _ _ _ => ?_⟩
    -- the only frame waits at the offset 2
    obtain rfl : k = 2 := by
      by_contra hk
      cases (Function.update_of_ne hk _ _).symm.trans hq
    obtain rfl := Option.some.inj hq
    exact ⟨by decide, ⟨0, 2⟩, by decide, by decide, by decide⟩
  · exact ⟨fun hempty => absurd hempty (by decide), fun k q hq => nomatch hq⟩

/-- The frames `[2, 3)` and `[3, 4)` wait back to back when `[0, 5)` arrives. The second one stays
in the map: six bytes are buffered of the five that were received, and once the long frame is
popped, one of them lies below the read position for good. -/
theorem covered_frame_stays : ∃ t : Trace,
    Run (BufferStep [10, 11, 12, 13, 14]) Trace.init
      [.push (exampleFrame 2 [12]), .push (exampleFrame 3 [13]),
        .push (exampleFrame 0 [10, 11, 12, 13, 14])] t ∧
      t.sorter.readPosition = 0 ∧ t.highest = 5 ∧ ∑ k ∈ {0, 3}, t.sorter.bytesAt k = 6 ∧
      ¬t.NoByteTwice ∧
      t.pop.sorter.readPosition = 5 ∧ t.pop.sorter.queuedFrames 3 = some (exampleFrame 3 [13]) := by
  have hrun : Run (BufferStep [10, 11, 12, 13, 14]) Trace.init
      [.push (exampleFrame 2 [12]), .push (exampleFrame 3 [13]),
        .push (exampleFrame 0 [10, 11, 12, 13, 14])] ⟨_, [_, _, _], []⟩ :=
    ((Run.nil.snoc (t := ⟨_, [_], []⟩) ⟨by decide, none, .inl rfl, rfl, rfl, rfl⟩).snoc
      (t := ⟨_, [_, _], []⟩) ⟨by decide, none, .inl rfl, rfl, rfl, rfl⟩).snoc
      ⟨by decide, none, .inl rfl, rfl, rfl, rfl⟩
  refine ⟨_, hrun, rfl, rfl, rfl, fun h => ?_, rfl, rfl⟩
  exact absurd (h.total {0, 3}) (by decide)

end StreamFrameSorter

end MPQuic

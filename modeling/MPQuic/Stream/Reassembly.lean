import Mathlib.Data.List.Infix
import Mathlib.Data.Set.Basic
import MPQuic.Lib.Transition
import MPQuic.Stream.FrameSorter

/-!
# Stream reassembly

What the stream frame sorter is for: whatever the order, overlap and duplication of the frames of
a stream, the popped frames spell a prefix of the stream, and nothing that was received is held
back.

The invariant `Inv S C B s` relates a sorter to the stream `S` and to the set `C` of received
offsets. The map of queued frames can hold stale frames that overlap others, so it is described
through a set `B` of boundaries: from the read position and from the end of every gap, following
queued frames from boundary to boundary never gets stuck before the next missing offset.
-/

namespace MPQuic

open IntervalList Transition

namespace StreamFrame

/-- The data of the frame is what the stream has at its offset. -/
def Agrees (S : List UInt8) (f : StreamFrame) : Prop := f.data <+: S.drop f.offset

instance (S : List UInt8) (f : StreamFrame) : Decidable (f.Agrees S) :=
  inferInstanceAs (Decidable (f.data <+: S.drop f.offset))

/-- The offsets of the bytes of a frame. -/
def range (f : StreamFrame) : Set ℕ := { x | f.offset ≤ x ∧ x < f.stop }

variable {S : List UInt8} {f : StreamFrame}

theorem mem_range {x : ℕ} : x ∈ f.range ↔ f.offset ≤ x ∧ x < f.stop := Iff.rfl

/-- A frame without data has no offsets. -/
theorem range_of_empty (h : f.dataLen = 0) : f.range = ∅ := by
  ext x
  rw [mem_range, stop]
  simp only [Set.mem_empty_iff_false, iff_false]
  omega

theorem Agrees.cutHead (h : f.Agrees S) (n : ℕ) : (f.cutHead n).Agrees S := by
  have := List.IsPrefix.drop h n
  rwa [List.drop_drop] at this

theorem Agrees.cutTail (h : f.Agrees S) (n : ℕ) : (f.cutTail n).Agrees S :=
  (List.take_prefix n f.data).trans h

/-- A non-empty frame that agrees with the stream lies within it. -/
theorem Agrees.stop_le (h : f.Agrees S) (hne : 0 < f.dataLen) : f.stop ≤ S.length := by
  have hlen := h.length_le
  rw [List.length_drop] at hlen
  unfold stop dataLen at *
  omega

end StreamFrame

open StreamFrame (stop_cutHead mem_range stop)

namespace StreamFrameSorter

/-- The sorter has received exactly the offsets `C` of the stream `S`. -/
structure Inv (S : List UInt8) (C B : Set ℕ) (s : StreamFrameSorter) : Prop where
  separated : s.GapsSeparated
  last : s.gaps.getLast?.map ByteInterval.stop = some maxByteCount
  missing_iff : ∀ x < maxByteCount, s.Missing x ↔ x ∉ C
  received_lt : ∀ x ∈ C, x < maxByteCount ∧ x < S.length
  read_received : ∀ x < s.readPosition, x ∈ C
  /-- A queued frame holds received data of the stream; only the frame that ends the stream can be
  empty. -/
  queued : ∀ k f, s.queuedFrames k = some f → f.offset = k ∧ f.Agrees S ∧ f.range ⊆ C ∧
    (f.dataLen = 0 → k = S.length ∧ f.finBit)
  read_mem : s.readPosition ∈ B
  gap_stop_mem : ∀ a ∈ s.gaps, a.stop ≠ maxByteCount → a.stop ∈ B
  /-- At a boundary that was received a frame is queued, and it ends at a boundary. -/
  chain : ∀ x ∈ B, x ∈ C → ∃ f, s.queuedFrames x = some f ∧ 0 < f.dataLen ∧ f.stop ∈ B

theorem inv_new (S : List UInt8) : Inv S ∅ Set.univ new where
  separated := by simp [GapsSeparated, new, separated_cons, maxByteCount]
  last := rfl
  missing_iff x hx := by simpa [Missing, new] using hx
  received_lt := by simp
  read_received := by simp [new]
  queued := by simp [new]
  read_mem := Set.mem_univ _
  gap_stop_mem := by simp
  chain := by simp

variable {S : List UInt8} {C B : Set ℕ} {s s' : StreamFrameSorter} {f : StreamFrame}

/-- What is inserted of a frame lies within it. -/
theorem Inserted.range_subset {g : StreamFrame} {n : ℕ} (hg : Inserted s (f.cutHead n) g s')
    (hn : n < f.dataLen) : g.range ⊆ f.range := by
  have hstop : (f.cutHead n).stop = f.stop := stop_cutHead hn.le
  intro x hx
  exact ⟨(Nat.le_add_right _ n).trans (hg.offset_le.trans hx.1),
    hx.2.trans_le (hstop ▸ hg.stop_le)⟩

theorem Inserted.stop_le_length {g : StreamFrame} {n : ℕ} (hg : Inserted s (f.cutHead n) g s')
    (hagree : f.Agrees S) (hn : n < f.dataLen) : g.stop ≤ S.length := by
  have hstop : (f.cutHead n).stop = f.stop := stop_cutHead hn.le
  exact (hstop ▸ hg.stop_le).trans (hagree.stop_le (by omega))

namespace Inv

section

variable (h : Inv S C B s)
include h

/-- Every gap ends at `maxByteCount` or before it. -/
theorem gap_stop_le {a : ByteInterval} (ha : a ∈ s.gaps) :
    a.stop ≤ maxByteCount := by
  have hsep := h.separated
  have hlast := h.last
  rw [GapsSeparated] at hsep
  rcases List.eq_nil_or_concat s.gaps with hnil | ⟨init, r, hr⟩
  · simp [hnil] at ha
  · rw [List.concat_eq_append] at hr
    rw [hr] at ha hsep hlast
    rw [List.getLast?_concat, Option.map_some, Option.some.injEq] at hlast
    rcases List.mem_append.mp ha with ha | ha
    · have := hsep.lt_of_append ha (List.mem_singleton_self r)
      have := hsep.nonempty r (by simp)
      omega
    · obtain rfl := List.mem_singleton.mp ha
      exact hlast.le

theorem missing_lt {x : ℕ} (hx : s.Missing x) : x < maxByteCount := by
  obtain ⟨a, ha, -, hlt⟩ := hx
  exact hlt.trans_le (h.gap_stop_le ha)

theorem not_mem_of_missing {x : ℕ} (hx : s.Missing x) : x ∉ C :=
  (h.missing_iff x (h.missing_lt hx)).mp hx

theorem mem_of_not_missing {x : ℕ} (hx : ¬ s.Missing x) (hlt : x < maxByteCount) :
    x ∈ C := by
  by_contra hC
  exact hx ((h.missing_iff x hlt).mpr hC)

/-- The offset after a gap was received, unless the gap is the last one. -/
theorem gap_stop_received {a : ByteInterval} (ha : a ∈ s.gaps) (hne : a.stop ≠ maxByteCount) :
    a.stop ∈ C := by
  refine h.mem_of_not_missing ?_ (lt_of_le_of_ne (h.gap_stop_le ha) hne)
  rintro ⟨b, hb, hle, hlt⟩
  have hsep := h.separated
  obtain ⟨l₁, l₂, hl⟩ := List.append_of_mem ha
  rw [GapsSeparated, hl] at hsep
  rw [hl, List.mem_append, List.mem_cons] at hb
  rcases hb with hb | rfl | hb
  · have := hsep.lt_of_append hb (b := a) (by simp)
    have := hsep.nonempty a (by simp)
    omega
  · omega
  · have := ((separated_cons _ _).mp ((separated_append _ _).mp hsep).2.1).2.1 b hb
    omega

/-- The last offset of a gap is missing. -/
theorem gap_last_missing {a : ByteInterval} (ha : a ∈ s.gaps) :
    s.Missing (a.stop - 1) := by
  have := h.separated.nonempty a ha
  exact ⟨a, ha, by omega, by omega⟩

end

/-! ## Pushing a frame -/

/-- What is left of a frame after the queued data is cut away. -/
theorem cutQueued_some (h : Inv S C B s) (hagree : f.Agrees S) (hne : 0 < f.dataLen)
    {f₁ : StreamFrame} (hcut : s.cutQueued f = some f₁) :
    ∃ n, n < f.dataLen ∧ f₁ = f.cutHead n ∧ (∀ x, f.offset ≤ x → x < f.offset + n → x ∈ C) ∧
      (n = 0 → s.queuedFrames f.offset = none) := by
  unfold cutQueued at hcut
  cases hq : s.queuedFrames f.offset with
  | none =>
    simp only [hq, Option.some.injEq] at hcut
    exact ⟨0, hne, by simp [StreamFrame.cutHead, hcut], by omega, fun _ => rfl⟩
  | some old =>
    simp only [hq] at hcut
    split_ifs at hcut with hle
    obtain ⟨hoff, -, hrange, hempty⟩ := h.queued _ _ hq
    refine ⟨old.dataLen, by omega, (Option.some.inj hcut).symm, fun x hx hlt => hrange ?_, ?_⟩
    · rw [mem_range, stop, hoff]
      exact ⟨hx, hlt⟩
    · intro hz
      have := hagree.stop_le hne
      have := (hempty hz).1
      unfold stop at *
      omega

/-- A frame whose queued data was cut away does not start at the end of a gap. -/
theorem offset_ne_gap_stop (h : Inv S C B s) {n : ℕ} (hn : n < f.dataLen)
    (hstop : f.stop ≤ maxByteCount) (hcovered : ∀ x, f.offset ≤ x → x < f.offset + n → x ∈ C)
    (hnone : n = 0 → s.queuedFrames f.offset = none) {b : ByteInterval} (hb : b ∈ s.gaps) :
    b.stop ≠ f.offset + n := by
  intro heq
  have hlen : f.offset + n < f.stop := by
    unfold stop
    omega
  rcases Nat.eq_zero_or_pos n with rfl | hpos
  · -- a frame is queued at the end of the gap
    have hmax : b.stop ≠ maxByteCount := by omega
    obtain ⟨q, hq, -⟩ := h.chain _ (h.gap_stop_mem b hb hmax) (h.gap_stop_received hb hmax)
    rw [heq, Nat.add_zero, hnone rfl] at hq
    cases hq
  · -- the last offset of the gap is missing, but it was cut away as received
    refine h.not_mem_of_missing (h.gap_last_missing hb) (hcovered _ ?_ ?_) <;> omega

/-- A successful push queues the new part of the frame. -/
theorem push_inserted (h : Inv S C B s) (hagree : f.Agrees S) (hne : 0 < f.dataLen)
    (hstop : f.stop ≤ maxByteCount) (hpush : s.push f = (s', none)) :
    ∃ n g, n < f.dataLen ∧ (∀ x, f.offset ≤ x → x < f.offset + n → x ∈ C) ∧
      Inserted s (f.cutHead n) g s' ∧ ClearsGapEnds s g s' := by
  rw [push, if_neg (by omega)] at hpush
  cases hcut : s.cutQueued f with
  | none => simp [hcut] at hpush
  | some f₁ =>
    simp only [hcut] at hpush
    obtain ⟨n, hn, rfl, hcovered, hnone⟩ := h.cutQueued_some hagree hne hcut
    have hlt : (f.cutHead n).offset < (f.cutHead n).stop := by
      rw [stop_cutHead hn.le]
      exact Nat.add_lt_add_left hn _
    obtain ⟨g, hg⟩ := insertFrame_inserted h.separated hlt
      (fun b hb => h.offset_ne_gap_stop hn hstop hcovered hnone hb) hpush
    exact ⟨n, g, hn, hcovered, hg⟩

/-- A frame that is refused as a duplicate was received before. -/
theorem push_duplicate (h : Inv S C B s) (hagree : f.Agrees S) (hne : 0 < f.dataLen)
    (hstop : f.stop ≤ maxByteCount) (hpush : s.push f = (s', some .duplicateStreamData)) :
    s' = s ∧ f.range ⊆ C := by
  rw [push, if_neg (by omega)] at hpush
  cases hcut : s.cutQueued f with
  | none =>
    simp only [hcut, Prod.mk.injEq, and_true] at hpush
    refine ⟨hpush.symm, ?_⟩
    unfold cutQueued at hcut
    cases hq : s.queuedFrames f.offset with
    | none => simp [hq] at hcut
    | some old =>
      simp only [hq] at hcut
      split_ifs at hcut with hle
      obtain ⟨hoff, -, hrange, -⟩ := h.queued _ _ hq
      refine fun x hx => hrange ?_
      rw [mem_range, stop] at hx ⊢
      omega
  | some f₁ =>
    simp only [hcut] at hpush
    obtain ⟨n, hn, rfl, hcovered, -⟩ := h.cutQueued_some hagree hne hcut
    have hstop₁ : (f.cutHead n).stop = f.stop := stop_cutHead hn.le
    obtain ⟨hsame, hfind⟩ := insertFrame_duplicate hpush
    refine ⟨hsame, fun x hx => ?_⟩
    by_cases hlt : x < f.offset + n
    · exact hcovered x hx.1 hlt
    · refine h.mem_of_not_missing (findGap_duplicate h.separated hfind ⟨not_lt.mp hlt, ?_⟩)
        (hx.2.trans_le hstop)
      rw [hstop₁]
      exact hx.2

/-- The boundaries after a frame `g` was queued: those inside it are gone. -/
def cutBoundaries (B : Set ℕ) (g : StreamFrame) : Set ℕ :=
  { x | (x ∈ B ∧ (x ≤ g.offset ∨ g.stop ≤ x)) ∨ x = g.offset ∨ x = g.stop }

/-- After a frame was inserted, the offsets of the frame count as received. -/
theorem inserted (h : Inv S C B s) (hagree : f.Agrees S) (hstop : f.stop ≤ maxByteCount) {n : ℕ}
    (hn : n < f.dataLen) (hcovered : ∀ x, f.offset ≤ x → x < f.offset + n → x ∈ C)
    {g : StreamFrame} (hg : Inserted s (f.cutHead n) g s') :
    Inv S (C ∪ f.range) (cutBoundaries B g) s' := by
  have hstop₁ : (f.cutHead n).stop = f.stop := stop_cutHead hn.le
  have hoff : f.offset + n ≤ g.offset := hg.offset_le
  have hgstop : g.stop ≤ f.stop := hstop₁ ▸ hg.stop_le
  have hglt := hg.offset_lt
  have hgnew : g.offset ∉ C := h.not_mem_of_missing hg.missing_offset
  have hgrange : g.range ⊆ f.range := hg.range_subset hn
  -- what was cut away from the frame was received before
  have hhead : ∀ x ∈ f.range, x < g.offset → x ∈ C := fun x hx hlt => by
    by_cases hxn : x < f.offset + n
    · exact hcovered x hx.1 hxn
    · exact h.mem_of_not_missing (hg.head_received x (not_lt.mp hxn) hlt) (hx.2.trans_le hstop)
  have htail : ∀ x ∈ f.range, g.stop ≤ x → x ∈ C := fun x hx hle =>
    h.mem_of_not_missing (hg.tail_received x hle (hstop₁ ▸ hx.2)) (hx.2.trans_le hstop)
  refine ⟨hg.separated, hg.last.trans h.last, fun x hx => ?_, ?_, fun x hx => ?_, ?_, ?_, ?_, ?_⟩
  · rw [hg.missing_iff, h.missing_iff x hx, Set.mem_union, not_or]
    refine and_congr_right fun hC => not_congr ⟨?_, ?_⟩
    · rintro ⟨hle, hlt⟩
      exact ⟨(Nat.le_add_right _ _).trans hle, hstop₁ ▸ hlt⟩
    · rintro ⟨hle, hlt⟩
      refine ⟨?_, hstop₁ ▸ hlt⟩
      by_contra hxn
      exact hC (hcovered x hle (not_le.mp hxn))
  · rintro x (hx | hx)
    · exact h.received_lt x hx
    · have := hagree.stop_le (by omega)
      exact ⟨hx.2.trans_le hstop, hx.2.trans_le this⟩
  · exact .inl (h.read_received x (hg.readPosition ▸ hx))
  · intro k q hq
    by_cases hk : k = g.offset
    · rw [hk, hg.queued_offset, Option.some.injEq] at hq
      subst hq
      obtain ⟨n', m, hcut⟩ := hg.cut
      refine ⟨hk.symm, ?_, hgrange.trans Set.subset_union_right, fun hz => ?_⟩
      · rw [hcut]
        exact ((hagree.cutHead n).cutHead n').cutTail m
      · unfold stop at hglt
        omega
    · obtain ⟨hqoff, hqagree, hqrange, hqempty⟩ := h.queued k q (hg.queued_of_ne k q hk hq)
      exact ⟨hqoff, hqagree, hqrange.trans Set.subset_union_left, hqempty⟩
  · rw [hg.readPosition]
    refine .inl ⟨h.read_mem, .inl ?_⟩
    by_contra hlt
    exact hgnew (h.read_received _ (not_le.mp hlt))
  · intro a ha hmax
    rcases hg.gap_stop a ha with heq | ⟨⟨b, hb, hbstop⟩, hside⟩
    · exact .inr (.inl heq)
    · refine .inl ⟨hbstop ▸ h.gap_stop_mem b hb (hbstop ▸ hmax), ?_⟩
      rcases hside with hlt | hge
      · exact .inl hlt.le
      · exact .inr hge
  · intro x hx hxC
    by_cases hxg : x = g.offset
    · exact ⟨g, hxg ▸ hg.queued_offset, by unfold stop at hglt; omega, .inr (.inr rfl)⟩
    -- any other boundary lies outside of the frame and was received before
    have hxB : x ∈ B ∧ x ∈ C ∧ (x < g.offset ∨ g.stop ≤ x) := by
      rcases hx with ⟨hxB, hside⟩ | rfl | rfl
      · rcases lt_or_ge x g.offset with hlt | hge
        · exact ⟨hxB, hxC.elim id fun hxf => hhead x hxf hlt, .inl hlt⟩
        · have hge : g.stop ≤ x := by omega
          exact ⟨hxB, hxC.elim id fun hxf => htail x hxf hge, .inr hge⟩
      · exact absurd rfl hxg
      · rcases hg.stop_cases with ⟨heq, hmissing⟩ | ⟨b, hb, hbstop⟩
        · rcases hxC with hxC | hxC
          · exact absurd hxC (h.not_mem_of_missing hmissing)
          · have := hxC.2
            omega
        · have hmax : b.stop ≠ maxByteCount := by
            rw [hbstop]
            rcases hxC with hxC | hxC
            · exact (h.received_lt _ hxC).1.ne
            · exact (hxC.2.trans_le hstop).ne
          exact ⟨hbstop ▸ h.gap_stop_mem b hb hmax, hbstop ▸ h.gap_stop_received hb hmax,
            .inr le_rfl⟩
    obtain ⟨hxB, hxC, hside⟩ := hxB
    obtain ⟨q, hq, hqlen, hqstop⟩ := h.chain x hxB hxC
    refine ⟨q, (hg.queued_outside x hside).trans hq, hqlen, .inl ⟨hqstop, ?_⟩⟩
    obtain ⟨hqoff, -, hqrange, -⟩ := h.queued x q hq
    have hqx : x < q.stop := by
      unfold stop
      omega
    rcases hside with hlt | hge
    · -- a queued frame before the gap does not reach into it
      refine .inl (not_lt.mp fun hlt' => hgnew (hqrange ⟨by omega, hlt'⟩))
    · exact .inr (hge.trans hqx.le)

/-- A push that returns nil, or an error for duplicate data, adds the frame to what was
received. -/
theorem push (h : Inv S C B s) (hagree : f.Agrees S) (hne : 0 < f.dataLen)
    (hstop : f.stop ≤ maxByteCount) {err : Option PushError}
    (herr : err = none ∨ err = some .duplicateStreamData) (hpush : s.push f = (s', err)) :
    ∃ B', Inv S (C ∪ f.range) B' s' := by
  rcases herr with rfl | rfl
  · obtain ⟨n, g, hn, hcovered, hg, -⟩ := h.push_inserted hagree hne hstop hpush
    exact ⟨_, h.inserted hagree hstop hn hcovered hg⟩
  · obtain ⟨rfl, hsub⟩ := h.push_duplicate hagree hne hstop hpush
    rw [Set.union_eq_self_of_subset_right hsub]
    exact ⟨B, h⟩

/-! ## Popping a frame -/

/-- A popped frame continues the data that was read. -/
theorem pop (h : Inv S C B s) (hpop : s.pop = (s', some f)) :
    f.offset = s.readPosition ∧ f.Agrees S ∧ s'.readPosition = s.readPosition + f.dataLen ∧
      ∃ B', Inv S C B' s' := by
  obtain ⟨hhead, rfl⟩ := pop_eq_some hpop
  obtain ⟨hoff, hagree, hrange, hempty⟩ := h.queued _ _ hhead
  -- the positions where a frame may be queued are those that are not read yet
  refine ⟨hoff, hagree, rfl, { x | x ∈ B ∧ s.readPosition + f.dataLen ≤ x }, ?_⟩
  have hread : ∀ x < s.readPosition + f.dataLen, x ∈ C := fun x hx => by
    rcases lt_or_ge x s.readPosition with hlt | hge
    · exact h.read_received x hlt
    · exact hrange ⟨by omega, by rw [stop, hoff]; exact hx⟩
  refine ⟨h.separated, h.last, h.missing_iff, h.received_lt, hread, ?_, ⟨?_, le_rfl⟩, ?_, ?_⟩
  · exact fun k g hk => h.queued k g (queuedFrames_of_pop hpop hk)
  · rcases Nat.eq_zero_or_pos f.dataLen with hz | hpos
    · simpa [hz] using h.read_mem
    · obtain ⟨q, hq, -, hmem⟩ := h.chain _ h.read_mem (hread _ (by omega))
      have : f = q := Option.some.inj (hhead.symm.trans hq)
      rwa [← this, stop, hoff] at hmem
  · intro a ha hmax
    refine ⟨h.gap_stop_mem a ha hmax, ?_⟩
    have hlt := h.separated.nonempty a ha
    have : ¬ a.start < s.readPosition + f.dataLen := fun hlt' =>
      h.not_mem_of_missing ⟨a, ha, le_rfl, hlt⟩ (hread _ hlt')
    omega
  · rintro x ⟨hxB, hle⟩ hxC
    obtain ⟨q, hq, hlen, hmem⟩ := h.chain x hxB hxC
    have hxf : x ≠ f.offset := by
      rintro rfl
      have hz : f.dataLen = 0 := by omega
      have := (hempty hz).1
      have := (h.received_lt _ hxC).2
      omega
    refine ⟨q, (Function.update_of_ne hxf _ _).trans hq, hlen, hmem, ?_⟩
    have := (h.queued x q hq).1
    unfold stop
    omega

/-- When no frame can be popped, the offset at the read position was not received. -/
theorem readPosition_not_mem (h : Inv S C B s) (hhead : s.head = none) : s.readPosition ∉ C := by
  intro hC
  obtain ⟨f, hf, -⟩ := h.chain _ h.read_mem hC
  rw [head, hf] at hhead
  cases hhead

end Inv

/-! ## Runs -/

/-- A sorter together with the frames that were pushed and popped so far. -/
structure Trace where
  sorter : StreamFrameSorter
  pushed : List StreamFrame
  popped : List StreamFrame

namespace Trace

/-- The trace before the first call. -/
def init : Trace := { sorter := new, pushed := [], popped := [] }

/-- The offsets that the pushed frames cover. -/
def covered (t : Trace) : Set ℕ := { x | ∃ f ∈ t.pushed, x ∈ f.range }

/-- The data of all popped frames. -/
def delivered (t : Trace) : List UInt8 := t.popped.flatMap StreamFrame.data

/-- A call of `Pop`. -/
def pop (t : Trace) : Trace :=
  { t with sorter := t.sorter.pop.1, popped := t.popped ++ t.sorter.pop.2.toList }

end Trace

/-- A call of the sorter. -/
inductive Call where
  | push (f : StreamFrame)
  | head
  | pop

/-- The effect of a call. The pushed frames are not empty, agree with the stream `S` and end
within the range of offsets, which the parser checks; `Push` returns nil or an error for duplicate
data. -/
def Step (S : List UInt8) (t : Trace) (c : Call) (t' : Trace) : Prop :=
  match c with
  | .push f => 0 < f.dataLen ∧ f.Agrees S ∧ f.stop < uint64Size ∧
    ∃ err, (err = none ∨ err = some .duplicateStreamData) ∧
      t.sorter.push f = (t'.sorter, err) ∧ t'.pushed = t.pushed ++ [f] ∧ t'.popped = t.popped
  | .head => t' = t
  | .pop => t' = t.pop

/-- The sorter has received what was pushed, and has delivered the stream up to its read
position. -/
structure Trace.Inv (S : List UInt8) (t : Trace) : Prop where
  sorter : ∃ B, StreamFrameSorter.Inv S t.covered B t.sorter
  read_le : t.sorter.readPosition ≤ S.length
  delivered : t.delivered = S.take t.sorter.readPosition

variable {t t' : Trace}

theorem Trace.inv_init (S : List UInt8) : Trace.init.Inv S where
  sorter := ⟨_, by simpa [Trace.covered, Trace.init] using inv_new S⟩
  read_le := Nat.zero_le _
  delivered := rfl

theorem Trace.covered_of_pushed (hpushed : t'.pushed = t.pushed ++ [f]) :
    t'.covered = t.covered ∪ f.range := by
  ext x
  simp [Trace.covered, hpushed, or_and_right, exists_or]

theorem Trace.Inv.pop (h : t.Inv S) : t.pop.Inv S := by
  obtain ⟨⟨B, hinv⟩, hle, hdel⟩ := h
  cases hpop : t.sorter.pop with
  | mk s' r =>
    cases r with
    | none =>
      have ht : t.pop = t := by simp [Trace.pop, hpop, pop_eq_none hpop]
      rw [ht]
      exact ⟨⟨B, hinv⟩, hle, hdel⟩
    | some f =>
      obtain ⟨hoff, hagree, hread, B', hinv'⟩ := hinv.pop hpop
      obtain ⟨rest, hrest⟩ := hagree
      have htake : t.delivered ++ f.data = S.take (t.sorter.readPosition + f.dataLen) := by
        rw [hdel, StreamFrame.dataLen, List.take_add, ← hoff, ← hrest, List.take_left]
      have hlen : t.sorter.readPosition + f.dataLen ≤ S.length := by
        have := congrArg List.length htake
        rw [hdel] at this
        simp only [List.length_append, List.length_take, StreamFrame.dataLen] at this ⊢
        omega
      have ht : t.pop = { t with sorter := s', popped := t.popped ++ [f] } := by
        simp [Trace.pop, hpop]
      rw [ht]
      refine ⟨⟨B', hinv'⟩, by rw [hread]; exact hlen, ?_⟩
      simp only [hread, ← htake]
      simp [Trace.delivered]

theorem Trace.Inv.step (h : t.Inv S) {c : Call} (hstep : Step S t c t') : t'.Inv S := by
  cases c with
  | push f =>
    obtain ⟨hne, hagree, hstop, err, herr, hpush, hpushed, hpopped⟩ := hstep
    obtain ⟨⟨B, hinv⟩, hle, hdel⟩ := h
    have hread : t'.sorter.readPosition = t.sorter.readPosition := by
      rcases herr with rfl | rfl
      · obtain ⟨n, g, -, -, hg, -⟩ :=
          hinv.push_inserted hagree hne (Nat.le_sub_one_of_lt hstop) hpush
        exact hg.readPosition
      · rw [(hinv.push_duplicate hagree hne (Nat.le_sub_one_of_lt hstop) hpush).1]
    have hcovered := Trace.covered_of_pushed hpushed
    obtain ⟨B', hinv'⟩ := hinv.push hagree hne (Nat.le_sub_one_of_lt hstop) herr hpush
    refine ⟨⟨B', hcovered ▸ hinv'⟩, hread ▸ hle, ?_⟩
    rw [Trace.delivered, hpopped, hread]
    exact hdel
  | head => exact hstep ▸ h
  | pop => exact hstep ▸ h.pop

theorem Trace.Inv.pop_iterate (h : t.Inv S) (m : ℕ) : (Trace.pop^[m] t).Inv S := by
  induction m with
  | zero => exact h
  | succ m ih =>
    rw [Function.iterate_succ_apply']
    exact ih.pop

theorem Trace.covered_pop_iterate (t : Trace) (m : ℕ) : (Trace.pop^[m] t).covered = t.covered := by
  induction m with
  | zero => rfl
  | succ m ih =>
    rw [Function.iterate_succ_apply', ← ih]
    rfl

/-- Popping comes to an end: a frame with data advances the read position, which the length of the
stream bounds, and an empty frame leaves nothing behind it. -/
theorem Trace.Inv.exists_head_eq_none (h : t.Inv S) :
    ∃ m, (Trace.pop^[m] t).sorter.head = none := by
  -- an empty frame decreases the second summand, and any other frame the first one
  induction hk : 2 * (S.length - t.sorter.readPosition) + (if t.sorter.head.isSome then 1 else 0)
    using Nat.strong_induction_on generalizing t with
  | _ k ih =>
    cases hhead : t.sorter.head with
    | none => exact ⟨0, hhead⟩
    | some f =>
      have hpop : t.sorter.pop.1 = { t.sorter with
          readPosition := t.sorter.readPosition + f.dataLen
          queuedFrames := Function.update t.sorter.queuedFrames f.offset none } := by
        simp [StreamFrameSorter.pop, hhead]
      have hle := h.pop.read_le
      obtain ⟨B, hinv⟩ := h.sorter
      have hoff := (hinv.queued _ _ hhead).1
      have hempty : f.dataLen = 0 → t.pop.sorter.head = none := fun hz => by
        simp [Trace.pop, hpop, StreamFrameSorter.head, hz, hoff]
      have hread : t.pop.sorter.readPosition = t.sorter.readPosition + f.dataLen := by
        simp [Trace.pop, hpop]
      obtain ⟨m, hm⟩ := ih _ (by
        rw [hhead, Option.isSome_some, if_pos rfl] at hk
        rw [hread] at hle ⊢
        rcases Nat.eq_zero_or_pos f.dataLen with hz | hpos
        · rw [hempty hz]
          simp
          omega
        · split_ifs <;> omega) h.pop rfl
      exact ⟨m + 1, hm⟩

/-- For every sequence of calls that push frames of the stream `S`: the popped frames spell a
prefix of `S` as long as the read position; once the pushed frames cover `[0, k)`, popping until
nothing is left delivers at least `k` bytes; and the gaps are the normal form of the set of
offsets that no pushed frame covers. -/
theorem reassembly (S : List UInt8) {calls : List Call} {t : Trace}
    (hrun : Run (Step S) Trace.init calls t) :
    (t.delivered <+: S ∧ t.sorter.readPosition = t.delivered.length) ∧
    (∀ k, (∀ x < k, x ∈ t.covered) → (∃ m, (Trace.pop^[m] t).sorter.head = none) ∧
      ∀ m, (Trace.pop^[m] t).sorter.head = none → k ≤ (Trace.pop^[m] t).delivered.length) ∧
    (t.sorter.GapsSeparated ∧
      t.sorter.gaps.getLast?.map ByteInterval.stop = some maxByteCount ∧
      ∀ x, x ∈ t.covered ↔ x < maxByteCount ∧ ¬ t.sorter.Missing x) := by
  have h : t.Inv S := hrun.invariant (I := fun _ t => t.Inv S) (Trace.inv_init S)
    fun _ _ _ _ h => h.step
  have hlength : ∀ u : Trace, u.Inv S → u.delivered.length = u.sorter.readPosition := fun u hu => by
    rw [hu.delivered, List.length_take, Nat.min_eq_left hu.read_le]
  obtain ⟨B, hinv⟩ := h.sorter
  refine ⟨⟨h.delivered ▸ List.take_prefix _ _, (hlength t h).symm⟩, fun k hk => ?_, hinv.separated,
    hinv.last, fun x => ⟨fun hx => ?_, fun hx => hinv.mem_of_not_missing hx.2 hx.1⟩⟩
  · refine ⟨h.exists_head_eq_none, fun m hm => ?_⟩
    have hm' := h.pop_iterate m
    obtain ⟨B', hinv'⟩ := hm'.sorter
    have hnot := hinv'.readPosition_not_mem hm
    rw [t.covered_pop_iterate m] at hnot
    rw [hlength _ hm']
    exact not_lt.mp fun hlt => hnot (hk _ hlt)
  · exact ⟨(hinv.received_lt x hx).1, fun hmissing => hinv.not_mem_of_missing hmissing hx⟩

/-- Two overlapping frames of the stream `10, 11, 12, 13`, the later one first. -/
theorem reassembly_example : ∃ t : Trace, t.delivered = [10, 11, 12, 13] ∧
    t.delivered <+: [10, 11, 12, 13] := by
  have hrun : Run (Step [10, 11, 12, 13]) Trace.init
      [.push ⟨5, false, true, 2, [12, 13]⟩, .push ⟨5, false, true, 0, [10, 11, 12]⟩, .pop,
        .pop] _ :=
    (((Run.nil.snoc (t := ⟨_, [_], []⟩)
      ⟨by decide, by decide, by decide, none, .inl rfl, rfl, rfl, rfl⟩).snoc (t := ⟨_, [_, _], []⟩)
      ⟨by decide, by decide, by decide, none, .inl rfl, rfl, rfl, rfl⟩).snoc rfl).snoc rfl
  exact ⟨_, rfl, (reassembly [10, 11, 12, 13] hrun).1.1⟩

end StreamFrameSorter

end MPQuic

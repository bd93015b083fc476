import MPQuic.Lib.IntervalList
import MPQuic.Wire.StreamFrame

/-!
# The stream frame sorter

`stream_frame_sorter.go`: reassembles the STREAM frames of a stream. The sorter keeps the list of
gaps, the offsets that were not received yet, and a map from offsets to the frames that wait to
be read. `push` cuts away what was received before, takes the frame out of the gaps and queues
the rest; frames that a longer one covers are removed from the map only where they start at the
end of a gap, so the map can hold stale frames.

`push_inserted` says what a successful `push` does, in terms of the set of missing offsets and of
the map. Everything else about the sorter is derived from it.
-/

namespace MPQuic

open IntervalList

/-- An interval of offsets, from `start` up to but not including `stop`. -/
structure ByteInterval where
  start : ℕ
  stop : ℕ
  deriving DecidableEq

/-- The state of a stream frame sorter. -/
structure StreamFrameSorter where
  queuedFrames : ℕ → Option StreamFrame
  readPosition : ℕ
  /-- The offsets that were not received, in ascending order. -/
  gaps : List ByteInterval

/-- The errors of `push`. -/
inductive PushError where
  | tooManyGapsInReceivedStreamData
  | duplicateStreamData
  | emptyStreamData
  | noGapFound
  | noEndGapFound
  deriving DecidableEq

namespace StreamFrame

/-- The frame without its first `n` bytes. -/
def cutHead (f : StreamFrame) (n : ℕ) : StreamFrame :=
  { f with offset := f.offset + n, data := f.data.drop n }

/-- The frame with only its first `n` bytes. -/
def cutTail (f : StreamFrame) (n : ℕ) : StreamFrame := { f with data := f.data.take n }

/-- The offset after the last byte. -/
def stop (f : StreamFrame) : ℕ := f.offset + f.dataLen

/-- Cutting the head of a frame does not move its end. -/
theorem stop_cutHead {f : StreamFrame} {n : ℕ} (h : n ≤ f.dataLen) :
    (f.cutHead n).stop = f.stop := by
  simp only [stop, dataLen, cutHead, List.length_drop] at *
  omega

end StreamFrame

namespace StreamFrameSorter

/-- A new stream frame sorter. -/
def new : StreamFrameSorter where
  queuedFrames := fun _ => none
  readPosition := 0
  gaps := [{ start := 0, stop := maxByteCount }]

/-- The result of the search for the first gap that a frame can touch. -/
inductive GapSearch where
  | duplicate
  | noGap
  | found (before : List ByteInterval) (gap : ByteInterval) (after : List ByteInterval)
  deriving DecidableEq

/-- Skip all gaps that are before the frame `[start, stop)`. -/
def findGap (start stop : ℕ) : List ByteInterval → GapSearch
  | [] => .noGap
  | gap :: after =>
    -- the frame is a duplicate
    if stop ≤ gap.start then .duplicate
    else if start ≤ gap.stop then .found [] gap after
    else
      match findGap start stop after with
      | .found before gap' after' => .found (gap :: before) gap' after'
      | r => r

/-- The result of the search for the highest gap that starts before the end of a frame. -/
structure EndGap where
  endGap : ByteInterval
  /-- The end gap is the gap the search started from. -/
  isGap : Bool
  /-- The end gap is still in the list of gaps. -/
  linked : Bool
  /-- The gaps after the end gap. -/
  rest : List ByteInterval
  queuedFrames : ℕ → Option StreamFrame

/-- Find the end gap of a frame that ends at `stop`, and remove the gaps and queued frames that
the frame covers. If the search runs out of gaps, the result is what is left of the list from the
second gap on, and the map. -/
def findEndGap (stop : ℕ) (queuedFrames : ℕ → Option StreamFrame) (isGap : Bool)
    (endGap : ByteInterval) :
    List ByteInterval → Except (List ByteInterval × (ℕ → Option StreamFrame)) EndGap
  | [] =>
    if stop < endGap.stop then .ok { endGap, isGap, linked := true, rest := [], queuedFrames }
    else .error (if isGap then [] else [endGap], queuedFrames)
  | nextEndGap :: rest =>
    if stop < endGap.stop then
      .ok { endGap, isGap, linked := true, rest := nextEndGap :: rest, queuedFrames }
    else if stop ≤ nextEndGap.start then
      -- the end gap was removed from the list, unless it is the gap itself
      .ok { endGap, isGap, linked := isGap, rest := nextEndGap :: rest, queuedFrames }
    else
      -- delete queued frames completely covered by the current frame
      findEndGap stop (Function.update queuedFrames endGap.stop none) false nextEndGap rest

/-- What is left of the gap and the end gap once `[start, stop)` is received. -/
def fillGap (start stop : ℕ) (gap : ByteInterval) (e : EndGap) : List ByteInterval :=
  let endGaps := if !e.isGap && e.linked then [e.endGap] else []
  if start = gap.start then
    if e.isGap then
      -- the frame covers the beginning of the gap, or the whole gap
      if gap.stop ≤ stop then [] else [{ gap with start := stop }]
    else
      (if gap.stop ≤ stop then [] else [gap]) ++
        if stop < e.endGap.stop then endGaps.map (fun g => { g with start := stop }) else endGaps
  else if stop = e.endGap.stop then
    -- the frame covers the end of the gap
    { gap with stop := start } :: endGaps
  else if e.isGap then
    -- the frame lies within the gap, splitting it into two
    [{ gap with stop := start }, { start := stop, stop := gap.stop }]
  else
    { gap with stop := start } :: endGaps.map (fun g => { g with start := stop })

/-- The part of the frame after the data that is queued at its offset, or `none` if the queued
frame covers it. -/
def cutQueued (s : StreamFrameSorter) (frame : StreamFrame) : Option StreamFrame :=
  match s.queuedFrames frame.offset with
  | none => some frame
  | some oldFrame =>
    if frame.dataLen ≤ oldFrame.dataLen then none else some (frame.cutHead oldFrame.dataLen)

/-- Take the frame out of the gaps and queue what is new in it. -/
def insertFrame (s : StreamFrameSorter) (frame : StreamFrame) :
    StreamFrameSorter × Option PushError :=
  match findGap frame.offset frame.stop s.gaps with
  | .duplicate => (s, some .duplicateStreamData)
  | .noGap => (s, some .noGapFound)
  | .found before gap after =>
    let stop := frame.stop
    -- the subtraction is 0 unless the frame starts before the gap
    let frame := frame.cutHead (gap.start - frame.offset)
    match findEndGap stop s.queuedFrames true gap after with
    | .error (rest, queuedFrames) =>
      ({ s with gaps := before ++ gap :: rest, queuedFrames }, some .noEndGapFound)
    | .ok e =>
      let frame := if e.endGap.stop < stop then frame.cutTail (e.endGap.stop - frame.offset)
        else frame
      let gaps := before ++ fillGap frame.offset (min stop e.endGap.stop) gap e ++ e.rest
      if maxStreamFrameSorterGaps < gaps.length then
        ({ s with gaps, queuedFrames := e.queuedFrames }, some .tooManyGapsInReceivedStreamData)
      else
        ({ s with gaps
                  queuedFrames := Function.update e.queuedFrames frame.offset (some frame) }, none)

/-- Add a frame. -/
def push (s : StreamFrameSorter) (frame : StreamFrame) : StreamFrameSorter × Option PushError :=
  if frame.dataLen = 0 then
    if frame.finBit then
      ({ s with queuedFrames := Function.update s.queuedFrames frame.offset (some frame) }, none)
    else (s, some .emptyStreamData)
  else
    match s.cutQueued frame with
    | none => (s, some .duplicateStreamData)
    | some frame => s.insertFrame frame

/-- The frame at the read position. -/
def head (s : StreamFrameSorter) : Option StreamFrame := s.queuedFrames s.readPosition

/-- Remove the frame at the read position. -/
def pop (s : StreamFrameSorter) : StreamFrameSorter × Option StreamFrame :=
  match s.head with
  | none => (s, none)
  | some frame =>
    ({ s with readPosition := s.readPosition + frame.dataLen
              queuedFrames := Function.update s.queuedFrames frame.offset none }, some frame)

variable {s s' : StreamFrameSorter} {f : StreamFrame}

/-- A popped frame was queued at the read position. -/
theorem pop_eq_some (hpop : s.pop = (s', some f)) :
    s.head = some f ∧
      s' = { s with readPosition := s.readPosition + f.dataLen
                    queuedFrames := Function.update s.queuedFrames f.offset none } := by
  unfold pop at hpop
  cases hhead : s.head with
  | none => simp [hhead] at hpop
  | some q =>
    simp only [hhead, Prod.mk.injEq, Option.some.injEq] at hpop
    obtain ⟨rfl, rfl⟩ := hpop
    exact ⟨rfl, rfl⟩

/-- A pop puts no frame into the queue. -/
theorem queuedFrames_of_pop {q : StreamFrame} {k : ℕ} (hpop : s.pop = (s', some f))
    (hq : s'.queuedFrames k = some q) :
    s.queuedFrames k = some q := by
  obtain ⟨-, rfl⟩ := pop_eq_some hpop
  by_cases hk : k = f.offset
  · simp [hk] at hq
  · dsimp only at hq
    rwa [Function.update_of_ne hk] at hq

/-- A pop that finds nothing changes nothing. -/
theorem pop_eq_none (hpop : s.pop = (s', none)) : s' = s := by
  unfold pop at hpop
  cases hhead : s.head with
  | none => simpa [hhead] using (congrArg Prod.fst hpop).symm
  | some f => simp [hhead] at hpop

/-- The offset `x` was not received. -/
def Missing (s : StreamFrameSorter) (x : ℕ) : Prop :=
  Covers ByteInterval.start ByteInterval.stop s.gaps x

/-- The gaps are non-empty, sorted, disjoint and non-adjacent. -/
def GapsSeparated (s : StreamFrameSorter) : Prop :=
  Separated ByteInterval.start ByteInterval.stop s.gaps

/-! ## The gap searches -/

/-- A gap that was found is the first one that the frame can touch. -/
theorem findGap_found {start stop : ℕ} {gaps before after : List ByteInterval} {gap : ByteInterval}
    (h : findGap start stop gaps = .found before gap after) :
    gaps = before ++ gap :: after ∧ (∀ g ∈ before, g.stop < start) ∧ gap.start < stop ∧
      start ≤ gap.stop := by
  induction gaps generalizing before with
  | nil => simp [findGap] at h
  | cons g rest ih =>
    rw [findGap] at h
    split_ifs at h with hdup hfound
    · simp only [GapSearch.found.injEq] at h
      obtain ⟨rfl, rfl, rfl⟩ := h
      exact ⟨rfl, by simp, not_le.mp hdup, hfound⟩
    · cases hrec : findGap start stop rest with
      | duplicate => simp [hrec] at h
      | noGap => simp [hrec] at h
      | found before' gap' after' =>
        simp only [hrec, GapSearch.found.injEq] at h
        obtain ⟨rfl, rfl, rfl⟩ := h
        obtain ⟨rfl, hbefore, hgap⟩ := ih hrec
        exact ⟨rfl, List.forall_mem_cons.mpr ⟨not_le.mp hfound, hbefore⟩, hgap⟩

/-- A duplicate frame has no byte in any gap. -/
theorem findGap_duplicate {start stop : ℕ} {gaps : List ByteInterval}
    (hsep : Separated ByteInterval.start ByteInterval.stop gaps)
    (h : findGap start stop gaps = .duplicate) {x : ℕ} (hx : start ≤ x ∧ x < stop) :
    ¬ Covers ByteInterval.start ByteInterval.stop gaps x := by
  induction gaps with
  | nil => exact covers_nil x
  | cons g rest ih =>
    obtain ⟨hg, hlt, hrest⟩ := (separated_cons _ _).mp hsep
    rw [findGap] at h
    split_ifs at h with hdup hfound
    · rintro ⟨a, ha, hlo, -⟩
      rcases List.mem_cons.mp ha with rfl | ha
      · omega
      · have := hlt a ha
        omega
    · cases hrec : findGap start stop rest with
      | duplicate =>
        rw [covers_cons]
        rintro (hin | hin)
        · omega
        · exact ih hrest hrec hin
      | noGap => simp [hrec] at h
      | found => simp [hrec] at h

/-- What the search for the end gap returns: the gaps up to `passed` end within the frame, the
queued frames at their ends are deleted, and the frame ends in the end gap or before the next
gap. -/
structure EndGapSpec (stop : ℕ) (queuedFrames : ℕ → Option StreamFrame) (gaps : List ByteInterval)
    (isGap : Bool) (e : EndGap) (passed : List ByteInterval) : Prop where
  split : gaps = passed ++ e.endGap :: e.rest
  passed_le : ∀ g ∈ passed, g.stop ≤ stop
  start_lt : passed ≠ [] → e.endGap.start < stop
  isGap_eq : e.isGap = (isGap && passed.isEmpty)
  queued : ∀ k, e.queuedFrames k = if ∃ g ∈ passed, g.stop = k then none else queuedFrames k
  stop_le : (e.linked = true ∧ stop < e.endGap.stop) ∨
    (e.linked = e.isGap ∧ e.endGap.stop ≤ stop ∧ ∃ next rest, e.rest = next :: rest ∧
      stop ≤ next.start)

theorem findEndGap_ok {stop : ℕ} {queuedFrames : ℕ → Option StreamFrame} {isGap : Bool}
    {endGap : ByteInterval} {rest : List ByteInterval} {e : EndGap}
    (h : findEndGap stop queuedFrames isGap endGap rest = .ok e) :
    ∃ passed, EndGapSpec stop queuedFrames (endGap :: rest) isGap e passed := by
  induction rest generalizing queuedFrames isGap endGap with
  | nil =>
    unfold findEndGap at h
    split_ifs at h with hstop
    cases h
    exact ⟨[], rfl, by simp, by simp, by simp, by simp, .inl ⟨rfl, hstop⟩⟩
  | cons next rest ih =>
    unfold findEndGap at h
    split_ifs at h with hstop hnext
    · cases h
      exact ⟨[], rfl, by simp, by simp, by simp, by simp, .inl ⟨rfl, hstop⟩⟩
    · cases h
      exact ⟨[], rfl, by simp, by simp, by simp, by simp,
        .inr ⟨rfl, not_lt.mp hstop, next, rest, rfl, hnext⟩⟩
    · -- the frame goes beyond this gap: whatever is queued at its end is deleted
      obtain ⟨passed, hsplit, hle, hstart, hisGap, hqueued, hcases⟩ := ih h
      refine ⟨endGap :: passed, by rw [hsplit]; rfl, ?_, fun _ => ?_, by simpa using hisGap,
        fun k => ?_, hcases⟩
      · exact List.forall_mem_cons.mpr ⟨not_lt.mp hstop, hle⟩
      · rcases passed with - | ⟨g, passed⟩
        · simp only [List.nil_append, List.cons.injEq] at hsplit
          rw [← hsplit.1]
          omega
        · exact hstart (by simp)
      · rw [hqueued]
        by_cases hk : endGap.stop = k
        · simp [hk, Function.update]
        · simp only [List.mem_cons, exists_eq_or_imp, hk, false_or]
          rw [Function.update_of_ne (Ne.symm hk)]

/-! ## Filling a gap -/

section FillGap

variable {start stop : ℕ} {gap : ByteInterval} {e : EndGap} {queuedFrames : ℕ → Option StreamFrame}
  {before after passed : List ByteInterval}

/-- The pieces that are left of the gap and the end gap. -/
def leftover (start stop : ℕ) (gap endGap : ByteInterval) : List ByteInterval :=
  (if gap.start < start then [⟨gap.start, start⟩] else []) ++
    if stop < endGap.stop then [⟨stop, endGap.stop⟩] else []

theorem mem_leftover {endGap a : ByteInterval} : a ∈ leftover start stop gap endGap ↔
    (gap.start < start ∧ a = ⟨gap.start, start⟩) ∨
      (stop < endGap.stop ∧ a = ⟨stop, endGap.stop⟩) := by
  unfold leftover
  split_ifs <;> simp_all

/-- Filling leaves the part of the gap before the frame and the part of the end gap after it. -/
theorem fillGap_eq (he : EndGapSpec stop queuedFrames (gap :: after) true e passed)
    (hsep : Separated ByteInterval.start ByteInterval.stop (gap :: after))
    (hstart : gap.start ≤ start) :
    fillGap start (min stop e.endGap.stop) gap e = leftover start stop gap e.endGap := by
  unfold leftover
  obtain ⟨hsplit, hle, -, hisGap, -, hcases⟩ := he
  rcases passed with - | ⟨g, passed⟩
  · -- the end gap is the gap itself
    obtain ⟨rfl, -⟩ : gap = e.endGap ∧ after = e.rest := by simpa using hsplit
    have hisGap : e.isGap = true := by simpa using hisGap
    by_cases h₁ : start = e.endGap.start <;> by_cases h₂ : stop < e.endGap.stop <;>
      simp [fillGap, hisGap, h₁, h₂, Nat.le_of_lt, Nat.not_lt.mp]
    all_goals grind
  · obtain ⟨rfl, hafter⟩ : gap = g ∧ after = passed ++ e.endGap :: e.rest := by
      simpa using hsplit
    have hisGap : e.isGap = false := by simpa using hisGap
    have hgap : gap.stop ≤ stop := hle gap (by simp)
    have hlt : gap.stop < e.endGap.start :=
      ((separated_cons _ _).mp hsep).2.1 _ (by rw [hafter]; simp)
    have hend : e.endGap.start < e.endGap.stop := hsep.nonempty _ (by rw [hafter]; simp)
    have hfill : gap.stop ≤ min stop e.endGap.stop := by omega
    -- the first gap is cut or removed at the start of the frame, and the end gap at its end
    by_cases h₁ : start = gap.start
    · rcases hcases with ⟨hlinked, hstop⟩ | ⟨hlinked, hstop, -⟩
      · have hmin : min stop e.endGap.stop = stop := by omega
        rw [hmin] at hfill ⊢
        simp [fillGap, hisGap, hlinked, h₁, hfill, hstop]
      · have hmin : min stop e.endGap.stop = e.endGap.stop := by omega
        rw [hmin] at hfill ⊢
        simp [fillGap, hisGap, hlinked, h₁, hfill, Nat.not_lt.mpr hstop]
    · have hlt' : gap.start < start := by omega
      rcases hcases with ⟨hlinked, hstop⟩ | ⟨hlinked, hstop, -⟩
      · have hmin : min stop e.endGap.stop = stop := by omega
        rw [hmin]
        simp [fillGap, hisGap, hlinked, h₁, hlt', hstop, hstop.ne]
      · have hmin : min stop e.endGap.stop = e.endGap.stop := by omega
        rw [hmin]
        simp [fillGap, hisGap, hlinked, h₁, hlt', Nat.not_lt.mpr hstop]

/-- The position of a frame `[start, stop)` among the gaps of a sorter: it starts in `gap`, after
the gaps `before`, and ends in or right after the end gap. -/
structure Placed (start stop : ℕ) (gaps before : List ByteInterval) (gap : ByteInterval)
    (passed : List ByteInterval) (endGap : ByteInterval) (rest : List ByteInterval) : Prop where
  separated : Separated ByteInterval.start ByteInterval.stop gaps
  split : gaps = before ++ (passed ++ [endGap]) ++ rest
  head : (passed ++ [endGap]).head? = some gap
  before_lt : ∀ g ∈ before, g.stop < start
  start_mem : gap.start ≤ start ∧ start < gap.stop
  start_lt : start < stop
  passed_le : ∀ g ∈ passed, g.stop ≤ stop
  endGap_lt : endGap.start < stop
  rest_ge : ∀ g ∈ rest, stop ≤ g.start

namespace Placed

variable {gaps rest : List ByteInterval} {endGap : ByteInterval}
  (h : Placed start stop gaps before gap passed endGap rest)

include h

theorem gap_mem : gap ∈ passed ++ [endGap] := List.mem_of_mem_head? h.head

variable {g : ByteInterval}

theorem mem_gaps (hg : g ∈ passed ++ [endGap]) : g ∈ gaps := by
  rw [h.split]
  simp only [List.mem_append] at hg ⊢
  tauto

/-- The gaps that the frame can touch are the gap itself and gaps above it. -/
theorem eq_or_stop_lt (hg : g ∈ passed ++ [endGap]) :
    g = gap ∨ gap.stop < g.start := by
  have hsep := h.separated
  rw [h.split] at hsep
  have hsep := ((separated_append _ _).mp ((separated_append _ _).mp hsep).1).2.1
  obtain ⟨tail, htail⟩ : ∃ tail, passed ++ [endGap] = gap :: tail := by
    have := h.head
    cases hl : passed ++ [endGap] with
    | nil => simp at hl
    | cons a tail => rw [hl] at this; exact ⟨tail, by simpa using this⟩
  rw [htail] at hg hsep
  rcases List.mem_cons.mp hg with rfl | hg
  · exact .inl rfl
  · exact .inr (((separated_cons _ _).mp hsep).2.1 g hg)

theorem start_lt_endGap_stop : start < endGap.stop := by
  have hne := h.separated.nonempty endGap (h.mem_gaps (by simp))
  rcases h.eq_or_stop_lt (g := endGap) (by simp) with heq | hlt
  · rw [heq]
    exact h.start_mem.2
  · have := h.start_mem.2
    omega

theorem separated_leftover :
    Separated ByteInterval.start ByteInterval.stop (leftover start stop gap endGap) := by
  have := h.start_lt
  unfold leftover
  split_ifs with h₁ h₂ h₂ <;> simp [separated_cons] <;> omega

/-- The list stays a normal form. -/
theorem separated_fill : Separated ByteInterval.start ByteInterval.stop
    (before ++ leftover start stop gap endGap ++ rest) := by
  have hsep := h.separated
  rw [h.split] at hsep
  refine hsep.replace h.separated_leftover ?_ ?_
  · intro b hb
    rcases mem_leftover.mp hb with ⟨-, rfl⟩ | ⟨-, rfl⟩
    · exact ⟨gap, h.gap_mem, le_rfl⟩
    · exact ⟨endGap, by simp, h.endGap_lt.le⟩
  · intro b hb
    rcases mem_leftover.mp hb with ⟨-, rfl⟩ | ⟨-, rfl⟩
    · exact ⟨gap, h.gap_mem, h.start_mem.2.le⟩
    · exact ⟨endGap, by simp, le_rfl⟩

/-- Exactly the offsets of the frame are no longer missing. -/
theorem covers_fill (x : ℕ) : Covers ByteInterval.start ByteInterval.stop
      (before ++ leftover start stop gap endGap ++ rest) x ↔
    Covers ByteInterval.start ByteInterval.stop gaps x ∧ ¬ (start ≤ x ∧ x < stop) := by
  have hmem := h.start_mem
  constructor
  · rw [covers_append, covers_append]
    rintro ((⟨g, hg, hx⟩ | ⟨g, hg, hx⟩) | ⟨g, hg, hx⟩)
    · have := h.before_lt g hg
      exact ⟨⟨g, by rw [h.split]; simp [hg], hx⟩, by omega⟩
    · rcases mem_leftover.mp hg with ⟨-, rfl⟩ | ⟨-, rfl⟩
      · exact ⟨⟨gap, h.mem_gaps h.gap_mem, by dsimp only at hx; omega⟩, by dsimp only at hx; omega⟩
      · have := h.endGap_lt
        exact ⟨⟨endGap, h.mem_gaps (by simp), by dsimp only at hx; omega⟩,
          by dsimp only at hx; omega⟩
    · have := h.rest_ge g hg
      exact ⟨⟨g, by rw [h.split]; simp [hg], hx⟩, by omega⟩
  · rintro ⟨⟨g, hg, hx⟩, hout⟩
    rw [h.split, List.mem_append, List.mem_append] at hg
    rcases hg with (hg | hg) | hg
    · exact ⟨g, by simp [hg], hx⟩
    · rcases h.eq_or_stop_lt hg with rfl | hlt
      · by_cases hxs : x < start
        · -- the part of the gap before the frame
          exact ⟨⟨g.start, start⟩, by simp [mem_leftover]; omega, hx.1, hxs⟩
        · -- the frame ends before `x`, so this gap is also the end gap
          rcases List.mem_append.mp hg with hg | hg
          · have := h.passed_le g hg
            omega
          · obtain rfl := List.mem_singleton.mp hg
            exact ⟨⟨stop, g.stop⟩, by simp [mem_leftover]; omega, by dsimp only; omega, hx.2⟩
      · rcases List.mem_append.mp hg with hg | hg
        · have := h.passed_le g hg
          omega
        · obtain rfl := List.mem_singleton.mp hg
          exact ⟨⟨stop, g.stop⟩, by simp [mem_leftover]; omega, by dsimp only; omega, hx.2⟩
    · exact ⟨g, by simp [hg], hx⟩

/-- Every gap that is left ends where a gap ended before, or at the start of the frame. -/
theorem stop_of_mem_fill {a : ByteInterval}
    (ha : a ∈ before ++ leftover start stop gap endGap ++ rest) :
    a.stop = start ∨ ((∃ b ∈ gaps, b.stop = a.stop) ∧
      (a.stop < start ∨ min stop endGap.stop ≤ a.stop)) := by
  rw [List.mem_append, List.mem_append] at ha
  rcases ha with (ha | ha) | ha
  · exact .inr ⟨⟨a, by rw [h.split]; simp [ha], rfl⟩, .inl (h.before_lt a ha)⟩
  · rcases mem_leftover.mp ha with ⟨-, rfl⟩ | ⟨hlt, rfl⟩
    · exact .inl rfl
    · exact .inr ⟨⟨endGap, h.mem_gaps (by simp), rfl⟩, .inr (min_le_right _ _)⟩
  · have hmem : a ∈ gaps := by rw [h.split]; simp [ha]
    have hne := h.separated.nonempty a hmem
    have := h.rest_ge a ha
    exact .inr ⟨⟨a, hmem, rfl⟩, .inr (by omega)⟩

/-- The last gap keeps its end, unless the frame reaches it. -/
theorem getLast?_fill (hlast : rest = [] → stop < endGap.stop) :
    (before ++ leftover start stop gap endGap ++ rest).getLast?.map ByteInterval.stop =
      gaps.getLast?.map ByteInterval.stop := by
  rw [h.split]
  rcases List.eq_nil_or_concat rest with rfl | ⟨rest, r, rfl⟩
  · simp [leftover, hlast rfl]
  · rw [List.concat_eq_append, ← List.append_assoc, ← List.append_assoc, List.getLast?_concat,
      List.getLast?_concat]

/-- The frame ends in the end gap, or the end gap is filled to its end. -/
theorem stop_cases : (stop < endGap.stop ∧ Covers ByteInterval.start ByteInterval.stop gaps stop) ∨
    endGap.stop ≤ stop := by
  rcases lt_or_ge stop endGap.stop with hlt | hge
  · exact .inl ⟨hlt, endGap, h.mem_gaps (by simp), h.endGap_lt.le, hlt⟩
  · exact .inr hge

/-- A gap that the frame passes ends strictly inside the frame. -/
theorem passed_stop (hg : g ∈ passed) :
    start < g.stop ∧ g.stop < min stop endGap.stop := by
  have hmem := h.mem_gaps (g := g) (by simp [hg])
  have hne := h.separated.nonempty g hmem
  have hsep := h.separated
  rw [h.split] at hsep
  have hsep := ((separated_append _ _).mp ((separated_append _ _).mp hsep).1).2.1
  have hlt := hsep.lt_of_append hg (List.mem_singleton_self endGap)
  have hend := h.separated.nonempty endGap (h.mem_gaps (by simp))
  have := h.endGap_lt
  have := h.start_mem
  rcases h.eq_or_stop_lt (g := g) (by simp [hg]) with rfl | hlt'
  · omega
  · omega

/-- The gaps that end strictly inside the frame are those that it passes. -/
theorem exists_passed_iff {k : ℕ} (hstart : start < k) (hstop : k < min stop endGap.stop) :
    (∃ g ∈ passed, g.stop = k) ↔ ∃ g ∈ gaps, g.stop = k := by
  constructor
  · rintro ⟨g, hg, hgk⟩
    exact ⟨g, h.mem_gaps (by simp [hg]), hgk⟩
  · rintro ⟨g, hg, hgk⟩
    have hne := h.separated.nonempty g hg
    rw [h.split, List.mem_append, List.mem_append, List.mem_append, List.mem_singleton] at hg
    rcases hg with (hg | hg | rfl) | hg
    · have := h.before_lt g hg
      omega
    · exact ⟨g, hg, hgk⟩
    · omega
    · have := h.rest_ge g hg
      omega

/-- Between the end gap and the end of the frame nothing is missing. -/
theorem not_covers_tail {x : ℕ} (hx : endGap.stop ≤ x ∧ x < stop) :
    ¬ Covers ByteInterval.start ByteInterval.stop gaps x := by
  rintro ⟨g, hg, hgx⟩
  have hend := h.start_lt_endGap_stop
  rw [h.split, List.mem_append, List.mem_append] at hg
  rcases hg with (hg | hg) | hg
  · have := h.before_lt g hg
    omega
  · rcases List.mem_append.mp hg with hg | hg
    · have := (h.passed_stop hg).2
      omega
    · obtain rfl := List.mem_singleton.mp hg
      omega
  · have := h.rest_ge g hg
    omega

end Placed

end FillGap

/-! ## What a successful push does -/

/-- `g` is what was queued of the frame `f`, and `s'` the sorter afterwards. -/
structure Inserted (s : StreamFrameSorter) (f g : StreamFrame) (s' : StreamFrameSorter) : Prop where
  cut : ∃ n m, g = (f.cutHead n).cutTail m
  offset_le : f.offset ≤ g.offset
  stop_le : g.stop ≤ f.stop
  offset_lt : g.offset < g.stop
  /-- The first and the last queued byte were missing, and what was cut away was not. -/
  missing_offset : s.Missing g.offset
  missing_last : s.Missing (g.stop - 1)
  head_received : ∀ x, f.offset ≤ x → x < g.offset → ¬ s.Missing x
  tail_received : ∀ x, g.stop ≤ x → x < f.stop → ¬ s.Missing x
  /-- The queued frame ends before a missing byte, or at the end of a gap. -/
  stop_cases : (g.stop = f.stop ∧ s.Missing g.stop) ∨ ∃ b ∈ s.gaps, b.stop = g.stop
  missing_iff : ∀ x, s'.Missing x ↔ s.Missing x ∧ ¬ (f.offset ≤ x ∧ x < f.stop)
  separated : s'.GapsSeparated
  last : s'.gaps.getLast?.map ByteInterval.stop = s.gaps.getLast?.map ByteInterval.stop
  gap_stop : ∀ a ∈ s'.gaps, a.stop = g.offset ∨
    ((∃ b ∈ s.gaps, b.stop = a.stop) ∧ (a.stop < g.offset ∨ g.stop ≤ a.stop))
  queued_offset : s'.queuedFrames g.offset = some g
  queued_outside : ∀ k, k < g.offset ∨ g.stop ≤ k → s'.queuedFrames k = s.queuedFrames k
  queued_of_ne : ∀ k f', k ≠ g.offset → s'.queuedFrames k = some f' → s.queuedFrames k = some f'
  readPosition : s'.readPosition = s.readPosition

/-- Inside of the frame `g`, the frames that were queued at the end of a gap are deleted, and the
others stay. -/
def ClearsGapEnds (s : StreamFrameSorter) (g : StreamFrame) (s' : StreamFrameSorter) : Prop :=
  ∀ k, g.offset < k → k < g.stop →
    s'.queuedFrames k = if ∃ b ∈ s.gaps, b.stop = k then none else s.queuedFrames k

/-- A frame is a duplicate exactly if the search for its first gap says so. -/
theorem insertFrame_duplicate (h : s.insertFrame f = (s', some .duplicateStreamData)) :
    s' = s ∧ findGap f.offset f.stop s.gaps = .duplicate := by
  unfold insertFrame at h
  cases hfind : findGap f.offset f.stop s.gaps with
  | duplicate =>
    simp only [hfind, Prod.mk.injEq, and_true] at h
    exact ⟨h.symm, rfl⟩
  | noGap => simp [hfind] at h
  | found before gap after =>
    -- the remaining branches report other errors
    simp only [hfind] at h
    cases hsearch : findEndGap f.stop s.queuedFrames true gap after with
    | error r => simp [hsearch] at h
    | ok e =>
      simp only [hsearch] at h
      split_ifs at h <;> simp at h

/-- The frame that is queued, as `insertFrame` cuts it. -/
theorem cut_eq {gapStart endStop : ℕ} (hstart : gapStart < f.stop)
    (hend : max f.offset gapStart < endStop) :
    let frame := f.cutHead (gapStart - f.offset)
    let g := if endStop < f.stop then frame.cutTail (endStop - frame.offset) else frame
    (∃ n m, g = (f.cutHead n).cutTail m) ∧ g.offset = max f.offset gapStart ∧
      g.stop = min f.stop endStop := by
  have hoffset : f.offset + (gapStart - f.offset) = max f.offset gapStart := by omega
  simp only [StreamFrame.stop, StreamFrame.dataLen] at hstart
  split_ifs with hcut
  · refine ⟨⟨_, _, rfl⟩, hoffset, ?_⟩
    simp only [StreamFrame.stop, StreamFrame.dataLen, StreamFrame.cutTail, StreamFrame.cutHead,
      List.length_take, List.length_drop] at hcut ⊢
    omega
  · refine ⟨⟨gapStart - f.offset, f.data.length, ?_⟩, hoffset, ?_⟩
    · rw [StreamFrame.cutTail, List.take_of_length_le (by simp [StreamFrame.cutHead])]
    · simp only [StreamFrame.stop, StreamFrame.dataLen, StreamFrame.cutHead,
        List.length_drop] at hcut ⊢
      omega

/-- The two searches of `insertFrame` place the frame among the gaps. -/
theorem placed_of_search {before after passed} {gap : ByteInterval} {e : EndGap}
    (hsep : s.GapsSeparated) (hlen : f.offset < f.stop) (hstart : ∀ b ∈ s.gaps, b.stop ≠ f.offset)
    (hfind : findGap f.offset f.stop s.gaps = .found before gap after)
    (he : EndGapSpec f.stop s.queuedFrames (gap :: after) true e passed) :
    Placed (max f.offset gap.start) f.stop s.gaps before gap passed e.endGap e.rest := by
  obtain ⟨hgaps, hbefore, hgapStart, hgapStop⟩ := findGap_found hfind
  have hsplit : s.gaps = before ++ (passed ++ [e.endGap]) ++ e.rest := by
    rw [hgaps, he.split]
    simp
  have hgap : gap.start < gap.stop := hsep.nonempty gap (by rw [hgaps]; simp)
  refine ⟨hsep, hsplit, ?_, fun g hg => ?_, ⟨le_max_right _ _, ?_⟩, by omega, he.passed_le, ?_, ?_⟩
  · have := congrArg List.head? he.split
    cases passed <;> simpa using this.symm
  · have := hbefore g hg
    omega
  · have := hstart gap (by rw [hgaps]; simp)
    omega
  · by_cases hpassed : passed = []
    · subst hpassed
      obtain ⟨rfl, -⟩ : gap = e.endGap ∧ after = e.rest := by simpa using he.split
      exact hgapStart
    · exact he.start_lt hpassed
  · intro g hg
    rw [GapsSeparated, hsplit] at hsep
    rcases he.stop_le with ⟨-, hlt⟩ | ⟨-, -, next, rest, hrest, hle⟩
    · have := hsep.lt_of_append (a := e.endGap) (by simp) hg
      omega
    · have hsepRest := ((separated_append _ _).mp hsep).2.1
      rw [hrest] at hg hsepRest
      rcases List.mem_cons.mp hg with rfl | hg
      · exact hle
      · have := ((separated_cons _ _).mp hsepRest).2.1 g hg
        have := hsepRest.nonempty next (by simp)
        omega

theorem insertFrame_inserted (hsep : s.GapsSeparated) (hlen : f.offset < f.stop)
    (hstart : ∀ b ∈ s.gaps, b.stop ≠ f.offset) (h : s.insertFrame f = (s', none)) :
    ∃ g, Inserted s f g s' ∧ ClearsGapEnds s g s' := by
  unfold insertFrame at h
  cases hfind : findGap f.offset f.stop s.gaps with
  | duplicate => simp [hfind] at h
  | noGap => simp [hfind] at h
  | found before gap after =>
    simp only [hfind] at h
    cases hsearch : findEndGap f.stop s.queuedFrames true gap after with
    | error r => simp [hsearch] at h
    | ok e =>
      obtain ⟨passed, he⟩ := findEndGap_ok hsearch
      obtain ⟨hgaps, hbefore, hgapStart, -⟩ := findGap_found hfind
      have hplaced := placed_of_search hsep hlen hstart hfind he
      have hsepAfter : Separated ByteInterval.start ByteInterval.stop (gap :: after) := by
        rw [GapsSeparated, hgaps] at hsep
        exact ((separated_append _ _).mp hsep).2.1
      obtain ⟨hcut, hoffset, hstop⟩ := cut_eq hgapStart hplaced.start_lt_endGap_stop
      simp only [hsearch] at h
      generalize (if e.endGap.stop < f.stop then _ else _ : StreamFrame) = g at h hcut hoffset hstop
      rw [hoffset, fillGap_eq he hsepAfter (le_max_right _ _)] at h
      by_cases hmany : maxStreamFrameSorterGaps <
          (before ++ leftover (max f.offset gap.start) f.stop gap e.endGap ++ e.rest).length
      · rw [if_pos hmany] at h
        simp at h
      rw [if_neg hmany] at h
      obtain ⟨rfl, -⟩ := Prod.mk.inj h
      -- the gaps before the frame end before it, and it starts in the next one
      have hhead : ∀ x, f.offset ≤ x → x < g.offset → ¬ s.Missing x := by
        rintro x hx hxg ⟨b, hb, hbx⟩
        rw [hgaps, List.mem_append] at hb
        rcases hb with hb | hb
        · have := hbefore b hb
          omega
        · rcases List.mem_cons.mp hb with rfl | hb
          · omega
          · have := ((separated_cons _ _).mp hsepAfter).2.1 b hb
            have := hsepAfter.nonempty gap (by simp)
            omega
      refine ⟨g, ⟨hcut, by omega, by omega, ?_, ?_, ?_, hhead, ?_, ?_, ?_, hplaced.separated_fill,
        ?_, ?_, by simp [hoffset], ?_, ?_, rfl⟩, ?_⟩
      · have := hplaced.start_lt
        have := hplaced.start_lt_endGap_stop
        omega
      · exact ⟨gap, by rw [hgaps]; simp, by rw [hoffset]; exact hplaced.start_mem⟩
      · have := hplaced.endGap_lt
        have := hplaced.start_lt_endGap_stop
        have hmem := hplaced.mem_gaps (g := e.endGap) (by simp)
        have := hplaced.separated.nonempty _ hmem
        exact ⟨e.endGap, hmem, by omega, by omega⟩
      · intro x hx hxf
        exact hplaced.not_covers_tail ⟨by omega, hxf⟩
      · rcases hplaced.stop_cases with ⟨hlt, hmissing⟩ | hge
        · have hg : g.stop = f.stop := by omega
          exact .inl ⟨hg, hg ▸ hmissing⟩
        · exact .inr ⟨e.endGap, hplaced.mem_gaps (by simp), by omega⟩
      · intro x
        rw [Missing, hplaced.covers_fill]
        refine and_congr_right fun hx => not_congr ?_
        constructor
        · rintro ⟨hle, hlt⟩
          exact ⟨by omega, hlt⟩
        · rintro ⟨hle, hlt⟩
          have : ¬ x < g.offset := fun hxg => hhead x hle hxg hx
          exact ⟨by omega, hlt⟩
      · refine hplaced.getLast?_fill ?_
        rcases he.stop_le with ⟨-, hlt⟩ | ⟨-, -, next, rest, hrest, -⟩
        · exact fun _ => hlt
        · simp [hrest]
      · intro a ha
        rw [hoffset, hstop]
        exact hplaced.stop_of_mem_fill ha
      · intro k hk
        have hne : k ≠ max f.offset gap.start := by
          have := hplaced.start_lt
          have := hplaced.start_lt_endGap_stop
          omega
        dsimp only
        rw [Function.update_of_ne hne, he.queued, if_neg]
        rintro ⟨b, hb, rfl⟩
        have := hplaced.passed_stop hb
        omega
      · intro k f' hk hq
        rw [hoffset] at hk
        dsimp only at hq
        rw [Function.update_of_ne hk, he.queued] at hq
        split_ifs at hq
        exact hq
      · intro k hlow hhigh
        rw [hoffset] at hlow
        rw [hstop] at hhigh
        dsimp only
        rw [Function.update_of_ne hlow.ne', he.queued]
        exact if_congr (hplaced.exists_passed_iff hlow hhigh) rfl rfl

end StreamFrameSorter

end MPQuic

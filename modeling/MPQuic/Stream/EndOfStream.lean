import MPQuic.Stream.Reassembly

/-!
# The end of a stream

A stream of final length `n` ends with a frame that carries the FIN bit. When `push` cuts the tail
of a frame, the rest keeps the bit, so a queued frame can carry it although it ends before `n`,
and `stream.Read` (`stream.go`) then reports `io.EOF` too early. This happens exactly when a
non-empty FIN frame arrives whose last byte was received before and some other byte was not:
`FinSafe` excludes it, and under it the end of the stream is exact.
-/

namespace MPQuic

open IntervalList Transition StreamFrameSorter
open StreamFrame (stop_cutHead stop dataLen)

/-- The frame belongs to the stream `S`: its bytes agree with `S`, and it carries the FIN bit only
if it ends where `S` ends. An empty frame carries it. -/
structure StreamFrame.Consistent (S : List UInt8) (f : StreamFrame) : Prop where
  agrees : f.Agrees S
  fin : f.finBit → f.stop = S.length
  empty : f.dataLen = 0 → f.finBit
  stop_lt : f.stop < uint64Size

instance (S : List UInt8) (f : StreamFrame) : Decidable (f.Consistent S) :=
  decidable_of_iff (f.Agrees S ∧ (f.finBit → f.stop = S.length) ∧ (f.dataLen = 0 → f.finBit) ∧
    f.stop < uint64Size) ⟨fun ⟨h₁, h₂, h₃, h₄⟩ => ⟨h₁, h₂, h₃, h₄⟩,
      fun ⟨h₁, h₂, h₃, h₄⟩ => ⟨h₁, h₂, h₃, h₄⟩⟩

namespace StreamFrameSorter

/-- If the frame is a non-empty one with the FIN bit, its last byte is missing, or none of its
bytes is. -/
def FinSafe (s : StreamFrameSorter) (f : StreamFrame) : Prop :=
  f.finBit → 0 < f.dataLen → s.Missing (f.stop - 1) ∨ ∀ x ∈ f.range, ¬ s.Missing x

/-- A queued frame carries the FIN bit only if it ends where the stream ends. -/
def FinExact (S : List UInt8) (s : StreamFrameSorter) : Prop :=
  ∀ k f, s.queuedFrames k = some f → f.finBit → f.stop = S.length

variable {S : List UInt8} {C B : Set ℕ} {s s' : StreamFrameSorter} {f : StreamFrame}

variable {err : Option PushError}

/-- The frame that ends the stream without data is queued at the end of the stream. -/
theorem Inv.push_empty (h : Inv S C B s) (hf : f.Consistent S) (hempty : f.dataLen = 0)
    (hpush : s.push f = (s', err)) :
    err = none ∧ s'.readPosition = s.readPosition ∧
      s'.queuedFrames = Function.update s.queuedFrames S.length (some f) ∧ Inv S C B s' := by
  have hfin := hf.empty hempty
  have hoff : f.offset = S.length := by
    have := hf.fin hfin
    rw [stop, hempty] at this
    exact this
  rw [StreamFrameSorter.push, if_pos hempty, if_pos hfin, hoff] at hpush
  obtain ⟨rfl, rfl⟩ := Prod.mk.inj hpush
  refine ⟨rfl, rfl, rfl, { h with queued := ?_, chain := ?_ }⟩
  · intro k q hq
    by_cases hk : k = S.length
    · dsimp only at hq
      rw [hk, Function.update_self, Option.some.injEq] at hq
      subst hq
      refine ⟨by omega, hf.agrees, fun x hx => ?_, fun _ => ⟨hk, hfin⟩⟩
      rw [StreamFrame.mem_range, stop] at hx
      omega
    · dsimp only at hq
      rw [Function.update_of_ne hk] at hq
      exact h.queued k q hq
  · intro x hxB hxC
    have hx : x ≠ S.length := (h.received_lt x hxC).2.ne
    obtain ⟨q, hq, hlen, hmem⟩ := h.chain x hxB hxC
    exact ⟨q, (Function.update_of_ne hx _ _).trans hq, hlen, hmem⟩

variable {g : StreamFrame}

/-- A frame that is inserted keeps its end exactly if its last byte was missing. -/
theorem Inserted.stop_eq_iff (hg : Inserted s f g s') :
    g.stop = f.stop ↔ s.Missing (f.stop - 1) := by
  constructor
  · intro heq
    exact heq ▸ hg.missing_last
  · intro hmissing
    have hlt := hg.offset_lt
    have hle := hg.stop_le
    by_contra hne
    exact hg.tail_received (f.stop - 1) (by omega) (by omega) hmissing

/-- A frame with data stays at the read position: the frame that is inserted starts at a missing
offset, which lies above the read position. -/
theorem Inv.head_inserted (h : Inv S C B s) {q : StreamFrame} (hg : Inserted s f g s')
    (hq : s.head = some q) (hlen : 0 < q.dataLen) : s'.head = some q := by
  obtain ⟨hoff, -, hrange, -⟩ := h.queued _ _ hq
  have hmem : s.readPosition ∈ C := hrange ⟨by omega, by unfold stop; omega⟩
  have hgnew := h.not_mem_of_missing hg.missing_offset
  have hlt : s.readPosition < g.offset := by
    rcases lt_trichotomy s.readPosition g.offset with hlt | heq | hgt
    · exact hlt
    · exact absurd (heq ▸ hmem) hgnew
    · exact absurd (h.read_received _ hgt) hgnew
  rw [head, hg.readPosition, hg.queued_outside _ (.inl hlt)]
  exact hq

/-- The part of a frame that is inserted carries the FIN bit only where the stream ends, provided
the push is safe. -/
theorem FinExact.inserted (hexact : s.FinExact S) (hf : f.Consistent S) (hne : 0 < f.dataLen)
    (hsafe : s.FinSafe f) {n : ℕ} (hn : n < f.dataLen) (hg : Inserted s (f.cutHead n) g s') :
    s'.FinExact S := by
  intro k q hq
  by_cases hk : k = g.offset
  case neg => exact hexact k q (hg.queued_of_ne k q hk hq)
  case pos =>
  rw [hk, hg.queued_offset, Option.some.injEq] at hq
  subst hq
  intro hfin
  have hstop : (f.cutHead n).stop = f.stop := stop_cutHead hn.le
  have hffin : f.finBit := by
    obtain ⟨n', m, hcut⟩ := hg.cut
    rw [hcut] at hfin
    exact hfin
  rcases hsafe hffin hne with hlast | hall
  · rw [hg.stop_eq_iff.mpr (hstop ▸ hlast), hstop]
    exact hf.fin hffin
  · -- nothing of the frame was missing, so nothing was queued
    refine absurd hg.missing_offset (hall _ ?_)
    have := hg.offset_le
    have := hg.offset_lt
    have := hg.stop_le
    simp only [StreamFrame.cutHead] at *
    exact ⟨by omega, by omega⟩

/-- What a push of a consistent frame does: it keeps the invariant and the read position, a frame
with data stays at the read position, and a frame is queued with the FIN bit only where the stream
ends, provided the push is safe. -/
theorem Inv.push_consistent (h : Inv S C B s) (hf : f.Consistent S)
    (herr : err = none ∨ err = some .duplicateStreamData) (hpush : s.push f = (s', err)) :
    (∃ C' B', Inv S C' B' s') ∧ s'.readPosition = s.readPosition ∧
      (∀ q, s.head = some q → 0 < q.dataLen → s'.head = some q) ∧
      (s.FinSafe f → s.FinExact S → s'.FinExact S) := by
  rcases Nat.eq_zero_or_pos f.dataLen with hempty | hne
  · -- an empty frame is queued where the stream ends, above all data
    obtain ⟨-, hread, hqueued, hinv⟩ := h.push_empty hf hempty hpush
    refine ⟨⟨C, B, hinv⟩, hread, fun q hq hlen => ?_, fun _ hexact k q hq => ?_⟩
    · obtain ⟨hoff, hagree, -, -⟩ := h.queued _ _ hq
      have hne : s.readPosition ≠ S.length := by
        have := hagree.stop_le hlen
        unfold stop at this
        omega
      rw [head, hread, hqueued, Function.update_of_ne hne]
      exact hq
    · rw [hqueued] at hq
      by_cases hk : k = S.length
      · rw [hk, Function.update_self, Option.some.injEq] at hq
        subst hq
        exact hf.fin
      · rw [Function.update_of_ne hk] at hq
        exact hexact k q hq
  · have hstop : f.stop ≤ maxByteCount := Nat.le_sub_one_of_lt hf.stop_lt
    obtain ⟨B', hinv⟩ := h.push hf.agrees hne hstop herr hpush
    refine ⟨⟨_, B', hinv⟩, ?_⟩
    rcases herr with rfl | rfl
    · obtain ⟨n, g, hn, -, hg, -⟩ := h.push_inserted hf.agrees hne hstop hpush
      exact ⟨hg.readPosition, fun q hq hlen => h.head_inserted hg hq hlen,
        fun hsafe hexact => hexact.inserted hf hne hsafe hn hg⟩
    · obtain ⟨rfl, -⟩ := h.push_duplicate hf.agrees hne hstop hpush
      exact ⟨rfl, fun _ hq _ => hq, fun _ hexact => hexact⟩

/-- A successful push that is not safe queues a frame with the FIN bit that ends before the end of
the stream. -/
theorem Inv.not_finExact_of_push (h : Inv S C B s) (hf : f.Consistent S)
    (hpush : s.push f = (s', none)) (hsafe : ¬ s.FinSafe f) : ¬ s'.FinExact S := by
  unfold FinSafe at hsafe
  push Not at hsafe
  obtain ⟨hfin, hne, hlast, -⟩ := hsafe
  obtain ⟨n, g, hn, -, hg, -⟩ :=
    h.push_inserted hf.agrees hne (Nat.le_sub_one_of_lt hf.stop_lt) hpush
  have hstop₁ : (f.cutHead n).stop = f.stop := stop_cutHead hn.le
  obtain ⟨n', m, hcut⟩ := hg.cut
  intro hexact
  have hgfin : g.finBit := by rw [hcut]; exact hfin
  have heq := hexact _ _ hg.queued_offset hgfin
  rw [← hf.fin hfin, ← hstop₁, hg.stop_eq_iff, hstop₁] at heq
  exact hlast heq

/-- The effect of a call when the pushed frames belong to the stream `S`. -/
def ConsistentStep (S : List UInt8) (t : Trace) (c : Call) (t' : Trace) : Prop :=
  match c with
  | .push f => f.Consistent S ∧ ∃ err, (err = none ∨ err = some .duplicateStreamData) ∧
      t.sorter.push f = (t'.sorter, err) ∧ t'.pushed = t.pushed ++ [f] ∧ t'.popped = t.popped
  | .head => t' = t
  | .pop => t' = t.pop

/-- The frame of a push is safe in the state before it. -/
def Call.FinSafe (t : Trace) : Call → Prop
  | .push f => t.sorter.FinSafe f
  | _ => True

/-- The state of the sorter alone: it holds frames of the stream, with exact FIN bits. -/
def Exact (S : List UInt8) (s : StreamFrameSorter) : Prop :=
  (∃ C B, Inv S C B s) ∧ s.FinExact S

theorem exact_new (S : List UInt8) : new.Exact S :=
  ⟨⟨∅, Set.univ, inv_new S⟩, by simp [FinExact, new]⟩

theorem Exact.pop (h : s.Exact S) {r : Option StreamFrame} (hpop : s.pop = (s', r)) :
    s'.Exact S := by
  cases r with
  | none => exact pop_eq_none hpop ▸ h
  | some f =>
    obtain ⟨⟨C, B, hinv⟩, hexact⟩ := h
    obtain ⟨-, -, -, B', hinv'⟩ := hinv.pop hpop
    exact ⟨⟨C, B', hinv'⟩, fun k q hq => hexact k q (queuedFrames_of_pop hpop hq)⟩

theorem Exact.push (h : s.Exact S) (hf : f.Consistent S) (hsafe : s.FinSafe f)
    (herr : err = none ∨ err = some .duplicateStreamData) (hpush : s.push f = (s', err)) :
    s'.Exact S := by
  obtain ⟨⟨C, B, hinv⟩, hexact⟩ := h
  obtain ⟨hinv', -, -, hexact'⟩ := hinv.push_consistent hf herr hpush
  exact ⟨hinv', hexact' hsafe hexact⟩

/-- Along a safe run, a queued or popped frame carries the FIN bit only if it ends where the stream
ends. -/
theorem exact_of_run {S : List UInt8} {calls : List Call} {t : Trace}
    (hrun : Run (fun t c t' => ConsistentStep S t c t' ∧ c.FinSafe t) Trace.init calls t) :
    t.sorter.Exact S ∧ ∀ f ∈ t.popped, f.finBit → f.stop = S.length := by
  refine hrun.invariant (I := fun _ t => t.sorter.Exact S ∧
    ∀ f ∈ t.popped, f.finBit → f.stop = S.length) ⟨exact_new S, by simp [Trace.init]⟩ ?_
  rintro - t c t' ⟨hexact, hpopped⟩ ⟨hstep, hsafe⟩
  cases c with
  | push f =>
    obtain ⟨hf, err, herr, hpush, -, hpopped'⟩ := hstep
    exact ⟨hexact.push hf hsafe herr hpush, hpopped' ▸ hpopped⟩
  | head => exact hstep ▸ ⟨hexact, hpopped⟩
  | pop =>
    subst hstep
    refine ⟨hexact.pop rfl, fun f hf => ?_⟩
    rcases List.mem_append.mp hf with hf | hf
    · exact hpopped f hf
    · have hpop : t.sorter.pop = (t.sorter.pop.1, some f) :=
        Prod.ext rfl (Option.mem_toList.mp hf)
      exact hexact.2 _ f (pop_eq_some hpop).1

end StreamFrameSorter

/-! ## Reading a stream -/

/-- The errors of `stream.Read`. -/
inductive ReadError where
  | eof
  /-- The error that the stream was cancelled or reset with. -/
  | stream
  | deadline
  | bug
  deriving DecidableEq

/-- Where the reader is in a call of `Read` with a buffer of `len` bytes. -/
inductive ReaderPos where
  | idle
  /-- At the head of the loop. -/
  | loop (len bytesRead : ℕ)
  /-- The lock is released, with a frame in hand. -/
  | copying (len bytesRead : ℕ) (frame : StreamFrame)
  deriving DecidableEq

/-- The reading side of a stream. `delivered` is what `Read` has copied to its callers, and
`result` the last result of `Read`. -/
structure StreamReader where
  frameQueue : StreamFrameSorter
  readOffset : ℕ
  readPosInFrame : ℕ
  finishedReading : Bool
  /-- The stream was cancelled or reset locally. -/
  stopped : Bool
  /-- An error is set. -/
  err : Bool
  pos : ReaderPos
  delivered : List UInt8
  result : Option (ℕ × Option ReadError)

namespace StreamReader

/-- A new stream. -/
def init : StreamReader where
  frameQueue := .new
  readOffset := 0
  readPosInFrame := 0
  finishedReading := false
  stopped := false
  err := false
  pos := .idle
  delivered := []
  result := none

/-- `Read` returns. -/
def finishRead (s : StreamReader) (bytesRead : ℕ) (err : Option ReadError) : StreamReader :=
  { s with pos := .idle, result := some (bytesRead, err) }

/-- The beginning of `Read`. -/
def startRead (s : StreamReader) (len : ℕ) : StreamReader :=
  if s.stopped then s.finishRead 0 (if s.err then some .stream else none)
  else if s.finishedReading then s.finishRead 0 (some .eof)
  else { s with pos := .loop len 0 }

/-- The part of the loop under the lock: take the frame at the read position, or wait. -/
def nextFrame (s : StreamReader) (len bytesRead : ℕ) (deadlineExceeded : Bool) : StreamReader :=
  if len ≤ bytesRead then s.finishRead bytesRead none
  else if s.frameQueue.head = none ∧ 0 < bytesRead then
    s.finishRead bytesRead (if s.err then some .stream else none)
  else if s.stopped then s.finishRead bytesRead (if s.err then some .stream else none)
  else if deadlineExceeded then s.finishRead bytesRead (some .deadline)
  else
    match s.frameQueue.head with
    -- wait for a frame, and look again
    | none => s
    | some frame =>
      { s with readPosInFrame := s.readOffset - frame.offset, pos := .copying len bytesRead frame }

/-- Copy `m` bytes of the frame to the caller. -/
def advance (s : StreamReader) (frame : StreamFrame) (m : ℕ) : StreamReader :=
  { s with
    delivered := s.delivered ++ (frame.data.drop s.readPosInFrame).take m
    readPosInFrame := s.readPosInFrame + m
    readOffset := s.readOffset + m }

/-- Pop the frame once it is read, and report the end of the stream if it carries the FIN bit. -/
def maybePop (s : StreamReader) (len bytesRead : ℕ) (frame : StreamFrame) : StreamReader :=
  if frame.dataLen ≤ s.readPosInFrame then
    if frame.finBit then
      { s with frameQueue := s.frameQueue.pop.1, finishedReading := true }.finishRead bytesRead
        (some .eof)
    else { s with frameQueue := s.frameQueue.pop.1, pos := .loop len bytesRead }
  else { s with pos := .loop len bytesRead }

/-- The rest of the loop: copy data of the frame, and pop it once it is read. -/
def copyFrame (s : StreamReader) (len bytesRead : ℕ) (frame : StreamFrame) : StreamReader :=
  let m := min (len - bytesRead) (frame.dataLen - s.readPosInFrame)
  if len < bytesRead ∨ frame.dataLen < s.readPosInFrame then s.finishRead bytesRead (some .bug)
  else (s.advance frame m).maybePop len (bytesRead + m) frame

/-- An event on the reading side of a stream. -/
inductive Event where
  | addStreamFrame (f : StreamFrame)
  | startRead (len : ℕ)
  | nextFrame (deadlineExceeded : Bool)
  | copyFrame
  /-- The stream is cancelled or reset (`stop`), or its peer reports an error. -/
  | fail (stop : Bool)

/-- The effect of an event, when the frames belong to the stream `S`. Frames can arrive at any time
between the steps of a `Read`. An error of `Push` other than that for duplicate data closes the
session. -/
def Step (S : List UInt8) (s : StreamReader) (e : Event) (s' : StreamReader) : Prop :=
  match e with
  | .addStreamFrame f => f.Consistent S ∧ ∃ err, (err = none ∨ err = some .duplicateStreamData) ∧
      s.frameQueue.push f = (s'.frameQueue, err) ∧ s' = { s with frameQueue := s'.frameQueue }
  | .startRead len => s.pos = .idle ∧ s' = s.startRead len
  | .nextFrame deadlineExceeded => ∃ len bytesRead, s.pos = .loop len bytesRead ∧
      s' = s.nextFrame len bytesRead deadlineExceeded
  | .copyFrame => ∃ len bytesRead frame, s.pos = .copying len bytesRead frame ∧
      s' = s.copyFrame len bytesRead frame
  | .fail stop => s' = { s with err := true, stopped := s.stopped || stop }

/-- The frame that arrives is safe in the state before it. -/
def Event.FinSafe (s : StreamReader) : Event → Prop
  | .addStreamFrame f => s.frameQueue.FinSafe f
  | _ => True

/-- The caller has the stream up to the read offset, which lies in the frame at the read position;
and the reader has seen the end of the stream only if it has all of it. -/
structure Inv (S : List UInt8) (s : StreamReader) : Prop where
  exact : s.frameQueue.Exact S
  read_le : s.frameQueue.readPosition ≤ s.readOffset
  in_frame : s.readOffset = s.frameQueue.readPosition ∨
    ∃ f, s.frameQueue.head = some f ∧ s.readOffset ≤ f.stop
  offset_le : s.readOffset ≤ S.length
  delivered : s.delivered = S.take s.readOffset
  copying : ∀ len bytesRead f, s.pos = .copying len bytesRead f →
    f.offset = s.frameQueue.readPosition ∧ s.readPosInFrame = s.readOffset - f.offset ∧
      s.readOffset ≤ f.stop ∧ f.Agrees S ∧ (f.finBit → f.stop = S.length) ∧
      (f.dataLen = 0 → f.finBit) ∧ (0 < f.dataLen → s.frameQueue.head = some f)
  finished : s.finishedReading → s.readOffset = S.length
  result : ∀ n, s.result = some (n, some .eof) → s.readOffset = S.length

variable {S : List UInt8} {s s' : StreamReader}

theorem inv_init (S : List UInt8) : init.Inv S where
  exact := exact_new S
  read_le := le_rfl
  in_frame := .inl rfl
  offset_le := Nat.zero_le _
  delivered := rfl
  copying := by simp [init]
  finished := by simp [init]
  result := by simp [init]

/-- Returning from `Read` is allowed with any result but an early `io.EOF`. -/
theorem Inv.finishRead (h : s.Inv S) (n : ℕ) {err : Option ReadError}
    (herr : err = some .eof → s.readOffset = S.length) : (s.finishRead n err).Inv S :=
  { h with
    copying := by simp [StreamReader.finishRead]
    result := fun m hm =>
      herr (by simpa [StreamReader.finishRead] using congrArg (Option.map Prod.snd) hm) }

theorem Inv.startRead (h : s.Inv S) (len : ℕ) : (s.startRead len).Inv S := by
  unfold StreamReader.startRead
  split_ifs with hstopped herr hfin
  · exact h.finishRead 0 (by simp)
  · exact h.finishRead 0 (by simp)
  · exact h.finishRead 0 fun _ => h.finished hfin
  · exact { h with copying := by simp }

/-- The frame at the read position, as the reader takes it. -/
theorem Inv.head_spec (h : s.Inv S) {f : StreamFrame} (hf : s.frameQueue.head = some f) :
    f.offset = s.frameQueue.readPosition ∧ s.readOffset ≤ f.stop ∧ f.Agrees S ∧
      (f.finBit → f.stop = S.length) ∧ (f.dataLen = 0 → f.finBit) := by
  obtain ⟨⟨C, B, hinv⟩, hexact⟩ := h.exact
  obtain ⟨hoff, hagree, -, hempty⟩ := hinv.queued _ _ hf
  refine ⟨hoff, ?_, hagree, hexact _ f hf, fun hz => (hempty hz).2⟩
  rcases h.in_frame with heq | ⟨f', hf', hlt⟩
  · rw [heq, stop, hoff]
    exact Nat.le_add_right _ _
  · obtain rfl : f' = f := Option.some.inj (hf'.symm.trans hf)
    exact hlt

theorem Inv.nextFrame (h : s.Inv S) (len bytesRead : ℕ) (deadlineExceeded : Bool) :
    (s.nextFrame len bytesRead deadlineExceeded).Inv S := by
  unfold StreamReader.nextFrame
  split_ifs
  any_goals exact h.finishRead _ (by simp)
  cases hhead : s.frameQueue.head with
  | none => exact h
  | some f =>
    obtain ⟨hoff, hle, hagree, hfin, hempty⟩ := h.head_spec hhead
    refine { h with copying := fun len' bytesRead' f' hpos => ?_ }
    simp only [ReaderPos.copying.injEq] at hpos
    obtain ⟨-, -, rfl⟩ := hpos
    exact ⟨hoff, rfl, hle, hagree, hfin, hempty, fun _ => hhead⟩

/-- Copying the next bytes of a frame extends what the caller has. -/
theorem take_append_drop_of_agrees {f : StreamFrame} {r m : ℕ} (hagree : f.Agrees S)
    (hoff : f.offset ≤ r) (hm : r - f.offset + m ≤ f.dataLen) :
    S.take r ++ (f.data.drop (r - f.offset)).take m = S.take (r + m) := by
  obtain ⟨rest, hrest⟩ := hagree
  have hdrop : S.drop r = f.data.drop (r - f.offset) ++ rest := by
    have := congrArg (List.drop (r - f.offset)) hrest
    rw [List.drop_drop, Nat.add_sub_cancel' hoff, List.drop_append_of_le_length] at this
    · exact this.symm
    · unfold dataLen at hm
      omega
  rw [List.take_add, hdrop, List.take_append_of_le_length]
  simp only [dataLen] at hm
  rw [List.length_drop]
  omega

variable {len : ℕ}

/-- The read position after the frame in hand is popped is the end of that frame. -/
theorem Inv.readPosition_pop (h : s.Inv S) {bytesRead : ℕ} {f : StreamFrame}
    (hpos : s.pos = .copying len bytesRead f) : s.frameQueue.pop.1.readPosition = f.stop := by
  obtain ⟨hoff, -, -, -, hfin, hempty, hhead⟩ := h.copying _ _ _ hpos
  rcases Nat.eq_zero_or_pos f.dataLen with hz | hlen
  · -- the stream ends here, so a frame that is queued at this position is empty, too
    have hend : s.frameQueue.readPosition = S.length := by
      have := hfin (hempty hz)
      rw [stop, hz] at this
      omega
    rw [stop, hz, hoff]
    unfold StreamFrameSorter.pop
    cases hq : s.frameQueue.head with
    | none => rfl
    | some q =>
      obtain ⟨hqoff, -, hqagree, -, -⟩ := h.head_spec hq
      have hqz : q.dataLen = 0 := by
        by_contra hne
        have := hqagree.stop_le (Nat.pos_of_ne_zero hne)
        unfold stop at this
        omega
      simp [hqz]
  · unfold StreamFrameSorter.pop
    rw [hhead hlen, stop, hoff]

theorem Inv.advance (h : s.Inv S) {bytesRead : ℕ} {f : StreamFrame}
    (hpos : s.pos = .copying len bytesRead f) {m : ℕ} (hm : s.readPosInFrame + m ≤ f.dataLen) :
    (s.advance f m).Inv S := by
  obtain ⟨hoff, hposInFrame, hle, hagree, hfin, hempty, hhead⟩ := h.copying _ _ _ hpos
  have hread := h.read_le
  have hle' : s.readOffset + m ≤ f.stop := by
    unfold stop
    omega
  have hend : s.readOffset + m ≤ S.length := by
    rcases Nat.eq_zero_or_pos f.dataLen with hz | hlen
    · exact hle'.trans (hfin (hempty hz)).le
    · exact hle'.trans (hagree.stop_le hlen)
  refine ⟨h.exact, hread.trans (Nat.le_add_right _ _), ?_, hend, ?_, ?_, fun hf => ?_,
    fun n hn => ?_⟩
  · rcases Nat.eq_zero_or_pos f.dataLen with hz | hlen
    · refine .inl ?_
      simp only [stop, StreamReader.advance] at *
      omega
    · exact .inr ⟨f, hhead hlen, hle'⟩
  · simp only [StreamReader.advance]
    rw [h.delivered, hposInFrame]
    exact take_append_drop_of_agrees hagree (hoff ▸ hread) (hposInFrame ▸ hm)
  · intro len' bytesRead' f' hpos'
    obtain ⟨-, -, rfl⟩ := ReaderPos.copying.inj (hpos.symm.trans hpos')
    refine ⟨hoff, ?_, hle', hagree, hfin, hempty, hhead⟩
    simp only [StreamReader.advance]
    omega
  · have := h.finished hf
    simp only [StreamReader.advance]
    omega
  · have := h.result n hn
    simp only [StreamReader.advance]
    omega

theorem Inv.maybePop (h : s.Inv S) {bytesRead : ℕ} {f : StreamFrame}
    (hpos : s.pos = .copying len bytesRead f) (bytesRead' : ℕ) :
    (s.maybePop len bytesRead' f).Inv S := by
  obtain ⟨hoff, hposInFrame, hle, -, hfin, -, -⟩ := h.copying _ _ _ hpos
  have hread := h.read_le
  unfold StreamReader.maybePop
  by_cases hdone : f.dataLen ≤ s.readPosInFrame
  · -- the frame was read to its end, which is the read position after it is popped
    have hpop := h.readPosition_pop hpos
    have hend : s.readOffset = f.stop := by
      unfold stop at *
      omega
    have hinv : ∀ (pos : ReaderPos) (fin : Bool), (∀ len b q, pos ≠ .copying len b q) →
        (fin → s.readOffset = S.length) →
        Inv S { s with frameQueue := s.frameQueue.pop.1, finishedReading := fin, pos := pos } :=
      fun pos fin hp hf =>
        ⟨h.exact.pop rfl, (hpop.trans hend.symm).le, .inl (hpop.trans hend.symm).symm, h.offset_le,
          h.delivered, fun len b q hq => absurd hq (hp len b q), hf, h.result⟩
    rw [if_pos hdone]
    split_ifs with hfinBit
    · have hlast : s.readOffset = S.length := hend.trans (hfin hfinBit)
      exact (hinv .idle true (by simp) fun _ => hlast).finishRead _ fun _ => hlast
    · exact hinv (.loop len bytesRead') _ (by simp) h.finished
  · rw [if_neg hdone]
    exact { h with copying := by simp }

theorem Inv.copyFrame (h : s.Inv S) {bytesRead : ℕ} {f : StreamFrame}
    (hpos : s.pos = .copying len bytesRead f) : (s.copyFrame len bytesRead f).Inv S := by
  unfold StreamReader.copyFrame
  split_ifs with hbug
  · exact h.finishRead _ (by simp)
  · exact (h.advance hpos (by omega)).maybePop hpos _

theorem Inv.addStreamFrame (h : s.Inv S) {f : StreamFrame} (hf : f.Consistent S)
    (hsafe : s.frameQueue.FinSafe f) {err : Option PushError} {q' : StreamFrameSorter}
    (herr : err = none ∨ err = some .duplicateStreamData)
    (hpush : s.frameQueue.push f = (q', err)) : Inv S { s with frameQueue := q' } := by
  obtain ⟨⟨C, B, hinv⟩, -⟩ := id h.exact
  obtain ⟨-, hread, hhead, -⟩ := hinv.push_consistent hf herr hpush
  refine { h with
    exact := h.exact.push hf hsafe herr hpush, read_le := ?_, in_frame := ?_, copying := ?_ }
  · exact hread ▸ h.read_le
  · rcases h.in_frame with heq | ⟨g, hg, hle⟩
    · exact .inl (hread ▸ heq)
    · rcases Nat.eq_zero_or_pos g.dataLen with hz | hlen
      · have := (h.head_spec hg).1
        have := h.read_le
        unfold stop at hle
        exact .inl (by dsimp only; omega)
      · exact .inr ⟨g, hhead g hg hlen, hle⟩
  · intro len bytesRead g hpos
    obtain ⟨hoff, hposInFrame, hle, hagree, hfin, hempty, hg⟩ := h.copying _ _ _ hpos
    exact ⟨hoff.trans hread.symm, hposInFrame, hle, hagree, hfin, hempty,
      fun hlen => hhead g (hg hlen) hlen⟩

/-- Every event keeps the invariant, if the frames that arrive are safe. -/
theorem Inv.step (h : s.Inv S) {e : Event} (hstep : Step S s e s') (hsafe : e.FinSafe s) :
    s'.Inv S := by
  cases e with
  | addStreamFrame f =>
    obtain ⟨hf, err, herr, hpush, heq⟩ := hstep
    rw [heq]
    exact h.addStreamFrame hf hsafe herr hpush
  | startRead len => exact hstep.2 ▸ h.startRead len
  | nextFrame deadlineExceeded =>
    obtain ⟨len, bytesRead, -, rfl⟩ := hstep
    exact h.nextFrame len bytesRead deadlineExceeded
  | copyFrame =>
    obtain ⟨len, bytesRead, f, hpos, rfl⟩ := hstep
    exact h.copyFrame hpos
  | fail stop =>
    obtain rfl := hstep
    exact { h with }

end StreamReader

/-- If every non-empty FIN frame that is pushed has its last byte missing, or no byte missing, then
the end of the stream `S` is exact: a popped frame carries the FIN bit only if it ends where `S`
ends, and `Read` reports `io.EOF` only when its callers have all of `S`. The first push that
succeeds without meeting the condition queues a frame with the FIN bit that ends earlier. -/
theorem endOfStream_exact (S : List UInt8) :
    (∀ calls t, Run (fun t c t' => ConsistentStep S t c t' ∧ c.FinSafe t) Trace.init calls t →
      (∀ f ∈ t.popped, f.finBit → f.stop = S.length) ∧
      ∀ f s', f.Consistent S → t.sorter.push f = (s', none) → ¬ t.sorter.FinSafe f →
        ∃ k g, s'.queuedFrames k = some g ∧ g.finBit ∧ g.stop ≠ S.length) ∧
    (∀ events s, Run (fun s e s' => StreamReader.Step S s e s' ∧ e.FinSafe s) StreamReader.init
      events s → ∀ n, s.result = some (n, some .eof) → s.delivered = S) := by
  refine ⟨fun calls t hrun => ?_, fun events s hrun n hn => ?_⟩
  · obtain ⟨⟨⟨C, B, hinv⟩, -⟩, hpopped⟩ := exact_of_run hrun
    refine ⟨hpopped, fun f s' hf hpush hsafe => ?_⟩
    have hearly := hinv.not_finExact_of_push hf hpush hsafe
    unfold FinExact at hearly
    push Not at hearly
    exact hearly
  · have h : s.Inv S := hrun.invariant (I := fun _ s => s.Inv S) (StreamReader.inv_init S)
      fun _ _ _ _ h hstep => h.step hstep.1 hstep.2
    rw [h.delivered, h.result n hn, List.take_length]

/-- A stream that has received two frames. -/
def StreamReader.received (f g : StreamFrame) : StreamReader :=
  { init with frameQueue := ((StreamFrameSorter.new.push f).1.push g).1 }

/-- The stream `1, 2, 3`: its last two bytes arrive with the FIN bit, then the first byte, and
`Read` reports the end of the stream after three bytes. -/
theorem endOfStream_exact_example : ∃ s : StreamReader,
    s.result = some (3, some .eof) ∧ s.delivered = [1, 2, 3] := by
  refine ⟨_, ?_, (endOfStream_exact [1, 2, 3]).2
    [.addStreamFrame ⟨5, true, true, 1, [2, 3]⟩, .addStreamFrame ⟨5, false, true, 0, [1]⟩,
      .startRead 8, .nextFrame false, .copyFrame, .nextFrame false, .copyFrame] _
    (((((((Run.nil.snoc (t := { StreamReader.init with
        frameQueue := (StreamFrameSorter.new.push ⟨5, true, true, 1, [2, 3]⟩).1 })
      ⟨⟨by decide, none, .inl rfl, rfl, rfl⟩, fun _ _ => .inl ⟨⟨0, maxByteCount⟩, by decide⟩⟩).snoc
      (t := .received ⟨5, true, true, 1, [2, 3]⟩ ⟨5, false, true, 0, [1]⟩)
      ⟨⟨by decide, none, .inl rfl, rfl, rfl⟩, fun h => nomatch h⟩).snoc
      ⟨⟨rfl, rfl⟩, trivial⟩).snoc ⟨⟨8, 0, rfl, rfl⟩, trivial⟩).snoc
      ⟨⟨8, 0, ⟨5, false, true, 0, [1]⟩, rfl, rfl⟩, trivial⟩).snoc ⟨⟨8, 1, rfl, rfl⟩, trivial⟩).snoc
      ⟨⟨8, 1, ⟨5, true, true, 1, [2, 3]⟩, rfl, rfl⟩, trivial⟩) 3 ?_⟩
  · rfl
  · rfl

/-- The same bytes, but the frame that arrives second is the whole stream, with the FIN bit: what
is queued of it is the first byte, with the FIN bit, and `Read` reports `io.EOF` after one byte. -/
theorem endOfStream_early : ∃ (calls : List Call) (t : Trace) (events : List StreamReader.Event)
    (s : StreamReader), Run (ConsistentStep [1, 2, 3]) Trace.init calls t ∧
      (∃ f ∈ t.popped, f.finBit ∧ f.stop = 1) ∧
      Run (StreamReader.Step [1, 2, 3]) StreamReader.init events s ∧
      s.result = some (1, some .eof) ∧ s.delivered = [1] :=
  ⟨[.push ⟨5, true, true, 1, [2, 3]⟩, .push ⟨5, true, true, 0, [1, 2, 3]⟩, .pop], _,
    [.addStreamFrame ⟨5, true, true, 1, [2, 3]⟩, .addStreamFrame ⟨5, true, true, 0, [1, 2, 3]⟩,
      .startRead 8, .nextFrame false, .copyFrame], _,
    ((Run.nil.snoc (t := ⟨_, [_], []⟩) ⟨by decide, none, .inl rfl, rfl, rfl, rfl⟩).snoc
      (t := ⟨_, [_, _], []⟩) ⟨by decide, none, .inl rfl, rfl, rfl, rfl⟩).snoc rfl,
    ⟨⟨5, true, true, 0, [1]⟩, by decide, rfl, rfl⟩,
    ((((Run.nil.snoc (t := { StreamReader.init with
        frameQueue := (StreamFrameSorter.new.push ⟨5, true, true, 1, [2, 3]⟩).1 })
      ⟨by decide, none, .inl rfl, rfl, rfl⟩).snoc
      (t := .received ⟨5, true, true, 1, [2, 3]⟩ ⟨5, true, true, 0, [1, 2, 3]⟩)
      ⟨by decide, none, .inl rfl, rfl, rfl⟩).snoc ⟨rfl, rfl⟩).snoc ⟨8, 0, rfl, rfl⟩).snoc
      ⟨8, 0, ⟨5, true, true, 0, [1]⟩, rfl, rfl⟩, rfl, rfl⟩

end MPQuic

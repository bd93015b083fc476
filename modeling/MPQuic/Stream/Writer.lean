import MPQuic.Lib.Transition
import MPQuic.Packer.Partition

/-!
# Writing to a stream

`stream.Write` (`stream.go`): it leaves its argument in `dataForWriting`, where the framer takes it
piece by piece, and waits until nothing is left, an error is set or the deadline is over.

`Write` releases the lock while it waits. A `StreamWriter` is the stream between two sections under
the lock, and its events are these sections: the calls of the framer, of the session and of the
writer's own application may come between any two steps of a `Write`.

* `StreamWriter.Reports`: what was sent is what the finished calls of `Write` have reported, and a
  part of the argument of the call that is still in progress.
* `StreamWriter.Regular`: a `Write` whose deadline is over has not sent anything, and what it leaves
  behind is not sent.
* `reports_iff_regular`: `Write` reports exactly what is sent in the runs of regular events. A
  deadline makes it return 0, whatever was taken before, and leaves the rest to the framer.
-/

namespace MPQuic

open Transition

/-- The errors of `Write`. -/
inductive StreamWriteError where
  | deadline
  /-- The error that the stream was cancelled or reset with. -/
  | stream
  /-- "write on closed stream" -/
  | closed
  deriving DecidableEq

/-- Where a call of `Write` is. -/
inductive WriterPos where
  | idle
  /-- The lock is released until there is a signal, or until the deadline. -/
  | waiting (p : List UInt8) (deadline : Option ℕ)
  /-- The lock is not taken again yet. -/
  | woken (p : List UInt8)
  deriving DecidableEq

/-- The argument of the call in progress. -/
def WriterPos.argument : WriterPos → List UInt8
  | .idle => []
  | .waiting p _ => p
  | .woken p => p

/-- The writing side of a stream. A zero `time.Time` is `none`. -/
structure StreamWriter where
  stream : SendStream
  resetLocally : Bool
  resetRemotely : Bool
  writeDeadline : Option ℕ
  /-- There is a signal in `writeChan`, which has room for one. -/
  writeChan : Bool
  /-- The number of calls of `SetWriteDeadline` that have released the lock and will signal. -/
  signalsDue : ℕ
  pos : WriterPos
  /-- What `getDataForWriting` has returned. -/
  sent : List UInt8
  /-- The arguments and the results of the calls of `Write` that have returned. -/
  finished : List (List UInt8 × ℕ × Option StreamWriteError)

namespace StreamWriter

/-- A new stream. -/
def new (streamID : ℕ) : StreamWriter where
  stream := .new streamID
  resetLocally := false
  resetRemotely := false
  writeDeadline := none
  writeChan := false
  signalsDue := 0
  pos := .idle
  sent := []
  finished := []

/-- `Write` returns. -/
def finishWrite (s : StreamWriter) (p : List UInt8) (n : ℕ) (err : Option StreamWriteError) :
    StreamWriter :=
  { s with pos := .idle, finished := s.finished ++ [(p, n, err)] }

/-- The deadline is over at the time `now`. -/
def deadlineExceeded (s : StreamWriter) (now : ℕ) : Bool := s.writeDeadline.any (· ≤ now)

/-- The part of the loop of `Write` under the lock: return, or wait. -/
def checkWrite (s : StreamWriter) (now : ℕ) (p : List UInt8) : StreamWriter :=
  -- the deadline comes first, even if nothing is left to be taken
  if s.deadlineExceeded now then s.finishWrite p 0 (some .deadline)
  else if s.stream.failed then
    s.finishWrite p (p.length - s.stream.dataForWriting.length) (some .stream)
  else if s.stream.dataForWriting = [] then s.finishWrite p p.length none
  else { s with pos := .waiting p s.writeDeadline }

/-- `Write` is called. -/
def write (s : StreamWriter) (now : ℕ) (p : List UInt8) : StreamWriter :=
  if s.resetLocally || s.stream.failed then
    s.finishWrite p 0 (if s.stream.failed then some .stream else none)
  else if s.stream.finishedWriting then s.finishWrite p 0 (some .closed)
  else if p = [] then s.finishWrite p 0 none
  else { s with stream := { s.stream with dataForWriting := p } }.checkWrite now p

/-- The framer takes at most `maxBytes` bytes. It signals when nothing is left. -/
def getDataForWriting (s : StreamWriter) (maxBytes : ℕ) : StreamWriter :=
  let (ret, stream) := s.stream.getDataForWriting maxBytes
  -- a partial take does not wake up the writer
  let signal := !s.stream.failed && !s.stream.dataForWriting.isEmpty &&
    decide (s.stream.dataForWriting.length ≤ maxBytes)
  { s with stream, writeChan := s.writeChan || signal, sent := s.sent ++ ret }

/-- Whether a deadline is before another one. The zero time is before all others. -/
def before : Option ℕ → Option ℕ → Bool
  | none, some _ => true
  | some t, some old => t < old
  | _, none => false

/-- Set the deadline. The signal for an earlier one comes after the lock is released. -/
def setWriteDeadline (s : StreamWriter) (t : Option ℕ) : StreamWriter :=
  { s with
    writeDeadline := t
    signalsDue := s.signalsDue + if before t s.writeDeadline then 1 else 0 }

/-- Set the error, unless there is one. It may be nil. -/
def setError (s : StreamWriter) (err : Bool) : StreamWriter :=
  if s.stream.failed then s
  else { s with stream := { s.stream with failed := err }, writeChan := true }

/-- The session cancels the stream. -/
def cancel (s : StreamWriter) (err : Bool) : StreamWriter := s.setError err

/-- The stream is reset locally. -/
def reset (s : StreamWriter) (err : Bool) : StreamWriter :=
  if s.resetLocally then s else { s with resetLocally := true }.setError err

/-- The stream is reset remotely. -/
def registerRemoteError (s : StreamWriter) (err : Bool) : StreamWriter :=
  if s.resetRemotely then s else { s with resetRemotely := true }.setError err

/-- `Close` is called. -/
def close (s : StreamWriter) : StreamWriter :=
  { s with stream := { s.stream with finishedWriting := true } }

/-- An event on the writing side of a stream. -/
inductive Event where
  | write (now : ℕ) (p : List UInt8)
  /-- `Write` takes the signal. -/
  | receive
  /-- The timer of `Write` expires. -/
  | timeout (now : ℕ)
  /-- `Write` has the lock again. -/
  | resume (now : ℕ)
  | getDataForWriting (maxBytes : ℕ)
  | setWriteDeadline (t : Option ℕ)
  | signalWrite
  | cancel (err : Bool)
  | reset (err : Bool)
  | registerRemoteError (err : Bool)
  | close
  deriving DecidableEq

/-- The effect of an event, if it is possible. The calls of `Write` come one after the other. -/
def apply (s : StreamWriter) : Event → Option StreamWriter
  | .write now p => if s.pos = .idle then some (s.write now p) else none
  | .receive =>
    match s.pos with
    | .waiting p _ =>
      if s.writeChan then some { s with writeChan := false, pos := .woken p } else none
    | _ => none
  | .timeout now =>
    match s.pos with
    | .waiting p (some deadline) => if deadline ≤ now then some { s with pos := .woken p } else none
    | _ => none
  | .resume now =>
    match s.pos with
    | .woken p => some (s.checkWrite now p)
    | _ => none
  | .getDataForWriting maxBytes => some (s.getDataForWriting maxBytes)
  | .setWriteDeadline t => some (s.setWriteDeadline t)
  | .signalWrite =>
    if 0 < s.signalsDue then some { s with signalsDue := s.signalsDue - 1, writeChan := true }
    else none
  | .cancel err => some (s.cancel err)
  | .reset err => some (s.reset err)
  | .registerRemoteError err => some (s.registerRemoteError err)
  | .close => some s.close

/-- A step is an event that is possible. -/
def Step (s : StreamWriter) (e : Event) (s' : StreamWriter) : Prop := s.apply e = some s'

/-- The bytes that the finished calls of `Write` have reported as written. -/
def reported (s : StreamWriter) : List UInt8 := s.finished.flatMap fun r => r.1.take r.2.1

/-- What was sent is what was reported, followed by a part of the argument of the call that is in
progress. -/
def Reports (s : StreamWriter) : Prop :=
  ∃ part, part <+: s.pos.argument ∧ s.sent = s.reported ++ part

/-- A `Write` returns at its deadline only if nothing of its argument was taken. While there is no
`Write`, the framer comes only when the stream has failed, nothing is left or nothing is wanted. -/
def Regular (s : StreamWriter) : Event → Prop
  | .resume now =>
    s.deadlineExceeded now → s.stream.dataForWriting.length = s.pos.argument.length
  | .getDataForWriting maxBytes =>
    s.pos = .idle → s.stream.failed = true ∨ s.stream.dataForWriting = [] ∨ maxBytes = 0
  | _ => True

instance (s : StreamWriter) (e : Event) : Decidable (s.Regular e) := by
  cases e <;> unfold Regular <;> infer_instance

/-- What was sent is what was reported and what was taken of the argument in progress; the rest of
it is the data for writing. -/
structure Exact (s : StreamWriter) (taken : List UInt8) : Prop where
  sent : s.sent = s.reported ++ taken
  idle : s.pos = .idle → taken = []
  rest : s.pos ≠ .idle → s.pos.argument = taken ++ s.stream.dataForWriting

variable {s s' : StreamWriter} {taken : List UInt8}

theorem Exact.reports (h : s.Exact taken) : s.Reports := by
  refine ⟨taken, ?_, h.sent⟩
  by_cases hidle : s.pos = .idle
  · rw [h.idle hidle]
    exact List.nil_prefix
  · rw [h.rest hidle]
    exact List.prefix_append _ _

/-- Steps elsewhere do not matter. -/
theorem Exact.congr (h : s.Exact taken) (hidle : s'.pos = .idle ↔ s.pos = .idle)
    (hargument : s'.pos.argument = s.pos.argument)
    (hdata : s'.stream.dataForWriting = s.stream.dataForWriting) (hsent : s'.sent = s.sent)
    (hfinished : s'.finished = s.finished) : s'.Exact taken where
  sent := by rw [hsent, h.sent, reported, reported, hfinished]
  idle hs := h.idle (hidle.mp hs)
  rest hs := by rw [hargument, hdata, h.rest (fun hs' => hs (hidle.mpr hs'))]

theorem reported_finishWrite (s : StreamWriter) (p : List UInt8) (n : ℕ)
    (err : Option StreamWriteError) :
    (s.finishWrite p n err).reported = s.reported ++ p.take n := by
  simp [reported, finishWrite]

/-- `Write` returns and reports what was taken. -/
theorem exact_finishWrite (hsent : s.sent = s.reported ++ taken) {p : List UInt8} {n : ℕ}
    (hn : p.take n = taken) (err : Option StreamWriteError) :
    (s.finishWrite p n err).Exact [] where
  sent := by
    rw [reported_finishWrite, hn, List.append_nil]
    exact hsent
  idle _ := rfl
  rest hs := absurd rfl hs

/-- Without a call in progress, exactly what was reported was sent. -/
theorem reports_iff_of_idle (hidle : s.pos = .idle) : s.Reports ↔ s.sent = s.reported := by
  simp [Reports, hidle, WriterPos.argument]

/-- The loop of `Write`: every exit but the one at the deadline reports what was taken. -/
theorem checkWrite_iff (now : ℕ) {p : List UInt8} (hsent : s.sent = s.reported ++ taken)
    (hp : p = taken ++ s.stream.dataForWriting) :
    ((s.deadlineExceeded now → taken = []) → ∃ taken', (s.checkWrite now p).Exact taken') ∧
      ((s.checkWrite now p).Reports → s.deadlineExceeded now → taken = []) := by
  unfold checkWrite
  split_ifs with hdeadline hfailed hdata
  · refine ⟨fun h => ⟨[], exact_finishWrite hsent ?_ _⟩, fun hreports _ => ?_⟩
    · rw [h hdeadline, List.take_zero]
    · rw [reports_iff_of_idle rfl, reported_finishWrite, List.take_zero,
        List.append_nil] at hreports
      exact List.self_eq_append_right.mp (hreports.symm.trans hsent)
  · refine ⟨fun _ => ⟨[], exact_finishWrite hsent ?_ _⟩, fun _ h => absurd h hdeadline⟩
    rw [hp, List.length_append, Nat.add_sub_cancel, List.take_left]
  · refine ⟨fun _ => ⟨[], exact_finishWrite hsent ?_ _⟩, fun _ h => absurd h hdeadline⟩
    rw [List.take_length, hp, hdata, List.append_nil]
  · exact ⟨fun _ => ⟨taken, hsent, nofun, fun _ => hp⟩, fun _ h => absurd h hdeadline⟩

/-- A call of `Write` takes nothing itself. -/
theorem Exact.write (h : s.Exact taken) (hidle : s.pos = .idle) (now : ℕ) (p : List UInt8) :
    ∃ taken', (s.write now p).Exact taken' := by
  have hsent : s.sent = s.reported ++ [] := by rw [h.sent, h.idle hidle]
  unfold StreamWriter.write
  split_ifs
  · exact ⟨[], exact_finishWrite hsent (List.take_zero) _⟩
  · exact ⟨[], exact_finishWrite hsent (List.take_zero) _⟩
  · exact ⟨[], exact_finishWrite hsent (List.take_zero) _⟩
  · exact ⟨[], exact_finishWrite hsent (List.take_zero) _⟩
  · exact (checkWrite_iff (s := { s with stream := { s.stream with dataForWriting := p } }) now
      hsent rfl).1 fun _ => rfl

/-- What the framer takes comes off the data for writing. -/
theorem getDataForWriting_append (stream : SendStream) (maxBytes : ℕ) :
    (stream.getDataForWriting maxBytes).1 ++
      (stream.getDataForWriting maxBytes).2.dataForWriting = stream.dataForWriting := by
  unfold SendStream.getDataForWriting
  split_ifs
  · rfl
  · exact List.take_append_drop _ _

/-- When the framer takes nothing. -/
theorem getDataForWriting_eq_nil_iff (stream : SendStream) (maxBytes : ℕ) :
    (stream.getDataForWriting maxBytes).1 = [] ↔
      stream.failed = true ∨ stream.dataForWriting = [] ∨ maxBytes = 0 := by
  unfold SendStream.getDataForWriting
  split_ifs with hfailed
  · simp [hfailed]
  · simp [hfailed, List.take_eq_nil_iff, or_comm]

/-- What the framer takes belongs to the call in progress, if there is one. -/
theorem Exact.getDataForWriting (h : s.Exact taken) (maxBytes : ℕ) :
    (s.Regular (.getDataForWriting maxBytes) →
        ∃ taken', (s.getDataForWriting maxBytes).Exact taken') ∧
      ((s.getDataForWriting maxBytes).Reports → s.Regular (.getDataForWriting maxBytes)) := by
  have happend := getDataForWriting_append s.stream maxBytes
  have hsent : (s.getDataForWriting maxBytes).sent =
      s.reported ++ (taken ++ (s.stream.getDataForWriting maxBytes).1) := by
    rw [← List.append_assoc, ← h.sent]
    rfl
  by_cases hidle : s.pos = .idle
  · rw [h.idle hidle, List.nil_append] at hsent
    refine ⟨fun hregular => ⟨[], ?_, fun _ => rfl, fun hs => absurd hidle hs⟩, fun hreports _ => ?_⟩
    · rw [hsent, (getDataForWriting_eq_nil_iff _ _).mpr (hregular hidle)]
      rfl
    · have hreported := (reports_iff_of_idle (s := s.getDataForWriting maxBytes) hidle).mp hreports
      exact (getDataForWriting_eq_nil_iff _ _).mp
        (List.append_right_eq_self.mp (hsent.symm.trans hreported))
  · refine ⟨fun _ => ⟨_, hsent, fun hs => absurd hs hidle, fun _ => ?_⟩,
      fun _ hs => absurd hs hidle⟩
    refine (h.rest hidle).trans ?_
    rw [List.append_assoc]
    exact congrArg (taken ++ ·) happend.symm

theorem Exact.wake (h : s.Exact taken) {p : List UInt8} {deadline : Option ℕ}
    (hpos : s.pos = .waiting p deadline) (writeChan : Bool) :
    Exact { s with writeChan, pos := .woken p } taken :=
  h.congr (by simp [hpos]) (by simp [hpos, WriterPos.argument]) rfl rfl rfl

theorem Exact.setError (h : s.Exact taken) (err : Bool) : (s.setError err).Exact taken := by
  unfold StreamWriter.setError
  split_ifs
  · exact h
  · exact h.congr Iff.rfl rfl rfl rfl rfl

/-- An event keeps the invariant if it is regular, and only regular events report what is sent. -/
theorem Exact.step (h : s.Exact taken) {e : Event} (hstep : Step s e s') :
    (s.Regular e → ∃ taken', s'.Exact taken') ∧ (s'.Reports → s.Regular e) := by
  have hother : s'.Exact taken → (∀ s : StreamWriter, s.Regular e) →
      (s.Regular e → ∃ taken', s'.Exact taken') ∧ (s'.Reports → s.Regular e) :=
    fun h' hregular => ⟨fun _ => ⟨taken, h'⟩, fun _ => hregular s⟩
  cases e with
  | write now p =>
    simp only [Step, apply, Option.ite_none_right_eq_some, Option.some.injEq] at hstep
    obtain ⟨hidle, rfl⟩ := hstep
    exact ⟨fun _ => h.write hidle now p, fun _ => trivial⟩
  | receive =>
    simp only [Step, apply] at hstep
    split at hstep
    case h_2 => cases hstep
    case h_1 p deadline hpos =>
      simp only [Option.ite_none_right_eq_some, Option.some.injEq] at hstep
      obtain ⟨-, rfl⟩ := hstep
      exact hother (h.wake hpos _) fun _ => trivial
  | timeout now =>
    simp only [Step, apply] at hstep
    split at hstep
    case h_2 => cases hstep
    case h_1 p deadline hpos =>
      simp only [Option.ite_none_right_eq_some, Option.some.injEq] at hstep
      obtain ⟨-, rfl⟩ := hstep
      exact hother (h.wake hpos _) fun _ => trivial
  | resume now =>
    simp only [Step, apply] at hstep
    split at hstep
    case h_2 => cases hstep
    case h_1 p hpos =>
      obtain rfl := Option.some.inj hstep
      have hp : p = taken ++ s.stream.dataForWriting := by
        simpa [hpos, WriterPos.argument] using h.rest (by simp [hpos])
      -- nothing was taken exactly if all of the argument is left
      have htaken : taken = [] ↔ s.stream.dataForWriting.length = p.length := by
        rw [hp, List.length_append, ← List.length_eq_zero_iff]
        omega
      have hiff := checkWrite_iff now h.sent hp
      rw [htaken] at hiff
      simpa only [Regular, hpos, WriterPos.argument] using hiff
  | getDataForWriting maxBytes =>
    obtain rfl := Option.some.inj hstep
    exact h.getDataForWriting maxBytes
  | setWriteDeadline t =>
    obtain rfl := Option.some.inj hstep
    exact hother (h.congr Iff.rfl rfl rfl rfl rfl) fun _ => trivial
  | signalWrite =>
    simp only [Step, apply, Option.ite_none_right_eq_some, Option.some.injEq] at hstep
    obtain ⟨-, rfl⟩ := hstep
    exact hother (h.congr Iff.rfl rfl rfl rfl rfl) fun _ => trivial
  | cancel err =>
    obtain rfl := Option.some.inj hstep
    exact hother (h.setError err) fun _ => trivial
  | reset err =>
    obtain rfl := Option.some.inj hstep
    refine hother ?_ fun _ => trivial
    unfold reset
    split_ifs
    · exact h
    · have h' : Exact { s with resetLocally := true } taken := h.congr Iff.rfl rfl rfl rfl rfl
      exact h'.setError err
  | registerRemoteError err =>
    obtain rfl := Option.some.inj hstep
    refine hother ?_ fun _ => trivial
    unfold registerRemoteError
    split_ifs
    · exact h
    · have h' : Exact { s with resetRemotely := true } taken := h.congr Iff.rfl rfl rfl rfl rfl
      exact h'.setError err
  | close =>
    obtain rfl := Option.some.inj hstep
    exact hother (h.congr Iff.rfl rfl rfl rfl rfl) fun _ => trivial

/-- In every interleaving: `Write` reports exactly what is sent, after every event, if and only if
all events are regular. -/
theorem reports_iff_regular (streamID : ℕ) (events : List Event) (s : StreamWriter) :
    Run (fun s e s' => Step s e s' ∧ s'.Reports) (new streamID) events s ↔
      Run (fun s e s' => Step s e s' ∧ s.Regular e) (new streamID) events s := by
  refine Run.and_iff_and (I := fun s : StreamWriter => ∃ taken, s.Exact taken)
    ⟨[], rfl, fun _ => rfl, fun hs => absurd rfl hs⟩ ?_ ?_
  · rintro s e s' ⟨taken, h⟩ hstep
    obtain ⟨hkeep, hregular⟩ := h.step hstep
    refine ⟨hregular, fun he => ?_⟩
    obtain ⟨taken', h'⟩ := hkeep he
    exact h'.reports
  · rintro s e s' ⟨taken, h⟩ hstep
    exact (h.step hstep).1

/-- Without a deadline, three bytes are taken in two pieces and then reported. -/
theorem write_reports_all : ∃ s : StreamWriter,
    Run (fun s e s' => Step s e s' ∧ s'.Reports) (new 5)
      [.write 0 [1, 2, 3], .getDataForWriting 2, .getDataForWriting 2, .receive, .resume 7] s ∧
      s.finished = [([1, 2, 3], 3, none)] := by
  have hstep : ∀ (s : StreamWriter) (e : Event) (s' : StreamWriter),
      (if s.Regular e then s.apply e else none) = some s' → Step s e s' ∧ s.Regular e := by
    intro s e s' h
    rw [Option.ite_none_right_eq_some] at h
    exact h.symm
  have hrun : ∃ s : StreamWriter, Run (fun s e s' => Step s e s' ∧ s.Regular e) (new 5)
      [.write 0 [1, 2, 3], .getDataForWriting 2, .getDataForWriting 2, .receive, .resume 7] s ∧
      s.finished = [([1, 2, 3], 3, none)] := Run.exists_of_any hstep (by decide)
  obtain ⟨s, hrun, hfinished⟩ := hrun
  exact ⟨s, (reports_iff_regular 5 _ s).mpr hrun, hfinished⟩

/-- Two of three bytes are taken when the deadline comes. `Write` returns 0, and the framer sends
the third byte afterwards. -/
theorem write_deadline_reports_nothing : ∃ s : StreamWriter,
    Run Step (new 5) [.setWriteDeadline (some 10), .write 0 [1, 2, 3], .getDataForWriting 2,
      .timeout 10, .resume 10, .getDataForWriting 2] s ∧
      s.finished = [([1, 2, 3], 0, some .deadline)] ∧ s.sent = [1, 2, 3] ∧ ¬s.Reports := by
  have hrun : ∃ s : StreamWriter, Run Step (new 5) [.setWriteDeadline (some 10),
      .write 0 [1, 2, 3], .getDataForWriting 2, .timeout 10, .resume 10, .getDataForWriting 2] s ∧
      s.pos = .idle ∧ s.finished = [([1, 2, 3], 0, some .deadline)] ∧ s.sent = [1, 2, 3] :=
    Run.exists_of_any (fun _ _ _ h => h) (by decide)
  obtain ⟨s, hrun, hpos, hfinished, hsent⟩ := hrun
  refine ⟨s, hrun, hfinished, hsent, fun hreports => ?_⟩
  rw [reports_iff_of_idle hpos, reported, hfinished, hsent] at hreports
  simp at hreports

end StreamWriter

end MPQuic

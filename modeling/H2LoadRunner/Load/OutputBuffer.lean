/-
# Load.OutputBuffer -- the two output buffers of a client connection

`asio_client_connection` collects what a session sends in one of two buffers while the
other is being written to the socket.  `push_data_to_output_buffer` appends to the
current buffer, growing it by `reserve` and a copy made by hand; `common_write` hands the
current buffer to `async_write` and makes the other one current; `connect_to_host` starts
over.  A completion that is delivered after the connection it belongs to was given up
still clears `is_write_in_progress`, so the order in which Boost.Asio delivers
completions is an assumption (`OldWritesFirst`).

Over the buffers stands a `Fifo` of bytes that takes the chunks off the events themselves;
every run keeps it in step with the buffers (`sound_of_run`): `handed_in_push_order`.

Sizes are natural numbers: `output_data_length` never exceeds the capacity of the current
buffer (`Sound.inside`), so the source's unsigned difference does not wrap.
-/
import H2LoadRunner.Library.Buffers
import H2LoadRunner.Library.Transition

namespace H2LoadRunner.Load.OutputBuffer

open Library
open Library.Transition (run Along run_ne_fault ok_of_run_cons along_of_ok exists_run)

set_option autoImplicit false

abbrev Bytes := List UInt8

/-! ## The connection -/

/-- What the vectors are made of: the size the constructor gives each (64 KiB), and the
block `reserve` moves to when it must grow, whose cells beyond the copied ones may hold
anything. -/
structure Memory where
  size : Nat
  block : Nat → Bytes
  large : ∀ n, n ≤ (block n).length

/-- A call of `async_write` whose handler has not run. -/
structure Write where
  /-- The connection it was started on. -/
  connection : Nat
  /-- The buffer the call points into, and how many of its bytes it covers. -/
  buffer : Fin 2
  length : Nat
  /-- What those bytes were when the call was made. -/
  bytes : Bytes
deriving DecidableEq

/-- The two functions `write_clear_callback` is ever set to. -/
inductive WriteClear
  /-- `setup_graceful_shutdown`: disconnect, and write no more. -/
  | shutdown
  /-- `graceful_restart_connection`: disconnect and connect again. -/
  | restart
deriving DecidableEq

structure Connection where
  outputBuffers : Fin 2 → Bytes
  outputDataLength : Nat
  outputBufferIndex : Fin 2
  isWriteInProgress : Bool
  isClientStopped : Bool
  writeSignaled : Bool
  /-- Whether `session` is set. -/
  session : Bool
  writeClearCallback : Option WriteClear
  /-- Write signals posted to the io context that have not run. -/
  signals : Nat
  /-- How often `connect_to_host` was called: which connection this is. -/
  connection : Nat
  writes : List Write
  /-- The bytes of each `async_write` on this connection. -/
  handed : List Bytes

inductive Fault
  /-- A `memcpy` past the end of the buffer. -/
  | overrun
  /-- The event cannot happen in this state. -/
  | disabled

namespace Connection

def initial (m : Memory) : Connection where
  outputBuffers := fun _ => List.replicate m.size 0
  outputDataLength := 0
  outputBufferIndex := 0
  isWriteInProgress := false
  isClientStopped := false
  writeSignaled := false
  session := false
  writeClearCallback := none
  signals := 0
  connection := 0
  writes := []
  handed := []

def current (s : Connection) : Bytes := s.outputBuffers s.outputBufferIndex

def pending (s : Connection) : Bytes := s.current.take s.outputDataLength

def flags (s : Connection) : Bool × Bool × Bool := (s.session, s.isWriteInProgress, s.isClientStopped)

def outstanding (s : Connection) : List Write := s.writes.filter (·.connection = s.connection)
def oldWrites (s : Connection) : List Write := s.writes.filter (·.connection ≠ s.connection)

end Connection

/-- `std::vector::reserve`: a block that has the capacity stays; otherwise the first
`size()` bytes move to a new block. -/
def Memory.reserve (m : Memory) (buffer : Bytes) (capacity : Nat) : Bytes :=
  if capacity ≤ buffer.length then buffer
  else overwrite (m.block capacity) 0 (buffer.take m.size)

/-- The current buffer with room for `length` more bytes. -/
def Connection.roomy (m : Memory) (s : Connection) (length : Nat) : Bytes :=
  if s.current.length - s.outputDataLength < length then
    let tempBuffer := s.current.take s.outputDataLength
    overwrite (m.reserve s.current (s.outputDataLength + length)) 0 tempBuffer
  else s.current

namespace Connection

def appended (m : Memory) (s : Connection) (data : Bytes) : Connection :=
  { s with
    outputBuffers := Function.update s.outputBuffers s.outputBufferIndex
      (overwrite (s.roomy m data.length) s.outputDataLength data)
    outputDataLength := s.outputDataLength + data.length }

def pushDataToOutputBuffer (m : Memory) (s : Connection) (data : Bytes) :
    Except Fault Connection :=
  if s.outputDataLength + data.length ≤ (s.roomy m data.length).length then
    .ok (s.appended m data)
  else .error .overrun

def signalWrite (s : Connection) : Connection :=
  if s.writeSignaled then s
  else { s with signals := s.signals + 1, writeSignaled := true }

/-- The body of `common_write` once its guard has passed. -/
def startWrite (s : Connection) : Connection :=
  { s with
    isWriteInProgress := true
    outputDataLength := 0
    outputBufferIndex := s.outputBufferIndex + 1
    writes := s.writes ++
      [⟨s.connection, s.outputBufferIndex, s.outputDataLength, s.pending⟩]
    handed := s.handed ++ [s.pending] }

def commonWrite (s : Connection) : Connection :=
  if s.isWriteInProgress = true ∨ s.isClientStopped = true ∨ s.outputDataLength = 0 then s
  else s.startWrite

/-- `disconnect`: `stop`, and the part of `cleanup_due_to_disconnect` seen here. -/
def disconnect (s : Connection) : Connection :=
  { s with isClientStopped := true, session := false }

def connectToHost (s : Connection) : Connection :=
  { s with
    outputDataLength := 0
    isWriteInProgress := false
    writeSignaled := false
    outputBufferIndex := 0
    isClientStopped := false
    connection := s.connection + 1
    handed := [] }

/-- `connected`, where a protocol was negotiated and a session allocated. -/
def connected (s : Connection) : Connection :=
  { s with isClientStopped := false, session := true }

/-- The calls of `push_data_to_output_buffer` one `on_write` of a session makes. -/
def pushAll (m : Memory) : Connection → List Bytes → Except Fault Connection
  | s, [] => .ok s
  | s, data :: rest => (s.pushDataToOutputBuffer m data).bind fun t => pushAll m t rest

/-- The loop of `handle_write_signal`: `on_write` until one pushes nothing. -/
def writeRounds (m : Memory) : Connection → List (List Bytes) → Except Fault Connection
  | s, [] => .ok s
  | s, round :: rounds =>
    (s.pushAll m round).bind fun t =>
      if t.outputDataLength - s.outputDataLength = 0 then .ok t else writeRounds m t rounds

def handleWriteSignal (m : Memory) (s : Connection) (rounds : List (List Bytes)) :
    Except Fault Connection :=
  if s.session then (s.writeRounds m rounds).map commonWrite else .ok s

end Connection

inductive Outcome
  | written
  | aborted
  | failed
deriving DecidableEq

/-- `handle_write_complete`.  What `handle_connection_error` does first is `disconnect`;
what may follow (connecting again, at once or after a delay) are events of their own. -/
def Connection.handleWriteComplete (s : Connection) (outcome : Outcome) : Connection :=
  let cleared := { s with isWriteInProgress := false }
  match outcome with
  | .failed => cleared.disconnect
  | .aborted => cleared
  | .written =>
    match s.writeClearCallback with
    | none => cleared.commonWrite
    | some .shutdown => { cleared with writeClearCallback := none }.disconnect
    | some .restart =>
      { cleared with writeClearCallback := none }.disconnect.connectToHost.commonWrite

/-! ## Events -/

inductive Event
  | push (data : Bytes)
  | signalWrite
  /-- A posted write signal runs; the session's `on_write` calls push these rounds. -/
  | writeSignal (rounds : List (List Bytes))
  /-- The handler of an `async_write` runs. -/
  | writeComplete (write : Write) (outcome : Outcome)
  | disconnect
  /-- `reconnect_to_alt_addr` armed the reconnect timer: `is_client_stopped` is cleared. -/
  | delayedReconnect
  | connectToHost
  /-- The connection (and the handshake) completed. -/
  | connected
  | setWriteClear (callback : WriteClear)

/-- Pushes come from a session; a connection is only started by a client that has none
(its callers disconnect first, or check the state). -/
def step (m : Memory) (s : Connection) : Event → Except Fault Connection
  | .push data => if s.session then s.pushDataToOutputBuffer m data else .error .disabled
  | .signalWrite => .ok s.signalWrite
  | .writeSignal rounds =>
    if s.signals = 0 then .error .disabled
    else
      ({ s with signals := s.signals - 1 }.handleWriteSignal m rounds).map
        fun t : Connection => { t with writeSignaled := false }
  | .writeComplete write outcome =>
    if write ∈ s.writes then
      .ok ({ s with writes := s.writes.erase write }.handleWriteComplete outcome)
    else .error .disabled
  | .disconnect => .ok s.disconnect
  | .delayedReconnect =>
    if s.session then .error .disabled else .ok { s with isClientStopped := false }
  | .connectToHost => if s.session then .error .disabled else .ok s.connectToHost
  | .connected => .ok s.connected
  | .setWriteClear callback => .ok { s with writeClearCallback := some callback }

/-- The chunks of the `on_write` calls up to the first that has nothing to send. -/
def offered : List (List Bytes) → List Bytes
  | [] => []
  | round :: rounds => if round.flatten.length = 0 then round else round ++ offered rounds

/-- The chunks that a session has pushed on this connection after one more event, read off
the events. -/
def pushedBy (s : Connection) (pushed : List Bytes) : Event → List Bytes
  | .push data => pushed ++ [data]
  | .writeSignal rounds => if s.session then pushed ++ offered rounds else pushed
  | .connectToHost => []
  | .writeComplete _ outcome =>
    if outcome = .written ∧ s.writeClearCallback = some .restart then [] else pushed
  | _ => pushed

def pushedAlong (m : Memory) : Connection → List Bytes → List Event → List Bytes
  | _, pushed, [] => pushed
  | s, pushed, e :: es =>
    match step m s e with
    | .ok t => pushedAlong m t (pushedBy s pushed e) es
    | .error _ => pushed

/-- On a connection that is up, a write signal runs while no write is outstanding, or the
outstanding one completes. -/
def Flushes (s : Connection) : Event → Prop
  | .writeSignal _ => s.session = true ∧ s.isClientStopped = false ∧ s.isWriteInProgress = false
  | .writeComplete _ outcome =>
    outcome = .written ∧ s.isClientStopped = false ∧ s.writeClearCallback = none
  | _ => False

/-- Boost.Asio delivers the completion of an old connection's write before any completion
of the new connection. -/
def OldWritesFirst (s : Connection) : Event → Prop
  | .connected => s.oldWrites = []
  | .writeComplete write _ => write.connection = s.connection → s.oldWrites = []
  | _ => True

/-! ## The buffers hold a queue -/

/-- The connection's buffers are at the point of the queue. -/
structure Represents (pushed : List Bytes) (s : Connection) (q : Fifo UInt8) : Prop where
  entered : pushed.flatten = q.entered
  taken : s.handed.flatten = q.taken
  waiting : s.pending = q.waiting

variable {pushed : List Bytes} {s : Connection} {q : Fifo UInt8} {m : Memory}

theorem Represents.conserved (at_q : Represents pushed s q) : s.handed.flatten ++ s.pending = pushed.flatten := by
  rw [at_q.entered, at_q.taken, at_q.waiting, q.conserved]

theorem Memory.le_length_reserve (m : Memory) (buffer : Bytes) (capacity : Nat) :
    capacity ≤ (m.reserve buffer capacity).length := by
  unfold Memory.reserve
  split
  · assumption
  · have large := m.large capacity
    rw [length_overwrite (by rw [List.length_take]; omega)]
    exact large

section push

variable {m : Memory} {s : Connection} (inside : s.outputDataLength ≤ s.current.length)

include inside

theorem length_pending : s.pending.length = s.outputDataLength := by
  rw [Connection.pending, List.length_take]
  omega

theorem le_length_roomy (length : Nat) : s.outputDataLength + length ≤ (s.roomy m length).length := by
  unfold Connection.roomy
  split
  · have capacity := m.le_length_reserve s.current (s.outputDataLength + length)
    have held := length_pending inside
    rw [Connection.pending] at held
    rw [length_overwrite (by omega)]
    exact capacity
  · omega

/-- The copy made by hand brings the pending bytes over; `reserve` alone would bring only
the first `size()` bytes. -/
theorem take_roomy (length : Nat) : (s.roomy m length).take s.outputDataLength = s.pending := by
  unfold Connection.roomy
  split
  · have capacity := m.le_length_reserve s.current (s.outputDataLength + length)
    have held := length_pending inside
    rw [Connection.pending] at held
    have copied : (overwrite (m.reserve s.current (s.outputDataLength + length)) 0
        (s.current.take s.outputDataLength)).take
          (0 + (s.current.take s.outputDataLength).length) = _ := take_overwrite (by omega)
    rw [held, Nat.zero_add, List.take_zero, List.nil_append] at copied
    exact copied
  · rfl

end push

theorem push_eq_appended (inside : s.outputDataLength ≤ s.current.length) (data : Bytes) :
    s.pushDataToOutputBuffer m data = .ok (s.appended m data) :=
  if_pos (le_length_roomy inside data.length)

theorem current_appended (m : Memory) (s : Connection) (data : Bytes) :
    (s.appended m data).current =
      overwrite (s.roomy m data.length) s.outputDataLength data :=
  Function.update_self ..

theorem appended_enters (inside : s.outputDataLength ≤ s.current.length) (at_q : Represents pushed s q)
    (data : Bytes) : Represents (pushed ++ [data]) (s.appended m data) (q.enter data) := by
  refine ⟨?_, at_q.taken, ?_⟩
  · rw [List.flatten_append, List.flatten_singleton, at_q.entered]
    rfl
  · rw [Connection.pending, current_appended]
    calc (overwrite (s.roomy m data.length) s.outputDataLength data).take
          (s.outputDataLength + data.length)
        = (s.roomy m data.length).take s.outputDataLength ++ data :=
          take_overwrite (le_length_roomy inside data.length)
      _ = q.waiting ++ data := by rw [take_roomy inside, at_q.waiting]

theorem startWrite_takes (at_q : Represents pushed s q) : Represents pushed s.startWrite q.takeAll := by
  refine ⟨at_q.entered, ?_, rfl⟩
  simp only [Connection.startWrite, List.flatten_append, List.flatten_singleton, at_q.taken,
    at_q.waiting]
  rfl

/-! ## What every run keeps -/

structure Sound (pushed : List Bytes) (s : Connection) : Prop where
  inside : s.outputDataLength ≤ s.current.length
  served : ∃ q, Represents pushed s q
  /-- The flag says whether a write of this connection is outstanding. -/
  flag : s.outstanding.length = s.isWriteInProgress.toNat
  /-- An outstanding write is not in the buffer being filled. -/
  apart : ∀ w ∈ s.outstanding, w.buffer ≠ s.outputBufferIndex
  /-- Its bytes are still what they were. -/
  intact : ∀ w ∈ s.outstanding, (s.outputBuffers w.buffer).take w.length = w.bytes
  past : ∀ w ∈ s.writes, w.connection ≤ s.connection
  /-- While an old write is outstanding this connection has not begun. -/
  quiet : s.oldWrites ≠ [] →
    s.session = false ∧ s.outputDataLength = 0 ∧ s.isWriteInProgress = false

theorem sound_initial (m : Memory) : Sound [] (.initial m) where
  inside := Nat.zero_le _
  served := ⟨.empty, rfl, rfl, rfl⟩
  flag := rfl
  apart := nofun
  intact := nofun
  past := nofun
  quiet := fun old => absurd rfl old

theorem outstanding_startWrite (s : Connection) : s.startWrite.outstanding = s.outstanding ++
      [⟨s.connection, s.outputBufferIndex, s.outputDataLength, s.pending⟩] := by
  refine (List.filter_append ..).trans (congrArg _ ?_)
  simp [Connection.startWrite]

theorem oldWrites_startWrite (s : Connection) : s.startWrite.oldWrites = s.oldWrites := by
  have mine : [(⟨s.connection, s.outputBufferIndex, s.outputDataLength, s.pending⟩ : Write)].filter
      (·.connection ≠ s.connection) = [] := by simp
  exact (List.filter_append ..).trans ((congrArg (s.oldWrites ++ ·) mine).trans (List.append_nil _))

namespace Sound

theorem no_oldWrites (sound : Sound pushed s) (session : s.session = true) : s.oldWrites = [] := by
  by_contra old
  rw [(sound.quiet old).1] at session
  cases session

theorem appended (sound : Sound pushed s) (session : s.session = true) (data : Bytes) :
    Sound (pushed ++ [data]) (s.appended m data) where
  __ := sound
  inside := by
    have fits := le_length_roomy (m := m) sound.inside data.length
    rw [current_appended, length_overwrite fits]
    exact fits
  served := by
    obtain ⟨q, at_q⟩ := sound.served
    exact ⟨_, appended_enters sound.inside at_q data⟩
  intact := by
    intro w outstanding
    have elsewhere : (s.appended m data).outputBuffers w.buffer = s.outputBuffers w.buffer :=
      Function.update_of_ne (sound.apart w outstanding) ..
    rw [elsewhere]
    exact sound.intact w outstanding
  quiet := fun old => absurd (sound.no_oldWrites session) old

theorem startWrite (sound : Sound pushed s) (idle : s.isWriteInProgress = false)
    (waiting : s.outputDataLength ≠ 0) : Sound pushed s.startWrite := by
  have none_yet : s.outstanding = [] := by
    have flag := sound.flag
    rw [idle] at flag
    exact List.eq_nil_of_length_eq_zero flag
  have started : s.startWrite.outstanding =
      [⟨s.connection, s.outputBufferIndex, s.outputDataLength, s.pending⟩] := by
    rw [outstanding_startWrite, none_yet, List.nil_append]
  have no_old : s.oldWrites = [] := by
    by_contra old
    exact waiting (sound.quiet old).2.1
  refine ⟨Nat.zero_le _, ?_, ?_, ?_, ?_, ?_, ?_⟩
  · obtain ⟨q, at_q⟩ := sound.served
    exact ⟨_, startWrite_takes at_q⟩
  · rw [started]
    rfl
  · intro w outstanding
    rw [started, List.mem_singleton] at outstanding
    subst outstanding
    show s.outputBufferIndex ≠ s.outputBufferIndex + 1
    generalize s.outputBufferIndex = i
    revert i
    decide
  · intro w outstanding
    rw [started, List.mem_singleton] at outstanding
    subst outstanding
    rfl
  · intro w write
    rcases List.mem_append.mp write with before | now
    · exact sound.past w before
    · rw [List.mem_singleton.mp now]
      exact Nat.le_refl _
  · intro old
    rw [oldWrites_startWrite] at old
    exact absurd no_old old

theorem commonWrite (sound : Sound pushed s) : Sound pushed s.commonWrite := by
  unfold Connection.commonWrite
  split
  · exact sound
  · rename_i ready
    simp only [not_or, Bool.not_eq_true] at ready
    exact sound.startWrite ready.1 ready.2.2

/-- The remaining fields play no part. -/
theorem withFlags (sound : Sound pushed s) (stopped signaled : Bool) (callback : Option WriteClear) (signals : Nat) :
    Sound pushed { s with
      isClientStopped := stopped
      writeSignaled := signaled
      writeClearCallback := callback
      signals := signals } where
  __ := sound
  served := sound.served.imp fun _ at_q => { at_q with }

theorem withSession (sound : Sound pushed s) (session : Bool)
    (alone : session = true → s.oldWrites = []) : Sound pushed { s with session := session } where
  __ := sound
  served := sound.served.imp fun _ at_q => { at_q with }
  quiet := by
    intro old
    refine ⟨?_, (sound.quiet old).2⟩
    cases session with
    | false => rfl
    | true => exact absurd (alone rfl) old

theorem disconnect (sound : Sound pushed s) : Sound pushed s.disconnect :=
  (sound.withSession false nofun).withFlags true s.writeSignaled s.writeClearCallback s.signals

theorem connectToHost (sound : Sound pushed s) (closed : s.session = false) : Sound [] s.connectToHost := by
  have none_yet : s.connectToHost.outstanding = [] := by
    refine List.filter_eq_nil_iff.mpr fun w write => ?_
    have before := sound.past w write
    have later : s.connectToHost.connection = s.connection + 1 := rfl
    simp only [later, decide_eq_true_eq]
    omega
  refine ⟨Nat.zero_le _, ⟨.empty, rfl, rfl, rfl⟩, ?_, ?_, ?_, ?_, ?_⟩
  · rw [none_yet]
    rfl
  · rw [none_yet]
    nofun
  · rw [none_yet]
    nofun
  · intro w write
    exact Nat.le_succ_of_le (sound.past w write)
  · exact fun _ => ⟨closed, rfl, rfl⟩

/-- A write that completes is gone, and the flag is cleared with it: an old write completes
while the flag is already clear. -/
theorem completed (sound : Sound pushed s) {w : Write} (write : w ∈ s.writes) :
    Sound pushed { s with writes := s.writes.erase w, isWriteInProgress := false } := by
  have remaining : ∀ v ∈ (s.writes.erase w).filter (·.connection = s.connection),
      v ∈ s.outstanding := fun v kept =>
    List.mem_filter.mpr ⟨List.mem_of_mem_erase (List.mem_filter.mp kept).1,
      (List.mem_filter.mp kept).2⟩
  refine ⟨sound.inside, ?_, ?_, ?_, ?_, ?_, ?_⟩
  · exact sound.served.imp fun _ at_q => { at_q with }
  · show ((s.writes.erase w).filter (·.connection = s.connection)).length = 0
    rw [← List.erase_filter]
    by_cases mine : w.connection = s.connection
    · have outstanding : w ∈ s.outstanding :=
        List.mem_filter.mpr ⟨write, decide_eq_true mine⟩
      have erased := List.length_erase_of_mem outstanding
      have flag := sound.flag
      have one := s.isWriteInProgress.toNat_le
      show (s.outstanding.erase w).length = 0
      omega
    · have old : w ∈ s.oldWrites := List.mem_filter.mpr ⟨write, decide_eq_true mine⟩
      have idle := (sound.quiet (List.ne_nil_of_mem old)).2.2
      have flag := sound.flag
      rw [idle] at flag
      have erased := List.length_erase_le (a := w) (l := s.outstanding)
      exact Nat.le_zero.mp (Nat.le_trans erased (Nat.le_of_eq flag))
  · exact fun v kept => sound.apart v (remaining v kept)
  · exact fun v kept => sound.intact v (remaining v kept)
  · exact fun v kept => sound.past v (List.mem_of_mem_erase kept)
  · intro old
    obtain ⟨v, kept⟩ := List.exists_mem_of_ne_nil _ old
    have before : v ∈ s.oldWrites :=
      List.mem_filter.mpr ⟨List.mem_of_mem_erase (List.mem_filter.mp kept).1,
        (List.mem_filter.mp kept).2⟩
    obtain ⟨closed, empty, _⟩ := sound.quiet (List.ne_nil_of_mem before)
    exact ⟨closed, empty, rfl⟩

theorem handleWriteComplete {w : Write} (sound : Sound pushed s) (write : w ∈ s.writes) (outcome : Outcome) :
    Sound (pushedBy s pushed (.writeComplete w outcome))
      ({ s with writes := s.writes.erase w }.handleWriteComplete outcome) := by
  have cleared := sound.completed write
  cases outcome with
  | failed => exact cleared.disconnect
  | aborted => exact cleared
  | written =>
    simp only [Connection.handleWriteComplete]
    split <;> rename_i callback
    · rw [pushedBy, if_neg (by simp [callback])]
      exact cleared.commonWrite
    · rw [pushedBy, if_neg (by simp [callback])]
      exact (cleared.withFlags _ _ none _).disconnect
    · rw [pushedBy, if_pos ⟨rfl, callback⟩]
      exact ((cleared.withFlags _ _ none _).disconnect.connectToHost rfl).commonWrite

/-- Pushing succeeds, whatever the sizes, and changes no flag. -/
theorem pushAll (sound : Sound pushed s) (session : s.session = true) (chunks : List Bytes) :
    ∃ t, s.pushAll m chunks = .ok t ∧ Sound (pushed ++ chunks) t ∧ t.flags = s.flags ∧
      t.outputDataLength = s.outputDataLength + chunks.flatten.length := by
  induction chunks generalizing pushed s with
  | nil =>
    rw [List.append_nil]
    exact ⟨s, rfl, sound, rfl, rfl⟩
  | cons data chunks ih =>
    rw [Connection.pushAll, push_eq_appended sound.inside]
    obtain ⟨t, ends, sound', flags, length⟩ := ih (sound.appended session data) session
    refine ⟨t, ends, ?_, flags, length.trans ?_⟩
    · rw [List.append_cons]
      exact sound'
    · rw [List.flatten_cons, List.length_append, ← Nat.add_assoc]
      rfl

theorem writeRounds (sound : Sound pushed s) (session : s.session = true) (rounds : List (List Bytes)) :
    ∃ t, s.writeRounds m rounds = .ok t ∧ Sound (pushed ++ offered rounds) t ∧ t.flags = s.flags := by
  induction rounds generalizing pushed s with
  | nil =>
    rw [offered, List.append_nil]
    exact ⟨s, rfl, sound, rfl⟩
  | cons round rounds ih =>
    obtain ⟨u, ends, sound', flags, length⟩ := sound.pushAll (m := m) session round
    have grown : u.outputDataLength - s.outputDataLength = round.flatten.length := by omega
    rw [Connection.writeRounds, ends, offered]
    simp only [Except.bind, grown]
    split
    · exact ⟨u, rfl, sound', flags⟩
    · obtain ⟨t, ends', sound'', flags'⟩ := ih sound' ((congrArg Prod.fst flags).trans session)
      rw [← List.append_assoc]
      exact ⟨t, ends', sound'', flags'.trans flags⟩

theorem handleWriteSignal (sound : Sound pushed s) (rounds : List (List Bytes)) :
    ∃ t, s.handleWriteSignal m rounds = .ok t ∧ Sound (pushedBy s pushed (.writeSignal rounds)) t := by
  rw [Connection.handleWriteSignal, pushedBy]
  split
  · rename_i session
    obtain ⟨u, written, sound', _⟩ := sound.writeRounds (m := m) session rounds
    rw [written]
    exact ⟨_, rfl, sound'.commonWrite⟩
  · exact ⟨s, rfl, sound⟩

end Sound

section

variable {e : Event} {t : Connection}

/-- One event, in the order of completions Boost.Asio gives: it cannot happen here, or it
leads to a sound state. -/
theorem step_sound (oldFirst : OldWritesFirst s e) (sound : Sound pushed s) :
    step m s e = .error .disabled ∨ ∃ t, step m s e = .ok t ∧ Sound (pushedBy s pushed e) t := by
  cases e with
  | push data =>
    simp only [step]
    split
    · rename_i session
      exact .inr ⟨_, push_eq_appended sound.inside data, sound.appended session data⟩
    · exact .inl rfl
  | signalWrite =>
    refine .inr ⟨_, rfl, ?_⟩
    unfold Connection.signalWrite
    split
    · exact sound
    · exact sound.withFlags _ true _ _
  | writeSignal rounds =>
    simp only [step]
    split
    · exact .inl rfl
    · have before := sound.withFlags s.isClientStopped s.writeSignaled s.writeClearCallback
        (s.signals - 1)
      obtain ⟨u, handled, sound'⟩ := before.handleWriteSignal (m := m) rounds
      rw [handled]
      exact .inr ⟨_, rfl, sound'.withFlags _ false _ _⟩
  | writeComplete write outcome =>
    simp only [step]
    split
    · rename_i outstanding
      exact .inr ⟨_, rfl, sound.handleWriteComplete outstanding outcome⟩
    · exact .inl rfl
  | disconnect => exact .inr ⟨_, rfl, sound.disconnect⟩
  | delayedReconnect =>
    simp only [step]
    split
    · exact .inl rfl
    · exact .inr ⟨_, rfl, sound.withFlags false _ _ _⟩
  | connectToHost =>
    simp only [step]
    split
    · exact .inl rfl
    · rename_i closed
      exact .inr ⟨_, rfl, sound.connectToHost (Bool.eq_false_iff.mpr closed)⟩
  | connected =>
    exact .inr ⟨_, rfl, (sound.withSession true fun _ => oldFirst).withFlags false _ _ _⟩
  | setWriteClear callback => exact .inr ⟨_, rfl, sound.withFlags _ _ (some callback) _⟩

theorem sound_step (oldFirst : OldWritesFirst s e) (sound : Sound pushed s) (taken : step m s e = .ok t) :
    Sound (pushedBy s pushed e) t := by
  rcases step_sound (m := m) oldFirst sound with disabled | ⟨u, led, sound'⟩
  · rw [disabled] at taken
    cases taken
  · rw [led] at taken
    cases taken
    exact sound'

theorem step_ne_overrun (oldFirst : OldWritesFirst s e) (sound : Sound pushed s) :
    step m s e ≠ .error .overrun := by
  rcases step_sound (m := m) oldFirst sound with disabled | ⟨u, led, _⟩
  · rw [disabled]
    nofun
  · rw [led]
    nofun

theorem outputDataLength_commonWrite (stopped : s.isClientStopped = false) (idle : s.isWriteInProgress = false) :
    s.commonWrite.outputDataLength = 0 := by
  unfold Connection.commonWrite
  split
  · rename_i unready
    simpa [stopped, idle] using unready
  · rfl

/-- Nothing that was pushed stays behind. -/
theorem pending_of_flushes (sound : Sound pushed s) (flushes : Flushes s e) (taken : step m s e = .ok t) :
    t.pending = [] := by
  suffices empty : t.outputDataLength = 0 by rw [Connection.pending, empty, List.take_zero]
  cases e with
  | writeSignal rounds =>
    obtain ⟨session, stopped, idle⟩ := flushes
    simp only [step] at taken
    split at taken
    · cases taken
    · have before := sound.withFlags s.isClientStopped s.writeSignaled s.writeClearCallback (s.signals - 1)
      obtain ⟨u, written, _, flags⟩ := before.writeRounds (m := m) session rounds
      rw [Connection.handleWriteSignal, if_pos session, written] at taken
      cases taken
      simp only [Connection.flags, Prod.mk.injEq] at flags
      exact outputDataLength_commonWrite (flags.2.2.trans stopped) (flags.2.1.trans idle)
  | writeComplete write outcome =>
    obtain ⟨rfl, stopped, callback⟩ := flushes
    simp only [step] at taken
    split at taken <;> cases taken
    simp only [Connection.handleWriteComplete, callback]
    exact outputDataLength_commonWrite stopped rfl
  | _ => exact flushes.elim

theorem sound_of_run {events : List Event} (ran : run (step m) s events = .ok t)
    (oldFirst : Along (step m) OldWritesFirst s events) (sound : Sound pushed s) :
    Sound (pushedAlong m s pushed events) t := by
  induction events generalizing s pushed with
  | nil =>
    cases ran
    exact sound
  | cons e es ih =>
    obtain ⟨u, taken, rest⟩ := ok_of_run_cons ran
    rw [pushedAlong, taken]
    exact ih rest (along_of_ok oldFirst taken) (sound_step oldFirst.1 sound taken)

/-- **The two buffers are a queue of bytes.**  At every point of every run what was handed to `async_write`
and what waits in the current buffer is every pushed chunk in push order, at most one write is outstanding,
and any further push succeeds without touching its buffer; the next write signal, or the completion of the
outstanding write, hands over all that waits. -/
theorem handed_in_push_order (m : Memory) (events : List Event)
    (oldFirst : Along (step m) OldWritesFirst (.initial m) events) :
    run (step m) (.initial m) events ≠ .error .overrun ∧ ∀ s, run (step m) (.initial m) events = .ok s →
        s.handed.flatten ++ s.pending = (pushedAlong m (.initial m) [] events).flatten ∧
        s.outstanding.length ≤ 1 ∧
        (∀ w ∈ s.outstanding, (s.outputBuffers w.buffer).take w.length = w.bytes) ∧
        (∀ data, ∃ t, s.pushDataToOutputBuffer m data = .ok t ∧ t.pending = s.pending ++ data ∧
          ∀ w ∈ s.outstanding, t.outputBuffers w.buffer = s.outputBuffers w.buffer) ∧
        ∀ e t, Flushes s e → step m s e = .ok t → t.pending = [] := by
  have kept (s e t) (oldFirst : OldWritesFirst s e) : (∃ pushed, Sound pushed s) →
      step m s e = .ok t → ∃ pushed, Sound pushed t :=
    fun ⟨_, sound⟩ taken => ⟨_, sound_step oldFirst sound taken⟩
  refine ⟨run_ne_fault kept (fun s e oldFirst ⟨_, sound⟩ => step_ne_overrun oldFirst sound) oldFirst
    ⟨_, sound_initial m⟩, fun s ran => ?_⟩
  have sound := sound_of_run ran oldFirst (sound_initial m)
  obtain ⟨q, at_q⟩ := sound.served
  refine ⟨at_q.conserved, ?_, sound.intact, fun data => ?_, fun e t => pending_of_flushes sound⟩
  · rw [sound.flag]
    exact s.isWriteInProgress.toNat_le
  · refine ⟨_, push_eq_appended sound.inside data, ?_, fun w outstanding => ?_⟩
    · rw [(appended_enters sound.inside at_q data).waiting, at_q.waiting]
      rfl
    · exact Function.update_of_ne (sound.apart w outstanding) ..

end

instance (s : Connection) : DecidablePred (OldWritesFirst s)
  | .connected => inferInstanceAs (Decidable (s.oldWrites = []))
  | .writeComplete write _ =>
    inferInstanceAs (Decidable (write.connection = s.connection → s.oldWrites = []))
  | .push _ | .signalWrite | .writeSignal _ | .disconnect | .delayedReconnect
  | .connectToHost | .setWriteClear _ => isTrue trivial

/-- Buffers of two bytes, which grow to exactly what is asked for. -/
def smallMemory : Memory where
  size := 2
  block := fun n => List.replicate n 255
  large := fun _ => Nat.le_of_eq List.length_replicate.symm

/-- A connection grows its buffer and is lost in the middle of a write, whose aborted
completion comes before the next connection is up. -/
def lostWhileWriting : List Event :=
  [.connectToHost, .connected, .push [1, 2, 3], .signalWrite, .writeSignal [[[4], [5, 6]], []],
    .push [7], .disconnect, .connectToHost,
    .writeComplete ⟨1, 0, 6, [1, 2, 3, 4, 5, 6]⟩ .aborted, .connected, .push [8, 9], .signalWrite,
    .writeSignal [], .push [10]]

/-- **Satisfiable pole:** the second connection has written one chunk and holds another. -/
theorem lostWhileWriting_in_push_order :
    ∃ s, run (step smallMemory) (.initial smallMemory) lostWhileWriting = .ok s ∧
      s.handed = [[8, 9]] ∧ s.outstanding.length = 1 ∧
      pushedAlong smallMemory (.initial smallMemory) [] lostWhileWriting = [[8, 9], [10]] ∧
      s.handed.flatten ++ s.pending =
        (pushedAlong smallMemory (.initial smallMemory) [] lostWhileWriting).flatten := by
  obtain ⟨s, ran, handed, one⟩ := exists_run (step smallMemory) (.initial smallMemory)
    lostWhileWriting (fun s => s.handed = [[8, 9]] ∧ s.outstanding.length = 1) (by decide +kernel)
  have order := (handed_in_push_order smallMemory lostWhileWriting (by decide +kernel)).2 s ran
  exact ⟨s, ran, handed, one, by decide +kernel, order.1⟩

end H2LoadRunner.Load.OutputBuffer

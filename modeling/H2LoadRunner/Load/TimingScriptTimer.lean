/-
# Load.TimingScriptTimer -- the timer that paces the requests of a timing script

Each time the timer expires, `timing_script_timeout_handler` submits what is due and starts the timer
again; it stops the timer when no more streams may be opened, when a request is refused and when none is
left.  `on_stream_close` calls `feed_timing_script_request_timeout_timer`, which is to run the handler
again.  It posts the handler of another timer, the one for the activity of the connection, and with an
error code, on which `timer_common_check` returns.

`ready_of_served`: while at each expiry there is room for what is due and the session accepts it, the timer
is armed whenever a request could be sent.  Once it has stopped with requests left, no stream that closes
starts it again.

The durations the loops read from the script are given with the events.
-/
import H2LoadRunner.Library.Transition

namespace H2LoadRunner.Load.TimingScriptTimer

open Library.Transition (run Along run_invariant along_true)

set_option autoImplicit false

/-! ## The client -/

inductive Handler where
  | timingScript
  | conActivity
  deriving DecidableEq

/-- A posted call of a handler, with an error code or none. -/
structure Task where
  handler : Handler
  ec : Bool
  deriving DecidableEq

structure Client where
  /-- `max_concurrent_streams` of the configuration and of the session. -/
  maxConcurrentStreams : Nat
  sessionMaxConcurrentStreams : Nat
  connectionRetryOnDisconnect : Bool := false
  reqLeft : Nat
  /-- The worker is past the main duration. -/
  gracefulShutdown : Bool := false
  connected : Bool := false
  /-- `streams.size()`. -/
  streams : Nat := 0
  /-- A wait on `timing_script_request_timeout_timer` is pending and not cancelled. -/
  armed : Bool := false
  posted : List Task := []

/-- What `submit_request` of the session returns. -/
inductive Outcome where
  | accepted
  | failed
  | maxStreamToBeExhausted
  deriving DecidableEq

/-- One turn of a loop: what the session returns, whether the duration read next is not below a
nanosecond, and whether `reqidx` is back at zero. -/
structure Turn where
  outcome : Outcome
  positive : Bool
  wraps : Bool := false

namespace Client

def start (c : Client) : Client := { c with armed := true }

def stop (c : Client) : Client := { c with armed := false }

/-- The client is in its own `dest_clients`, and so counts its streams twice. -/
def getTotalPendingStreams (c : Client) : Nat := c.streams + c.streams

/-- Without retries nothing is left to send.  Where the streams are exhausted the connection is to be
restarted, and the loss of the old one is an event of its own. -/
def processRequestFailure (c : Client) (outcome : Outcome) : Client :=
  if outcome = .maxStreamToBeExhausted ∨ c.connectionRetryOnDisconnect ∧ c.reqLeft ≠ 0 then c
  else { c with reqLeft := 0 }

/-- `--req_left`, which wraps. -/
def oneLess : Nat → Nat
  | 0 => 18446744073709551615
  | n + 1 => n

/-- Whether 0 is returned, and the client then. -/
def submitRequest (c : Client) (outcome : Outcome) : Bool × Client :=
  if c.sessionMaxConcurrentStreams ≤ c.getTotalPendingStreams ∨ c.gracefulShutdown then (false, c)
  else if outcome = .accepted then
    (true, { c with streams := c.streams + 1, reqLeft := oneLess c.reqLeft })
  else (false, c.processRequestFailure outcome)

def submitDue (c : Client) : List Turn → Client
  | [] => c
  | turn :: turns =>
    match c.submitRequest turn.outcome with
    | (false, c) => c.stop
    | (true, c) => if c.reqLeft = 0 then c.stop else if turn.positive then c.start else c.submitDue turns

def timingScriptTimeoutHandler (c : Client) (turns : List Turn) : Client :=
  if c.maxConcurrentStreams ≤ c.streams then c.stop else c.submitDue turns

def submitFirst (c : Client) : List Turn → Client
  | [] => c
  | turn :: turns =>
    match c.submitRequest turn.outcome with
    | (false, c) => c
    | (true, c) => if turn.positive then c.start else if turn.wraps then c else c.submitFirst turns

def connectionMade (c : Client) (positive : Bool) (turns : List Turn) : Client :=
  let c := { c with connected := true }
  if positive then c.start else c.submitFirst turns

def feedTimer (c : Client) : Client := { c with posted := c.posted ++ [⟨.conActivity, true⟩] }

def onStreamClose (c : Client) : Client :=
  let c := { c with streams := c.streams - 1 }
  if 0 < c.reqLeft then c.feedTimer else c

def disconnect (c : Client) : Client := { c with connected := false, streams := 0, armed := false }

def runTask (c : Client) (task : Task) (turns : List Turn) : Client :=
  if task.ec then c
  else match task.handler with
    | .timingScript => c.timingScriptTimeoutHandler turns
    | .conActivity => c.disconnect

end Client

/-! ## Runs -/

inductive Event where
  | connected (positive : Bool) (turns : List Turn)
  /-- The timer expires. -/
  | expired (turns : List Turn)
  | closed
  /-- The first posted task runs. -/
  | task (turns : List Turn)
  | disconnected
  | gracefulShutdown

def step (c : Client) : Event → Except Unit Client
  | .connected positive turns => if c.connected then .error () else .ok (c.connectionMade positive turns)
  | .expired turns => if c.armed then .ok (c.stop.timingScriptTimeoutHandler turns) else .error ()
  | .closed => if 0 < c.streams then .ok c.onStreamClose else .error ()
  | .task turns =>
    match c.posted with
    | [] => .error ()
    | task :: posted => .ok ({ c with posted }.runTask task turns)
  | .disconnected => .ok c.disconnect
  | .gracefulShutdown => .ok { c with gracefulShutdown := true }

/-- A request that could be sent will be: the timer is armed, or a task is posted that runs its
handler. -/
def Ready (c : Client) : Prop :=
  c.connected = true → 0 < c.reqLeft → c.streams < c.maxConcurrentStreams →
    c.armed = true ∨ ⟨.timingScript, false⟩ ∈ c.posted

instance : DecidablePred Ready := fun _ => inferInstanceAs (Decidable (_ → _))

def Going (c : Client) : Prop := c.armed = true ∨ c.reqLeft = 0

/-- The turns up to the first duration that is to be waited for. -/
def due (turns : List Turn) : List Turn :=
  turns.take ((turns.takeWhile fun turn => !turn.positive).length + 1)

/-- There is such a duration, the session accepts what is due before it, and has room for it. -/
structure Admits (c : Client) (turns : List Turn) : Prop where
  waits : turns.any Turn.positive = true
  accepts : ∀ turn ∈ due turns, turn.outcome = .accepted
  room : 2 * (c.streams + (due turns).length) ≤ c.sessionMaxConcurrentStreams + 1
  phase : c.gracefulShutdown = false

instance (c : Client) (turns : List Turn) : Decidable (Admits c turns) :=
  decidable_of_iff (_ ∧ _ ∧ _ ∧ _) ⟨fun ⟨a, b, d, e⟩ => ⟨a, b, d, e⟩, fun ⟨a, b, d, e⟩ => ⟨a, b, d, e⟩⟩

/-- An expiry finds a free stream and everything due is accepted; a new connection has to wait for its
first request, or the same holds, before the script is at its end. -/
def Served (c : Client) : Event → Prop
  | .connected positive turns =>
    positive = true ∨ Admits c turns ∧ ∀ turn ∈ due turns, turn.positive = true ∨ turn.wraps = false
  | .expired turns => c.streams < c.maxConcurrentStreams ∧ Admits c turns
  | _ => True

instance (c : Client) : DecidablePred (Served c)
  | .connected _ _ => inferInstanceAs (Decidable (_ ∨ _))
  | .expired _ => inferInstanceAs (Decidable (_ ∧ _))
  | .closed | .task _ | .disconnected | .gracefulShutdown => inferInstanceAs (Decidable True)

/-- What the events keep: only calls with an error code are posted. -/
def Kept (c : Client) : Prop := (c.connected = true → Going c) ∧ ∀ task ∈ c.posted, task.ec = true

theorem due_cons (turn : Turn) (turns : List Turn) :
    due (turn :: turns) = turn :: if turn.positive then [] else due turns := by
  cases positive : turn.positive <;> simp [due, positive]

theorem posted_submitRequest (c : Client) (outcome : Outcome) :
    (c.submitRequest outcome).2.posted = c.posted := by
  unfold Client.submitRequest Client.processRequestFailure
  split_ifs <;> rfl

theorem posted_submitDue (c : Client) (turns : List Turn) : (c.submitDue turns).posted = c.posted := by
  induction turns generalizing c with
  | nil => rfl
  | cons turn turns ih =>
    have kept := posted_submitRequest c turn.outcome
    rw [Client.submitDue]
    split
    · next submitted =>
      rw [submitted] at kept
      exact kept
    · next submitted =>
      rw [submitted] at kept
      split_ifs
      exacts [kept, kept, (ih _).trans kept]

theorem posted_submitFirst (c : Client) (turns : List Turn) : (c.submitFirst turns).posted = c.posted := by
  induction turns generalizing c with
  | nil => rfl
  | cons turn turns ih =>
    have kept := posted_submitRequest c turn.outcome
    rw [Client.submitFirst]
    split
    · next submitted =>
      rw [submitted] at kept
      exact kept
    · next submitted =>
      rw [submitted] at kept
      split_ifs
      exacts [kept, kept, (ih _).trans kept]

/-- What is due first is accepted, and there is room for the rest. -/
theorem Admits.first {c : Client} {turn : Turn} {turns : List Turn} (admits : Admits c (turn :: turns)) :
    ∃ next, c.submitRequest turn.outcome = (true, next) ∧ (turn.positive = false → Admits next turns) := by
  obtain ⟨waits, accepts, room, phase⟩ := admits
  rw [due_cons] at accepts room
  obtain ⟨accepted, later⟩ := List.forall_mem_cons.mp accepts
  have free : ¬ c.sessionMaxConcurrentStreams ≤ c.getTotalPendingStreams := by
    rw [List.length_cons] at room
    rw [Client.getTotalPendingStreams]
    omega
  rw [Client.submitRequest, if_neg (by simp [free, phase]), if_pos accepted]
  refine ⟨_, rfl, fun more => ?_⟩
  rw [more] at room later
  refine ⟨by simpa [more] using waits, later, ?_, phase⟩
  simp only [Bool.false_eq_true, if_false, List.length_cons] at room
  dsimp only
  omega

theorem going_submitDue {c : Client} {turns : List Turn} (admits : Admits c turns) :
    Going (c.submitDue turns) := by
  induction turns generalizing c with
  | nil => cases admits.waits
  | cons turn turns ih =>
    obtain ⟨next, submitted, later⟩ := admits.first
    rw [Client.submitDue, submitted]
    simp only
    split_ifs with none positive
    · exact .inr none
    · exact .inl rfl
    · exact ih (later (by simpa using positive))

theorem armed_submitFirst {c : Client} {turns : List Turn} (admits : Admits c turns)
    (inside : ∀ turn ∈ due turns, turn.positive = true ∨ turn.wraps = false) :
    (c.submitFirst turns).armed = true := by
  induction turns generalizing c with
  | nil => cases admits.waits
  | cons turn turns ih =>
    obtain ⟨next, submitted, later⟩ := admits.first
    rw [due_cons] at inside
    obtain ⟨here, behind⟩ := List.forall_mem_cons.mp inside
    rw [Client.submitFirst, submitted]
    simp only
    split_ifs with positive wraps
    · rfl
    · simp [positive, wraps] at here
    · rw [if_neg positive] at behind
      exact ih (later (by simpa using positive)) behind

/-- Only calls with an error code are posted. -/
theorem errors_step (c : Client) (event : Event) (next : Client) (errors : ∀ task ∈ c.posted, task.ec = true)
    (taken : step c event = .ok next) : ∀ task ∈ next.posted, task.ec = true := by
  cases event with
  | connected positive turns =>
    simp only [step] at taken
    split_ifs at taken
    cases taken
    rw [Client.connectionMade]
    split_ifs
    · exact errors
    · rw [posted_submitFirst]
      exact errors
  | expired turns =>
    simp only [step] at taken
    split_ifs at taken
    cases taken
    rw [Client.timingScriptTimeoutHandler]
    split_ifs
    · exact errors
    · rw [posted_submitDue]
      exact errors
  | closed =>
    simp only [step] at taken
    split_ifs at taken
    cases taken
    rw [Client.onStreamClose]
    split_ifs
    · intro task member
      rcases List.mem_append.mp member with before | fed
      · exact errors task before
      · rw [List.mem_singleton.mp fed]
    · exact errors
  | task turns =>
    simp only [step] at taken
    split at taken
    · cases taken
    · next task posted waiting =>
      rw [waiting] at errors
      obtain ⟨failed, errors⟩ := List.forall_mem_cons.mp errors
      cases taken
      rw [Client.runTask, if_pos failed]
      exact errors
  | disconnected | gracefulShutdown =>
    cases taken
    exact errors

theorem kept_step (c : Client) (event : Event) (next : Client) (served : Served c event)
    (kept : Kept c) (taken : step c event = .ok next) : Kept next := by
  refine ⟨?_, errors_step c event next kept.2 taken⟩
  obtain ⟨going, errors⟩ := kept
  cases event with
  | connected positive turns =>
    simp only [step] at taken
    split_ifs at taken
    cases taken
    refine fun _ => .inl ?_
    rw [Client.connectionMade]
    split_ifs with waits
    · rfl
    · obtain ⟨admits, inside⟩ := served.resolve_left waits
      exact armed_submitFirst ⟨admits.waits, admits.accepts, admits.room, admits.phase⟩ inside
  | expired turns =>
    simp only [step] at taken
    split_ifs at taken
    cases taken
    obtain ⟨free, admits⟩ := served
    have free : ¬ c.stop.maxConcurrentStreams ≤ c.stop.streams := Nat.not_le.mpr free
    rw [Client.timingScriptTimeoutHandler, if_neg free]
    exact fun _ => going_submitDue ⟨admits.waits, admits.accepts, admits.room, admits.phase⟩
  | closed =>
    simp only [step] at taken
    split_ifs at taken
    cases taken
    rw [Client.onStreamClose]
    split_ifs <;> exact going
  | task turns =>
    simp only [step] at taken
    split at taken
    · cases taken
    · next task posted waiting =>
      cases taken
      rw [Client.runTask, if_pos (errors task (waiting ▸ List.mem_cons_self))]
      exact going
  | disconnected =>
    cases taken
    exact nofun
  | gracefulShutdown =>
    cases taken
    exact going

/-- **While every expiry finds a free stream and room for what is due, the client is ready after every
event**: whenever a request is left and a stream is free, the timer is armed.  **In no run does a stream
that closes start it again**: if it is stopped then with requests left, the client is not ready. -/
theorem ready_of_served (c : Client) (fresh : c.connected = false) (idle : c.posted = []) (events : List Event)
    (last : Client) (ends : run step c events = .ok last) : (Along step Served c events → Ready last) ∧
      (last.connected = true → last.armed = false → 0 < last.reqLeft → last.streams ≤ last.maxConcurrentStreams →
        ∀ next, step last .closed = .ok next → ¬ Ready next) := by
  have errors : ∀ task ∈ c.posted, task.ec = true := by simp [idle]
  constructor
  · intro along connected left _
    have kept : Kept last := run_invariant kept_step along ends ⟨by simp [fresh], errors⟩
    rcases kept.1 connected with armed | none
    · exact .inl armed
    · omega
  · intro connected stopped left most next taken ready
    have errors : ∀ task ∈ next.posted, task.ec = true :=
      errors_step last .closed next
        (run_invariant (C := fun _ _ => True) (fun c event next _ => errors_step c event next) (along_true _ _)
          ends errors) taken
    simp only [step] at taken
    split_ifs at taken
    rw [Client.onStreamClose, if_pos left] at taken
    cases taken
    have free : last.streams - 1 < last.maxConcurrentStreams := by omega
    rcases ready connected left free with armed | posted
    · exact absurd (stopped.symm.trans armed) Bool.false_ne_true
    · exact absurd (errors _ posted) Bool.false_ne_true

def threeRequests : Client := { maxConcurrentStreams := 2, sessionMaxConcurrentStreams := 2, reqLeft := 3 }

/-- **Satisfiable pole:** three requests and two streams; a stream closes before the second is due. -/
theorem twoStreams_ready :
    let events : List Event := [.connected true [], .expired [⟨.accepted, true, false⟩], .closed, .task [],
      .expired [⟨.accepted, true, false⟩]]
    ∃ last, run step threeRequests events = .ok last ∧ Ready last := by
  intro events
  exact ⟨_, rfl, (ready_of_served threeRequests rfl rfl events _ rfl).1 (by decide)⟩

/-- **Refuting pole:** one stream at a time.  The timer expires while the stream is open and is stopped;
the stream closes with requests left, and the task that is posted then does nothing. -/
theorem refilled_not_ready :
    let events : List Event :=
      [.connected true [], .expired [⟨.accepted, true, false⟩], .expired [], .closed]
    let oneStream : Client := { maxConcurrentStreams := 1, sessionMaxConcurrentStreams := 1, reqLeft := 3 }
    ∃ closed later, run step oneStream events = .ok closed ∧
      run step closed [.task []] = .ok later ∧ ¬Ready closed ∧ ¬Ready later ∧ later.posted = [] := by
  refine ⟨_, _, rfl, rfl, ?_, ?_, rfl⟩
  · decide
  · decide

end H2LoadRunner.Load.TimingScriptTimer

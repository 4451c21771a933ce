/-
# Lua.Callbacks -- responses on their way to the coroutines that await them

A stream whose response a script may ask for has an entry in
`stream_user_callback_queue`.  The response can come first and wait in the entry, or the
coroutine can come first and leave a callback there; the callback resumes the coroutine
when the response is complete or the connection is lost.

An entry leaves the queue when its response is handed over, when the connection is lost,
and when the queue holds more than 500 entries and a further stream is queued: then the
entry of the smallest stream id is erased, with whatever callback it holds
(`evicted_not_resumed`).  Every registered callback is in the queue or has been invoked
exactly once, throughout a run, exactly if no such entry holds a callback and no coroutine
awaits a stream that another one already awaits (`resumed_once_iff`).
-/
import H2LoadRunner.Library.Custody
import H2LoadRunner.Library.FiniteMap
import H2LoadRunner.Library.Transition

namespace H2LoadRunner.Lua.Callbacks

open Library
open Library.Transition (run Along along_iff_throughout run_append_of_ok)

set_option autoImplicit false

/-! ## Responses -/

/-- A response: one header map per header frame, the payload, and whether the last frame is
a trailer. -/
structure Response where
  respHeaders : List (List (String × String)) := []
  respPayload : String := ""
  respTrailerPresent : Bool := false

/-- What a coroutine gets: the assignments to the header table, the payload, and those to
the trailer table. -/
structure LuaValues where
  headers : List (String × String) := []
  payload : String := ""
  trailer : List (String × String) := []

def pushResponseToLuaStack (response : Response) : LuaValues :=
  if 1 < response.respHeaders.length ∧ response.respTrailerPresent = true then
    { headers := response.respHeaders.dropLast.flatten
      payload := response.respPayload
      trailer := response.respHeaders.getLast?.getD [] }
  else { headers := response.respHeaders.flatten, payload := response.respPayload }

/-! ## The client -/

/-- A callback set by `pass_response_to_lua`: the coroutine it resumes, and a number that
tells the callbacks apart. -/
structure Registration where
  number : Nat
  coroutine : Nat
deriving DecidableEq

structure StreamCallbackData where
  streamId : Int := 0
  responseCallback : Option Registration := none
  response : Response := {}
  responseAvailable : Bool := false

structure Client where
  streamUserCallbackQueue : FiniteMap Int StreamCallbackData
  /-- The requests without a complete response, with what has been received. -/
  requestsAwaitingResponse : FiniteMap Int Response
  /-- Every callback registered, and every one invoked, with what it pushed. -/
  registered : List Registration
  resumed : List (Registration × LuaValues)
  /-- The coroutines that got their values without registering a callback. -/
  returned : List (Nat × LuaValues)

namespace Client

def initial : Client := ⟨∅, ∅, [], [], []⟩

def maxStreamSavedForCallback : Nat := 500

/-- `stream_user_callback_queue.begin()`: the smallest stream id. -/
def first (s : Client) : Option Int := s.streamUserCallbackQueue.keys.min?

/-- The stream whose entry `queue_stream_for_user_callback` erases. -/
def evicted (s : Client) : Option Int :=
  if maxStreamSavedForCallback < FiniteMap.size s.streamUserCallbackQueue then s.first else none

def eraseEntry (s : Client) (id : Int) : Client :=
  { s with streamUserCallbackQueue := s.streamUserCallbackQueue.erase id }

def saveStream (s : Client) (id : Int) : Client :=
  let queue := FiniteMap.emplace id {} s.streamUserCallbackQueue
  { s with streamUserCallbackQueue :=
      FiniteMap.adjust id (fun entry => { entry with streamId := id }) queue }

def queueStreamForUserCallback (s : Client) (id : Int) : Client :=
  match s.evicted with
  | some oldest => (s.eraseEntry oldest).saveStream id
  | none => s.saveStream id

/-- Invoke a callback: the coroutine goes on.  All it can do to a client it does through
posted tasks, so the queue is as it was. -/
def invoke (s : Client) (callback : Registration) (response : Response) : Client :=
  { s with resumed := s.resumed ++ [(callback, pushResponseToLuaStack response)] }

def processStreamUserCallback (s : Client) (id : Int) : Client :=
  match s.requestsAwaitingResponse.lookup id, s.streamUserCallbackQueue.lookup id with
  | some response, some entry =>
    match entry.responseCallback with
    | some callback => (s.invoke callback response).eraseEntry id
    | none =>
      { s with
        streamUserCallbackQueue := FiniteMap.adjust id
          (fun entry => { entry with response := response, responseAvailable := true })
          s.streamUserCallbackQueue }
  | _, _ => s

/-- The part of `on_stream_close` seen here. -/
def onStreamClose (s : Client) (id : Int) : Client :=
  let s := s.processStreamUserCallback id
  { s with requestsAwaitingResponse := s.requestsAwaitingResponse.erase id }

def passResponseToLua (s : Client) (id : Int) (coroutine : Nat) : Client :=
  match s.streamUserCallbackQueue.lookup id with
  | some entry =>
    if entry.responseAvailable then
      { s with returned := s.returned ++ [(coroutine, pushResponseToLuaStack entry.response)] }
        |>.eraseEntry id
    else
      let callback : Registration := ⟨s.registered.length, coroutine⟩
      { s with
        registered := s.registered ++ [callback]
        streamUserCallbackQueue := FiniteMap.adjust id
          (fun entry => { entry with responseCallback := some callback })
          s.streamUserCallbackQueue }
  | none => { s with returned := s.returned ++ [(coroutine, {})] }

def inOrder (s : Client) : List StreamCallbackData :=
  (s.streamUserCallbackQueue.entries.mergeSort fun a b => a.1 ≤ b.1).map fun entry => entry.2

/-- The loop of `cleanup_due_to_disconnect` over the queue.  A callback leaves the size of
the queue as it is, so the loop erases every entry it has passed. -/
def cleanupDueToDisconnect (s : Client) : Client :=
  { s with
    streamUserCallbackQueue := ∅
    resumed := s.resumed ++ s.inOrder.filterMap fun entry =>
      entry.responseCallback.map fun callback =>
        (callback, pushResponseToLuaStack entry.response) }

end Client

/-! ## Events -/

inductive Event
  | queueStream (id : Int)
  | passResponse (id : Int) (coroutine : Nat)
  /-- A request is started, or more of its response arrives. -/
  | received (id : Int) (response : Response)
  | streamClose (id : Int)
  | disconnect

def step (s : Client) : Event → Except Empty Client
  | .queueStream id => .ok (s.queueStreamForUserCallback id)
  | .passResponse id coroutine => .ok (s.passResponseToLua id coroutine)
  | .received id response =>
    .ok { s with requestsAwaitingResponse := s.requestsAwaitingResponse.insert id response }
  | .streamClose id => .ok (s.onStreamClose id)
  | .disconnect => .ok s.cleanupDueToDisconnect

/-! ## What every event keeps -/

def holds (callback : Registration) (_ : Int) (entry : StreamCallbackData) : Nat :=
  if entry.responseCallback = some callback then 1 else 0

def Client.held (s : Client) (callback : Registration) : Nat :=
  FiniteMap.sum (holds callback) s.streamUserCallbackQueue

def Client.callbackOf (s : Client) (id : Int) : Option Registration :=
  (s.streamUserCallbackQueue.lookup id).bind (·.responseCallback)

structure Sound (s : Client) : Prop where
  numbered : ∀ callback ∈ s.registered, callback.number < s.registered.length
  /-- A response that waits for a coroutine has none waiting for it. -/
  delivered : ∀ id, ∀ entry ∈ s.streamUserCallbackQueue.lookup id,
    entry.responseAvailable = true → entry.responseCallback = none

def EachOnce (s : Client) : Prop := Custody s.registered s.held (s.resumed.map Prod.fst)

theorem holds_some {callback : Registration} {entry : StreamCallbackData}
    (waits : entry.responseCallback = some callback) (other : Registration) (id : Int) :
    holds other id entry = [callback].count other := by
  rw [holds, waits, List.count_singleton]
  simp only [Option.some.injEq, beq_iff_eq]

theorem holds_none {entry : StreamCallbackData} (nobody : entry.responseCallback = none)
    (other : Registration) (id : Int) : holds other id entry = 0 := by
  rw [holds, nobody]
  rfl

section

variable {s : Client} {id : Int} {entry : StreamCallbackData} {callback : Registration}

theorem held_eraseEntry_some (found : s.streamUserCallbackQueue.lookup id = some entry)
    (waits : entry.responseCallback = some callback) (other : Registration) :
    (s.eraseEntry id).held other + [callback].count other = s.held other := by
  rw [← holds_some waits other id]
  exact FiniteMap.sum_erase (holds other) found

theorem held_eraseEntry_none (nobody : s.callbackOf id = none) (other : Registration) :
    (s.eraseEntry id).held other = s.held other := by
  cases found : s.streamUserCallbackQueue.lookup id with
  | none => exact FiniteMap.sum_erase_of_none _ found
  | some entry =>
    rw [Client.callbackOf, found, Option.bind_some] at nobody
    have erased := FiniteMap.sum_erase (holds other) found
    rw [holds_none nobody] at erased
    exact erased

theorem held_saveStream (s : Client) (id : Int) (other : Registration) :
    (s.saveStream id).held other = s.held other := by
  have adjusted := FiniteMap.sum_adjust_of_same (holds other) id
    (fun entry => { entry with streamId := id })
    (FiniteMap.emplace id {} s.streamUserCallbackQueue) fun _ => rfl
  exact adjusted.trans (FiniteMap.sum_emplace_of_zero _ _ rfl)

theorem lookup_saveStream (s : Client) (id other : Int) :
    (s.saveStream id).streamUserCallbackQueue.lookup other =
      if other = id then some { (s.streamUserCallbackQueue.lookup id).getD {} with streamId := id }
      else s.streamUserCallbackQueue.lookup other := by
  simp only [Client.saveStream, FiniteMap.lookup_adjust, FiniteMap.lookup_emplace, if_true,
    Option.map_some]
  split <;> rfl

/-! ## Registered and resumed -/

/-- The entry erased, if any, holds no callback; nobody awaits the stream already. -/
def Unharmed (s : Client) : Event → Prop
  | .queueStream _ => s.evicted.bind s.callbackOf = none
  | .passResponse id _ => s.callbackOf id = none
  | _ => True

theorem EachOnce.queueStream_iff (once : EachOnce s) (id : Int) :
    EachOnce (s.queueStreamForUserCallback id) ↔ s.evicted.bind s.callbackOf = none := by
  unfold Client.queueStreamForUserCallback
  cases oldest : s.evicted with
  | none => exact iff_of_true (once.move (held_saveStream s id)) rfl
  | some evicted =>
    rw [Option.bind_some]
    have kept : ∀ other, ((s.eraseEntry evicted).saveStream id).held other =
        (s.eraseEntry evicted).held other := held_saveStream _ id
    cases callback : s.callbackOf evicted with
    | none =>
      refine iff_of_true (once.move fun other => ?_) rfl
      rw [kept, held_eraseEntry_none callback]
    | some lost =>
      refine iff_of_false (fun still => ?_) nofun
      obtain ⟨entry, found, waits⟩ := Option.bind_eq_some_iff.mp callback
      have less := held_eraseEntry_some found waits lost
      rw [List.count_singleton_self] at less
      have fewer : ((s.eraseEntry evicted).saveStream id).held lost < s.held lost := by
        rw [kept]
        omega
      refine once.not_of_lost fewer List.not_mem_nil ?_
      rw [List.append_nil]
      exact still

theorem EachOnce.passResponse_iff (once : EachOnce s) (sound : Sound s) (id : Int) (coroutine : Nat) :
    EachOnce (s.passResponseToLua id coroutine) ↔ s.callbackOf id = none := by
  unfold Client.passResponseToLua Client.callbackOf
  cases found : s.streamUserCallbackQueue.lookup id with
  | none => exact iff_of_true once rfl
  | some entry =>
    simp only [Option.bind_some]
    split
    · rename_i available
      have nobody := sound.delivered id entry found available
      refine iff_of_true (once.move ?_) nobody
      refine held_eraseEntry_none (s := { s with returned := _ }) ?_
      simp only [Client.callbackOf, found, Option.bind_some, nobody]
    · set callback : Registration := ⟨s.registered.length, coroutine⟩
      have fresh : callback ∉ s.registered := fun before =>
        Nat.lt_irrefl _ (sound.numbered callback before)
      have changed : ∀ other, FiniteMap.sum (holds other) (FiniteMap.adjust id
          (fun entry => { entry with responseCallback := some callback })
          s.streamUserCallbackQueue) + holds other id entry =
          s.held other + [callback].count other := by
        intro other
        rw [FiniteMap.sum_adjust (holds other) _ found]
        exact congrArg _ (holds_some rfl other id)
      cases waits : entry.responseCallback with
      | none =>
        refine iff_of_true (once.issue fresh fun other => ?_) rfl
        have now := changed other
        rw [holds_none waits] at now
        exact now
      | some lost =>
        refine iff_of_false (fun still => ?_) nofun
        have now := changed lost
        have present : 0 < s.held lost := by
          have erased := held_eraseEntry_some found waits lost
          rw [List.count_singleton_self] at erased
          omega
        have different : lost ≠ callback := fun same =>
          fresh (same ▸ once.mem_issued_of_held present)
        have elsewhere : lost ∉ [callback] := fun member =>
          different (List.mem_singleton.mp member)
        rw [holds_some waits, List.count_singleton_self,
          List.count_eq_zero_of_not_mem elsewhere] at now
        exact once.not_of_lost (Nat.lt_of_succ_le (Nat.le_of_eq now)) elsewhere still

theorem EachOnce.processStream (once : EachOnce s) (id : Int) : EachOnce (s.processStreamUserCallback id) := by
  unfold Client.processStreamUserCallback
  split
  · rename_i response entry _ found
    cases waits : entry.responseCallback with
    | none =>
      refine once.move fun other => ?_
      exact FiniteMap.sum_adjust_of_same (holds other) id _ _ fun _ => rfl
    | some callback =>
      simp only [Client.invoke, EachOnce, Client.eraseEntry, List.map_append, List.map_singleton]
      exact once.discharge fun other => held_eraseEntry_some found waits other
  · exact once

end

theorem count_filterMap_callback (entries : List (Sigma fun _ : Int => StreamCallbackData))
    (callback : Registration) :
    (entries.filterMap fun entry => entry.2.responseCallback).count callback =
      (entries.map fun entry => holds callback entry.1 entry.2).sum := by
  induction entries with
  | nil => rfl
  | cons entry rest ih =>
    rw [List.map_cons, List.sum_cons, ← ih]
    cases waits : entry.2.responseCallback with
    | none => simp only [List.filterMap_cons, waits, holds_none waits, Nat.zero_add]
    | some held =>
      simp only [List.filterMap_cons, waits, holds_some waits, List.count_cons,
        List.count_nil]
      omega

theorem EachOnce.disconnect {s : Client} (once : EachOnce s) : EachOnce s.cleanupDueToDisconnect := by
  have invoked : s.cleanupDueToDisconnect.resumed.map Prod.fst = s.resumed.map Prod.fst ++
      (s.streamUserCallbackQueue.entries.mergeSort fun a b => a.1 ≤ b.1).filterMap
        fun entry => entry.2.responseCallback := by
    simp only [Client.cleanupDueToDisconnect, Client.inOrder, List.map_append, List.map_filterMap,
      List.filterMap_map, Option.map_map, Function.comp_def, Option.map_id']
  rw [EachOnce, invoked]
  refine once.discharge fun other => ?_
  rw [Client.held, Client.cleanupDueToDisconnect, FiniteMap.sum_empty, Nat.zero_add,
    ((List.mergeSort_perm _ _).filterMap _).count_eq, count_filterMap_callback]
  rfl

/-! ## Runs -/

theorem sound_initial : Sound .initial := ⟨nofun, nofun⟩

theorem Sound.eraseEntry {s : Client} (sound : Sound s) (id : Int) : Sound (s.eraseEntry id) where
  numbered := sound.numbered
  delivered := by
    intro other entry found
    simp only [Client.eraseEntry, FiniteMap.lookup_erase_eq] at found
    split at found
    · cases found
    · exact sound.delivered other entry found

theorem Sound.saveStream {s : Client} (sound : Sound s) (id : Int) : Sound (s.saveStream id) where
  numbered := sound.numbered
  delivered := by
    intro other entry found available
    rw [lookup_saveStream] at found
    split at found
    · cases found
      cases before : s.streamUserCallbackQueue.lookup id with
      | none => rfl
      | some entry =>
        rw [before] at available
        exact sound.delivered id entry before available
    · exact sound.delivered other entry found available

theorem Sound.processStream {s : Client} (sound : Sound s) (id : Int) :
    Sound (s.processStreamUserCallback id) := by
  unfold Client.processStreamUserCallback
  split
  · rename_i response entry _ found
    cases waits : entry.responseCallback with
    | some callback =>
      have erased := sound.eraseEntry id
      exact ⟨erased.numbered, erased.delivered⟩
    | none =>
      refine ⟨sound.numbered, fun other later present available => ?_⟩
      simp only [FiniteMap.lookup_adjust] at present
      split at present
      · rw [found, Option.map_some] at present
        cases present
        exact waits
      · exact sound.delivered other later present available
  · exact sound

theorem Sound.passResponse {s : Client} (sound : Sound s) (id : Int) (coroutine : Nat) :
    Sound (s.passResponseToLua id coroutine) := by
  unfold Client.passResponseToLua
  split
  · rename_i entry found
    split
    · have erased := sound.eraseEntry id
      exact ⟨erased.numbered, erased.delivered⟩
    · rename_i unavailable
      refine ⟨?_, fun other later present available => ?_⟩
      · intro callback member
        simp only [List.length_append, List.length_singleton]
        rcases List.mem_append.mp member with before | now
        · exact Nat.lt_succ_of_lt (sound.numbered callback before)
        · rw [List.mem_singleton.mp now]
          exact Nat.lt_succ_self _
      · simp only [FiniteMap.lookup_adjust] at present
        split at present
        · rw [found, Option.map_some] at present
          cases present
          exact absurd available unavailable
        · exact sound.delivered other later present available
  · exact ⟨sound.numbered, sound.delivered⟩

theorem sound_step (s : Client) (e : Event) (t : Client) (sound : Sound s)
    (taken : step s e = .ok t) : Sound t := by
  cases e with
  | queueStream id =>
    cases taken
    unfold Client.queueStreamForUserCallback
    split
    · exact (sound.eraseEntry _).saveStream id
    · exact sound.saveStream id
  | passResponse id coroutine =>
    cases taken
    exact sound.passResponse id coroutine
  | received id response =>
    cases taken
    exact ⟨sound.numbered, sound.delivered⟩
  | streamClose id =>
    cases taken
    have processed := sound.processStream id
    exact ⟨processed.numbered, processed.delivered⟩
  | disconnect =>
    cases taken
    exact ⟨sound.numbered, nofun⟩

theorem eachOnce_step (s : Client) (e : Event) (t : Client) (sound : Sound s) (once : EachOnce s)
    (taken : step s e = .ok t) : Sound t ∧ (EachOnce t ↔ Unharmed s e) := by
  refine ⟨sound_step s e t sound taken, ?_⟩
  cases e with
  | queueStream id =>
    cases taken
    exact once.queueStream_iff id
  | passResponse id coroutine =>
    cases taken
    exact once.passResponse_iff sound id coroutine
  | received id response =>
    cases taken
    exact iff_of_true once trivial
  | streamClose id =>
    cases taken
    exact iff_of_true (once.processStream id) trivial
  | disconnect =>
    cases taken
    exact iff_of_true once.disconnect trivial

/-- **Every coroutine is resumed once**, in every state of every run, exactly when no event erases an entry
that holds a callback or replaces one that waits. -/
theorem resumed_once_iff (events : List Event) :
    (∀ n s, run step .initial (events.take n) = .ok s → EachOnce s) ↔ Along step Unharmed .initial events := by
  cases ran : run step .initial events with
  | error fault => exact fault.elim
  | ok s => exact (along_iff_throughout eachOnce_step ran sound_initial Custody.none).symm

/-! ## A crowded queue -/

/-- A coroutine awaits stream 1, and `n` further streams are queued. -/
def crowding (n : Nat) : List Event :=
  [.queueStream 1, .passResponse 1 0] ++ (List.range n).map fun k => .queueStream (2 * k + 3)

structure Crowded (n : Nat) (s : Client) : Prop where
  size : FiniteMap.size s.streamUserCallbackQueue = n + 1
  waits : s.callbackOf 1 = some ⟨0, 0⟩
  ids : ∀ id ∈ s.streamUserCallbackQueue.keys, 1 ≤ id ∧ id ≤ 2 * n + 1
  held : s.held ⟨0, 0⟩ = 1
  registered : s.registered = [⟨0, 0⟩]
  resumed : s.resumed = []

theorem size_saveStream {s : Client} {id : Int} (fresh : s.streamUserCallbackQueue.lookup id = none) :
    FiniteMap.size (s.saveStream id).streamUserCallbackQueue =
      FiniteMap.size s.streamUserCallbackQueue + 1 := by
  rw [FiniteMap.size_eq_sum, FiniteMap.size_eq_sum]
  have adjusted := FiniteMap.sum_adjust_of_same (fun _ _ => 1) id
    (fun entry : StreamCallbackData => { entry with streamId := id })
    (FiniteMap.emplace id {} s.streamUserCallbackQueue) fun _ => rfl
  refine adjusted.trans ?_
  rw [FiniteMap.emplace, fresh]
  exact (FiniteMap.sum_insert_of_none _ _ fresh).trans (Nat.add_comm ..)

theorem Crowded.queueStream {n : Nat} {s : Client} (crowded : Crowded n s) (room : n < 500) :
    Crowded (n + 1) (s.queueStreamForUserCallback (2 * n + 3)) := by
  have fresh : s.streamUserCallbackQueue.lookup (2 * n + 3 : Int) = none := by
    refine AList.lookup_eq_none.mpr fun member => ?_
    have bounds := crowded.ids _ member
    omega
  have none_evicted : s.evicted = none := by
    refine if_neg ?_
    rw [crowded.size, Client.maxStreamSavedForCallback]
    omega
  have saved : s.queueStreamForUserCallback (2 * n + 3) = s.saveStream (2 * n + 3) := by
    rw [Client.queueStreamForUserCallback, none_evicted]
  rw [saved]
  refine ⟨?_, ?_, ?_, ?_, crowded.registered, crowded.resumed⟩
  · rw [size_saveStream fresh, crowded.size]
  · have different : (1 : Int) ≠ 2 * n + 3 := by omega
    rw [Client.callbackOf, lookup_saveStream, if_neg different]
    exact crowded.waits
  · intro id member
    have present := AList.lookup_isSome.mpr (AList.mem_keys.mpr member)
    rw [lookup_saveStream] at present
    split at present
    · omega
    · have bounds := crowded.ids id (AList.mem_keys.mp (AList.lookup_isSome.mp present))
      omega
  · rw [held_saveStream]
    exact crowded.held

theorem crowded_of_run (n : Nat) (room : n ≤ 500) :
    ∃ s, run step .initial (crowding n) = .ok s ∧ Crowded n s := by
  induction n with
  | zero =>
    refine ⟨_, rfl, rfl, rfl, ?_, rfl, rfl, rfl⟩
    intro id member
    have only : id = 1 := List.mem_singleton.mp member
    omega
  | succ n ih =>
    obtain ⟨s, ran, crowded⟩ := ih (by omega)
    refine ⟨_, ?_, crowded.queueStream (by omega)⟩
    rw [crowding, List.range_succ, List.map_append, ← List.append_assoc]
    exact run_append_of_ok ran _

/-- **Refuting pole:** 501 streams are queued, one of them awaited; queueing another one erases
the entry that holds the callback, and the coroutine is never resumed. -/
theorem evicted_not_resumed : ∃ s, run step .initial (crowding 501) = .ok s ∧ ⟨0, 0⟩ ∈ s.registered ∧
      s.held ⟨0, 0⟩ = 0 ∧ s.resumed = [] := by
  obtain ⟨s, ran, crowded⟩ := crowded_of_run 500 (Nat.le_refl _)
  have oldest : s.evicted = some 1 := by
    rw [Client.evicted, if_pos (by rw [crowded.size, Client.maxStreamSavedForCallback]; omega)]
    refine List.min?_eq_some_iff.mpr ⟨?_, fun id member => (crowded.ids id member).1⟩
    obtain ⟨entry, found, _⟩ := Option.bind_eq_some_iff.mp crowded.waits
    exact AList.mem_keys.mp (AList.lookup_isSome.mp (by rw [found]; rfl))
  refine ⟨s.queueStreamForUserCallback (2 * 500 + 3), ?_, ?_⟩
  · rw [crowding, List.range_succ, List.map_append, ← List.append_assoc]
    exact run_append_of_ok ran _
  · rw [Client.queueStreamForUserCallback, oldest]
    refine ⟨?_, ?_, crowded.resumed⟩
    · show _ ∈ s.registered
      rw [crowded.registered]
      exact List.mem_singleton_self _
    · obtain ⟨entry, found, waits⟩ := Option.bind_eq_some_iff.mp crowded.waits
      have erased := held_eraseEntry_some found waits ⟨0, 0⟩
      rw [List.count_singleton_self, crowded.held] at erased
      rw [held_saveStream]
      omega

end H2LoadRunner.Lua.Callbacks

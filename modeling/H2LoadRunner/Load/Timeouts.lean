/-
# Load.Timeouts -- which streams are reset and counted as timed out

`on_request_start` files a deadline for each stream under its identifier, and
`reset_timeout_requests` resets whatever stream is open under the identifier of a
deadline that has passed.  Closing a stream or losing the connection leaves the
deadline where it is, so it may meet a stream of a later connection.

* `timesOutOwn_of_timely`: in a run where no stream is started under an identifier that
  still has a deadline filed, and a connection that times out has the deadlines of its
  eligible streams and counts just these as in flight, a deadline only ever meets the stream
  it was made for, that stream is past its own deadline, and no stream is counted twice.
-/
import H2LoadRunner.Load.Frames

namespace H2LoadRunner.Load

open Library Library.EffectLog

set_option autoImplicit false

/-! ## What is stated -/

/-- A deadline that has passed meets its own stream, past its own deadline and not counted
before. -/
def Client.ExpiresOwn (client : Client) (now : Nat) : Prop :=
  ∀ entry ∈ due now client.streamTimestamp, ∀ stream,
    client.streams.lookup entry.2.id = some stream →
      entry.2.serial = stream.serial ∧ stream.deadline ≤ now ∧ stream.timedout = 0

def Client.Uncounted (client : Client) : Prop :=
  ∀ id stream, client.streams.lookup id = some stream → stream.statisticsEligible = true →
    stream.timedout = 0

/-- A connection that times out counts as many as it has eligible streams, none of them counted
before. -/
def TimesOutOwn (w : World) (e : Effect) : Prop :=
  match e with
  | .resetTimeoutRequests c now => (w.clients c).ExpiresOwn now
  | .timeout c => w.currentPhase = .mainDuration → (w.clients c).Uncounted ∧
      (Machine.apply e w).stats.reqTimedout = addWrap w.stats.reqTimedout (w.clients c).eligibleStreams
  | _ => True

def World.CountedOnce (w : World) : Prop :=
  ∀ c id stream, (w.clients c).streams.lookup id = some stream → stream.timedout ≤ 1

/-! ## The condition -/

/-- No deadline is filed under the identifier the session assigns next. -/
def Client.Unfiled (client : Client) : Prop :=
  ∀ entry ∈ client.streamTimestamp, entry.2.id ≠ client.nextStreamId

def Client.AllFiled (client : Client) : Prop :=
  ∀ id stream, client.streams.lookup id = some stream → stream.statisticsEligible = true →
    ∃ entry ∈ client.streamTimestamp, entry.2.id = id

/-- Streams start under identifiers without a deadline, and a connection times out only
while its streams still have theirs and no others are in flight: `on_prefered_host_up` drops
streams and keeps their count. -/
def Timely (w : World) (e : Effect) : Prop :=
  match e with
  | .startRequest d _ _ _ => (w.clients d).Unfiled
  | .timeout c => w.currentPhase = .mainDuration →
      (w.clients c).AllFiled ∧ (w.clients c).reqInflight = (w.clients c).eligibleStreams
  | _ => True

/-! ## The deadlines of one client -/

/-- Deadlines and streams belong together. -/
structure Client.Filed (client : Client) : Prop where
  /-- No identifier has two deadlines. -/
  distinct : (client.streamTimestamp.map fun entry => entry.2.id).Nodup
  /-- A deadline whose identifier is open is that of the open stream. -/
  own : ∀ entry ∈ client.streamTimestamp, ∀ stream,
    client.streams.lookup entry.2.id = some stream →
      entry.2.serial = stream.serial ∧ stream.deadline = entry.1 ∧ stream.timedout = 0
  once : ∀ id stream, client.streams.lookup id = some stream → stream.timedout ≤ 1
  /-- No stored request has a timeout of its own. -/
  configured : ∀ id request, client.requestsAwaitingResponse.lookup id = some request →
    request.streamTimeoutInMs = 0

/-- Streams may start: no deadline is in the way, and what is queued has no timeout of its
own. -/
def Client.Ready (client : Client) : Prop :=
  client.Unfiled ∧ ∀ request ∈ client.queued, request.streamTimeoutInMs = 0

variable {client : Client} {cfg : Config} {phase : Phase}

theorem filed_onRequestStart {serial now stray : Nat} {offset : Int} {id : Nat}
    {submitted : Option RequestData} (filed : client.Filed)
    (unfiled : ∀ entry ∈ client.streamTimestamp, entry.2.id ≠ id) (own : ∀ request, submitted = some request →
      request.streamTimeoutInMs = 0 ∧ (client.requestsAwaitingResponse.lookup id).isSome) :
    (client.onRequestStart cfg phase serial id now stray offset submitted).Filed := by
  have fresh : id ∉ client.streamTimestamp.map fun entry => entry.2.id := by
    intro member
    obtain ⟨entry, inside, same⟩ := List.mem_map.mp member
    exact unfiled entry inside same
  have inserted (time : Nat) := timedInsert_perm time (⟨id, serial⟩ : Expiry) client.streamTimestamp
  refine ⟨((inserted _).map _).nodup_iff.mpr (List.nodup_cons.mpr ⟨fresh, filed.distinct⟩), ?_, ?_,
    filed.configured⟩
  · intro entry member stream opened
    simp only [Client.onRequestStart, FiniteMap.lookup_insert_eq, FiniteMap.lookup_erase_eq] at opened
    rcases List.mem_cons.mp ((inserted _).mem_iff.mp member) with rfl | before
    · simp only [if_true] at opened
      cases opened
      refine ⟨rfl, ?_, rfl⟩
      cases submitted with
      | none => rfl
      | some request =>
        obtain ⟨zero, stored⟩ := own request rfl
        obtain ⟨kept, found⟩ := Option.isSome_iff_exists.mp stored
        simp [found, zero, filed.configured id kept found]
    · simp only [unfiled entry before, if_false] at opened
      exact filed.own entry before stream opened
  · intro other stream opened
    simp only [Client.onRequestStart, FiniteMap.lookup_insert_eq, FiniteMap.lookup_erase_eq] at opened
    split at opened
    · cases opened
      exact Nat.zero_le 1
    · exact filed.once other stream opened

theorem filed_startRequest {serial now stray : Nat} {offset : Int} (filed : client.Filed)
    (ready : client.Ready) : (client.startRequest cfg phase serial now stray offset).Filed := by
  unfold Client.startRequest
  dsimp only
  split
  · exact filed_onRequestStart { filed with } ready.1
      fun request absent => by cases absent
  · split
    · exact filed
    · rename_i front rest queue
      have zero : front.streamTimeoutInMs = 0 := ready.2 front (by simp [Client.queued, queue])
      refine filed_onRequestStart ⟨filed.distinct, filed.own, filed.once, ?_⟩ ready.1 ?_
      · intro id request found
        simp only [FiniteMap.lookup_emplace] at found
        split at found
        · cases kept : client.requestsAwaitingResponse.lookup client.nextStreamId with
          | none =>
            obtain rfl : front = request := by simpa [kept] using found
            exact zero
          | some stored =>
            obtain rfl : stored = request := by simpa [kept] using found
            exact filed.configured _ stored kept
        · exact filed.configured id request found
      · rintro request ⟨⟩
        exact ⟨zero, by simp [FiniteMap.lookup_emplace]⟩

theorem filed_expire (filed : client.Filed) (now : Nat) : (client.expire now).Filed := by
  have kept : (notDue now client.streamTimestamp).Sublist client.streamTimestamp :=
    List.filter_sublist
  refine ⟨filed.distinct.sublist (kept.map _), ?_, ?_, filed.configured⟩
  · intro entry member stream opened
    have before : entry ∈ client.streamTimestamp := kept.subset member
    -- The identifier has one deadline, and that one is not due.
    have none : (due now client.streamTimestamp).countP (fun other => other.2.id = entry.2.id) = 0 := by
      rw [List.countP_eq_zero]
      intro other isDue same
      have twin : other = entry := List.inj_on_of_nodup_map filed.distinct
        (List.mem_of_mem_filter isDue) before (of_decide_eq_true same)
      subst twin
      have early := of_decide_eq_true (List.mem_filter.mp isDue).2
      have late := of_decide_eq_true (List.mem_filter.mp member).2
      omega
    rw [lookup_streams_expire, none, Option.map_eq_some_iff] at opened
    obtain ⟨earlier, opened, rfl⟩ := opened
    simpa using filed.own entry before earlier opened
  · intro id stream opened
    rw [lookup_streams_expire, Option.map_eq_some_iff] at opened
    obtain ⟨earlier, opened, rfl⟩ := opened
    by_cases isDue : ∃ entry ∈ due now client.streamTimestamp, entry.2.id = id
    · obtain ⟨entry, isDue, rfl⟩ := isDue
      have uncounted := (filed.own entry (List.mem_of_mem_filter isDue) earlier opened).2.2
      have single : (due now client.streamTimestamp).countP
          (fun other => other.2.id = entry.2.id) ≤ 1 := by
        have distinct : ((due now client.streamTimestamp).map fun entry => entry.2.id).Nodup :=
          filed.distinct.sublist (List.filter_sublist.map _)
        have count := List.nodup_iff_count_le_one.mp distinct entry.2.id
        rwa [List.count, List.countP_map] at count
      dsimp only
      split <;> omega
    · have none : (due now client.streamTimestamp).countP (fun other => other.2.id = id) = 0 := by
        rw [List.countP_eq_zero]
        intro entry member same
        exact isDue ⟨entry, member, of_decide_eq_true same⟩
      simpa [none] using filed.once id earlier opened

/-- Other changes leave the deadlines, and what matters here of each stream and each stored
request. -/
theorem filed_of_lookup {a b : Client} (filed : a.Filed) (deadlines : b.streamTimestamp = a.streamTimestamp)
    (streams : ∀ id stream, b.streams.lookup id = some stream →
      ∃ before, a.streams.lookup id = some before ∧ stream.serial = before.serial ∧
        stream.deadline = before.deadline ∧ stream.timedout = before.timedout)
    (stored : ∀ id request, b.requestsAwaitingResponse.lookup id = some request →
      ∃ before, a.requestsAwaitingResponse.lookup id = some before ∧
        request.streamTimeoutInMs = before.streamTimeoutInMs) : b.Filed := by
  refine ⟨deadlines ▸ filed.distinct, ?_, ?_, ?_⟩
  · intro entry member stream opened
    obtain ⟨before, found, serial, deadline, timedout⟩ := streams _ stream opened
    rw [serial, deadline, timedout]
    exact filed.own entry (deadlines ▸ member) before found
  · intro id stream opened
    obtain ⟨before, found, -, -, timedout⟩ := streams id stream opened
    rw [timedout]
    exact filed.once id before found
  · intro id request found
    obtain ⟨before, earlier, same⟩ := stored id request found
    rw [same]
    exact filed.configured id before earlier

theorem filed_adjust {a b : Client} {id : Nat} {onStream : Stream → Stream}
    {onRequest : RequestData → RequestData} (filed : a.Filed)
    (deadlines : b.streamTimestamp = a.streamTimestamp)
    (streams : b.streams = FiniteMap.adjust id onStream a.streams)
    (stored : b.requestsAwaitingResponse = a.requestsAwaitingResponse ∨
      b.requestsAwaitingResponse = FiniteMap.adjust id onRequest a.requestsAwaitingResponse)
    (ghosts : ∀ stream, (onStream stream).serial = stream.serial ∧
      (onStream stream).deadline = stream.deadline ∧ (onStream stream).timedout = stream.timedout)
    (timeout : ∀ request, (onRequest request).streamTimeoutInMs = request.streamTimeoutInMs) : b.Filed := by
  refine filed_of_lookup filed deadlines ?_ ?_
  · intro other stream opened
    rw [streams] at opened
    obtain ⟨before, found, rfl | rfl⟩ := FiniteMap.exists_of_lookup_adjust opened
    · exact ⟨stream, found, rfl, rfl, rfl⟩
    · exact ⟨before, found, ghosts before⟩
  · intro other request found
    rcases stored with same | adjusted
    · exact ⟨request, same ▸ found, rfl⟩
    · rw [adjusted] at found
      obtain ⟨before, earlier, rfl | rfl⟩ := FiniteMap.exists_of_lookup_adjust found
      · exact ⟨request, earlier, rfl⟩
      · exact ⟨before, earlier, timeout before⟩

theorem filed_finish (filed : client.Filed) (id : Nat) : (client.finish id).Filed := by
  refine filed_of_lookup filed rfl ?_ ?_
  · intro other stream opened
    simp only [Client.finish, FiniteMap.lookup_erase_eq] at opened
    split at opened
    · cases opened
    · exact ⟨stream, opened, rfl, rfl, rfl⟩
  · intro other request found
    simp only [Client.finish, FiniteMap.lookup_erase_eq] at found
    split at found
    · cases found
    · exact ⟨request, found, rfl⟩

theorem filed_change {source : RequestData → Prop} (a b : Client)
    (change : ClientChange source Client.Ready True cfg phase a b) (filed : a.Filed) : b.Filed := by
  have plain : ∀ stream : Stream, stream.serial = stream.serial ∧
      stream.deadline = stream.deadline ∧ stream.timedout = stream.timedout :=
    fun _ => ⟨rfl, rfl, rfl⟩
  cases change with
  | keep same =>
    refine filed_of_lookup filed same.streamTimestamp ?_ ?_
    · intro id stream opened
      exact ⟨stream, same.streams ▸ opened, plain stream⟩
    · intro id request found
      exact ⟨request, same.requestsAwaitingResponse ▸ found, rfl⟩
  | fresh streams stored deadlines =>
    refine ⟨?_, ?_, ?_, ?_⟩
    · simp [deadlines]
    · simp [deadlines]
    · simp [streams]
    · simp [stored]
  | disconnected streams stored deadlines =>
    refine filed_of_lookup filed deadlines ?_ ?_
    · simp [streams]
    · intro id request found
      exact ⟨request, stored ▸ found, rfl⟩
  | start serial now stray offset ready => exact filed_startRequest filed ready
  | status id status =>
    exact filed_adjust filed rfl rfl (.inr rfl) (fun stream => plain stream) fun _ => rfl
  | read id length =>
    unfold Client.readPayload
    split
    · exact filed
    · exact filed_adjust filed rfl rfl (.inr rfl) (fun stream => plain stream) fun _ => rfl
  | cut id count =>
    exact filed_adjust filed rfl rfl (.inr rfl) (fun stream => plain stream) fun _ => rfl
  | offset id length =>
    exact filed_adjust filed rfl rfl (.inl rfl) (fun stream => plain stream)
      fun request => (rfl : request.streamTimeoutInMs = _)
  | validated id value =>
    exact filed_adjust filed rfl rfl (.inl rfl) (fun stream => plain stream)
      fun request => (rfl : request.streamTimeoutInMs = _)
  | finished id => exact filed_finish filed id
  | expired now => exact filed_expire filed now

/-! ## Runs -/

def World.Filed (w : World) : Prop := w.QueuedBuilt ∧ ∀ c, (w.clients c).Filed

theorem filed_apply (w : World) (e : Effect) (timely : Timely w e) (filed : w.Filed) :
    (Machine.apply e w).Filed := by
  refine ⟨queuedBuilt_apply w e filed.1, ?_⟩
  have changes : Changes w.supply Client.Ready True w.config w.currentPhase w (e.act w) := by
    refine changes_act w e ?_ fun _ _ _ _ => trivial
    rintro d now stray offset rfl
    exact ⟨timely, fun request member => (filed.1 d request member).streamTimeoutInMs⟩
  exact changes.preserves filed_change filed.2

theorem reqTimedout_timeout (w : World) (c : ClientId) (main : w.currentPhase = .mainDuration) :
    (Machine.apply (Effect.timeout c) w).stats.reqTimedout =
      addWrap w.stats.reqTimedout (w.clients c).reqInflight := by
  have abandoned : ∀ v : World, (v.processAbandonedStreams w.config c).stats.reqTimedout = v.stats.reqTimedout := by
    intro v
    rw [World.processAbandonedStreams]
    split_ifs <;> rfl
  refine (abandoned (w.countTimedout c)).trans ?_
  rw [World.countTimedout, if_neg (not_not.mpr main)]
  rfl

/-- With deadlines and streams together, every effect resets and counts properly. -/
theorem timesOutOwn_of_filed (w : World) (e : Effect) (timely : Timely w e) (filed : w.Filed) :
    TimesOutOwn w e := by
  cases e with
  | resetTimeoutRequests c now =>
    intro entry isDue stream opened
    obtain ⟨member, passed⟩ := List.mem_filter.mp isDue
    obtain ⟨serial, deadline, uncounted⟩ := (filed.2 c).own entry member stream opened
    exact ⟨serial, deadline ▸ of_decide_eq_true passed, uncounted⟩
  | timeout c =>
    intro main
    obtain ⟨allFiled, inflight⟩ := timely main
    refine ⟨fun id stream opened eligible => ?_, inflight ▸ reqTimedout_timeout w c main⟩
    obtain ⟨entry, member, rfl⟩ := allFiled id stream opened eligible
    exact ((filed.2 c).own entry member stream opened).2.2
  | _ => trivial

theorem filed_initial (cfg : Config) (reqTodo nclients : Nat) : (World.initial cfg reqTodo nclients).Filed := by
  refine ⟨queuedBuilt_initial cfg reqTodo nclients, fun c => ⟨List.nodup_nil, ?_, ?_, ?_⟩⟩
  · intro entry member
    cases member
  · intro id stream opened
    simp [World.initial] at opened
  · intro id request found
    simp [World.initial] at found

/-- **A stream is reset and counted as timed out past its own deadline only, by the deadline
made for it, and once**, in every log of effects, and so in every run. -/
theorem timesOutOwn_of_timely (cfg : Config) (reqTodo nclients : Nat) (log : List Effect)
    (timely : Along Timely (World.initial cfg reqTodo nclients) log) :
    Along TimesOutOwn (World.initial cfg reqTodo nclients) log ∧
      Throughout World.CountedOnce (World.initial cfg reqTodo nclients) log := by
  have initial := filed_initial cfg reqTodo nclients
  refine ⟨along_of_invariant filed_apply timesOutOwn_of_filed timely initial, ?_⟩
  exact (throughout_of_invariant filed_apply timely initial).mono fun w filed c => (filed.2 c).once

/-! ## A reconnect -/

/-- One stream at a time with a timeout of ten, reconnecting when the connection is lost. -/
def expiringConfig : Config :=
  { scenarios := [oneRequest]
    connectionRetryOnDisconnect := true
    streamTimeoutInMs := 10
    hostAuthority := "host:80" }

/-- The connection breaks with a stream open and comes back; then the timer runs. -/
def expiringEvents : List Event :=
  [.createClient, .connected 0 (some .http2), .connectionError 0, .reconnectTimer 0,
    .connected 0 (some .http2), .streamTimeoutTimer 0]

/-- No stream is reset before its deadline. -/
def NeverEarly (w : World) (e : Effect) : Prop :=
  match e with
  | .resetTimeoutRequests c now =>
    ((due now (w.clients c).streamTimestamp).any fun entry =>
      ((w.clients c).streams.lookup entry.2.id).any fun stream => decide (now < stream.deadline)) =
        false
  | _ => True

instance (w : World) (e : Effect) : Decidable (NeverEarly w e) := by
  induction e using Effect.casesOn <;> dsimp only [NeverEarly] <;> infer_instance

theorem neverEarly_of_timesOutOwn (w : World) (e : Effect) (own : TimesOutOwn w e) : NeverEarly w e := by
  cases e with
  | resetTimeoutRequests c now =>
    simp only [NeverEarly, List.any_eq_false]
    intro entry isDue early
    cases opened : (w.clients c).streams.lookup entry.2.id with
    | none => simp [opened] at early
    | some stream =>
      have passed := (own entry isDue stream opened).2.1
      simp only [opened, Option.any_some, decide_eq_true_eq] at early
      omega
  | _ => trivial

/-- **Refuting pole**: the deadline of the lost connection's first stream resets the first
stream of the new connection before its time. -/
theorem reconnected_not_timesOutOwn :
    ¬ ∀ (env : Env) (cfg : Config) (reqTodo nclients : Nat) (events : List Event) (log : List Effect),
      Run env (World.initial cfg reqTodo nclients) events log →
        Along TimesOutOwn (World.initial cfg reqTodo nclients) log ∧
          Throughout World.CountedOnce (World.initial cfg reqTodo nclients) log := by
  intro always
  obtain ⟨log, run, early⟩ : ∃ log, Run {} (World.initial expiringConfig 4 1) expiringEvents log ∧
      ¬ Along NeverEarly (World.initial expiringConfig 4 1) log :=
    exists_run_of_runLog (by decide +kernel)
  have own := (always {} expiringConfig 4 1 expiringEvents log run).1
  exact early (own.mono neverEarly_of_timesOutOwn)

/-- Streams start under identifiers without a deadline, and no connection times out. -/
def StartsUnfiled (w : World) (e : Effect) : Prop :=
  match e with
  | .startRequest d _ _ _ =>
    ∀ entry ∈ (w.clients d).streamTimestamp, entry.2.id ≠ (w.clients d).nextStreamId
  | .timeout _ => False
  | _ => True

instance (w : World) (e : Effect) : Decidable (StartsUnfiled w e) := by
  induction e using Effect.casesOn <;> dsimp only [StartsUnfiled] <;> infer_instance

theorem timely_of_startsUnfiled (w : World) (e : Effect) (unfiled : StartsUnfiled w e) : Timely w e := by
  cases e with
  | startRequest d now stray offset => exact unfiled
  | timeout c => cases unfiled
  | _ => trivial

/-- **Satisfiable pole**: here the timer drops every deadline before the connection breaks. -/
theorem expired_timesOutOwn : ∃ log, Run { clock := fun tick => 100 * tick } (World.initial expiringConfig 4 1)
        ([.createClient, .connected 0 (some .http2), .streamTimeoutTimer 0] ++
          expiringEvents.drop 2) log ∧
      Along Timely (World.initial expiringConfig 4 1) log ∧
      Along TimesOutOwn (World.initial expiringConfig 4 1) log ∧
      Throughout World.CountedOnce (World.initial expiringConfig 4 1) log := by
  obtain ⟨log, run, unfiled⟩ : ∃ log, Run { clock := fun tick => 100 * tick }
        (World.initial expiringConfig 4 1)
        ([.createClient, .connected 0 (some .http2), .streamTimeoutTimer 0] ++
          expiringEvents.drop 2) log ∧
      Along StartsUnfiled (World.initial expiringConfig 4 1) log :=
    exists_run_of_runLog (by decide +kernel)
  have timely := unfiled.mono timely_of_startsUnfiled
  exact ⟨log, run, timely, timesOutOwn_of_timely expiringConfig 4 1 log timely⟩

end H2LoadRunner.Load

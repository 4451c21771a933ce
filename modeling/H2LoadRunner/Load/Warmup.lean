/-
# Load.Warmup -- nothing of the warm-up is counted

In a timing-based test a worker is idle, warms up and then enters the main duration; `main` sets
`nreqs` to 0.  Requests are submitted in all phases, each counter has a guard of its own, and a
request of the warm-up may still be open when the main duration begins.

* `warmup_uncounted`: as long as the main duration has not begun everything that
  `warmup_timeout_handler` asserts holds, and whatever a step of any run adds to the counters of
  requests is the start of a request in the main duration, the end of one that was submitted no
  earlier, or the loss of requests that are left or that were counted as started.
-/
import H2LoadRunner.Load.Handling
import H2LoadRunner.Load.PendingStreams

namespace H2LoadRunner.Load

open Library Library.EffectLog

set_option autoImplicit false

/-! ## What is stated -/

def Phase.early : Phase → Bool
  | .initialIdle | .warmUp => true
  | _ => false

theorem Phase.early_eq_false {phase : Phase} (counts : phase.statsEligible = true) : phase.early = false := by
  cases phase with
  | mainDuration | mainDurationGracefulShutdown => rfl
  | _ => cases counts

def Tally.counted (tally : Tally) : Tally := { tally with reqTodo := 0 }

def phaseAt (start : World) (log : List Effect) (tick : Nat) : Phase :=
  (replay start (log.take tick)).currentPhase

def starts (c : ClientId) (log : List Effect) : Nat :=
  log.countP fun e => match e with
    | .countStart d _ _ => d == c
    | _ => false

def CountsLate (start : World) (log : List Effect) (w : World) (e : Effect) : Prop :=
  let before := w.stats.tally.counted
  let after := (Machine.apply e w).stats.tally.counted
  match e with
  | .countStart _ _ _ => w.currentPhase = .mainDuration
  | .closeStream c id _ _ _ _ => after = before ∨
      ∃ stream, (w.clients c).streams.lookup id = some stream ∧
        (phaseAt start log stream.serial).early = false
  | .requestFailure c _ | .abandonStreams c | .failInflight c | .timeout c => after = before ∨
      ∃ lost left, after = (w.ledger.addFailed (lost + left)).tally.counted ∧
        lost ≤ starts c (log.take w.ticks) ∧ left ≤ (w.clients c).reqLeft
  | _ => after = before

/-! ## Tests of the phase -/

/-- Starts are counted in the main duration, phases follow each other and clients are listed when
they exist. -/
def Gated (w : World) (e : Effect) : Prop :=
  match e with
  | .countStart _ _ _ => w.currentPhase = .mainDuration
  | .setPhase phase => phase.early = true → w.currentPhase.early = true
  | .listClient c => c < w.clientCount
  | _ => True

variable {w start : World}

theorem gated_of_run {env : Env} {events : List Event} {log : List Effect}
    (run : Run env w events log) : Along Gated w log := by
  refine along_of_run (fun {w e} tested => ?_) (fun {w e} lapses => ?_) (fun _ _ => trivial)
    (fun _ _ => trivial) run
  · cases e with
    | countStart => exact tested
    | setPhase | listClient => exact tested.elim
    | _ => trivial
  · cases e with
    | countStart => exact lapses.elim
    | listClient => exact lapses
    | setPhase phase =>
      intro early
      rcases lapses with ⟨-, idle⟩ | ⟨-, warm⟩ | after
      · rw [idle]
        rfl
      · rw [warm]
        rfl
      · cases phase <;> simp [Phase.early, Phase.afterMain] at early after
    | _ => trivial

/-! ## Accounts before the main duration -/

/-- Nothing was to do, in flight, started or done. -/
structure Account.Blank (account : Account) : Prop where
  reqTodo : account.reqTodo = 0
  reqInflight : account.reqInflight = 0
  reqStarted : account.reqStarted = 0
  reqDone : account.reqDone = 0

structure Ledger.Unmeasured (ledger : Ledger) : Prop where
  perClient : ledger.nreqsPerClient = 0
  remaining : ledger.nreqsRem = 0
  listed : ∀ c ∈ ledger.workerClients, c < ledger.clientCount
  tally : ledger.phase.early = true → ledger.tally.counted = {}
  blank : ledger.phase.early = true → ∀ c, (ledger.accounts c).Blank
  left : ledger.phase.early = true → ∀ c < ledger.clientCount, (ledger.accounts c).reqLeft = 1

namespace Ledger.Unmeasured

variable {ledger : Ledger} {c : ClientId} {account : Account}

theorem write (unmeasured : ledger.Unmeasured) (blank : ledger.phase.early = true → account.Blank)
    (left : ledger.phase.early = true → c < ledger.clientCount → account.reqLeft = 1) :
    (ledger.write c account).Unmeasured where
  __ := unmeasured
  blank early d := by
    rw [accounts_write]
    split
    · exact blank early
    · exact unmeasured.blank early d
  left early d known := by
    rw [accounts_write]
    split
    · rename_i here
      exact left early (here ▸ known)
    · exact unmeasured.left early d known

theorem relabel (unmeasured : ledger.Unmeasured) (c : ClientId) (hasSession : Bool) (eligible : Nat) :
    (ledger.write c { ledger.accounts c with
      hasSession := hasSession, eligible := eligible }).Unmeasured := by
  refine unmeasured.write (fun early => ?_) fun early known => unmeasured.left early c known
  obtain ⟨todo, inflight, started, done⟩ := unmeasured.blank early c
  exact ⟨todo, inflight, started, done⟩

theorem of_late (unmeasured : ledger.Unmeasured) {later : Ledger} (late : later.phase.early = false)
    (perClient : later.nreqsPerClient = ledger.nreqsPerClient)
    (remaining : later.nreqsRem = ledger.nreqsRem) (listed : later.workerClients = ledger.workerClients)
    (count : later.clientCount = ledger.clientCount) : later.Unmeasured where
  perClient := perClient.trans unmeasured.perClient
  remaining := remaining.trans unmeasured.remaining
  listed := by
    rw [listed, count]
    exact unmeasured.listed
  tally early := by simp [late] at early
  blank early := by simp [late] at early
  left early := by simp [late] at early

theorem created (unmeasured : ledger.Unmeasured) {remaining connsMade : Nat} (none : remaining = 0)
    (blank : ledger.phase.early = true → account.Blank ∧ account.reqLeft = 1) :
    Unmeasured { ledger.write ledger.clientCount account with
      clientCount := ledger.clientCount + 1
      nreqsRem := remaining
      nconnsMade := connsMade } where
  __ := unmeasured
  remaining := none
  listed c member := Nat.lt_succ_of_lt (unmeasured.listed c member)
  blank early d := by
    show ((ledger.write ledger.clientCount account).accounts d).Blank
    rw [accounts_write]
    split
    · exact (blank early).1
    · exact unmeasured.blank early d
  left early d known := by
    show ((ledger.write ledger.clientCount account).accounts d).reqLeft = 1
    rw [accounts_write]
    split
    · exact (blank early).2
    · rename_i older
      exact unmeasured.left early d (Nat.lt_of_le_of_ne (Nat.le_of_lt_succ known) older)

theorem late_of_main {phase : Phase} (main : ¬ phase ≠ .mainDuration) : phase.early = false := by
  rw [not_not.mp main]
  rfl

theorem abandoned (unmeasured : ledger.Unmeasured) (c : ClientId) (reconnects : Bool) :
    (ledger.abandon c reconnects).Unmeasured := by
  unfold Ledger.abandon
  dsimp only
  split
  · exact unmeasured
  · rename_i main
    split <;> exact unmeasured.of_late (late_of_main main) rfl rfl rfl rfl

theorem failed (unmeasured : ledger.Unmeasured) (c : ClientId) (keeps : Bool) :
    (ledger.requestFailure c keeps).Unmeasured := by
  unfold Ledger.requestFailure
  dsimp only
  split
  · exact unmeasured
  · rename_i main
    split <;> exact unmeasured.of_late (late_of_main main) rfl rfl rfl rfl

theorem reported (unmeasured : ledger.Unmeasured) (c : ClientId) : (ledger.reportDone c).Unmeasured := by
  unfold Ledger.reportDone
  split
  · exact
      { unmeasured with
        listed := fun d member => unmeasured.listed d (List.mem_of_mem_erase member)
        blank := fun early d => by
          rw [accounts_write]
          split
          · obtain ⟨-, inflight, started, done⟩ := unmeasured.blank early c
            exact ⟨done, inflight, started, done⟩
          · exact unmeasured.blank early d
        left := fun early d known => by
          rw [accounts_write]
          split
          · rename_i here
            exact unmeasured.left early c (here ▸ known)
          · exact unmeasured.left early d known }
  · exact unmeasured

end Ledger.Unmeasured

theorem unmeasured_apply (w : World) (e : Effect) (gated : Gated w e) (unmeasured : w.ledger.Unmeasured) :
    (Machine.apply e w).ledger.Unmeasured := by
  show (e.act w).ledger.Unmeasured
  have booked := booked_act w e
  generalize (e.act w).ledger = after at booked ⊢
  cases booked with
  | silent => exact unmeasured
  | createClient candidates =>
    have share : w.ledger.share = 0 := by
      simp [Ledger.share, unmeasured.perClient, unmeasured.remaining]
    refine unmeasured.created ?_ fun _ => ?_
    · rw [show w.nreqsRem = 0 from unmeasured.remaining]
    · rw [share]
      exact ⟨⟨rfl, rfl, rfl, rfl⟩, rfl⟩
  | createDestClient p schema authority =>
    refine unmeasured.created unmeasured.remaining fun early => ?_
    rw [(unmeasured.blank early p).reqTodo]
    exact ⟨⟨rfl, rfl, rfl, rfl⟩, rfl⟩
  | listClient c =>
    refine { unmeasured with listed := fun d member => ?_ }
    rcases List.mem_append.mp member with old | new
    · exact unmeasured.listed d old
    · rw [List.mem_singleton.mp new]
      exact gated
  | setPhase phase =>
    exact { unmeasured with
      tally := fun early => unmeasured.tally (gated early)
      blank := fun early => unmeasured.blank (gated early)
      left := fun early => unmeasured.left (gated early) }
  | allocateSession c | disconnect c | startRequest c => exact unmeasured.relabel c _ _
  | freeClient c => exact unmeasured.reported c
  | countStart c scenario request =>
    refine unmeasured.of_late ?_ rfl rfl rfl rfl
    show w.currentPhase.early = false
    rw [show w.currentPhase = .mainDuration from gated]
    rfl
  | requestFailure c => exact unmeasured.failed c _
  | abandonStreams c | failInflight c => exact unmeasured.abandoned c _
  | timeout c before =>
    subst before
    exact (unmeasured.abandoned c _).relabel c _ _
  | closeStream c id success verdict now assembly closing =>
    cases closing with
    | absent phase _ ledger | ineligible _ phase _ _ ledger | counted _ _ phase _ _ ledger =>
      subst ledger
      exact unmeasured.of_late (Phase.early_eq_false phase) rfl rfl rfl rfl
    | outside _ ledger =>
      subst ledger
      exact unmeasured.relabel c _ _

theorem unmeasured_initial (cfg : Config) (nclients : Nat) :
    (World.initial cfg 0 nclients).ledger.Unmeasured where
  perClient := Nat.zero_div nclients
  remaining := Nat.zero_mod nclients
  listed := nofun
  tally _ := rfl
  blank _ _ := ⟨rfl, rfl, rfl, rfl⟩
  left _ _ known := absurd known (Nat.not_lt_zero _)

theorem warmupClean_of_unmeasured (unmeasured : w.ledger.Unmeasured)
    (early : w.currentPhase.early = true) : warmupClean w = true := by
  have tally := unmeasured.tally early
  have started : w.stats.reqStarted = 0 := congrArg Tally.reqStarted tally
  have done : w.stats.reqDone = 0 := congrArg Tally.reqDone tally
  simp only [warmupClean, started, done, beq_self_eq_true, Bool.true_and, List.all_eq_true]
  intro c member
  obtain ⟨reqTodo, reqInflight, reqStarted, reqDone⟩ := unmeasured.blank early c
  have left := unmeasured.left early c (unmeasured.listed c member)
  simp only [World.ledger, Client.account] at reqTodo reqInflight reqStarted reqDone left
  simp [reqTodo, reqInflight, reqStarted, reqDone, left]

/-! ## When open streams were started -/

/-- Every open stream is eligible for the statistics if the phase it was started in counts. -/
def Dated (phases : Nat → Phase) (client : Client) : Prop :=
  ∀ id stream, client.streams.lookup id = some stream →
    stream.statisticsEligible = (phases stream.serial).statsEligible

section Dates

variable {phases : Nat → Phase}

theorem dated_of_lookup {a b : Client} (streams : ∀ id stream, b.streams.lookup id = some stream →
      ∃ before, a.streams.lookup id = some before ∧ stream.serial = before.serial ∧
        stream.statisticsEligible = before.statisticsEligible) (dated : Dated phases a) : Dated phases b := by
  intro id stream opened
  obtain ⟨before, found, serial, eligible⟩ := streams id stream opened
  rw [serial, eligible]
  exact dated id before found

theorem dated_adjust {a b : Client} {id : Nat} {change : Stream → Stream}
    (streams : b.streams = FiniteMap.adjust id change a.streams)
    (same : ∀ stream, (change stream).serial = stream.serial ∧
      (change stream).statisticsEligible = stream.statisticsEligible)
    (dated : Dated phases a) : Dated phases b := by
  refine dated_of_lookup (fun other stream opened => ?_) dated
  rw [streams] at opened
  obtain ⟨before, found, rfl | rfl⟩ := FiniteMap.exists_of_lookup_adjust opened
  · exact ⟨stream, found, rfl, rfl⟩
  · exact ⟨before, found, same before⟩

variable {cfg : Config} {phase : Phase}

theorem dated_onRequestStart {client : Client} {serial id now stray : Nat} {offset : Int}
    {submitted : Option RequestData} (current : phases serial = phase) (dated : Dated phases client) :
    Dated phases (client.onRequestStart cfg phase serial id now stray offset submitted) := by
  intro other stream opened
  simp only [Client.onRequestStart, FiniteMap.lookup_insert_eq, FiniteMap.lookup_erase_eq] at opened
  split at opened
  · cases opened
    exact congrArg Phase.statsEligible current.symm
  · exact dated other stream opened

theorem dated_startRequest {client : Client} {serial now stray : Nat} {offset : Int}
    (current : phases serial = phase) (dated : Dated phases client) :
    Dated phases (client.startRequest cfg phase serial now stray offset) := by
  unfold Client.startRequest
  dsimp only
  split
  · exact dated_onRequestStart current dated
  · split
    · exact dated
    · exact dated_onRequestStart current dated

theorem dated_change {source : RequestData → Prop} (a b : Client)
    (change : ClientChange source (fun _ => False) True cfg phase a b) (dated : Dated phases a) :
    Dated phases b := by
  cases change with
  | keep same => exact fun id stream opened => dated id stream (same.streams ▸ opened)
  | fresh streams | disconnected streams =>
    intro id stream opened
    simp [streams] at opened
  | start serial now stray offset impossible => exact impossible.elim
  | status | cut | offset | validated => exact dated_adjust rfl (fun _ => ⟨rfl, rfl⟩) dated
  | read id length =>
    unfold Client.readPayload
    split
    · exact dated
    · exact dated_adjust rfl (fun _ => ⟨rfl, rfl⟩) dated
  | finished id =>
    refine dated_of_lookup (fun other stream opened => ?_) dated
    simp only [Client.finish, FiniteMap.lookup_erase_eq] at opened
    split at opened
    · cases opened
    · exact ⟨stream, opened, rfl, rfl⟩
  | expired now =>
    refine dated_of_lookup (fun other stream opened => ?_) dated
    rw [lookup_streams_expire, Option.map_eq_some_iff] at opened
    obtain ⟨before, found, rfl⟩ := opened
    exact ⟨before, found, rfl, rfl⟩

theorem dated_apply (w : World) (e : Effect) (current : phases w.ticks = w.currentPhase)
    (dated : ∀ c, Dated phases (w.clients c)) (c : ClientId) :
    Dated phases ((Machine.apply e w).clients c) := by
  rw [clients_apply]
  by_cases starts : ∃ d now stray offset, e = .startRequest d now stray offset
  · obtain ⟨d, now, stray, offset, rfl⟩ := starts
    simp only [Effect.act, World.clients_modifyClient]
    split
    · exact dated_startRequest current (dated d)
    · exact dated c
  · have changes : Changes w.supply (fun _ => False) True w.config w.currentPhase w (e.act w) :=
      changes_act w e (fun d now stray offset same => starts ⟨d, now, stray, offset, same⟩)
        fun _ _ _ _ => trivial
    exact changes.preserves dated_change dated c

end Dates

theorem ticks_replay (w : World) (es : List Effect) : (replay w es).ticks = w.ticks + es.length := by
  induction es generalizing w with
  | nil => rfl
  | cons e es ih =>
    rw [replay_cons, ih]
    show w.ticks + 1 + es.length = w.ticks + (es.length + 1)
    omega

theorem along_take (zero : start.ticks = 0) (log : List Effect) :
    Along (fun w _ => replay start (log.take w.ticks) = w) start log := by
  -- By induction on what is still to come of the log.
  have from_here (early late : List Effect) :
      Along (fun w _ => replay start ((early ++ late).take w.ticks) = w) (replay start early) late := by
    induction late generalizing early with
    | nil => trivial
    | cons e late ih =>
      refine ⟨?_, ?_⟩
      · show replay start (List.take (replay start early).ticks (early ++ e :: late)) = replay start early
        rw [ticks_replay, zero, Nat.zero_add, List.take_left]
      · have rest := ih (early ++ [e])
        rw [replay_append, List.append_assoc] at rest
        exact rest
  exact from_here [] log

/-! ## Requests in flight -/

theorem Ledger.reqInflight_write_le {ledger : Ledger} {c : ClientId} {account : Account}
    (fewer : account.reqInflight ≤ (ledger.accounts c).reqInflight) (d : ClientId) :
    ((ledger.write c account).accounts d).reqInflight ≤ (ledger.accounts d).reqInflight := by
  rw [accounts_write]
  split
  · rename_i here
    rw [here]
    exact fewer
  · exact Nat.le_refl _

theorem Ledger.reqInflight_abandon_le (ledger : Ledger) (c : ClientId) (reconnects : Bool) (d : ClientId) :
    ((ledger.abandon c reconnects).accounts d).reqInflight ≤ (ledger.accounts d).reqInflight := by
  rw [accounts_abandon]
  refine reqInflight_write_le ?_ d
  rw [Account.reqInflight_abandoned]
  split
  · exact Nat.zero_le _
  · exact Nat.le_refl _

theorem reqInflight_apply (w : World) (e : Effect) (d : ClientId) :
    ((Machine.apply e w).clients d).reqInflight ≤ (w.clients d).reqInflight + starts d [e] := by
  show ((e.act w).ledger.accounts d).reqInflight ≤ (w.ledger.accounts d).reqInflight + starts d [e]
  have booked := booked_act w e
  generalize (e.act w).ledger = after at booked ⊢
  by_cases counts : ∃ c scenario request, e = .countStart c scenario request
  · obtain ⟨c, scenario, request, rfl⟩ := counts
    cases booked with
    | silent silent => cases silent
    | countStart =>
      rw [Ledger.accounts_countStart]
      split
      · rename_i here
        simp [Account.started, starts, here]
      · exact Nat.le_add_right _ _
  · refine Nat.le_trans ?_ (Nat.le_add_right _ _)
    cases booked with
    | silent | listClient | setPhase => exact Nat.le_refl _
    | createClient | createDestClient => exact Ledger.reqInflight_write_le (Nat.zero_le _) d
    | allocateSession | disconnect | startRequest => exact Ledger.reqInflight_write_le (by exact le_rfl) d
    | freeClient c =>
      unfold Ledger.reportDone
      split
      · exact Ledger.reqInflight_write_le (by exact le_rfl) d
      · exact Nat.le_refl _
    | countStart c scenario request => exact absurd ⟨c, scenario, request, rfl⟩ counts
    | requestFailure c exhausted =>
      unfold Ledger.requestFailure
      dsimp only
      split
      · exact Nat.le_refl _
      · split
        · exact Nat.le_refl _
        · exact Ledger.reqInflight_write_le (by exact le_rfl) d
    | abandonStreams c | failInflight c => exact w.ledger.reqInflight_abandon_le c _ d
    | timeout c before =>
      subst before
      refine Nat.le_trans ?_
        (w.ledger.reqInflight_abandon_le c (w.shouldReconnectOnDisconnect w.config c) d)
      exact Ledger.reqInflight_write_le (by exact le_rfl) d
    | closeStream c id success verdict now assembly closing =>
      cases closing with
      | absent _ _ ledger | ineligible _ _ _ _ ledger | counted _ _ _ _ _ ledger =>
        subst ledger
        exact Ledger.reqInflight_write_le (Nat.sub_le _ _) d
      | outside _ ledger =>
        subst ledger
        exact Ledger.reqInflight_write_le (by exact le_rfl) d

theorem reqInflight_replay (idle : ∀ c, (start.clients c).reqInflight = 0) (log : List Effect)
    (c : ClientId) : ((replay start log).clients c).reqInflight ≤ starts c log := by
  induction log using List.reverseRecOn with
  | nil => exact (idle c).le
  | append_singleton log e ih =>
    have step := reqInflight_apply (replay start log) e c
    rw [replay_append]
    have split : starts c (log ++ [e]) = starts c log + starts c [e] := List.countP_append
    rw [split]
    exact step.trans (Nat.add_le_add_right ih _)

/-! ## Steps -/

theorem addWrap_addWrap (a b c : Nat) : addWrap a (addWrap b c) = addWrap a (b + c) := by
  simp only [addWrap, Nat.add_mod_mod]

theorem counted_abandon (ledger : Ledger) (c : ClientId) (reconnects : Bool) :
    (ledger.abandon c reconnects).tally = ledger.tally ∨
      ∃ left, (ledger.abandon c reconnects).tally =
        (ledger.addFailed ((ledger.accounts c).reqInflight + left)).tally ∧
          left ≤ (ledger.accounts c).reqLeft := by
  unfold Ledger.abandon
  dsimp only
  split
  · exact .inl rfl
  · right
    split
    · exact ⟨0, rfl, Nat.zero_le _⟩
    · refine ⟨(ledger.accounts c).reqLeft, ?_, Nat.le_refl _⟩
      simp only [Ledger.write, Ledger.addFailed, addWrap_addWrap]

theorem countsLate_step {log : List Effect} {e : Effect} (gated : Gated w e)
    (dated : ∀ c, Dated (phaseAt start log) (w.clients c))
    (inflight : ∀ c, (w.clients c).reqInflight ≤ starts c (log.take w.ticks)) : CountsLate start log w e := by
  have loses {after : World} {c : ClientId} {reconnects : Bool}
      (abandoned : after.ledger.tally = (w.ledger.abandon c reconnects).tally) :
      after.stats.tally.counted = w.stats.tally.counted ∨
        ∃ lost left, after.stats.tally.counted = (w.ledger.addFailed (lost + left)).tally.counted ∧
          lost ≤ starts c (log.take w.ticks) ∧ left ≤ (w.clients c).reqLeft := by
    rw [show after.stats.tally = _ from abandoned]
    rcases counted_abandon w.ledger c reconnects with same | ⟨left, added, most⟩
    · left
      rw [same]
      rfl
    · right
      exact ⟨_, left, congrArg Tally.counted added, inflight c, most⟩
  unfold CountsLate
  have booked := booked_act w e
  generalize read : (e.act w).ledger = after at booked
  have tally : (Machine.apply e w).stats.tally = after.tally := congrArg Ledger.tally read
  cases booked with
  | silent silent =>
    cases e with
    | countStart | closeStream | requestFailure | abandonStreams | failInflight | timeout => cases silent
    | _ => exact congrArg Tally.counted tally
  | createClient | createDestClient | listClient | setPhase | allocateSession | disconnect => rfl
  | startRequest => rfl
  | freeClient c =>
    refine (congrArg Tally.counted tally).trans ?_
    unfold Ledger.reportDone
    split <;> rfl
  | countStart => exact gated
  | requestFailure c exhausted =>
    unfold Ledger.requestFailure at tally
    dsimp only at tally
    split at tally
    · exact .inl (congrArg Tally.counted tally)
    · have added : (Machine.apply (.requestFailure c exhausted) w).stats.tally =
          (w.ledger.addFailed (0 + (w.clients c).reqLeft)).tally := by
        rw [Nat.zero_add]
        split at tally <;> exact tally
      exact .inr ⟨0, _, congrArg Tally.counted added, Nat.zero_le _, Nat.le_refl _⟩
  | abandonStreams c | failInflight c => exact loses tally
  | timeout c before =>
    subst before
    exact loses tally
  | closeStream c id success verdict now assembly closing =>
    cases closing with
    | absent _ _ ledger | ineligible _ _ _ _ ledger | outside _ ledger =>
      subst ledger
      exact .inl (congrArg Tally.counted tally)
    | counted stream _ _ opened included _ =>
      refine .inr ⟨stream, opened, Phase.early_eq_false ?_⟩
      rw [← dated c id stream opened]
      exact included

/-- **Nothing of the warm-up is counted.** -/
theorem warmup_uncounted (env : Env) (cfg : Config) (nclients : Nat) (events : List Event)
    (log : List Effect) (run : Run env (World.initial cfg 0 nclients) events log) :
    Throughout (fun w => w.currentPhase.early = true → warmupClean w = true)
        (World.initial cfg 0 nclients) log ∧
      Along (CountsLate (World.initial cfg 0 nclients) log) (World.initial cfg 0 nclients) log := by
  have gated := gated_of_run run
  have zero : (World.initial cfg 0 nclients).ticks = 0 := rfl
  have idle : ∀ c, ((World.initial cfg 0 nclients).clients c).reqInflight = 0 := fun _ => rfl
  have reached := along_take zero log
  constructor
  · exact (throughout_of_invariant unmeasured_apply gated (unmeasured_initial cfg nclients)).mono
      fun w unmeasured => warmupClean_of_unmeasured unmeasured
  · refine along_of_invariant (I := fun w => ∀ c, Dated (phaseAt (World.initial cfg 0 nclients) log) (w.clients c))
      (fun w e fits dated => ?_) (fun w e fits dated => ?_) (gated.and reached) ?_
    · exact dated_apply w e (congrArg World.currentPhase fits.2) dated
    · refine countsLate_step fits.1 dated fun c => ?_
      have bound := reqInflight_replay idle (log.take w.ticks) c
      rw [fits.2] at bound
      exact bound
    · exact fun _ _ _ opened => nomatch opened

def durationConfig : Config := { pairConfig with timingBasedMode := true }

/-- **Satisfiable pole:** a request of the warm-up is answered in the main duration.  The one that
follows it is counted. -/
theorem answeredLate_uncounted : ∃ log, Run {} (World.initial durationConfig 0 1)
        [.createClient, .connected 0 (some .http2), .warmupTimer, .streamClose 0 1 true] log ∧
      (replay (World.initial durationConfig 0 1) log).stats.tally = { reqStarted := 1 } ∧
      Throughout (fun w => w.currentPhase.early = true → warmupClean w = true)
        (World.initial durationConfig 0 1) log ∧
      Along (CountsLate (World.initial durationConfig 0 1) log) (World.initial durationConfig 0 1) log := by
  exact ⟨_, run_of_isSome (by decide +kernel), by decide +kernel,
    warmup_uncounted {} durationConfig 1 _ _ (run_of_isSome (by decide +kernel))⟩

end H2LoadRunner.Load

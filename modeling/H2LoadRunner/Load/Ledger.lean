/-
# Load.Ledger -- the counters of a worker and of its clients

The counters that end up in the report, and what they count, seen apart from everything
else a worker holds: for each client its budget, what it has left, in flight, started and
done, and how many statistics-eligible streams are open on it; for the worker the phase,
the listed clients and the statistics.  `World.ledger` reads them off a world.

Most effects leave the ledger as it is (`ledger_of_silent`).  For each of the others there is one
equation or one list of cases, and `booked_act` puts them together.
-/
import H2LoadRunner.Library.Table
import H2LoadRunner.Load.Family

namespace H2LoadRunner.Load

open Library Library.EffectLog

set_option autoImplicit false

/-! ## Accounts -/

/-- What a client counts. -/
structure Account where
  parent : Option ClientId := none
  hasSession : Bool := false
  /-- Statistics-eligible open streams. -/
  eligible : Nat := 0
  reqTodo : Nat := 0
  reqLeft : Nat := 0
  reqInflight : Nat := 0
  reqStarted : Nat := 0
  reqDone : Nat := 0

def Client.account (client : Client) : Account where
  parent := client.parentClient
  hasSession := client.session.isSome
  eligible := client.eligibleStreams
  reqTodo := client.reqTodo
  reqLeft := client.reqLeft
  reqInflight := client.reqInflight
  reqStarted := client.reqStarted
  reqDone := client.reqDone

/-- The statistics that are compared with each other. -/
structure Tally where
  reqTodo : Nat := 0
  reqStarted : Nat := 0
  reqDone : Nat := 0
  reqSuccess : Nat := 0
  reqStatusSuccess : Nat := 0
  reqFailed : Nat := 0
  reqError : Nat := 0
  deriving DecidableEq

def Stats.tally (stats : Stats) : Tally where
  reqTodo := stats.reqTodo
  reqStarted := stats.reqStarted
  reqDone := stats.reqDone
  reqSuccess := stats.reqSuccess
  reqStatusSuccess := stats.reqStatusSuccess
  reqFailed := stats.reqFailed
  reqError := stats.reqError

structure Ledger where
  timingBasedMode : Bool
  phase : Phase
  clientCount : Nat
  accounts : ClientId → Account
  workerClients : List ClientId
  nreqsPerClient : Nat
  nreqsRem : Nat
  nclients : Nat
  nconnsMade : Nat
  tally : Tally
  /-- The statistics of each request of each scenario. -/
  scenarios : List (List Tally)

def World.ledger (w : World) : Ledger where
  timingBasedMode := w.config.timingBasedMode
  phase := w.currentPhase
  clientCount := w.clientCount
  accounts d := (w.clients d).account
  workerClients := w.workerClients
  nreqsPerClient := w.nreqsPerClient
  nreqsRem := w.nreqsRem
  nclients := w.nclients
  nconnsMade := w.nconnsMade
  tally := w.stats.tally
  scenarios := w.scenarioStats.map (List.map Stats.tally)

theorem isController_iff {w : World} {c : ClientId} :
    (w.clients c).isController = true ↔ (w.ledger.accounts c).parent = none := by
  simp [Client.isController, World.ledger, Client.account]

namespace Ledger

variable (ledger : Ledger) (c : ClientId)

def write (account : Account) : Ledger :=
  { ledger with accounts := Function.update ledger.accounts c account }

theorem write_self (ledger : Ledger) (c : ClientId) : ledger.write c (ledger.accounts c) = ledger := by
  unfold write
  rw [Function.update_eq_self]

@[simp] theorem accounts_write (ledger : Ledger) (c d : ClientId) (account : Account) :
    (ledger.write c account).accounts d = if d = c then account else ledger.accounts d :=
  Function.update_apply _ _ _ _

theorem forall_write {ledger : Ledger} {c : ClientId} {account : Account} {P : ClientId → Account → Prop}
    (here : P c account) (others : ∀ d, P d (ledger.accounts d)) (d : ClientId) :
    P d ((ledger.write c account).accounts d) :=
  (Function.forall_update_iff ledger.accounts P).mpr ⟨here, fun d _ => others d⟩ d

theorem read_write {ledger : Ledger} {c : ClientId} {account : Account} {β : Type} (read : Account → β)
    (same : read account = read (ledger.accounts c)) (d : ClientId) :
    read ((ledger.write c account).accounts d) = read (ledger.accounts d) :=
  forall_write (P := fun d after => read after = read (ledger.accounts d)) same (fun _ => rfl) d

@[simp] theorem write_write (ledger : Ledger) (c : ClientId) (a b : Account) :
    (ledger.write c a).write c b = ledger.write c b := by
  unfold write
  rw [Function.update_idem]

def modifyScenario (ledger : Ledger) (scenario request : Nat) (change : Tally → Tally) : Ledger :=
  { ledger with scenarios := Table.modify scenario request change ledger.scenarios }

theorem modifyScenario_same (ledger : Ledger) (scenario request : Nat) :
    ledger.modifyScenario scenario request (fun tally => tally) = ledger := by
  unfold modifyScenario
  rw [Table.modify_same]

end Ledger

@[simp] theorem ledger_modifyClient (w : World) (c : ClientId) (change : Client → Client) :
    (w.modifyClient c change).ledger = w.ledger.write c (change (w.clients c)).account := by
  have accounts : (fun d => ((w.modifyClient c change).clients d).account) =
      Function.update w.ledger.accounts c (change (w.clients c)).account := by
    funext d
    by_cases here : d = c
    · subst here
      simp [World.modifyClient]
    · simp [World.modifyClient, World.ledger, here]
  unfold Ledger.write
  rw [← accounts]
  rfl

@[simp] theorem ledger_modifyStats (w : World) (change : Stats → Stats) :
    (w.modifyStats change).ledger = { w.ledger with tally := (change w.stats).tally } := rfl

theorem ledger_modifyScenarioStats (w : World) (scenario request : Nat) (change : Stats → Stats)
    (onTally : Tally → Tally) (commutes : ∀ stats, (change stats).tally = onTally stats.tally) :
    (w.modifyScenarioStats scenario request change).ledger =
      w.ledger.modifyScenario scenario request onTally := by
  have scenarios : (w.modifyScenarioStats scenario request change).scenarioStats.map
      (List.map Stats.tally) = Table.modify scenario request onTally w.ledger.scenarios :=
    Table.map_modify Stats.tally change onTally commutes scenario request w.scenarioStats
  unfold Ledger.modifyScenario
  rw [← scenarios]
  rfl

/-! ## Effects that leave the ledger as it is -/

variable (w : World) (cfg : Config) (c : ClientId) (id : Nat)

theorem eligible_adjust (change : Stream → Stream) (streams : FiniteMap Nat Stream)
    (same : ∀ stream, (change stream).statisticsEligible = stream.statisticsEligible) :
    FiniteMap.sum (fun _ stream => if stream.statisticsEligible then 1 else 0)
        (FiniteMap.adjust id change streams) =
      FiniteMap.sum (fun _ (stream : Stream) => if stream.statisticsEligible then 1 else 0) streams :=
  FiniteMap.sum_adjust_of_same _ _ _ _ fun stream => by simp only [same]

theorem statisticsEligible_countedAgain (stream : Stream) :
    stream.countedAgain.statisticsEligible = stream.statisticsEligible := by
  unfold Stream.countedAgain
  split <;> rfl

theorem account_modifyHttp1 (client : Client) (change : Http1Session → Http1Session) :
    (client.modifyHttp1 change).account = client.account := by
  unfold Client.modifyHttp1
  split
  · rename_i session found
    simp only [Client.account, Client.eligibleStreams, found, Option.isSome_some]
  · rfl

theorem account_expire (client : Client) (now : Nat) : (client.expire now).account = client.account := by
  have eligible : (client.expire now).eligibleStreams = client.eligibleStreams := by
    unfold Client.expire Client.eligibleStreams
    dsimp only
    generalize client.streams = streams
    induction due now client.streamTimestamp generalizing streams with
    | nil => rfl
    | cons entry rest ih =>
      rw [List.foldl_cons, ih, eligible_adjust]
      exact statisticsEligible_countedAgain
  unfold Client.account
  rw [eligible]
  rfl

theorem account_readPayload (client : Client) (id length : Nat) :
    (client.readPayload id length).account = client.account := by
  unfold Client.readPayload
  split
  · rfl
  · simp only [Client.account, Client.eligibleStreams]
    rw [eligible_adjust]
    exact fun _ => rfl

def Effect.silent : Effect → Bool
  | .setLink _ _ | .connecting _ _ | .updateThisInDestClientMap _ | .terminateSession _
  | .pushFirstRequest _ _ _ _ | .moveToDest _ _ | .requeueToParent _ | .resumeDelayed _ _
  | .dropRequest _ | .resetTimeoutRequests _ _ | .onStatusCode _ _ _ | .readPayload _ _ _
  | .cutPayload _ _ _ | .advanceOffset _ _ _ | .requestSent _ | .responseReceived _
  | .alignRequestCounter _ => true
  | _ => false

theorem ledger_of_update {v w : World} {c : ClientId} {change : Client → Client}
    (same : v.ledger = (w.modifyClient c change).ledger)
    (account : (change (w.clients c)).account = (w.clients c).account) : v.ledger = w.ledger := by
  rw [same, ledger_modifyClient, account]
  exact Ledger.write_self w.ledger c

theorem ledger_of_silent (e : Effect) (silent : e.silent = true) : (e.act w).ledger = w.ledger := by
  cases e with
  | setLink | connecting | updateThisInDestClientMap | resumeDelayed | dropRequest =>
    exact ledger_of_update rfl rfl
  | terminateSession | requestSent | responseReceived | alignRequestCounter =>
    exact ledger_of_update rfl (account_modifyHttp1 _ _)
  | pushFirstRequest c scenarioIndex now assemble =>
    show (w.pushFirstRequest w.config c scenarioIndex now assemble).ledger = w.ledger
    unfold World.pushFirstRequest
    split
    · rfl
    · show (w.modifyClient c fun client => client.queueFirst now _ _).ledger = w.ledger
      refine ledger_of_update rfl ?_
      obtain ⟨toSubmit, delayed, shape, -⟩ := queueFirst_eq (w.clients c) now _ _
      rw [shape]
      rfl
  | moveToDest c d =>
    show (w.moveToDest c d).ledger = w.ledger
    unfold World.moveToDest
    split
    · rfl
    · exact (ledger_of_update rfl rfl).trans (ledger_of_update rfl rfl)
  | requeueToParent c =>
    show (w.requeueToParent c).ledger = w.ledger
    unfold World.requeueToParent
    split
    · rfl
    · exact (ledger_of_update rfl rfl).trans (ledger_of_update rfl rfl)
  | resetTimeoutRequests c now =>
    have same : (w.resetTimeoutRequests c now).ledger =
        (w.modifyClient c fun client => client.expire now).ledger := rfl
    exact ledger_of_update same (account_expire _ now)
  | readPayload c id length => exact ledger_of_update rfl (account_readPayload _ id length)
  | onStatusCode | cutPayload | advanceOffset =>
    refine ledger_of_update rfl ?_
    simp only [Client.account, Client.eligibleStreams, Client.onStatusCode, Client.cutPayload,
      Client.advanceOffset]
    rw [eligible_adjust]
    exact fun _ => rfl
  | _ => cases silent

/-! ## Clients come, connect and go -/

def Account.fresh (parent : Option ClientId) (reqTodo : Nat) : Account :=
  { parent := parent, reqTodo := reqTodo, reqLeft := World.initReqLeft reqTodo }

def Ledger.share (ledger : Ledger) : Nat :=
  if 0 < ledger.nreqsRem then ledger.nreqsPerClient + 1 else ledger.nreqsPerClient

theorem accounts_of_update {clients later : ClientId → Client} {c : ClientId} {b : Client}
    (same : ∀ d, (clients d).account = (later d).account) :
    (fun d => (Function.update clients c b d).account) =
      Function.update (fun d => (later d).account) c b.account := by
  funext d
  by_cases here : d = c
  · subst here
    simp
  · simp [here, same]

theorem ledger_createClient (candidates : List String) :
    (w.createClient cfg candidates).ledger =
      { w.ledger.write w.clientCount (.fresh none w.ledger.share) with
        clientCount := w.clientCount + 1
        nreqsRem := w.nreqsRem - 1
        nconnsMade := w.nconnsMade + 1 } := by
  have accounts : (fun d => ((w.createClient cfg candidates).clients d).account) =
      Function.update w.ledger.accounts w.clientCount (.fresh none w.ledger.share) :=
    accounts_of_update fun _ => rfl
  unfold Ledger.write
  rw [← accounts]
  rfl

theorem ledger_createDestClient (parent : ClientId) (schema authority : String) :
    (w.createDestClient cfg parent schema authority).ledger =
      { w.ledger.write w.clientCount (.fresh (some parent) (w.ledger.accounts parent).reqTodo) with
        clientCount := w.clientCount + 1 } := by
  have accounts : (fun d => ((w.createDestClient cfg parent schema authority).clients d).account) =
      Function.update w.ledger.accounts w.clientCount
        (.fresh (some parent) (w.ledger.accounts parent).reqTodo) := by
    refine accounts_of_update fun d => ?_
    rw [World.clients_modifyClient]
    split
    · rename_i same
      rw [same]
      rfl
    · rfl
  unfold Ledger.write
  rw [← accounts]
  rfl

/-- A listed client's finished requests are added to what was to do. -/
def Ledger.reportDone (ledger : Ledger) (c : ClientId) : Ledger :=
  if ledger.workerClients.contains c then
    { ledger.write c { ledger.accounts c with reqTodo := (ledger.accounts c).reqDone } with
      tally := { ledger.tally with reqTodo := ledger.tally.reqTodo + (ledger.accounts c).reqDone }
      workerClients := ledger.workerClients.erase c }
  else ledger

theorem ledger_reportDone : (w.reportDone c).ledger = w.ledger.reportDone c := by
  unfold World.reportDone Ledger.reportDone
  split
  · rename_i member
    rw [if_pos (show w.ledger.workerClients.contains c = true from member)]
    have counted := ledger_modifyClient (w.modifyStats fun stats =>
      { stats with reqTodo := stats.reqTodo + (w.clients c).reqDone }) c
        fun client => { client with reqTodo := client.reqDone }
    exact congrArg (fun ledger : Ledger =>
      { ledger with workerClients := ledger.workerClients.erase c }) counted
  · rename_i absent
    rw [if_neg (show ¬ w.ledger.workerClients.contains c = true from absent)]

theorem ledger_freeClient : (w.freeClient c).ledger = w.ledger.reportDone c := by
  have left (v : World) : (v.leaveDestClientMap c).ledger = v.ledger := by
    unfold World.leaveDestClientMap
    split
    · rfl
    · refine ledger_of_update rfl ?_
      split <;> rfl
  unfold World.freeClient
  rw [← ledger_reportDone, ← left (w.reportDone c)]
  exact ledger_of_update rfl rfl

theorem ledger_disconnect :
    (w.modifyClient c Client.disconnect).ledger =
      w.ledger.write c { w.ledger.accounts c with eligible := 0, hasSession := false } :=
  ledger_modifyClient w c Client.disconnect

/-! ## Failures -/

def Ledger.addFailed (ledger : Ledger) (count : Nat) : Ledger :=
  { ledger with tally := { ledger.tally with
      reqFailed := addWrap ledger.tally.reqFailed count
      reqError := addWrap ledger.tally.reqError count } }

/-- What is in flight fails, and what is left too unless the client reconnects. -/
def Ledger.abandon (ledger : Ledger) (c : ClientId) (reconnects : Bool) : Ledger :=
  let account := ledger.accounts c
  if ledger.phase ≠ .mainDuration then ledger
  else if reconnects then
    (ledger.addFailed account.reqInflight).write c { account with reqInflight := 0 }
  else
    (ledger.addFailed (addWrap account.reqInflight account.reqLeft)).write c
      { account with reqInflight := 0, reqLeft := 0 }

def Account.abandoned (account : Account) (phase : Phase) (reconnects : Bool) : Account :=
  if phase ≠ .mainDuration then account
  else if reconnects then { account with reqInflight := 0 }
  else { account with reqInflight := 0, reqLeft := 0 }

theorem Ledger.accounts_abandon (ledger : Ledger) (c : ClientId) (reconnects : Bool) :
    (ledger.abandon c reconnects).accounts =
      (ledger.write c ((ledger.accounts c).abandoned ledger.phase reconnects)).accounts := by
  unfold abandon Account.abandoned
  dsimp only
  split
  · rw [write_self]
  · split <;> rfl

theorem Ledger.phase_abandon (ledger : Ledger) (c : ClientId) (reconnects : Bool) :
    (ledger.abandon c reconnects).phase = ledger.phase := by
  simp only [abandon]
  split_ifs <;> rfl

theorem Ledger.clientCount_abandon (ledger : Ledger) (c : ClientId) (reconnects : Bool) :
    (ledger.abandon c reconnects).clientCount = ledger.clientCount := by
  simp only [abandon]
  split_ifs <;> rfl

@[simp] theorem Account.parent_abandoned (account : Account) (phase : Phase) (reconnects : Bool) :
    (account.abandoned phase reconnects).parent = account.parent := by
  simp only [abandoned]
  split_ifs <;> rfl

@[simp] theorem Account.eligible_abandoned (account : Account) (phase : Phase) (reconnects : Bool) :
    (account.abandoned phase reconnects).eligible = account.eligible := by
  simp only [abandoned]
  split_ifs <;> rfl

theorem Account.reqInflight_abandoned (account : Account) (phase : Phase) (reconnects : Bool) :
    (account.abandoned phase reconnects).reqInflight =
      if phase = .mainDuration then 0 else account.reqInflight := by
  unfold abandoned
  by_cases main : phase = .mainDuration
  · rw [if_neg (not_not.mpr main), if_pos main]
    split <;> rfl
  · rw [if_pos main, if_neg main]

theorem ledger_processAbandonedStreams :
    (w.processAbandonedStreams cfg c).ledger = w.ledger.abandon c (w.shouldReconnectOnDisconnect cfg c) := by
  unfold World.processAbandonedStreams Ledger.abandon
  dsimp only
  by_cases main : w.currentPhase = .mainDuration
  · rw [if_neg (not_not.mpr main), if_neg (not_not.mpr (show w.ledger.phase = _ from main))]
    split <;> exact ledger_modifyClient _ c _
  · rw [if_pos main, if_pos (show w.ledger.phase ≠ _ from main)]

theorem ledger_failInflight : (w.failInflight c).ledger = w.ledger.abandon c true := by
  unfold World.failInflight Ledger.abandon
  dsimp only
  by_cases main : w.currentPhase = .mainDuration
  · rw [if_neg (not_not.mpr main), if_neg (not_not.mpr (show w.ledger.phase = _ from main))]
    exact ledger_modifyClient _ c _
  · rw [if_pos main, if_pos (show w.ledger.phase ≠ _ from main)]

/-- What is left fails; it stays where the connection is opened again. -/
def Ledger.requestFailure (ledger : Ledger) (c : ClientId) (keeps : Bool) : Ledger :=
  let account := ledger.accounts c
  if ledger.phase ≠ .mainDuration then ledger
  else if keeps then ledger.addFailed account.reqLeft
  else (ledger.addFailed account.reqLeft).write c { account with reqLeft := 0 }

theorem ledger_requestFailure (exhausted : Bool) :
    (w.requestFailure cfg c exhausted).ledger =
      w.ledger.requestFailure c (exhausted || w.shouldReconnectOnDisconnect cfg c) := by
  unfold World.requestFailure Ledger.requestFailure
  dsimp only
  by_cases main : w.currentPhase = .mainDuration
  · rw [if_neg (not_not.mpr main), if_neg (not_not.mpr (show w.ledger.phase = _ from main))]
    cases exhausted with
    | true => rfl
    | false =>
      simp only [Bool.false_eq_true, if_false, Bool.false_or]
      split
      · rfl
      · exact ledger_modifyClient _ c _
  · rw [if_pos main, if_pos (show w.ledger.phase ≠ _ from main)]

theorem ledger_countTimedout : (w.countTimedout c).ledger = w.ledger := by
  unfold World.countTimedout
  split
  · rfl
  · have same : ((w.modifyStats fun stats =>
        { stats with reqTimedout := addWrap stats.reqTimedout (w.clients c).reqInflight }).modifyClient c
          fun client => { client with
            streams := FiniteMap.mapValues Stream.countedAgain client.streams }).ledger =
        (w.modifyClient c fun client => { client with
          streams := FiniteMap.mapValues Stream.countedAgain client.streams }).ledger := rfl
    refine ledger_of_update same ?_
    simp only [Client.account, Client.eligibleStreams]
    rw [FiniteMap.sum_mapValues_of_same]
    intro _ stream
    rw [statisticsEligible_countedAgain]

theorem shouldReconnect_countTimedout :
    (w.countTimedout c).shouldReconnectOnDisconnect cfg c = w.shouldReconnectOnDisconnect cfg c := by
  unfold World.countTimedout
  split
  · rfl
  · simp [World.shouldReconnectOnDisconnect, World.isTestFinished, World.modifyClient,
      World.modifyStats, Client.isController]

theorem ledger_timeout :
    (w.timeout cfg c).ledger =
      let abandoned := w.ledger.abandon c (w.shouldReconnectOnDisconnect cfg c)
      abandoned.write c { abandoned.accounts c with eligible := 0, hasSession := false } := by
  unfold World.timeout
  rw [ledger_disconnect, ledger_processAbandonedStreams, ledger_countTimedout,
    shouldReconnect_countTimedout]

/-! ## Submissions -/

def Ledger.countStart (ledger : Ledger) (c : ClientId) (scenario request : Nat) : Ledger :=
  let account := ledger.accounts c
  ({ ledger with tally := { ledger.tally with reqStarted := ledger.tally.reqStarted + 1 } }.write c
    { account with
      reqStarted := account.reqStarted + 1
      reqInflight := account.reqInflight + 1
      reqLeft := if ledger.timingBasedMode then account.reqLeft else decWrap account.reqLeft })
    |>.modifyScenario scenario request fun tally => { tally with reqStarted := tally.reqStarted + 1 }

def Account.started (account : Account) (timingBasedMode : Bool) : Account :=
  { account with
    reqStarted := account.reqStarted + 1
    reqInflight := account.reqInflight + 1
    reqLeft := if timingBasedMode then account.reqLeft else decWrap account.reqLeft }

@[simp] theorem Account.reqTodo_started (account : Account) (timingBasedMode : Bool) :
    (account.started timingBasedMode).reqTodo = account.reqTodo := by
  unfold started
  rfl

@[simp] theorem Account.reqStarted_started (account : Account) (timingBasedMode : Bool) :
    (account.started timingBasedMode).reqStarted = account.reqStarted + 1 := rfl

theorem Account.reqLeft_started (account : Account) (timingBasedMode : Bool) :
    (account.started timingBasedMode).reqLeft =
      if timingBasedMode then account.reqLeft else decWrap account.reqLeft := rfl

theorem Ledger.accounts_countStart (ledger : Ledger) (c d : ClientId) (scenario request : Nat) :
    (ledger.countStart c scenario request).accounts d =
      if d = c then (ledger.accounts c).started ledger.timingBasedMode else ledger.accounts d :=
  accounts_write ledger c d _

theorem ledger_countStart (scenario request : Nat) :
    (w.countStart w.config c scenario request).ledger = w.ledger.countStart c scenario request := by
  unfold World.countStart Ledger.countStart
  rw [ledger_modifyScenarioStats _ _ _ _ (fun tally => { tally with reqStarted := tally.reqStarted + 1 })
    fun _ => rfl, ledger_modifyClient]
  rfl

def World.offers (w : World) (d : ClientId) : Bool :=
  w.config.scenarios.isEmpty || !(w.clients d).requestsToSubmit.isEmpty

theorem eligible_replace (streams : FiniteMap Nat Stream) (id : Nat) (stream : Stream) :
    let counted : Stream → Nat := fun stream => if stream.statisticsEligible then 1 else 0
    let after := FiniteMap.sum (fun _ => counted) ((streams.erase id).insert id stream)
    after ≤ FiniteMap.sum (fun _ => counted) streams + counted stream ∧
      (streams.lookup id = none →
        after = FiniteMap.sum (fun _ => counted) streams + counted stream) := by
  intro counted after
  have erased : (streams.erase id).lookup id = none := by rw [FiniteMap.lookup_erase_eq, if_pos rfl]
  have added : after = FiniteMap.sum (fun _ => counted) (streams.erase id) + counted stream := by
    rw [Nat.add_comm]
    exact FiniteMap.sum_insert_of_none (fun _ => counted) stream erased
  cases found : streams.lookup id with
  | none =>
    rw [FiniteMap.sum_erase_of_none _ found] at added
    exact ⟨added.le, fun _ => added⟩
  | some old =>
    have taken := FiniteMap.sum_erase (fun _ => counted) found
    refine ⟨by omega, ?_⟩
    intro missing
    cases missing

theorem account_onRequestStart (client : Client) (cfg : Config) (phase : Phase)
    (serial id now stray : Nat) (offset : Int) (submitted : Option RequestData) :
    ∃ eligible, (client.onRequestStart cfg phase serial id now stray offset submitted).account =
        { client.account with eligible := eligible } ∧
      eligible ≤ client.account.eligible + (if phase.statsEligible then 1 else 0) ∧
      (client.streams.lookup id = none →
        eligible = client.account.eligible + if phase.statsEligible then 1 else 0) :=
  ⟨_, rfl, eligible_replace client.streams id _⟩

theorem account_startRequest (client : Client) (cfg : Config) (phase : Phase)
    (serial now stray : Nat) (offset : Int) :
    ∃ eligible, (client.startRequest cfg phase serial now stray offset).account =
        { client.account with eligible := eligible } ∧
      eligible ≤ client.account.eligible + (if phase.statsEligible then 1 else 0) ∧
      ((cfg.scenarios.isEmpty || !client.requestsToSubmit.isEmpty) = true →
        client.streams.lookup client.nextStreamId = none →
        eligible = client.account.eligible + if phase.statsEligible then 1 else 0) := by
  unfold Client.startRequest
  dsimp only
  by_cases scenarios : cfg.scenarios.isEmpty
  · rw [if_pos scenarios]
    obtain ⟨eligible, account, most, exactly⟩ := account_onRequestStart
      { client with
        session := client.session.map (Client.acceptedSession cfg (cfg.dataLength == 0))
        link := { client.link with reqidx :=
          if client.link.reqidx + 1 = cfg.preparedRequests then 0 else client.link.reqidx + 1 } }
      cfg phase serial client.nextStreamId now stray offset none
    refine ⟨eligible, ?_, most, fun _ => exactly⟩
    rw [account]
    simp [Client.account, Client.eligibleStreams]
  · rw [if_neg scenarios]
    split
    · rename_i queue
      refine ⟨client.account.eligible, rfl, Nat.le_add_right _ _, fun offers => ?_⟩
      simp [queue, scenarios] at offers
    · rename_i request rest queue
      obtain ⟨eligible, account, most, exactly⟩ := account_onRequestStart
        { client with
          session :=
            client.session.map (Client.acceptedSession cfg request.content.reqPayload.isEmpty)
          requestsToSubmit := rest
          requestsAwaitingResponse :=
            FiniteMap.emplace client.nextStreamId request client.requestsAwaitingResponse }
        cfg phase serial client.nextStreamId now stray offset (some request)
      refine ⟨eligible, ?_, most, fun _ => exactly⟩
      rw [account]
      simp [Client.account, Client.eligibleStreams]

theorem ledger_startRequest (d : ClientId) (now stray : Nat) (offset : Int) :
    ∃ eligible, (Effect.act (.startRequest d now stray offset) w).ledger =
        w.ledger.write d { w.ledger.accounts d with eligible := eligible } ∧
      eligible ≤ (w.ledger.accounts d).eligible + (if w.currentPhase.statsEligible then 1 else 0) ∧
      (w.offers d = true → (w.clients d).streams.lookup (w.clients d).nextStreamId = none →
        eligible =
          (w.ledger.accounts d).eligible + if w.currentPhase.statsEligible then 1 else 0) := by
  obtain ⟨eligible, account, most, exactly⟩ :=
    account_startRequest (w.clients d) w.config w.currentPhase w.ticks now stray offset
  refine ⟨eligible, ?_, most, exactly⟩
  rw [show w.ledger.accounts d = (w.clients d).account from rfl, ← account]
  exact ledger_modifyClient w d _

/-! ## The end of a stream -/

theorem tally_bumpStatus (status : Nat) (stats : Stats) :
    (World.bumpStatus status stats).tally = stats.tally := by
  unfold World.bumpStatus
  split <;> rfl

theorem account_setStatusSuccess (value : Int) (client : Client) :
    (World.setStatusSuccess id value client).account = client.account := by
  simp only [Client.account, Client.eligibleStreams, World.setStatusSuccess]
  rw [eligible_adjust]
  exact fun _ => rfl

theorem ledger_validateResponse (verdict : Bool) : (w.validateResponse cfg c id verdict).ledger = w.ledger := by
  have bumped (status : Nat) : (w.modifyStats (World.bumpStatus status)).ledger = w.ledger := by
    rw [ledger_modifyStats, tally_bumpStatus]
    rfl
  unfold World.validateResponse
  dsimp only
  split
  · rfl
  · rename_i stream _
    split
    · exact ledger_of_update rfl (account_setStatusSuccess id _ _)
    · split
      · exact (ledger_of_update rfl (account_setStatusSuccess id _ _)).trans (bumped _)
      · refine (ledger_of_update rfl (account_setStatusSuccess id _ _)).trans ?_
        rw [ledger_modifyScenarioStats _ _ _ _ (fun tally => tally) (tally_bumpStatus _), bumped]
        exact w.ledger.modifyScenario_same _ _

def Tally.outcome (success statusSuccess : Bool) (tally : Tally) : Tally :=
  let done := { tally with reqDone := tally.reqDone + 1 }
  if success then
    if statusSuccess then
      { done with reqSuccess := done.reqSuccess + 1, reqStatusSuccess := done.reqStatusSuccess + 1 }
    else { done with reqSuccess := done.reqSuccess + 1, reqFailed := done.reqFailed + 1 }
  else { done with reqFailed := done.reqFailed + 1, reqError := done.reqError + 1 }

theorem tally_outcome (success statusSuccess : Bool) (stats : Stats) :
    (World.outcome success statusSuccess stats).tally = stats.tally.outcome success statusSuccess := by
  cases success <;> cases statusSuccess <;> rfl

/-- A finished request is counted, for the worker and for the request of its scenario. -/
def Ledger.outcome (ledger : Ledger) (success statusSuccess : Bool) (stored : Option RequestData) :
    Ledger :=
  { ledger with
    tally := ledger.tally.outcome success statusSuccess
    scenarios := match stored with
      | none => ledger.scenarios
      | some request => Table.modify request.scenarioIndex request.currRequestIdx
          (Tally.outcome success statusSuccess) ledger.scenarios }

theorem ledger_recordOutcome (stream : Stream) (success : Bool) :
    (w.recordOutcome c id stream success).ledger =
      if stream.statisticsEligible then (w.ledger.outcome success (stream.statusSuccess == 1)
          ((w.clients c).requestsAwaitingResponse.lookup id)).write c
            { w.ledger.accounts c with reqDone := (w.ledger.accounts c).reqDone + 1 }
      else w.ledger := by
  unfold World.recordOutcome
  dsimp only
  cases eligible : stream.statisticsEligible with
  | false => rfl
  | true =>
    rw [if_neg (by decide), if_pos rfl]
    have counted : ((w.modifyStats (World.outcome success (stream.statusSuccess == 1))).modifyClient c
          fun client => { client with reqDone := client.reqDone + 1 }).ledger =
        (w.ledger.outcome success (stream.statusSuccess == 1) none).write c
          { w.ledger.accounts c with reqDone := (w.ledger.accounts c).reqDone + 1 } := by
      rw [ledger_modifyClient, ledger_modifyStats, tally_outcome]
      rfl
    split
    · rename_i missing
      rw [counted, missing]
    · rename_i request found
      rw [ledger_modifyScenarioStats _ _ _ _ _ (tally_outcome success _), counted, found]
      rfl

def Client.eligibleAt (client : Client) (id : Nat) : Nat :=
  if (client.streams.lookup id).any Stream.statisticsEligible then 1 else 0

theorem eligibleAt_le (client : Client) (id : Nat) : client.eligibleAt id ≤ client.eligibleStreams := by
  unfold Client.eligibleAt Client.eligibleStreams
  cases found : client.streams.lookup id with
  | none => simp
  | some stream =>
    have taken := FiniteMap.sum_erase
      (fun _ (stream : Stream) => if stream.statisticsEligible then 1 else 0) found
    simp only [Option.any_some]
    omega

theorem account_finish (client : Client) (id : Nat) :
    (client.finish id).account =
      { client.account with eligible := client.account.eligible - client.eligibleAt id } := by
  have eligible : (client.finish id).eligibleStreams =
      client.eligibleStreams - client.eligibleAt id := by
    unfold Client.eligibleStreams Client.eligibleAt Client.finish
    dsimp only
    cases found : client.streams.lookup id with
    | none =>
      rw [FiniteMap.sum_erase_of_none _ found]
      simp
    | some stream =>
      have taken := FiniteMap.sum_erase
        (fun _ (stream : Stream) => if stream.statisticsEligible then 1 else 0) found
      simp only [Option.any_some]
      omega
  unfold Client.account
  rw [eligible]
  rfl

theorem ledger_finishRequest (now : Nat) (assembly : Assembly) :
    (w.finishRequest cfg c id now assembly).ledger =
      w.ledger.write c { w.ledger.accounts c with
        eligible := (w.ledger.accounts c).eligible - (w.clients c).eligibleAt id } := by
  unfold World.finishRequest
  dsimp only
  generalize made : w.modifyClient (w.controllerOf c) (fun client => client.enqueueNext now
    ((w.clients c).followUpDelay id) ((w.clients c).followUp cfg id assembly)) = queued
  have kept (client : Client) : (client.enqueueNext now ((w.clients c).followUpDelay id)
        ((w.clients c).followUp cfg id assembly)).account = client.account ∧
      (client.enqueueNext now ((w.clients c).followUpDelay id)
        ((w.clients c).followUp cfg id assembly)).streams = client.streams := by
    obtain ⟨toSubmit, delayed, shape, -⟩ := enqueueNext_eq client now
      ((w.clients c).followUpDelay id) ((w.clients c).followUp cfg id assembly)
    rw [shape]
    exact ⟨rfl, rfl⟩
  have ledger : queued.ledger = w.ledger := made ▸ ledger_of_update rfl (kept _).1
  have streams : (queued.clients c).streams = (w.clients c).streams := by
    rw [← made, World.clients_modifyClient]
    split
    · rename_i same
      rw [(kept _).2, ← same]
    · rfl
  have account : (queued.clients c).account = w.ledger.accounts c :=
    congrFun (congrArg Ledger.accounts ledger) c
  rw [ledger_modifyClient, account_finish, ledger, account, Client.eligibleAt, streams]
  rfl

/-- What `on_stream_close` does to the ledger. -/
inductive Closing (w : World) (c : ClientId) (id : Nat) (success : Bool) (after : Ledger) : Prop
  /-- The phase counts and the stream is not open: a request less in flight, and nothing else. -/
  | absent (phase : w.currentPhase.statsEligible = true)
      (missing : (w.clients c).streams.lookup id = none)
      (ledger : after = w.ledger.write c { w.ledger.accounts c with
        reqInflight := (w.ledger.accounts c).reqInflight - 1 })
  /-- The phase counts and the stream does not. -/
  | ineligible (stream : Stream) (phase : w.currentPhase.statsEligible = true)
      (opened : (w.clients c).streams.lookup id = some stream)
      (excluded : stream.statisticsEligible = false)
      (ledger : after = w.ledger.write c { w.ledger.accounts c with
        reqInflight := (w.ledger.accounts c).reqInflight - 1 })
  /-- Both count. -/
  | counted (stream : Stream) (statusSuccess : Bool) (phase : w.currentPhase.statsEligible = true)
      (opened : (w.clients c).streams.lookup id = some stream)
      (included : stream.statisticsEligible = true)
      (ledger : after = (w.ledger.outcome success statusSuccess
        ((w.clients c).requestsAwaitingResponse.lookup id)).write c { w.ledger.accounts c with
          reqInflight := (w.ledger.accounts c).reqInflight - 1
          reqDone := (w.ledger.accounts c).reqDone + 1
          eligible := (w.ledger.accounts c).eligible - 1 })
  /-- The phase does not count. -/
  | outside (phase : w.currentPhase.statsEligible = false)
      (ledger : after = w.ledger.write c { w.ledger.accounts c with
        eligible := (w.ledger.accounts c).eligible - (w.clients c).eligibleAt id })

theorem lookup_validateResponse (verdict : Bool) :
    (w.validateResponse cfg c id verdict).currentPhase = w.currentPhase ∧
      ((w.validateResponse cfg c id verdict).clients c).requestsAwaitingResponse =
        (w.clients c).requestsAwaitingResponse ∧
      ∃ change : Stream → Stream, ((w.validateResponse cfg c id verdict).clients c).streams.lookup id =
          ((w.clients c).streams.lookup id).map change ∧
        ∀ stream, (change stream).statisticsEligible = stream.statisticsEligible := by
  have judged {v : World} (value : Int) (phase : v.currentPhase = w.currentPhase)
      (clients : v.clients = Function.update w.clients c (World.setStatusSuccess id value (w.clients c))) :
      v.currentPhase = w.currentPhase ∧
        (v.clients c).requestsAwaitingResponse = (w.clients c).requestsAwaitingResponse ∧
        ∃ change : Stream → Stream,
          (v.clients c).streams.lookup id = ((w.clients c).streams.lookup id).map change ∧
          ∀ stream, (change stream).statisticsEligible = stream.statisticsEligible := by
    rw [clients, Function.update_self]
    refine ⟨phase, rfl, fun stream => { stream with statusSuccess := value }, ?_, fun _ => rfl⟩
    simp [World.setStatusSuccess, FiniteMap.lookup_adjust_map]
  unfold World.validateResponse
  dsimp only
  split
  · exact ⟨rfl, rfl, fun stream => stream, by simp, fun _ => rfl⟩
  · split
    · exact judged _ rfl rfl
    · split <;> exact judged _ rfl rfl

theorem closing_closeStream (success verdict : Bool) (now : Nat) (assembly : Assembly) :
    Closing w c id success (w.closeStream cfg c id success verdict now assembly).ledger := by
  have ledger := ledger_validateResponse w cfg c id verdict
  obtain ⟨samePhase, stored, change, lookup, sameEligible⟩ := lookup_validateResponse w cfg c id verdict
  unfold World.closeStream
  dsimp only
  rw [samePhase]
  generalize w.validateResponse cfg c id verdict = u at *
  have eligibleAt : (u.clients c).eligibleAt id = (w.clients c).eligibleAt id := by
    unfold Client.eligibleAt
    rw [lookup]
    cases (w.clients c).streams.lookup id with
    | none => rfl
    | some stream => simp only [Option.map_some, Option.any_some, sameEligible]
  cases phase : w.currentPhase.statsEligible with
  | false =>
    rw [if_neg (by decide), ledger_finishRequest, ledger]
    refine .outside phase ?_
    rw [eligibleAt]
  | true =>
    rw [if_pos rfl]
    have released : (u.modifyClient c (World.releaseInflight cfg)).ledger =
        w.ledger.write c { w.ledger.accounts c with
          reqInflight := (w.ledger.accounts c).reqInflight - 1 } := by
      rw [ledger_modifyClient, ledger, ← ledger]
      rfl
    have streams : ((u.modifyClient c (World.releaseInflight cfg)).clients c).streams =
        (u.clients c).streams := by
      rw [World.clients_modifyClient, if_pos rfl]
      rfl
    have awaiting : ((u.modifyClient c (World.releaseInflight cfg)).clients c).requestsAwaitingResponse =
        (w.clients c).requestsAwaitingResponse := by
      rw [World.clients_modifyClient, if_pos rfl]
      exact stored
    generalize u.modifyClient c (World.releaseInflight cfg) = v at *
    cases opened : (w.clients c).streams.lookup id with
    | none =>
      rw [streams, lookup, opened]
      exact .absent phase opened released
    | some stream =>
      rw [streams, lookup, opened, Option.map_some]
      dsimp only
      have recorded := ledger_recordOutcome v c id (change stream) success
      have kept : ((v.recordOutcome c id (change stream) success).clients c).streams =
          (v.clients c).streams := by
        unfold World.recordOutcome
        dsimp only
        split
        · rfl
        · split <;> simp [World.clients_modifyClient, World.modifyStats, World.modifyScenarioStats]
      generalize v.recordOutcome c id (change stream) success = r at *
      have closes : (r.clients c).eligibleAt id = if stream.statisticsEligible then 1 else 0 := by
        rw [Client.eligibleAt, kept, streams, lookup, opened]
        simp only [Option.map_some, Option.any_some, sameEligible]
      rw [ledger_finishRequest, closes]
      rw [sameEligible, awaiting] at recorded
      cases eligible : stream.statisticsEligible with
      | false =>
        refine .ineligible stream phase opened eligible ?_
        rw [eligible, if_neg (by decide)] at recorded
        rw [recorded, released]
        simp
      | true =>
        refine .counted stream ((change stream).statusSuccess == 1) phase opened eligible ?_
        rw [eligible, if_pos rfl] at recorded
        rw [recorded, released]
        simp [Ledger.write, Ledger.outcome]

/-! ## Every effect -/

inductive Booked (w : World) : Effect → Ledger → Prop
  | silent {e : Effect} (silent : e.silent = true) : Booked w e w.ledger
  | createClient (candidates : List String) :
      Booked w (.createClient candidates)
        { w.ledger.write w.clientCount (.fresh none w.ledger.share) with
          clientCount := w.clientCount + 1
          nreqsRem := w.nreqsRem - 1
          nconnsMade := w.nconnsMade + 1 }
  | createDestClient (parent : ClientId) (schema authority : String) :
      Booked w (.createDestClient parent schema authority)
        { w.ledger.write w.clientCount (.fresh (some parent) (w.ledger.accounts parent).reqTodo) with
          clientCount := w.clientCount + 1 }
  | listClient (c : ClientId) :
      Booked w (.listClient c) { w.ledger with workerClients := w.workerClients ++ [c] }
  | setPhase (phase : Phase) : Booked w (.setPhase phase) { w.ledger with phase := phase }
  | allocateSession (c : ClientId) (protocol : Protocol) :
      Booked w (.allocateSession c protocol)
        (w.ledger.write c { w.ledger.accounts c with hasSession := true })
  | disconnect (c : ClientId) :
      Booked w (.disconnect c)
        (w.ledger.write c { w.ledger.accounts c with eligible := 0, hasSession := false })
  | freeClient (c : ClientId) : Booked w (.freeClient c) (w.ledger.reportDone c)
  | startRequest (d : ClientId) (now stray : Nat) (offset : Int) (eligible : Nat)
      (most : eligible ≤
        (w.ledger.accounts d).eligible + if w.currentPhase.statsEligible then 1 else 0) :
      Booked w (.startRequest d now stray offset)
        (w.ledger.write d { w.ledger.accounts d with eligible := eligible })
  | countStart (c : ClientId) (scenario request : Nat) :
      Booked w (.countStart c scenario request) (w.ledger.countStart c scenario request)
  | requestFailure (c : ClientId) (exhausted : Bool) :
      Booked w (.requestFailure c exhausted)
        (w.ledger.requestFailure c (exhausted || w.shouldReconnectOnDisconnect w.config c))
  | abandonStreams (c : ClientId) :
      Booked w (.abandonStreams c) (w.ledger.abandon c (w.shouldReconnectOnDisconnect w.config c))
  | failInflight (c : ClientId) : Booked w (.failInflight c) (w.ledger.abandon c true)
  | timeout (c : ClientId) {abandoned : Ledger}
      (before : abandoned = w.ledger.abandon c (w.shouldReconnectOnDisconnect w.config c)) :
      Booked w (.timeout c)
        (abandoned.write c { abandoned.accounts c with eligible := 0, hasSession := false })
  | closeStream (c : ClientId) (id : Nat) (success verdict : Bool) (now : Nat) (assembly : Assembly)
      {after : Ledger} (closing : Closing w c id success after) :
      Booked w (.closeStream c id success verdict now assembly) after

theorem Booked.of_eq {w : World} {e : Effect} {after ledger : Ledger} (booked : Booked w e after)
    (same : ledger = after) : Booked w e ledger :=
  same ▸ booked

theorem booked_act (e : Effect) : Booked w e (e.act w).ledger := by
  by_cases silent : e.silent = true
  · exact (Booked.silent silent).of_eq (ledger_of_silent w e silent)
  cases e with
  | createClient candidates => exact (Booked.createClient _).of_eq (ledger_createClient w _ candidates)
  | createDestClient => exact (Booked.createDestClient ..).of_eq (ledger_createDestClient ..)
  | listClient c => exact .listClient c
  | setPhase phase => exact .setPhase phase
  | allocateSession => exact (Booked.allocateSession ..).of_eq (ledger_modifyClient ..)
  | disconnect => exact (Booked.disconnect _).of_eq (ledger_disconnect ..)
  | freeClient => exact (Booked.freeClient _).of_eq (ledger_freeClient ..)
  | startRequest d now stray offset =>
    obtain ⟨eligible, after, most, -⟩ := ledger_startRequest w d now stray offset
    exact (Booked.startRequest d now stray offset eligible most).of_eq after
  | countStart => exact (Booked.countStart ..).of_eq (ledger_countStart ..)
  | requestFailure => exact (Booked.requestFailure ..).of_eq (ledger_requestFailure ..)
  | abandonStreams => exact (Booked.abandonStreams _).of_eq (ledger_processAbandonedStreams ..)
  | failInflight => exact (Booked.failInflight _).of_eq (ledger_failInflight ..)
  | timeout => exact (Booked.timeout _ rfl).of_eq (ledger_timeout ..)
  | closeStream => exact .closeStream _ _ _ _ _ _ (closing_closeStream ..)
  | _ => exact absurd rfl silent

end H2LoadRunner.Load

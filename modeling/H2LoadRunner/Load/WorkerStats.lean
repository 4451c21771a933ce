/-
# Load.WorkerStats -- how the statistics of a worker compare

A worker counts requests started, done, successful and failed, once for itself and once for
each request of each scenario.  The counts are raised in different functions: a start after
the session has taken the request, an outcome when a stream closes, failures of requests that
never got a stream by whole counters (`process_request_failure`, `process_abandoned_streams`).

* `statsAgree_of_run`: requests successful by status, successful, done and started are each at
  most the next, errors are at most failures, and the scenario counts add up to the worker's,
  after every run in which HTTP/1 sessions take their requests in turn and no sum of failures
  leaves the range of its counter.
-/
import H2LoadRunner.Load.Instances
import H2LoadRunner.Load.PendingStreams
import H2LoadRunner.Load.Reactions

namespace H2LoadRunner.Load

open Library Library.EffectLog

set_option autoImplicit false

variable {c : ClientId} {cfg : Config} {request : RequestData} {w : World}

/-! ## What is stated -/

structure World.StatsAgree (w : World) : Prop where
  statusSuccess : w.stats.reqStatusSuccess ≤ w.stats.reqSuccess
  success : w.stats.reqSuccess ≤ w.stats.reqDone
  done : w.stats.reqDone ≤ w.stats.reqStarted
  error : w.stats.reqError ≤ w.stats.reqFailed
  startedSum : Table.sum Stats.reqStarted w.scenarioStats = w.stats.reqStarted
  doneSum : Table.sum Stats.reqDone w.scenarioStats = w.stats.reqDone
  successSum : Table.sum Stats.reqSuccess w.scenarioStats = w.stats.reqSuccess
  statusSuccessSum : Table.sum Stats.reqStatusSuccess w.scenarioStats = w.stats.reqStatusSuccess

def FailuresFit (w : World) (e : Effect) : Prop :=
  match e with
  | .requestFailure c _ | .abandonStreams c | .failInflight c | .timeout c =>
    w.currentPhase = .mainDuration →
      w.stats.reqFailed + ((w.clients c).reqInflight + (w.clients c).reqLeft) < sizeMax
  | _ => True

instance (w : World) (e : Effect) : Decidable (FailuresFit w e) := by
  induction e using Effect.casesOn <;> dsimp only [FailuresFit] <;> infer_instance

/-! ## Requests name requests of scenarios -/

/-- Everything queued or stored is a request of a scenario, and a request is stored for every
open stream. -/
structure Client.Indexed (cfg : Config) (client : Client) : Prop where
  queued : ∀ request ∈ client.queued, request.Valid cfg
  stored : ∀ id request, client.requestsAwaitingResponse.lookup id = some request → request.Valid cfg
  opened : ∀ id ∈ client.streams, id ∈ client.requestsAwaitingResponse

theorem Built.valid (built : Built cfg request) : request.Valid cfg := by
  obtain ⟨link, scenario, template, index, owner, content, made, found, inside⟩ :=
    built.exists_buildRequest
  refine ⟨scenario, found, ?_⟩
  rw [made]
  exact inside

theorem mem_streams_expire (client : Client) (now id : Nat) :
    id ∈ (client.expire now).streams ↔ id ∈ client.streams := by
  rw [← AList.lookup_isSome, ← AList.lookup_isSome, lookup_streams_expire, Option.isSome_map]

theorem indexed_startRequest {client : Client} (scenarios : cfg.scenarios.isEmpty = false)
    (indexed : client.Indexed cfg) (phase : Phase) (serial now stray : Nat) (offset : Int) :
    (client.startRequest cfg phase serial now stray offset).Indexed cfg := by
  unfold Client.startRequest
  rw [if_neg (by rw [scenarios]; decide)]
  split
  · exact indexed
  · rename_i front rest queue
    have first : front.Valid cfg := indexed.queued front (by simp [Client.queued, queue])
    refine ⟨fun request member => ?_, fun id request found => ?_, fun id member => ?_⟩
    · refine indexed.queued request ?_
      simp only [Client.queued, Client.onRequestStart, queue, List.cons_append, List.mem_cons] at member ⊢
      exact .inr member
    · simp only [Client.onRequestStart, FiniteMap.lookup_emplace] at found
      split at found
      · cases kept : client.requestsAwaitingResponse.lookup client.nextStreamId with
        | none =>
          rw [kept] at found
          cases found
          exact first
        | some old =>
          rw [kept] at found
          cases found
          exact indexed.stored _ _ kept
      · exact indexed.stored id request found
    · simp only [Client.onRequestStart, AList.mem_insert, AList.mem_erase, FiniteMap.mem_emplace] at member ⊢
      rcases member with new | ⟨-, old⟩
      · exact .inl new
      · exact .inr (indexed.opened id old)

/-- A stream and the request stored for it are changed; the request stays the same of its
scenario. -/
theorem Client.Indexed.adjust {client : Client} (indexed : client.Indexed cfg) (id : Nat)
    (onStream : Stream → Stream) {onRequest : RequestData → RequestData}
    (same : ∀ before, (onRequest before).scenarioIndex = before.scenarioIndex ∧
      (onRequest before).currRequestIdx = before.currRequestIdx) :
    { client with
      streams := client.streams.adjust id onStream
      requestsAwaitingResponse := client.requestsAwaitingResponse.adjust id onRequest }.Indexed cfg where
  queued := indexed.queued
  stored other request found := by
    obtain ⟨before, present, rfl | rfl⟩ := FiniteMap.exists_of_lookup_adjust found
    · exact indexed.stored other _ present
    · have valid := indexed.stored other before present
      rwa [RequestData.Valid, (same before).1, (same before).2]
  opened other member := by
    rw [FiniteMap.mem_adjust] at member ⊢
    exact indexed.opened other member

theorem indexed_change {source : RequestData → Prop} {admits : Client → Prop} {cuts : Prop} {phase : Phase}
    (scenarios : cfg.scenarios.isEmpty = false)
    (valid : ∀ request, source request → request.Valid cfg) (a b : Client)
    (change : ClientChange source admits cuts cfg phase a b) (indexed : a.Indexed cfg) : b.Indexed cfg := by
  have queue : ∀ request ∈ b.queued, request.Valid cfg := fun request member =>
    (change.queued request member).elim (indexed.queued request) (valid request)
  cases change with
  | keep same =>
    refine ⟨queue, ?_, ?_⟩
    · rw [same.requestsAwaitingResponse]
      exact indexed.stored
    · rw [same.requestsAwaitingResponse, same.streams]
      exact indexed.opened
  | fresh streams stored =>
    refine ⟨queue, fun id request found => ?_, fun id member => ?_⟩
    · simp [stored] at found
    · rw [streams] at member
      exact absurd member (AList.notMem_empty id)
  | disconnected streams stored =>
    refine ⟨queue, ?_, fun id member => ?_⟩
    · rw [stored]
      exact indexed.stored
    · rw [streams] at member
      exact absurd member (AList.notMem_empty id)
  | start serial now stray offset =>
    exact indexed_startRequest scenarios indexed phase serial now stray offset
  | status id status => exact indexed.adjust id _ fun _ => ⟨rfl, rfl⟩
  | cut id count => exact indexed.adjust id _ fun _ => ⟨rfl, rfl⟩
  | read id length =>
    unfold Client.readPayload
    split
    · exact indexed
    · exact indexed.adjust id _ fun _ => ⟨rfl, rfl⟩
  | offset id length =>
    exact ⟨indexed.queued, indexed.stored,
      fun other member => indexed.opened other ((FiniteMap.mem_adjust ..).mp member)⟩
  | validated id value =>
    exact ⟨indexed.queued, indexed.stored,
      fun other member => indexed.opened other ((FiniteMap.mem_adjust ..).mp member)⟩
  | expired now =>
    exact ⟨indexed.queued, indexed.stored,
      fun other member => indexed.opened other ((mem_streams_expire a now other).mp member)⟩
  | finished id =>
    refine ⟨indexed.queued, fun other request found => ?_, fun other member => ?_⟩
    · simp only [Client.finish, FiniteMap.lookup_erase_eq] at found
      split at found
      · cases found
      · exact indexed.stored other request found
    · obtain ⟨apart, opened⟩ := AList.mem_erase.mp member
      exact AList.mem_erase.mpr ⟨apart, indexed.opened other opened⟩

def World.Indexed (w : World) : Prop := ∀ c, (w.clients c).Indexed w.config

theorem indexed_apply (w : World) (e : Effect) (holds : w.config.scenarios.isEmpty = false ∧ w.Indexed) :
    (Machine.apply e w).config.scenarios.isEmpty = false ∧ (Machine.apply e w).Indexed := by
  have same : (Machine.apply e w).config = w.config := (config_apply e w).trans (config_act w e)
  obtain ⟨scenarios, indexed⟩ := holds
  refine ⟨by rw [same]; exact scenarios, fun c => ?_⟩
  have changes : Changes w.supply (fun _ => True) True w.config w.currentPhase w (e.act w) :=
    changes_act w e (fun _ _ _ _ _ => trivial) fun _ _ _ _ => trivial
  rw [same]
  refine changes.preserves (indexed_change scenarios ?_) indexed c
  rintro request (⟨d, member⟩ | built)
  · exact (indexed d).queued request member
  · exact built.valid

theorem indexed_initial (cfg : Config) (reqTodo nclients : Nat) :
    (World.initial cfg reqTodo nclients).Indexed :=
  fun _ => ⟨nofun, fun _ _ found => by simp [World.initial] at found,
    fun id member => absurd member (AList.notMem_empty id)⟩

/-! ## Comparisons in the ledger -/

def Ledger.eligibleTotal (ledger : Ledger) : Nat :=
  ∑ c ∈ Finset.range ledger.clientCount, (ledger.accounts c).eligible

theorem Ledger.eligibleTotal_of_change {ledger later : Ledger} (known : c < ledger.clientCount)
    (count : later.clientCount = ledger.clientCount)
    (others : ∀ d, d ≠ c → (later.accounts d).eligible = (ledger.accounts d).eligible)
    {eligible : Nat} (here : (later.accounts c).eligible = eligible) :
    later.eligibleTotal + (ledger.accounts c).eligible = ledger.eligibleTotal + eligible := by
  unfold eligibleTotal
  rw [count, ← here]
  exact sum_of_change (Finset.mem_range.mpr known) fun d _ other => others d other

namespace Tally

variable (success statusSuccess : Bool) (tally : Tally)

@[simp] theorem reqStarted_outcome : (tally.outcome success statusSuccess).reqStarted = tally.reqStarted := by
  cases success <;> cases statusSuccess <;> rfl

@[simp] theorem reqDone_outcome : (tally.outcome success statusSuccess).reqDone = tally.reqDone + 1 := by
  cases success <;> cases statusSuccess <;> rfl

@[simp] theorem reqSuccess_outcome :
    (tally.outcome success statusSuccess).reqSuccess = tally.reqSuccess + success.toNat := by
  cases success <;> cases statusSuccess <;> rfl

@[simp] theorem reqStatusSuccess_outcome :
    (tally.outcome success statusSuccess).reqStatusSuccess =
      tally.reqStatusSuccess + (success && statusSuccess).toNat := by
  cases success <;> cases statusSuccess <;> rfl

@[simp] theorem reqFailed_outcome :
    (tally.outcome success statusSuccess).reqFailed =
      tally.reqFailed + (!(success && statusSuccess)).toNat := by
  cases success <;> cases statusSuccess <;> rfl

@[simp] theorem reqError_outcome :
    (tally.outcome success statusSuccess).reqError = tally.reqError + (!success).toNat := by
  cases success <;> cases statusSuccess <;> rfl

end Tally

theorem toNat_and_le (a b : Bool) : (a && b).toNat ≤ a.toNat := by
  cases a <;> cases b <;> decide

/-- The counts that are kept for the worker and for each request of each scenario. -/
def Tally.counts : List (Tally → Nat) := [reqStarted, reqDone, reqSuccess, reqStatusSuccess]

def Tally.Raises (change : Tally → Tally) : Prop :=
  ∀ f ∈ Tally.counts, ∃ gain, ∀ tally, f (change tally) = f tally + gain

theorem Tally.raises_outcome (success statusSuccess : Bool) : Raises (outcome success statusSuccess) := by
  simp only [Raises, counts, List.forall_mem_cons, List.not_mem_nil, false_implies, implies_true, and_true]
  exact ⟨⟨0, reqStarted_outcome _ _⟩, ⟨1, reqDone_outcome _ _⟩, ⟨_, reqSuccess_outcome _ _⟩,
    ⟨_, reqStatusSuccess_outcome _ _⟩⟩

/-- The counts compare, with the open eligible streams still to be done, the scenario counts add up,
and their table has rows of the given lengths. -/
structure Ledger.Tallied (lengths : List Nat) (ledger : Ledger) : Prop where
  statusSuccess : ledger.tally.reqStatusSuccess ≤ ledger.tally.reqSuccess
  success : ledger.tally.reqSuccess ≤ ledger.tally.reqDone
  done : ledger.tally.reqDone + ledger.eligibleTotal ≤ ledger.tally.reqStarted
  error : ledger.tally.reqError ≤ ledger.tally.reqFailed
  sums : ∀ f ∈ Tally.counts, Table.sum f ledger.scenarios = f ledger.tally
  unborn : ∀ c, ledger.clientCount ≤ c → (ledger.accounts c).eligible = 0
  shape : ledger.scenarios.map List.length = lengths

namespace Ledger.Tallied

variable {lengths : List Nat} {ledger later : Ledger}

theorem of_le (tallied : ledger.Tallied lengths)
    (tally : ∃ failed error todo, later.tally =
      { ledger.tally with
        reqTodo := todo
        reqFailed := failed
        reqError := error } ∧ error ≤ failed)
    (scenarios : later.scenarios = ledger.scenarios)
    (count : later.clientCount = ledger.clientCount)
    (eligible : ∀ c, (later.accounts c).eligible ≤ (ledger.accounts c).eligible) :
    later.Tallied lengths := by
  obtain ⟨failed, error, todo, same, fewer⟩ := tally
  have total : later.eligibleTotal ≤ ledger.eligibleTotal := by
    unfold eligibleTotal
    rw [count]
    exact Finset.sum_le_sum fun c _ => eligible c
  have counts : ∀ f ∈ Tally.counts, f later.tally = f ledger.tally := by simp [Tally.counts, same]
  refine ⟨?_, ?_, ?_, ?_, fun f member => ?_, fun c beyond => ?_, ?_⟩
  · rw [same]
    exact tallied.statusSuccess
  · rw [same]
    exact tallied.success
  · rw [same]
    exact Nat.le_trans (Nat.add_le_add_left total _) tallied.done
  · rw [same]
    exact fewer
  · rw [scenarios, counts f member]
    exact tallied.sums f member
  · exact Nat.le_zero.mp ((eligible c).trans (tallied.unborn c (count ▸ beyond)).le)
  · rw [scenarios]
    exact tallied.shape

theorem sums_raised (tallied : ledger.Tallied lengths) {change : Tally → Tally}
    (raises : Tally.Raises change) {scenario request : Nat}
    (covered : Table.Covers ledger.scenarios scenario request) :
    ∀ f ∈ Tally.counts, Table.sum f (Table.modify scenario request change ledger.scenarios) =
      f (change ledger.tally) := by
  intro f member
  obtain ⟨gain, grows⟩ := raises f member
  rw [Table.sum_modify f change gain grows covered, tallied.sums f member, grows]

theorem created (tallied : ledger.Tallied lengths) {parent : Option ClientId} {reqTodo : Nat}
    (tally : later.tally = ledger.tally) (scenarios : later.scenarios = ledger.scenarios)
    (count : later.clientCount = ledger.clientCount + 1)
    (accounts : later.accounts = (ledger.write ledger.clientCount (.fresh parent reqTodo)).accounts) :
    later.Tallied lengths := by
  have eligible (c : ClientId) : (later.accounts c).eligible = (ledger.accounts c).eligible := by
    rw [accounts]
    exact read_write Account.eligible (tallied.unborn _ le_rfl).symm c
  have total : later.eligibleTotal = ledger.eligibleTotal := by
    unfold eligibleTotal
    rw [count, Finset.sum_range_succ, eligible, tallied.unborn _ le_rfl, Nat.add_zero]
    exact Finset.sum_congr rfl fun c _ => eligible c
  obtain ⟨statusSuccess, success, done, error, sums, unborn, shape⟩ := tallied
  rw [← tally] at statusSuccess success done error sums
  rw [← scenarios] at sums shape
  rw [← total] at done
  exact ⟨statusSuccess, success, done, error, sums,
    fun c beyond => (eligible c).trans (unborn c (by omega)), shape⟩

theorem addWrap_le_addWrap {failed error count : Nat} (fits : failed + count < sizeMax)
    (fewer : error ≤ failed) : addWrap error count ≤ addWrap failed count := by
  unfold addWrap
  rw [Nat.mod_eq_of_lt fits, Nat.mod_eq_of_lt (by omega)]
  omega

theorem addFailed (tallied : ledger.Tallied lengths) {count : Nat}
    (fits : ledger.tally.reqFailed + count < sizeMax) : (ledger.addFailed count).Tallied lengths :=
  tallied.of_le ⟨_, _, _, rfl, addWrap_le_addWrap fits tallied.error⟩ rfl rfl fun _ => le_rfl

theorem write (tallied : ledger.Tallied lengths) {account : Account}
    (fewer : account.eligible ≤ (ledger.accounts c).eligible) : (ledger.write c account).Tallied lengths := by
  exact tallied.of_le ⟨_, _, _, rfl, tallied.error⟩ rfl rfl (forall_write
    (P := fun d after => after.eligible ≤ (ledger.accounts d).eligible) fewer fun _ => le_rfl)

theorem abandon (tallied : ledger.Tallied lengths) (c : ClientId) (reconnects : Bool)
    (fits : ledger.phase = .mainDuration → ledger.tally.reqFailed +
      ((ledger.accounts c).reqInflight + (ledger.accounts c).reqLeft) < sizeMax) :
    (ledger.abandon c reconnects).Tallied lengths := by
  unfold Ledger.abandon
  by_cases main : ledger.phase = .mainDuration
  · have room := fits main
    rw [if_neg (not_not.mpr main)]
    split
    · exact (tallied.addFailed (by omega)).write le_rfl
    · have sum : addWrap (ledger.accounts c).reqInflight (ledger.accounts c).reqLeft =
          (ledger.accounts c).reqInflight + (ledger.accounts c).reqLeft :=
        Nat.mod_eq_of_lt (by omega)
      rw [sum]
      exact (tallied.addFailed room).write le_rfl
  · rw [if_pos main]
    exact tallied

theorem requestFailure (tallied : ledger.Tallied lengths) (c : ClientId) (keeps : Bool)
    (fits : ledger.phase = .mainDuration → ledger.tally.reqFailed +
      ((ledger.accounts c).reqInflight + (ledger.accounts c).reqLeft) < sizeMax) :
    (ledger.requestFailure c keeps).Tallied lengths := by
  unfold Ledger.requestFailure
  by_cases main : ledger.phase = .mainDuration
  · have room := fits main
    rw [if_neg (not_not.mpr main)]
    have left : ledger.tally.reqFailed + (ledger.accounts c).reqLeft < sizeMax := by omega
    have counted := tallied.addFailed left
    split
    · exact counted
    · exact counted.write le_rfl
  · rw [if_pos main]
    exact tallied

theorem outcome (tallied : ledger.Tallied lengths)
    (covered : Table.Covers ledger.scenarios request.scenarioIndex request.currRequestIdx)
    (opened : 1 ≤ (ledger.accounts c).eligible) (success statusSuccess : Bool) {account : Account}
    (closed : account.eligible = (ledger.accounts c).eligible - 1) :
    ((ledger.outcome success statusSuccess (some request)).write c account).Tallied lengths := by
  have known : c < ledger.clientCount := by
    by_contra beyond
    rw [tallied.unborn c (Nat.le_of_not_lt beyond)] at opened
    cases opened
  have total : ((ledger.outcome success statusSuccess (some request)).write c account).eligibleTotal +
      (ledger.accounts c).eligible = ledger.eligibleTotal + account.eligible := by
    refine eligibleTotal_of_change known ?_ (fun d other => ?_) ?_
    · rfl
    · rw [accounts_write, if_neg other]
      rfl
    · rw [accounts_write, if_pos rfl]
  have both := toNat_and_le success statusSuccess
  refine ⟨?_, ?_, ?_, ?_, tallied.sums_raised (Tally.raises_outcome success statusSuccess) covered,
    fun d beyond => ?_, ?_⟩
  · have before := tallied.statusSuccess
    simp only [Ledger.write, Ledger.outcome, Tally.reqStatusSuccess_outcome, Tally.reqSuccess_outcome]
    omega
  · have before := tallied.success
    have one := Bool.toNat_le success
    simp only [Ledger.write, Ledger.outcome, Tally.reqDone_outcome, Tally.reqSuccess_outcome]
    omega
  · have before := tallied.done
    show (Tally.outcome success statusSuccess ledger.tally).reqDone + _ ≤
      (Tally.outcome success statusSuccess ledger.tally).reqStarted
    rw [Tally.reqDone_outcome, Tally.reqStarted_outcome]
    omega
  · have before := tallied.error
    have fewer : (!success).toNat ≤ (!(success && statusSuccess)).toNat := by
      cases success <;> cases statusSuccess <;> decide
    simp only [Ledger.write, Ledger.outcome, Tally.reqError_outcome, Tally.reqFailed_outcome]
    omega
  · have other : d ≠ c := fun same => absurd known (Nat.not_lt_of_le (same ▸ beyond))
    rw [accounts_write, if_neg other]
    exact tallied.unborn d beyond
  · exact (Table.map_length_modify ..).trans tallied.shape

theorem started (tallied : ledger.Tallied lengths) {p d : ClientId} {scenario request eligible : Nat}
    (known : d < ledger.clientCount) (most : eligible ≤ (ledger.accounts d).eligible + 1)
    (covered : Table.Covers ledger.scenarios scenario request) :
    ((ledger.write d { ledger.accounts d with eligible := eligible }).countStart p scenario
      request).Tallied lengths := by
  have opened (x : ClientId) : (((ledger.write d { ledger.accounts d with
        eligible := eligible }).countStart p scenario request).accounts x).eligible =
      if x = d then eligible else (ledger.accounts x).eligible := by
    rw [accounts_countStart]
    by_cases at_p : x = p
    · subst at_p
      rw [if_pos rfl]
      simp only [Account.started, accounts_write]
      split <;> rfl
    · rw [if_neg at_p, accounts_write]
      split <;> rfl
  have total : ((ledger.write d { ledger.accounts d with eligible := eligible }).countStart p
        scenario request).eligibleTotal + (ledger.accounts d).eligible =
      ledger.eligibleTotal + eligible := by
    refine eligibleTotal_of_change known ?_ (fun x other => ?_) ?_
    · rfl
    · rw [opened, if_neg other]
    · rw [opened, if_pos rfl]
  have raises : Tally.Raises fun tally => { tally with reqStarted := tally.reqStarted + 1 } := by
    simp only [Tally.Raises, Tally.counts, List.forall_mem_cons, List.not_mem_nil, false_implies,
      implies_true, and_true]
    exact ⟨⟨1, fun _ => rfl⟩, ⟨0, fun _ => rfl⟩, ⟨0, fun _ => rfl⟩, 0, fun _ => rfl⟩
  have before := tallied.done
  refine ⟨tallied.statusSuccess, tallied.success, ?_, tallied.error, tallied.sums_raised raises covered,
    fun x beyond => ?_, ?_⟩
  · show ledger.tally.reqDone + _ ≤ ledger.tally.reqStarted + 1
    omega
  · have other : x ≠ d := fun same => absurd known (Nat.not_lt_of_le (same ▸ beyond))
    rw [opened, if_neg other]
    exact tallied.unborn x beyond
  · exact (Table.map_length_modify ..).trans tallied.shape

end Ledger.Tallied

/-! ## Effects and groups -/

def Config.requestCounts (cfg : Config) : List Nat :=
  cfg.scenarios.map fun scenario => scenario.requests.length

theorem covers_of_valid {ledger : Ledger} (tallied : ledger.Tallied cfg.requestCounts)
    (valid : request.Valid cfg) :
    Table.Covers ledger.scenarios request.scenarioIndex request.currRequestIdx := by
  obtain ⟨scenario, found, inside⟩ := valid
  have lengths : (ledger.scenarios.map List.length)[request.scenarioIndex]? =
      some scenario.requests.length := by
    rw [tallied.shape, Config.requestCounts, List.getElem?_map,
      show cfg.scenarios[request.scenarioIndex]? = some scenario from found]
    rfl
  rw [List.getElem?_map, Option.map_eq_some_iff] at lengths
  obtain ⟨entries, row, length⟩ := lengths
  exact ⟨entries, row, by omega⟩

theorem tallied_closing {id : Nat} {success : Bool} {later : Ledger}
    (closing : Closing w c id success later) (indexed : w.Indexed)
    (tallied : w.ledger.Tallied w.config.requestCounts) : later.Tallied w.config.requestCounts := by
  cases closing with
  | absent _ _ after | ineligible _ _ _ _ after =>
    subst after
    exact tallied.write le_rfl
  | outside _ after =>
    subst after
    exact tallied.write (Nat.sub_le _ _)
  | counted stream statusSuccess phase opened included after =>
    have stored : id ∈ (w.clients c).requestsAwaitingResponse :=
      (indexed c).opened id (AList.lookup_isSome.mp (by rw [opened]; rfl))
    obtain ⟨request, found⟩ := Option.isSome_iff_exists.mp (AList.lookup_isSome.mpr stored)
    have one : 1 ≤ (w.ledger.accounts c).eligible := by
      have most := eligibleAt_le (w.clients c) id
      show 1 ≤ (w.clients c).eligibleStreams
      simpa [Client.eligibleAt, opened, included] using most
    rw [after, found]
    exact tallied.outcome (covers_of_valid tallied ((indexed c).stored id request found)) one
      success statusSuccess rfl

theorem tallied_alone {permits : Ledger → ClientId → Prop} {e : Effect} (fits : Alone permits w e)
    (room : FailuresFit w e) (indexed : w.Indexed) (tallied : w.ledger.Tallied w.config.requestCounts) :
    (e.act w).ledger.Tallied w.config.requestCounts := by
  have booked := booked_act w e
  generalize (e.act w).ledger = after at booked ⊢
  cases booked with
  | silent => exact tallied
  | createClient | createDestClient => exact tallied.created rfl rfl rfl rfl
  | allocateSession => exact tallied.write le_rfl
  | listClient | setPhase =>
    exact tallied.of_le ⟨_, _, _, rfl, tallied.error⟩ rfl rfl fun _ => le_rfl
  | disconnect => exact tallied.write (Nat.zero_le _)
  | freeClient c =>
    rw [Ledger.reportDone]
    split
    · have written : (w.ledger.write c { w.ledger.accounts c with
          reqTodo := (w.ledger.accounts c).reqDone }).Tallied w.config.requestCounts :=
        tallied.write le_rfl
      exact written.of_le ⟨_, _, _, rfl, tallied.error⟩ rfl rfl fun _ => le_rfl
    · exact tallied
  | startRequest d now stray offset eligible most =>
    rw [show w.currentPhase.statsEligible = false from fits] at most
    exact tallied.write most
  | countStart | failInflight => cases fits
  | requestFailure c => exact tallied.requestFailure c _ room
  | abandonStreams c => exact tallied.abandon c _ room
  | timeout c before =>
    subst before
    exact (tallied.abandon c _ room).write (Nat.zero_le _)
  | closeStream _ _ _ _ _ _ closing => exact tallied_closing closing indexed tallied

theorem tallied_lost {links : List Link} {account : Effect}
    (accounts : account = .failInflight c ∨ account = .abandonStreams c)
    (room : Along FailuresFit w (.disconnect c :: (links.map (Effect.setLink c) ++ [account])))
    {lengths : List Nat} (tallied : w.ledger.Tallied lengths) :
    (replay w (.disconnect c :: (links.map (Effect.setLink c) ++ [account]))).ledger.Tallied lengths := by
  obtain ⟨v, reconnects, dropped, fits, after, -⟩ := ledger_lost accounts room
  have before : v.ledger.Tallied lengths := by
    rw [dropped]
    exact tallied.write (Nat.zero_le _)
  rw [after]
  refine before.abandon c reconnects ?_
  rcases accounts with rfl | rfl <;> exact fits

theorem tallied_submitted {p d : ClientId} {sent : List Effect} {scenario request now stray : Nat}
    {offset : Int} (scenarios : w.config.scenarios.isEmpty = false)
    (taken : Submitted w p d sent scenario request) (rooted : w.Rooted) (indexed : w.Indexed)
    (tallied : w.ledger.Tallied w.config.requestCounts) : (replay w (.startRequest d now stray offset ::
      (sent ++ [.countStart p scenario request]))).ledger.Tallied w.config.requestCounts := by
  obtain ⟨eligible, after, most, -⟩ := taken.ledger now stray offset
  obtain ⟨first, rest, queue, rfl, rfl⟩ := taken.front scenarios
  rw [after]
  refine tallied.started (taken.destination_known rooted) most (covers_of_valid tallied ?_)
  exact (indexed d).queued first (by simp [Client.queued, queue])

theorem tallied_group {permits : Ledger → ClientId → Prop} {group : List Effect}
    (grouped : Group permits w group) (room : Along FailuresFit w group)
    (scenarios : w.config.scenarios.isEmpty = false) (rooted : w.Rooted) (indexed : w.Indexed)
    (tallied : w.ledger.Tallied w.config.requestCounts) :
    (replay w group).ledger.Tallied w.config.requestCounts := by
  cases grouped with
  | alone fits => exact tallied_alone fits room.1 indexed tallied
  | lost accounts => exact tallied_lost accounts room tallied
  | submitted taken => exact tallied_submitted scenarios taken rooted indexed tallied

/-! ## Runs -/

theorem tallied_initial (cfg : Config) (reqTodo nclients : Nat) :
    (World.initial cfg reqTodo nclients).ledger.Tallied cfg.requestCounts := by
  refine ⟨le_rfl, le_rfl, le_rfl, le_rfl, fun f member => ?_, fun _ _ => rfl, ?_⟩
  · have zero : f { reqTodo := reqTodo } = 0 := by
      revert f
      simp [Tally.counts]
    simp [Table.sum, World.ledger, World.initial, Stats.tally, Function.comp_def, zero]
  · simp [World.ledger, World.initial, Config.requestCounts, Function.comp_def]

theorem sum_ledger_scenarios (w : World) (f : Tally → Nat) :
    Table.sum f w.ledger.scenarios = Table.sum (fun stats => f stats.tally) w.scenarioStats := by
  simp [Table.sum, World.ledger, Function.comp_def]

theorem statsAgree_of_tallied {lengths : List Nat} (tallied : w.ledger.Tallied lengths) : w.StatsAgree where
  statusSuccess := tallied.statusSuccess
  success := tallied.success
  done := Nat.le_of_add_right_le tallied.done
  error := tallied.error
  startedSum := (sum_ledger_scenarios w _).symm.trans (tallied.sums Tally.reqStarted (by simp [Tally.counts]))
  doneSum := (sum_ledger_scenarios w _).symm.trans (tallied.sums Tally.reqDone (by simp [Tally.counts]))
  successSum := (sum_ledger_scenarios w _).symm.trans (tallied.sums Tally.reqSuccess (by simp [Tally.counts]))
  statusSuccessSum :=
    (sum_ledger_scenarios w _).symm.trans (tallied.sums Tally.reqStatusSuccess (by simp [Tally.counts]))

/-- **The statistics of a worker that runs scenarios compare as they are meant to.** -/
theorem statsAgree_of_run (env : Env) (cfg : Config) (reqTodo nclients : Nat) (events : List Event)
    (log : List Effect) (scenarios : cfg.scenarios ≠ [])
    (run : Run env (World.initial cfg reqTodo nclients) events log)
    (inTurn : Along TakesInTurn (World.initial cfg reqTodo nclients) log)
    (room : Along FailuresFit (World.initial cfg reqTodo nclients) log) :
    (replay (World.initial cfg reqTodo nclients) log).StatsAgree := by
  have some_scenario : cfg.scenarios.isEmpty = false := by simpa using scenarios
  have grouped : Grouped (Group fun _ _ => True) (World.initial cfg reqTodo nclients) log :=
    grouped_of_run (fun _ _ _ => trivial) run
      (eventsAlong_of_forall fun _ _ _ _ => trivial) inTurn
  let good (w : World) : Prop := w.Rooted ∧ (w.config.scenarios.isEmpty = false ∧ w.Indexed) ∧
    w.ledger.Tallied w.config.requestCounts
  have kept : ∀ w group, Group (fun _ _ => True) w group → Along FailuresFit w group → good w →
      good (replay w group) := by
    rintro w group first fits ⟨rooted, indexed, tallied⟩
    refine ⟨rooted_group first rooted, replay_preserves indexed_apply group indexed, ?_⟩
    rw [config_replay]
    exact tallied_group first fits indexed.1 rooted indexed.2 tallied
  have last : good (replay (World.initial cfg reqTodo nclients) log) :=
    grouped.invariant kept room
      ⟨rooted_initial cfg reqTodo nclients, ⟨some_scenario, indexed_initial cfg reqTodo nclients⟩,
        tallied_initial cfg reqTodo nclients⟩
  exact statsAgree_of_tallied last.2.2

/-! ## Poles -/

/-- The first requests are for another host, the later ones for the controller's own, where
nghttp2 takes none. -/
def refusingEnv : Env where
  assembly tick _ :=
    { assembled :=
        { schema := "http"
          authority := if tick < 20 then "other:80" else "host:80" } }
  requestAllowed tick := decide (tick < 20)

/-- **Refuting pole**: one request was to be made; the sub-client makes the controller start a second, the
count of requests left wraps, and with the failure of a third so do the failures. -/
theorem wrapped_not_statsAgree :
    ¬ ∀ (env : Env) (cfg : Config) (reqTodo nclients : Nat) (events : List Event) (log : List Effect),
      cfg.scenarios ≠ [] → Run env (World.initial cfg reqTodo nclients) events log →
        (replay (World.initial cfg reqTodo nclients) log).StatsAgree := by
  intro always
  have agree := always refusingEnv fanOutConfig 1 1
    [.createClient, .connected 0 (some .http2), .connected 1 (some .http2), .streamClose 1 1 true,
      .streamClose 1 3 true] _ (by decide) (run_of_isSome (by decide +kernel))
  exact absurd agree.error (by decide +kernel)

/-- **Satisfiable pole**: a request succeeds and the connection is lost with the next. -/
theorem lostAfterSuccess_statsAgree : ∃ log, Run {} (World.initial pairConfig 4 1)
        [.createClient, .connected 0 (some .http2), .statusCode 0 1 200, .streamClose 0 1 true,
          .connectionError 0] log ∧ (replay (World.initial pairConfig 4 1) log).stats.reqStatusSuccess = 1 ∧
      (replay (World.initial pairConfig 4 1) log).stats.reqFailed = 3 ∧
      (replay (World.initial pairConfig 4 1) log).StatsAgree := by
  exact ⟨_, run_of_isSome (by decide +kernel), by decide +kernel, by decide +kernel,
    statsAgree_of_run {} pairConfig 4 1 _ _ (by decide) (run_of_isSome (by decide +kernel)) (by decide +kernel)
      (by decide +kernel)⟩

end H2LoadRunner.Load

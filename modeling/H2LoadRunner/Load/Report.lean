/-
# Load.Report -- what the report makes of the statistics

At the end the statistics of the workers are summed up, and what is neither successful nor
failed is taken not to have been issued: `req_not_issued` is what was to do less the successes
and the failures, without a test.

`settled_of_runs`: successes and failures together do not exceed what was to do, and the
difference does not wrap, where every worker ended a run whose steps settle each request once
(`SettlesOnce`), take HTTP/1 requests in turn and stay within the budget.  In request-count
mode every request to do is at any time at most one of: not yet given to a client, left with
its controller, on an open stream, successful, failed.  In timing-based mode what was to do is
made up of what the listed clients have done.
-/
import H2LoadRunner.Load.Budget
import H2LoadRunner.Load.WorkerStats

namespace H2LoadRunner.Load

open Library Library.EffectLog

set_option autoImplicit false

/-! ## The report -/

/-- The sums that the number of requests not issued is made of. -/
structure Summary where
  reqTodo : Nat := 0
  reqStatusSuccess : Nat := 0
  reqFailed : Nat := 0

def Summary.add (summary : Summary) (stats : Stats) : Summary where
  reqTodo := summary.reqTodo + stats.reqTodo
  reqStatusSuccess := summary.reqStatusSuccess + stats.reqStatusSuccess
  reqFailed := summary.reqFailed + stats.reqFailed

def summarize (workers : List World) : Summary :=
  workers.foldl (fun summary w => summary.add w.stats) {}

def subWrap (a b : Nat) : Nat := (a + (sizeMax - b % sizeMax)) % sizeMax

def Summary.reqNotIssued (summary : Summary) : Nat :=
  subWrap (subWrap summary.reqTodo summary.reqStatusSuccess) summary.reqFailed

/-- Successes and failures are within what was to do, so their difference is in range. -/
structure Summary.Settled (summary : Summary) : Prop where
  within : summary.reqStatusSuccess + summary.reqFailed ≤ summary.reqTodo
  notIssued : summary.reqTodo < sizeMax →
    summary.reqNotIssued = summary.reqTodo - (summary.reqStatusSuccess + summary.reqFailed)

/-! ## Settling each request once -/

/-- What a client fails to issue is its own to fail: a controller's budget in request-count
mode. -/
def World.owns (w : World) (c : ClientId) : Bool :=
  (w.clients c).isController && !w.config.timingBasedMode

/-- Failures are counted for requests that nothing else is counted for. -/
def SettlesOnce (w : World) (e : Effect) : Prop :=
  match e with
  | .disconnect c => w.currentPhase = .mainDuration → w.config.timingBasedMode = false →
      (w.clients c).reqInflight ≤ (w.clients c).eligibleStreams
  | .failInflight c => w.currentPhase = .mainDuration → w.config.timingBasedMode = true →
      (w.clients c).reqInflight = 0
  | .abandonStreams c => w.currentPhase = .mainDuration →
      (w.config.timingBasedMode = true → (w.clients c).reqInflight = 0) ∧
        (w.owns c = true ∨ w.shouldReconnectOnDisconnect w.config c = true ∨ (w.clients c).reqLeft = 0)
  | .timeout c => w.currentPhase = .mainDuration →
      (w.config.timingBasedMode = true → (w.clients c).reqInflight = 0) ∧
        (w.config.timingBasedMode = false →
          (w.clients c).reqInflight ≤ (w.clients c).eligibleStreams) ∧
        (w.owns c = true ∨ w.shouldReconnectOnDisconnect w.config c = true ∨ (w.clients c).reqLeft = 0)
  | .requestFailure c exhausted => w.currentPhase = .mainDuration →
      (w.clients c).reqLeft = 0 ∨
        w.owns c = true ∧ exhausted = false ∧ w.shouldReconnectOnDisconnect w.config c = false
  | .closeStream c id _ _ _ _ => w.config.timingBasedMode = true →
      w.currentPhase.statsEligible = true →
        ((w.clients c).streams.lookup id).any Stream.statisticsEligible = true → c ∈ w.workerClients
  | _ => True

instance (w : World) (e : Effect) : Decidable (SettlesOnce w e) := by
  induction e using Effect.casesOn <;> dsimp only [SettlesOnce] <;> infer_instance

/-- The end of a run: every listed client has been freed.  In request-count mode there is a
request for each client. -/
structure Ended (env : Env) (cfg : Config) (reqTodo nclients : Nat) (events : List Event)
    (log : List Effect) : Prop where
  run : Run env (World.initial cfg reqTodo nclients) events log
  range : reqTodo < sizeMax
  assigned : cfg.timingBasedMode = false → nclients ≤ reqTodo
  freed : (replay (World.initial cfg reqTodo nclients) log).workerClients = []

def World.IsEnd (w : World) : Prop :=
  ∃ env cfg reqTodo nclients events log, Ended env cfg reqTodo nclients events log ∧
    w = replay (World.initial cfg reqTodo nclients) log

def World.IsFairEnd (w : World) : Prop :=
  ∃ env cfg reqTodo nclients events log, Ended env cfg reqTodo nclients events log ∧
    w = replay (World.initial cfg reqTodo nclients) log ∧
    Along TakesInTurn (World.initial cfg reqTodo nclients) log ∧
    (cfg.timingBasedMode = false → Along Affords (World.initial cfg reqTodo nclients) log) ∧
    Along SettlesOnce (World.initial cfg reqTodo nclients) log

/-! ## What is charged, and what covers it -/

def Tally.settled (tally : Tally) : Nat := tally.reqStatusSuccess + tally.reqFailed

/-- What a controller has left; a sub-client has nothing of its own. -/
def Account.owed (account : Account) : Nat :=
  match account.parent with
  | none => account.reqLeft
  | some _ => 0

/-- The requests an account may still settle, in request-count mode: a controller's budget and
the open streams. -/
def Account.exposed (account : Account) (timing : Bool) : Nat :=
  if timing then 0 else account.owed + account.eligible

namespace Ledger

def exposure (ledger : Ledger) : Nat :=
  ∑ c ∈ Finset.range ledger.clientCount, (ledger.accounts c).exposed ledger.timingBasedMode

def undistributed (ledger : Ledger) : Nat :=
  if ledger.timingBasedMode then 0
  else (ledger.nclients - ledger.nconnsMade) * ledger.nreqsPerClient + ledger.nreqsRem

def listedDone (ledger : Ledger) : Nat :=
  (ledger.workerClients.map fun c => (ledger.accounts c).reqDone).sum

/-- What is settled or may be, is to do or done by a listed client, up to a slack. -/
structure Settles (slack : Nat) (ledger : Ledger) : Prop where
  unlisted : ledger.timingBasedMode = false → ledger.workerClients = []
  assigned : ledger.timingBasedMode = false → 0 < ledger.nclients → 0 < ledger.nreqsPerClient
  unborn : ∀ c, ledger.clientCount ≤ c → ledger.accounts c = {}
  bound : ledger.tally.settled + ledger.exposure + ledger.undistributed ≤
    ledger.tally.reqTodo + ledger.listedDone + slack

end Ledger

@[simp] theorem Account.exposed_child (parent : ClientId) (reqTodo : Nat) (timing : Bool) :
    (Account.fresh (some parent) reqTodo).exposed timing = 0 := by
  cases timing <;> rfl

variable {account : Account} {w : World} {c : ClientId}

theorem Account.owed_root (root : account.parent = none) : account.owed = account.reqLeft := by
  simp [owed, root]

theorem Account.reqLeft_le_owed (holds : account.parent = none ∨ account.reqLeft = 0) :
    account.reqLeft ≤ account.owed := by
  rcases holds with root | spent
  · exact (owed_root root).ge
  · exact spent.le.trans (Nat.zero_le _)

theorem Account.owed_spent (none : account.reqLeft = 0) : account.owed = 0 := by
  unfold owed
  split
  · exact none
  · rfl

theorem Account.owed_congr {before after : Account} (parent : after.parent = before.parent)
    (left : after.reqLeft = before.reqLeft) : after.owed = before.owed := by
  simp only [owed, parent, left]

theorem Account.exposed_le {before after : Account} (parent : after.parent = before.parent)
    (left : after.reqLeft ≤ before.reqLeft) (eligible : after.eligible ≤ before.eligible)
    (timing : Bool) : after.exposed timing ≤ before.exposed timing := by
  unfold exposed owed
  rw [parent]
  split_ifs
  · exact le_rfl
  · split <;> omega

theorem addWrap_le (a b : Nat) : addWrap a b ≤ a + b := Nat.mod_le _ _

def Ledger.recorded (ledger : Ledger) (c : ClientId) (account : Account) (tally : Tally)
    (scenarios : List (List Tally)) : Ledger :=
  { ledger with tally := tally, scenarios := scenarios }.write c account

theorem Ledger.accounts_recorded (ledger : Ledger) (c d : ClientId) (account : Account) (tally : Tally)
    (scenarios : List (List Tally)) :
    (ledger.recorded c account tally scenarios).accounts d =
      if d = c then account else ledger.accounts d :=
  Ledger.accounts_write _ c d account

namespace Ledger.Settles

variable {ledger : Ledger} {slack later : Nat} {c : ClientId} {account : Account} {tally : Tally}
  {scenarios : List (List Tally)}

theorem exposure_recorded (settles : ledger.Settles slack) (known : c < ledger.clientCount ∨ account = {}) :
    (ledger.recorded c account tally scenarios).exposure +
        (ledger.accounts c).exposed ledger.timingBasedMode =
      ledger.exposure + account.exposed ledger.timingBasedMode := by
  by_cases born : c < ledger.clientCount
  · have changed := sum_of_change (Finset.mem_range.mpr born)
      (f := fun d => (ledger.accounts d).exposed ledger.timingBasedMode)
      (g := fun d => ((ledger.recorded c account tally scenarios).accounts d).exposed
        ledger.timingBasedMode) fun d _ other => by
          rw [accounts_recorded, if_neg other]
    rw [accounts_recorded, if_pos rfl] at changed
    exact changed
  · have empty := known.resolve_left born
    rw [settles.unborn c (Nat.le_of_not_lt born), empty]
    congr 1
    refine Finset.sum_congr rfl fun d member => ?_
    rw [accounts_recorded, if_neg]
    · rfl
    · rintro rfl
      exact born (Finset.mem_range.mp member)

theorem listedDone_recorded (done : (ledger.accounts c).reqDone ≤ account.reqDone) :
    ledger.listedDone ≤ (ledger.recorded c account tally scenarios).listedDone :=
  List.sum_le_sum fun d _ => forall_write
    (P := fun d after => (ledger.accounts d).reqDone ≤ after.reqDone) done (fun _ => le_rfl) d

theorem recorded (settles : ledger.Settles slack) (known : c < ledger.clientCount ∨ account = {})
    (todo : tally.reqTodo = ledger.tally.reqTodo)
    (charge : tally.settled + account.exposed ledger.timingBasedMode + ledger.listedDone + slack ≤
      ledger.tally.settled + (ledger.accounts c).exposed ledger.timingBasedMode +
        (ledger.recorded c account tally scenarios).listedDone + later) :
    (ledger.recorded c account tally scenarios).Settles later where
  unlisted := settles.unlisted
  assigned := settles.assigned
  unborn := forall_write (P := fun d after => ledger.clientCount ≤ d → after = {})
    (fun beyond => known.resolve_left (Nat.not_lt_of_le beyond)) settles.unborn
  bound := by
    have changed : (ledger.recorded c account tally scenarios).exposure + _ = _ :=
      settles.exposure_recorded known
    have bound := settles.bound
    show tally.settled + _ + ledger.undistributed ≤ tally.reqTodo + _ + later
    rw [todo]
    omega

theorem settled (settles : ledger.Settles slack)
    (known : c < ledger.clientCount ∨ account = {}) (todo : tally.reqTodo = ledger.tally.reqTodo)
    (done : (ledger.accounts c).reqDone ≤ account.reqDone)
    (charge : tally.settled + account.exposed ledger.timingBasedMode + slack ≤
      ledger.tally.settled + (ledger.accounts c).exposed ledger.timingBasedMode + later) :
    (ledger.recorded c account tally scenarios).Settles later := by
  have listed : ledger.listedDone ≤ (ledger.recorded c account tally scenarios).listedDone :=
    listedDone_recorded done
  exact settles.recorded known todo (by omega)

theorem known_or_empty (settles : ledger.Settles slack)
    (kept : ledger.accounts c = {} → account = {}) : c < ledger.clientCount ∨ account = {} := by
  by_cases born : c < ledger.clientCount
  · exact .inl born
  · exact .inr (kept (settles.unborn c (Nat.le_of_not_lt born)))

theorem write (settles : ledger.Settles slack) (known : c < ledger.clientCount ∨ account = {})
    (done : (ledger.accounts c).reqDone ≤ account.reqDone)
    (parent : account.parent = (ledger.accounts c).parent)
    (left : account.reqLeft ≤ (ledger.accounts c).reqLeft)
    (eligible : account.eligible ≤ (ledger.accounts c).eligible) :
    (ledger.write c account).Settles slack :=
  settles.settled known rfl done (Nat.add_le_add_right
    (Nat.add_le_add_left (Account.exposed_le parent left eligible ledger.timingBasedMode) _) _)

theorem created (settles : ledger.Settles slack) {parent : Option ClientId} {reqTodo : Nat}
    {nreqsRem nconnsMade : Nat}
    (charge : { ledger with nreqsRem := nreqsRem, nconnsMade := nconnsMade }.undistributed +
      (Account.fresh parent reqTodo).exposed ledger.timingBasedMode ≤ ledger.undistributed) :
    { ledger.write ledger.clientCount (.fresh parent reqTodo) with
      clientCount := ledger.clientCount + 1
      nreqsRem := nreqsRem
      nconnsMade := nconnsMade }.Settles slack := by
  have unborn := settles.unborn _ le_rfl
  have exposure : ∑ c ∈ Finset.range (ledger.clientCount + 1),
      ((ledger.write ledger.clientCount (.fresh parent reqTodo)).accounts c).exposed
        ledger.timingBasedMode =
      ledger.exposure + (Account.fresh parent reqTodo).exposed ledger.timingBasedMode := by
    rw [Finset.sum_range_succ, accounts_write, if_pos rfl]
    congr 1
    refine Finset.sum_congr rfl fun c member => ?_
    rw [accounts_write, if_neg (Nat.ne_of_lt (Finset.mem_range.mp member))]
  have listed : (ledger.workerClients.map fun c =>
      ((ledger.write ledger.clientCount (.fresh parent reqTodo)).accounts c).reqDone) =
      ledger.workerClients.map fun c => (ledger.accounts c).reqDone :=
    List.map_congr_left fun c _ => read_write Account.reqDone (by rw [unborn]; rfl) c
  refine ⟨settles.unlisted, settles.assigned, fun c beyond => ?_, ?_⟩
  · show (ledger.write ledger.clientCount _).accounts c = {}
    rw [accounts_write, if_neg (Nat.ne_of_gt beyond)]
    exact settles.unborn c (Nat.le_of_succ_le beyond)
  · have bound := settles.bound
    have after : ledger.tally.settled +
        (ledger.exposure + (Account.fresh parent reqTodo).exposed ledger.timingBasedMode) +
          { ledger with nreqsRem := nreqsRem, nconnsMade := nconnsMade }.undistributed ≤
        ledger.tally.reqTodo + ledger.listedDone + slack := by omega
    rw [Ledger.listedDone, ← exposure, ← listed] at after
    exact after

end Ledger.Settles

/-! ## Failures -/

namespace Ledger.Settles

variable {ledger : Ledger} {c : ClientId}

theorem failed (settles : ledger.Settles 0) {count : Nat} {before after : Account}
    (kept : ledger.accounts c = {} → after = {}) (done : (ledger.accounts c).reqDone ≤ after.reqDone)
    (charge : count + after.exposed ledger.timingBasedMode ≤
      (ledger.accounts c).exposed ledger.timingBasedMode) :
    (((ledger.write c before).addFailed count).write c after).Settles 0 := by
  have recorded : ((ledger.write c before).addFailed count).write c after =
      ledger.recorded c after (ledger.addFailed count).tally ledger.scenarios := by
    simp only [Ledger.write, Ledger.addFailed, Ledger.recorded, Function.update_idem]
  have most : (ledger.addFailed count).tally.settled ≤ ledger.tally.settled + count := by
    have wrapped := addWrap_le ledger.tally.reqFailed count
    show ledger.tally.reqStatusSuccess + addWrap ledger.tally.reqFailed count ≤ _
    unfold Tally.settled
    omega
  rw [recorded]
  exact settles.settled (settles.known_or_empty kept) rfl done (by omega)

/-- A connection is lost: what was in flight fails for the streams that go, and what is left for
the budget. -/
theorem lost (settles : ledger.Settles 0) {reconnects : Bool}
    (streams : ledger.phase = .mainDuration → ledger.timingBasedMode = false →
      (ledger.accounts c).reqInflight ≤ (ledger.accounts c).eligible)
    (timed : ledger.phase = .mainDuration → ledger.timingBasedMode = true →
      (ledger.accounts c).reqInflight = 0) (left : ledger.phase = .mainDuration →
      (ledger.accounts c).parent = none ∧ ledger.timingBasedMode = false ∨ reconnects = true ∨
        (ledger.accounts c).reqLeft = 0) :
    ((ledger.write c (ledger.accounts c).dropped).abandon c reconnects).Settles 0 := by
  unfold Ledger.abandon
  rw [accounts_write, if_pos rfl]
  by_cases main : ledger.phase = .mainDuration
  · rw [if_neg (not_not.mpr (show (ledger.write c _).phase = _ from main))]
    specialize streams main
    specialize timed main
    specialize left main
    split
    · refine settles.failed (fun empty => by rw [empty]; rfl) le_rfl ?_
      have after : Account.exposed { (ledger.accounts c).dropped with reqInflight := 0 }
          ledger.timingBasedMode = if ledger.timingBasedMode then 0 else (ledger.accounts c).owed := rfl
      refine (Nat.add_le_add_left after.le _).trans ?_
      show (ledger.accounts c).reqInflight + _ ≤ _
      unfold Account.exposed
      split_ifs with timing
      · exact Nat.le_of_eq (timed timing)
      · have covered := streams (Bool.eq_false_of_not_eq_true timing)
        omega
    · rename_i stays
      refine settles.failed (fun empty => by rw [empty]; rfl) le_rfl ?_
      have most := addWrap_le (ledger.accounts c).reqInflight (ledger.accounts c).reqLeft
      have given : Account.owed { (ledger.accounts c).dropped with
          reqInflight := 0
          reqLeft := 0 } = 0 := Account.owed_spent rfl
      have after : Account.exposed { (ledger.accounts c).dropped with reqInflight := 0, reqLeft := 0 }
          ledger.timingBasedMode ≤ 0 := by
        unfold Account.exposed
        rw [given]
        split_ifs <;> exact le_rfl
      refine (Nat.add_le_add_left after _).trans ?_
      show addWrap (ledger.accounts c).reqInflight (ledger.accounts c).reqLeft + 0 ≤ _
      unfold Account.exposed
      split_ifs with timing
      · have idle := timed timing
        have spent : (ledger.accounts c).reqLeft = 0 := by simpa [timing, stays] using left
        omega
      · have covered := streams (Bool.eq_false_of_not_eq_true timing)
        have owed := Account.reqLeft_le_owed
          (left.imp (fun root => root.1) fun others => others.resolve_left stays)
        omega
  · rw [if_pos (show (ledger.write c _).phase ≠ _ from main)]
    exact settles.write (settles.known_or_empty fun empty => by rw [empty]; rfl) le_rfl rfl le_rfl
      (Nat.zero_le _)

/-- The order in which a client drops its connection and accounts for it does not matter. -/
theorem abandon_write_dropped (ledger : Ledger) (c : ClientId) (reconnects : Bool) :
    (ledger.abandon c reconnects).write c ((ledger.abandon c reconnects).accounts c).dropped =
      (ledger.write c (ledger.accounts c).dropped).abandon c reconnects := by
  unfold Ledger.abandon
  rw [accounts_write, if_pos rfl]
  by_cases main : ledger.phase = .mainDuration
  · rw [if_neg (not_not.mpr main), if_neg (not_not.mpr (show (ledger.write c _).phase = _ from main))]
    split
    · simp [Ledger.addFailed, Ledger.write, Account.dropped]
    · simp [Ledger.addFailed, Ledger.write, Account.dropped]
  · rw [if_pos main, if_pos (show (ledger.write c _).phase ≠ _ from main)]

theorem requestFailure (settles : ledger.Settles 0) {keeps : Bool}
    (left : ledger.phase = .mainDuration → (ledger.accounts c).reqLeft = 0 ∨
      ((ledger.accounts c).parent = none ∧ ledger.timingBasedMode = false) ∧ keeps = false) :
    (ledger.requestFailure c keeps).Settles 0 := by
  unfold Ledger.requestFailure
  by_cases main : ledger.phase = .mainDuration
  · rw [if_neg (not_not.mpr main)]
    have counted {after : Account} (kept : ledger.accounts c = {} → after = {})
        (done : (ledger.accounts c).reqDone ≤ after.reqDone)
        (charge : (ledger.accounts c).reqLeft + after.exposed ledger.timingBasedMode ≤
          (ledger.accounts c).exposed ledger.timingBasedMode) :
        ((ledger.addFailed (ledger.accounts c).reqLeft).write c after).Settles 0 := by
      have failed : (((ledger.write c (ledger.accounts c)).addFailed _).write c after).Settles 0 :=
        settles.failed kept done charge
      rwa [ledger.write_self c] at failed
    split
    · rename_i stays
      have spent : (ledger.accounts c).reqLeft = 0 := by simpa [stays] using left main
      have failed := counted (fun empty => empty) le_rfl (by omega)
      have same : (ledger.addFailed (ledger.accounts c).reqLeft).write c (ledger.accounts c) = _ :=
        (ledger.addFailed (ledger.accounts c).reqLeft).write_self c
      rwa [same] at failed
    · refine counted (fun empty => by rw [empty]) le_rfl ?_
      have given : Account.owed { ledger.accounts c with reqLeft := 0 } = 0 := Account.owed_spent rfl
      unfold Account.exposed
      rw [given]
      dsimp only
      split_ifs with timing
      · exact Nat.le_of_eq (by simpa [timing] using left main)
      · have owed := Account.reqLeft_le_owed ((left main).symm.imp_left fun gives => gives.1.1)
        omega
  · rw [if_pos main]
    exact settles

variable {account : Account}

theorem listedDone_lt (member : c ∈ ledger.workerClients) {tally : Tally}
    {scenarios : List (List Tally)} (done : account.reqDone = (ledger.accounts c).reqDone + 1) :
    ledger.listedDone < (ledger.recorded c account tally scenarios).listedDone := by
  refine List.sum_lt_sum _ _ (fun d _ => forall_write
    (P := fun d after => (ledger.accounts d).reqDone ≤ after.reqDone) (by omega) (fun _ => le_rfl) d)
    ⟨c, member, ?_⟩
  rw [accounts_recorded, if_pos rfl, done]
  exact Nat.lt_succ_self _

theorem outcome (settles : ledger.Settles 0) (opened : 1 ≤ (ledger.accounts c).eligible)
    (listed : ledger.timingBasedMode = true → c ∈ ledger.workerClients)
    (success statusSuccess : Bool) {scenarios : List (List Tally)}
    (parent : account.parent = (ledger.accounts c).parent)
    (left : account.reqLeft = (ledger.accounts c).reqLeft)
    (closed : account.eligible = (ledger.accounts c).eligible - 1)
    (done : account.reqDone = (ledger.accounts c).reqDone + 1) :
    (ledger.recorded c account (ledger.tally.outcome success statusSuccess) scenarios).Settles 0 := by
  have known : c < ledger.clientCount := by
    by_contra beyond
    rw [settles.unborn c (Nat.le_of_not_lt beyond)] at opened
    cases opened
  have settled : (ledger.tally.outcome success statusSuccess).settled = ledger.tally.settled + 1 := by
    cases success <;> cases statusSuccess <;> simp [Tally.settled, Tally.outcome] <;> omega
  have todo : (ledger.tally.outcome success statusSuccess).reqTodo = ledger.tally.reqTodo := by
    cases success <;> cases statusSuccess <;> rfl
  refine settles.recorded (.inl known) todo ?_
  have least : ledger.listedDone ≤ (ledger.recorded c account
      (ledger.tally.outcome success statusSuccess) scenarios).listedDone := listedDone_recorded (by omega)
  have owed := Account.owed_congr parent left
  rw [settled]
  unfold Account.exposed
  split_ifs with timing
  · have more : ledger.listedDone < (ledger.recorded c account
        (ledger.tally.outcome success statusSuccess) scenarios).listedDone :=
      listedDone_lt (listed timing) done
    omega
  · omega

theorem taken (settles : ledger.Settles 0) (known : c < ledger.clientCount)
    (parent : account.parent = (ledger.accounts c).parent)
    (left : account.reqLeft = (ledger.accounts c).reqLeft)
    (done : account.reqDone = (ledger.accounts c).reqDone)
    (most : account.eligible ≤ (ledger.accounts c).eligible + 1) :
    (ledger.write c account).Settles (if ledger.timingBasedMode then 0 else 1) := by
  have owed := Account.owed_congr parent left
  refine settles.settled (.inl known) rfl done.ge ?_
  unfold Account.exposed
  split_ifs <;> omega

theorem decWrap_lt {left : Nat} (positive : 0 < left) : decWrap left + 1 ≤ left := by
  unfold decWrap sizeMax
  omega

theorem countStart (settles : ledger.Settles (if ledger.timingBasedMode then 0 else 1))
    (known : c < ledger.clientCount) (root : (ledger.accounts c).parent = none)
    (positive : ledger.timingBasedMode = false → 0 < (ledger.accounts c).reqLeft)
    (scenario request : Nat) : (ledger.countStart c scenario request).Settles 0 := by
  have shape : ledger.countStart c scenario request =
      ledger.recorded c ((ledger.accounts c).started ledger.timingBasedMode)
        { ledger.tally with reqStarted := ledger.tally.reqStarted + 1 }
        (Table.modify scenario request (fun tally => { tally with reqStarted := tally.reqStarted + 1 })
          ledger.scenarios) := rfl
  rw [shape]
  refine settles.settled (.inl known) rfl (by simp [Account.started]) ?_
  show ledger.tally.settled + _ + _ ≤ _
  have opened : ((ledger.accounts c).started ledger.timingBasedMode).eligible =
      (ledger.accounts c).eligible := rfl
  have after : ((ledger.accounts c).started ledger.timingBasedMode).owed =
      ((ledger.accounts c).started ledger.timingBasedMode).reqLeft := Account.owed_root root
  rw [Account.reqLeft_started] at after
  unfold Account.exposed
  rw [after, opened, Account.owed_root root]
  split_ifs with timing
  · omega
  · have less := decWrap_lt (positive (Bool.eq_false_of_not_eq_true timing))
    omega

theorem reportDone (settles : ledger.Settles 0) : (ledger.reportDone c).Settles 0 := by
  unfold Ledger.reportDone
  split
  · rename_i listed
    have member : c ∈ ledger.workerClients := by simpa using listed
    have timing : ledger.timingBasedMode = true := by
      by_contra counted
      rw [settles.unlisted (by simpa using counted)] at member
      cases member
    refine ⟨fun counted => absurd (timing.symm.trans counted) (by decide), settles.assigned,
      forall_write (P := fun d after => ledger.clientCount ≤ d → after = {})
        (fun beyond => by rw [settles.unborn c beyond]) settles.unborn, ?_⟩
    have bound := settles.bound
    have split : (ledger.accounts c).reqDone +
        ((ledger.workerClients.erase c).map fun d => (ledger.accounts d).reqDone).sum =
        ledger.listedDone := List.sum_map_erase (fun d => (ledger.accounts d).reqDone) member
    have rest : ((ledger.workerClients.erase c).map fun d => ((ledger.write c { ledger.accounts c with
        reqTodo := (ledger.accounts c).reqDone }).accounts d).reqDone) =
        (ledger.workerClients.erase c).map fun d => (ledger.accounts d).reqDone :=
      List.map_congr_left fun d _ => read_write Account.reqDone (by rfl) d
    unfold Ledger.exposure Ledger.undistributed Account.exposed at bound
    unfold Ledger.exposure Ledger.undistributed Ledger.listedDone Account.exposed
    dsimp only [Ledger.write] at rest ⊢
    rw [rest]
    simp only [timing, Finset.sum_const_zero, if_true] at bound ⊢
    show ledger.tally.settled + 0 + 0 ≤ ledger.tally.reqTodo + (ledger.accounts c).reqDone + _ + 0
    omega
  · exact settles

end Ledger.Settles

/-! ## Effects and groups -/

theorem settles_closing {id : Nat} {success : Bool} {later : Ledger} (closing : Closing w c id success later)
    (listed : w.config.timingBasedMode = true → w.currentPhase.statsEligible = true →
      ((w.clients c).streams.lookup id).any Stream.statisticsEligible = true → c ∈ w.workerClients)
    (settles : w.ledger.Settles 0) : later.Settles 0 := by
  cases closing with
  | absent _ _ after | ineligible _ _ _ _ after =>
    subst after
    exact settles.write (settles.known_or_empty fun empty => by rw [empty]; rfl) le_rfl rfl le_rfl le_rfl
  | outside _ after =>
    subst after
    exact settles.write (settles.known_or_empty fun empty => by rw [empty]; simp) le_rfl rfl le_rfl
      (Nat.sub_le _ _)
  | counted stream statusSuccess phase opened included after =>
    have one : 1 ≤ (w.ledger.accounts c).eligible := by
      have most := eligibleAt_le (w.clients c) id
      show 1 ≤ (w.clients c).eligibleStreams
      simpa [Client.eligibleAt, opened, included] using most
    rw [after]
    refine settles.outcome one (fun timing => ?_) success statusSuccess rfl rfl rfl rfl
    exact listed timing phase (by simp [opened, included])

theorem settles_createClient (more : w.nconnsMade < w.nclients) (settles : w.ledger.Settles 0)
    (candidates : List String) : (w.createClient w.config candidates).ledger.Settles 0 := by
  rw [ledger_createClient]
  refine settles.created ?_
  cases timing : w.ledger.timingBasedMode with
  | true => simp [Ledger.undistributed, Account.exposed, timing]
  | false =>
    have some : 0 < w.nreqsPerClient := settles.assigned timing (Nat.zero_lt_of_lt more)
    have share : 0 < w.ledger.share := by
      unfold Ledger.share
      split
      · exact Nat.succ_pos _
      · exact some
    have exposed : (Account.fresh none w.ledger.share).exposed false = w.ledger.share :=
      if_neg (Nat.ne_of_gt share)
    have clients : (w.nclients - w.nconnsMade) * w.nreqsPerClient =
        (w.nclients - (w.nconnsMade + 1)) * w.nreqsPerClient + w.nreqsPerClient := by
      rw [← Nat.succ_mul]
      congr 1
      omega
    rw [exposed]
    simp only [Ledger.undistributed, timing, Bool.false_eq_true, if_false]
    show (w.nclients - (w.nconnsMade + 1)) * w.nreqsPerClient + (w.nreqsRem - 1) + w.ledger.share ≤
      (w.nclients - w.nconnsMade) * w.nreqsPerClient + w.nreqsRem
    have remainder : w.nreqsRem - 1 + w.ledger.share = w.nreqsPerClient + w.nreqsRem := by
      unfold Ledger.share
      split
      · rename_i left
        have left : 0 < w.nreqsRem := left
        show w.nreqsRem - 1 + (w.nreqsPerClient + 1) = _
        omega
      · rename_i none
        have none : ¬ 0 < w.nreqsRem := none
        show w.nreqsRem - 1 + w.nreqsPerClient = _
        omega
    omega

theorem owns_iff : w.owns c = true ↔
    (w.ledger.accounts c).parent = none ∧ w.ledger.timingBasedMode = false := by
  unfold World.owns
  rw [Bool.and_eq_true, isController_iff, Bool.not_eq_true']
  rfl

theorem settles_alone {permits : Ledger → ClientId → Prop} {e : Effect} (fits : Alone permits w e)
    (once : SettlesOnce w e) (settles : w.ledger.Settles 0) : (e.act w).ledger.Settles 0 := by
  have booked := booked_act w e
  generalize (e.act w).ledger = after at booked ⊢
  cases booked with
  | silent => exact settles
  | createClient candidates =>
    exact ledger_createClient w w.config candidates ▸ settles_createClient fits settles candidates
  | createDestClient parent schema authority =>
    refine settles.created ?_
    rw [Account.exposed_child]
    exact Nat.le_refl _
  | listClient c =>
    have timing : w.ledger.timingBasedMode = true := fits
    refine ⟨fun counted => absurd (timing.symm.trans counted) (by decide), settles.assigned,
      settles.unborn, settles.bound.trans ?_⟩
    have listed : (Effect.act (.listClient c) w).ledger.listedDone =
        w.ledger.listedDone + (w.ledger.accounts c).reqDone := by
      simp [Ledger.listedDone, World.ledger, Effect.act]
    show w.ledger.tally.reqTodo + w.ledger.listedDone + 0 ≤
      w.ledger.tally.reqTodo + (Effect.act (.listClient c) w).ledger.listedDone + 0
    rw [listed]
    omega
  | setPhase phase => exact { settles with }
  | allocateSession c protocol => exact settles.write (.inl fits) le_rfl rfl le_rfl le_rfl
  | disconnect c =>
    exact settles.write (settles.known_or_empty fun empty => by rw [empty]) le_rfl rfl le_rfl
      (Nat.zero_le _)
  | freeClient c => exact settles.reportDone
  | startRequest d now stray offset eligible most =>
    rw [show w.currentPhase.statsEligible = false from fits] at most
    refine settles.write (settles.known_or_empty fun empty => ?_) le_rfl rfl le_rfl most
    rw [empty] at most ⊢
    rw [Nat.le_zero.mp most]
  | countStart | failInflight => exact fits.elim
  | requestFailure c exhausted =>
    refine settles.requestFailure fun main => (once main).imp id ?_
    rintro ⟨owns, fresh, stays⟩
    exact ⟨owns_iff.mp owns, by simp [fresh, stays]⟩
  | abandonStreams c =>
    rw [Ledger.abandon, if_pos (show w.ledger.phase ≠ _ from fits)]
    exact settles
  | timeout c before =>
    subst before
    have lost : ((w.ledger.write c (w.ledger.accounts c).dropped).abandon c
        (w.shouldReconnectOnDisconnect w.config c)).Settles 0 :=
      settles.lost (fun main => (once main).2.1) (fun main => (once main).1)
        fun main => (once main).2.2.imp owns_iff.mp id
    rwa [← Ledger.Settles.abandon_write_dropped] at lost
  | closeStream _ _ _ _ _ _ closing => exact settles_closing closing once settles

theorem settles_lost {links : List Link} {account : Effect}
    (accounts : account = .failInflight c ∨ account = .abandonStreams c)
    (once : Along SettlesOnce w (.disconnect c :: (links.map (Effect.setLink c) ++ [account])))
    (settles : w.ledger.Settles 0) :
    (replay w (.disconnect c :: (links.map (Effect.setLink c) ++ [account]))).ledger.Settles 0 := by
  obtain ⟨v, reconnects, dropped, before, after, kind⟩ := ledger_lost accounts once
  have streams := once.1
  have phase : v.currentPhase = w.currentPhase := congrArg Ledger.phase dropped
  have timing : v.config.timingBasedMode = w.config.timingBasedMode :=
    congrArg Ledger.timingBasedMode dropped
  have here : v.ledger.accounts c = (w.ledger.accounts c).dropped := by
    rw [dropped, Ledger.accounts_write, if_pos rfl]
  have inflight : (v.clients c).reqInflight = (w.ledger.accounts c).reqInflight :=
    congrArg Account.reqInflight here
  have left : (v.clients c).reqLeft = (w.ledger.accounts c).reqLeft := congrArg Account.reqLeft here
  have parent : (v.ledger.accounts c).parent = (w.ledger.accounts c).parent := by
    rw [here]
    rfl
  rw [after, dropped]
  rcases kind with ⟨rfl, rfl⟩ | ⟨rfl, rfl⟩
  · refine settles.lost streams (fun main timed => ?_) fun _ => .inr (.inl rfl)
    exact inflight ▸ before (phase.trans main) (timing.trans timed)
  · refine settles.lost streams (fun main timed => ?_) fun main => ?_
    · exact inflight ▸ (before (phase.trans main)).1 (timing.trans timed)
    · rcases (before (phase.trans main)).2 with owns | again | spent
      · obtain ⟨root, counted⟩ := owns_iff.mp owns
        exact .inl ⟨parent ▸ root, timing.symm.trans counted⟩
      · exact .inr (.inl again)
      · exact .inr (.inr (left ▸ spent))

theorem settles_submitted {p d : ClientId} {sent : List Effect} {scenario request now stray : Nat}
    {offset : Int} (taken : Submitted w p d sent scenario request)
    (positive : w.config.timingBasedMode = false → 0 < (w.clients p).reqLeft) (rooted : w.Rooted)
    (settles : w.ledger.Settles 0) : (replay w (.startRequest d now stray offset ::
      (sent ++ [.countStart p scenario request]))).ledger.Settles 0 := by
  obtain ⟨eligible, after, most, -⟩ := taken.ledger now stray offset
  rw [after]
  have opened : (w.ledger.write d { w.ledger.accounts d with eligible := eligible }).Settles _ :=
    settles.taken (taken.destination_known rooted) rfl rfl rfl most
  have account : ((w.ledger.write d { w.ledger.accounts d with eligible := eligible }).accounts p).parent =
      (w.ledger.accounts p).parent ∧
    ((w.ledger.write d { w.ledger.accounts d with eligible := eligible }).accounts p).reqLeft =
      (w.ledger.accounts p).reqLeft :=
    ⟨Ledger.read_write Account.parent (by rfl) p, Ledger.read_write Account.reqLeft (by rfl) p⟩
  refine Ledger.Settles.countStart opened taken.known (account.1.trans taken.root) (fun counted => ?_)
    scenario request
  rw [account.2]
  exact positive counted

/-- What the budget guarantees is used in request-count mode only. -/
def DecrementsAffordably (w : World) (e : Effect) : Prop :=
  w.config.timingBasedMode = false → DecrementsInRange w e

theorem settles_group {permits : Ledger → ClientId → Prop} {group : List Effect}
    (grouped : Group permits w group)
    (along : Along (fun w e => SettlesOnce w e ∧ DecrementsAffordably w e) w group)
    (rooted : w.Rooted) (settles : w.ledger.Settles 0) : (replay w group).ledger.Settles 0 := by
  cases grouped with
  | alone fits => exact settles_alone fits along.1.1 settles
  | lost accounts => exact settles_lost accounts (along.mono fun _ _ both => both.1) settles
  | @submitted p d sent scenario request now stray offset taken =>
    refine settles_submitted taken (fun counted => ?_) rooted settles
    obtain ⟨-, last, -⟩ := (along_append _ _ _ _).mp along.2
    have left := (spent_taken taken.root taken.sends now stray offset).2
    have config := config_replay w (.startRequest d now stray offset :: sent)
    exact Nat.lt_of_lt_of_eq (last.2 ((congrArg Config.timingBasedMode config).trans counted)) left

/-! ## Runs -/

theorem settles_initial {cfg : Config} {reqTodo nclients : Nat}
    (assigned : cfg.timingBasedMode = false → nclients ≤ reqTodo) :
    (World.initial cfg reqTodo nclients).ledger.Settles 0 where
  unlisted _ := rfl
  assigned counted some := Nat.div_pos (assigned counted) some
  unborn _ _ := rfl
  bound := by
    show 0 + 0 + (World.initial cfg reqTodo nclients).ledger.undistributed ≤ reqTodo + 0 + 0
    unfold Ledger.undistributed
    split
    · exact Nat.zero_le _
    · show 0 + 0 + ((nclients - 0) * (reqTodo / nclients) + reqTodo % nclients) ≤ reqTodo + 0 + 0
      have parts := Nat.div_add_mod reqTodo nclients
      rw [Nat.sub_zero]
      omega

theorem affordable_of_run {env : Env} {cfg : Config} {reqTodo nclients : Nat} {events : List Event}
    {log : List Effect} (range : reqTodo < sizeMax)
    (run : Run env (World.initial cfg reqTodo nclients) events log)
    (inTurn : Along TakesInTurn (World.initial cfg reqTodo nclients) log)
    (affords : cfg.timingBasedMode = false → Along Affords (World.initial cfg reqTodo nclients) log) :
    Along DecrementsAffordably (World.initial cfg reqTodo nclients) log := by
  cases timing : cfg.timingBasedMode with
  | true =>
    refine along_of_invariant (C := fun _ _ => True) (I := fun w => w.config = cfg)
      (fun w e _ same => (config_act w e).trans same) (fun w e _ same counted => ?_)
      (along_of_forall (fun _ _ _ => trivial) _) rfl
    rw [same, timing] at counted
    cases counted
  | false =>
    refine (guarantee_of_run timing range run inTurn (affords timing)).mono ?_
    exact fun _ _ keeps _ => decrementsInRange_of_guarantee keeps

theorem settled_of_isFairEnd (ended : w.IsFairEnd) :
    w.stats.reqStatusSuccess + w.stats.reqFailed ≤ w.stats.reqTodo := by
  obtain ⟨env, cfg, reqTodo, nclients, events, log, ended, rfl, inTurn, affords, once⟩ := ended
  have grouped : Grouped (Group fun _ _ => True) (World.initial cfg reqTodo nclients) log :=
    grouped_of_run (fun _ _ _ => trivial) ended.run
      (eventsAlong_of_forall fun _ _ _ _ => trivial) inTurn
  have kept : ∀ w group, Group (fun _ _ => True) w group →
      Along (fun w e => SettlesOnce w e ∧ DecrementsAffordably w e) w group →
      w.Rooted ∧ w.ledger.Settles 0 → (replay w group).Rooted ∧ (replay w group).ledger.Settles 0 :=
    fun w group first along holds =>
      ⟨rooted_group first holds.1, settles_group first along holds.1 holds.2⟩
  have settles := (grouped.invariant kept
    (once.and (affordable_of_run ended.range ended.run inTurn affords))
    ⟨rooted_initial cfg reqTodo nclients, settles_initial ended.assigned⟩).2
  have bound := settles.bound
  have none : (replay (World.initial cfg reqTodo nclients) log).ledger.listedDone = 0 := by
    unfold Ledger.listedDone
    rw [show (replay (World.initial cfg reqTodo nclients) log).ledger.workerClients = [] from ended.freed]
    rfl
  rw [none] at bound
  exact Nat.le_trans (Nat.le_trans (Nat.le_add_right _ _) (Nat.le_add_right _ _)) bound

theorem summarize_append (workers : List World) (w : World) :
    summarize (workers ++ [w]) = (summarize workers).add w.stats := by
  simp [summarize]

theorem subWrap_of_le {a b : Nat} (fits : a < sizeMax) (le : b ≤ a) : subWrap a b = a - b := by
  unfold subWrap sizeMax at *
  omega

theorem Summary.settled_of_le {summary : Summary}
    (within : summary.reqStatusSuccess + summary.reqFailed ≤ summary.reqTodo) : summary.Settled := by
  refine ⟨within, fun fits => ?_⟩
  have successes := subWrap_of_le fits (Nat.le_of_add_right_le within)
  unfold Summary.reqNotIssued
  rw [successes, subWrap_of_le (Nat.lt_of_le_of_lt (Nat.sub_le _ _) fits) (by omega)]
  omega

/-- **The report takes no more off than was to do**: where every worker has ended a run whose
steps settle each request once, successes and failures together are at most what was to do, and
the number of requests not issued does not wrap. -/
theorem settled_of_runs (workers : List World) (ended : ∀ w ∈ workers, w.IsFairEnd) :
    (summarize workers).Settled := by
  refine Summary.settled_of_le ?_
  induction workers using List.reverseRecOn with
  | nil => exact Nat.le_refl 0
  | append_singleton workers w ih =>
    have earlier := ih fun v member => ended v (List.mem_append_left _ member)
    have this := settled_of_isFairEnd (ended w (by simp))
    rw [summarize_append]
    unfold Summary.add
    dsimp only
    omega

/-! ## Poles -/

/-- The same as `pairConfig`, with lost connections opened again. -/
def retryConfig : Config := { pairConfig with connectionRetryOnDisconnect := true }

def refusedOnceEnv : Env where
  requestAllowed tick := decide (10 ≤ tick)

/-- **Refuting pole**: one request is to be made; it is refused and counted as failed, the
connection goes and is opened again, and the request is made and succeeds. -/
theorem refusedOnce_not_settled :
    ¬ ∀ workers : List World, (∀ w ∈ workers, w.IsEnd) → (summarize workers).Settled := by
  intro always
  obtain ⟨log, run, freed, success, failed, todo⟩ :
      ∃ log, Run refusedOnceEnv (World.initial retryConfig 1 1)
          [.createClient, .connected 0 (some .http2), .connectionError 0, .reconnectTimer 0,
            .connected 0 (some .http2), .statusCode 0 1 200, .streamClose 0 1 true, .writeComplete 0,
            .freeClient 0] log ∧
        (replay (World.initial retryConfig 1 1) log).workerClients = [] ∧
        (replay (World.initial retryConfig 1 1) log).stats.reqStatusSuccess = 1 ∧
        (replay (World.initial retryConfig 1 1) log).stats.reqFailed = 1 ∧
        (replay (World.initial retryConfig 1 1) log).stats.reqTodo = 1 :=
    exists_run_of_runLog (by decide +kernel)
  have settled := always [replay (World.initial retryConfig 1 1) log] fun w member => by
    obtain rfl := List.mem_singleton.mp member
    exact ⟨_, _, _, _, _, log, ⟨run, by decide +kernel, fun _ => Nat.le_refl 1, freed⟩, rfl⟩
  have within := settled.within
  simp only [summarize, List.foldl_cons, List.foldl_nil, Summary.add] at within
  omega

/-- **Satisfiable pole**: one request succeeds, one is lost with its connection and two are
never made. -/
theorem lostAfterSuccess_settled :
    ∃ w : World, w.IsFairEnd ∧ w.stats.reqStatusSuccess = 1 ∧ w.stats.reqFailed = 3 ∧
      (summarize [w]).Settled := by
  obtain ⟨log, run, freed, success, failed, inTurn, affords, once⟩ :
      ∃ log, Run {} (World.initial pairConfig 4 1)
          [.createClient, .connected 0 (some .http2), .statusCode 0 1 200, .streamClose 0 1 true,
            .connectionError 0] log ∧
        (replay (World.initial pairConfig 4 1) log).workerClients = [] ∧
        (replay (World.initial pairConfig 4 1) log).stats.reqStatusSuccess = 1 ∧
        (replay (World.initial pairConfig 4 1) log).stats.reqFailed = 3 ∧
        Along TakesInTurn (World.initial pairConfig 4 1) log ∧
        Along Affords (World.initial pairConfig 4 1) log ∧
        Along SettlesOnce (World.initial pairConfig 4 1) log :=
    exists_run_of_runLog (by decide +kernel)
  have fair : (replay (World.initial pairConfig 4 1) log).IsFairEnd :=
    ⟨_, _, _, _, _, log, ⟨run, by decide +kernel, fun _ => by decide, freed⟩, rfl, inTurn,
      fun _ => affords, once⟩
  exact ⟨_, fair, success, failed, settled_of_runs [_] fun w member => by
    obtain rfl := List.mem_singleton.mp member
    exact fair⟩

end H2LoadRunner.Load

/-
# Load.Inflight -- requests in flight and streams that are open

A controller counts the requests in flight for itself and for its sub-clients: it adds one
when a request is submitted, to whichever client the request goes, and takes one off when
one of its own streams closes.  A sub-client takes one off its own count, which is never
raised.

* `balanced_of_run`: in the main phase `req_inflight` of a controller is the number of
  statistics-eligible streams open on it and its sub-clients, as long as only eligible streams
  of controllers close, connections go down with nothing left that is not accounted for, and
  requests are taken under unused identifiers.
-/
import H2LoadRunner.Load.PendingStreams
import H2LoadRunner.Load.Reactions

namespace H2LoadRunner.Load

open Library Library.EffectLog

set_option autoImplicit false

variable {c : ClientId} {w : World}

/-! ## What is stated -/

def World.eligibleOpen (w : World) (c : ClientId) : Nat :=
  (w.clients c).eligibleStreams + ∑ d ∈ w.subClients c, (w.clients d).eligibleStreams

/-- In the main phase every controller has as many requests in flight as eligible streams are
open. -/
def World.Balanced (w : World) : Prop :=
  w.currentPhase = .mainDuration → ∀ c < w.clientCount, (w.clients c).isController = true →
    (w.clients c).reqInflight = w.eligibleOpen c

/-- In the main phase: requests are taken under unused identifiers, a stream that closes is an
eligible one of a controller or takes no part in the count, a sub-client loses no eligible
stream, and a controller that accounts for a lost connection has none open on its
sub-clients. -/
def KeepsBalance (w : World) (e : Effect) : Prop :=
  w.currentPhase = .mainDuration →
    match e with
    | .startRequest d _ _ _ => (w.clients d).streams.lookup (w.clients d).nextStreamId = none
    | .closeStream c id _ _ _ _ =>
      if (w.clients c).isController then
        (w.clients c).eligibleAt id = 1 ∨ (w.clients c).reqInflight = 0
      else (w.clients c).eligibleAt id = 0
    | .disconnect c => (w.clients c).isController = false → (w.clients c).eligibleStreams = 0
    | .failInflight c | .abandonStreams c => (w.clients c).isController = true →
        ∀ d ∈ w.subClients c, (w.clients d).eligibleStreams = 0
    | .timeout c =>
      if (w.clients c).isController then ∀ d ∈ w.subClients c, (w.clients d).eligibleStreams = 0
      else (w.clients c).eligibleStreams = 0
    | _ => True

/-- In the main phase a controller drops its connection on purpose only when no eligible stream
is open on it. -/
def DropsIdle (w : World) (event : Event) : Prop :=
  w.currentPhase = .mainDuration → ∀ c ∈ w.drops event,
    (w.clients c).isController = true → (w.clients c).eligibleStreams = 0

instance (w : World) : Decidable w.Balanced := by
  unfold World.Balanced
  infer_instance

instance (w : World) (e : Effect) : Decidable (KeepsBalance w e) := by
  induction e using Effect.casesOn <;> dsimp only [KeepsBalance] <;> infer_instance

instance (w : World) (event : Event) : Decidable (DropsIdle w event) := by
  unfold DropsIdle
  infer_instance

/-! ## Families in the ledger -/

namespace Ledger

def root (ledger : Ledger) (d : ClientId) : ClientId := (ledger.accounts d).parent.getD d

/-- The eligible streams open on the clients that `p` counts for. -/
def openFor (ledger : Ledger) (p : ClientId) : Nat :=
  ∑ d ∈ Finset.range ledger.clientCount,
    if ledger.root d = p then (ledger.accounts d).eligible else 0

theorem openFor_of_change {ledger later : Ledger} (count : later.clientCount = ledger.clientCount)
    (parent : ∀ d, (later.accounts d).parent = (ledger.accounts d).parent)
    (others : ∀ d, d ≠ c → (later.accounts d).eligible = (ledger.accounts d).eligible)
    (known : c < ledger.clientCount) (p : ClientId) :
    later.openFor p + (if ledger.root c = p then (ledger.accounts c).eligible else 0) =
      ledger.openFor p + if ledger.root c = p then (later.accounts c).eligible else 0 := by
  have roots (d : ClientId) : later.root d = ledger.root d := by
    rw [root, parent, root]
  have changed := sum_of_change (Finset.mem_range.mpr known)
    (f := fun d => if ledger.root d = p then (ledger.accounts d).eligible else 0)
    (g := fun d => if later.root d = p then (later.accounts d).eligible else 0)
    fun d _ other => by simp only [roots, others d other]
  unfold openFor
  rw [count]
  simpa only [roots] using changed

end Ledger

theorem openFor_eq (known : c < w.clientCount) (controller : (w.clients c).isController = true) :
    w.ledger.openFor c = w.eligibleOpen c := by
  have orphan : (w.clients c).parentClient = none := by simpa [Client.isController] using controller
  have rooted (d : ClientId) (other : d ≠ c) :
      w.ledger.root d = c ↔ (w.clients d).parentClient = some c := by
    show (w.clients d).parentClient.getD d = c ↔ _
    cases (w.clients d).parentClient with
    | none => simp [other]
    | some p => simp
  have changed := sum_of_change (Finset.mem_range.mpr known)
    (f := fun d => if (w.clients d).parentClient = some c then (w.clients d).eligibleStreams else 0)
    (g := fun d => if w.ledger.root d = c then (w.ledger.accounts d).eligible else 0)
    fun d _ other => by
      simp only [rooted d other]
      rfl
  have self : w.ledger.root c = c := by
    show (w.clients c).parentClient.getD c = c
    rw [orphan]
    rfl
  simp only [orphan, self, if_true, reduceCtorEq, if_false, Nat.add_zero] at changed
  unfold World.eligibleOpen World.subClients
  rw [Finset.sum_filter, Nat.add_comm]
  exact changed

/-! ## Balance in the ledger -/

/-- Nothing is counted before the main phase; in it, requests in flight and open streams
agree. -/
structure Ledger.Balanced (ledger : Ledger) : Prop where
  early : ledger.phase = .initialIdle ∨ ledger.phase = .warmUp →
    ∀ c, (ledger.accounts c).eligible = 0 ∧ (ledger.accounts c).reqInflight = 0
  main : ledger.phase = .mainDuration → ∀ c < ledger.clientCount,
    (ledger.accounts c).parent = none → (ledger.accounts c).reqInflight = ledger.openFor c

namespace Ledger.Balanced

variable {ledger later : Ledger}

theorem of_same (balanced : ledger.Balanced) (phase : later.phase = ledger.phase)
    (count : later.clientCount = ledger.clientCount)
    (parent : ∀ d, (later.accounts d).parent = (ledger.accounts d).parent)
    (eligible : ∀ d, (later.accounts d).eligible = (ledger.accounts d).eligible)
    (inflight : ∀ d, (later.accounts d).reqInflight = (ledger.accounts d).reqInflight) : later.Balanced := by
  refine ⟨fun early c => ?_, fun main c known orphan => ?_⟩
  · rw [eligible, inflight]
    exact balanced.early (phase ▸ early) c
  · have open_ : later.openFor c = ledger.openFor c := by
      unfold openFor root
      simp only [count, parent, eligible]
    rw [inflight, open_]
    exact balanced.main (phase ▸ main) c (count ▸ known) (parent c ▸ orphan)

theorem of_change (balanced : ledger.Balanced) {account : Account}
    (phase : later.phase = ledger.phase) (count : later.clientCount = ledger.clientCount)
    (accounts : later.accounts = (ledger.write c account).accounts)
    (parent : account.parent = (ledger.accounts c).parent)
    (early : ledger.phase = .initialIdle ∨ ledger.phase = .warmUp →
      account.eligible = 0 ∧ account.reqInflight = 0)
    (main : ledger.phase = .mainDuration → c < ledger.clientCount →
      if account.parent = none then
        account.reqInflight + (ledger.accounts c).eligible = (ledger.accounts c).reqInflight + account.eligible
      else account.eligible = (ledger.accounts c).eligible) : later.Balanced := by
  have here : later.accounts c = account := by rw [accounts, accounts_write, if_pos rfl]
  have there (d : ClientId) (other : d ≠ c) : later.accounts d = ledger.accounts d := by
    rw [accounts, accounts_write, if_neg other]
  have parents (d : ClientId) : (later.accounts d).parent = (ledger.accounts d).parent := by
    by_cases at_c : d = c
    · rw [at_c, here, parent]
    · rw [there d at_c]
  refine ⟨fun before d => ?_, fun during d known orphan => ?_⟩
  · by_cases at_c : d = c
    · rw [at_c, here]
      exact early (phase ▸ before)
    · rw [there d at_c]
      exact balanced.early (phase ▸ before) d
  · rw [count] at known
    rw [phase] at during
    have old := balanced.main during d known (parents d ▸ orphan)
    by_cases exists_ : c < ledger.clientCount
    · have open_ := openFor_of_change count parents
        (fun d other => by rw [there d other]) exists_ d
      have moves := main during exists_
      rw [here] at open_
      by_cases at_c : d = c
      · subst at_c
        have self : ledger.root d = d := by rw [root, ← parents, orphan]; rfl
        rw [here] at orphan ⊢
        simp only [self, if_true] at open_
        rw [if_pos orphan] at moves
        omega
      · rw [there d at_c, old]
        by_cases child : ledger.root c = d
        · -- A sub-client of `d` has as many eligible streams as before.
          have adopted : account.parent ≠ none := by
            intro none
            rw [root, ← parent, none] at child
            exact at_c child.symm
          rw [if_neg adopted] at moves
          rw [if_pos child, if_pos child] at open_
          omega
        · rw [if_neg child, if_neg child] at open_
          omega
    · have unchanged : later.openFor d = ledger.openFor d := by
        unfold openFor root
        rw [count]
        refine Finset.sum_congr rfl fun x inside => ?_
        rw [there x fun same => exists_ (same ▸ Finset.mem_range.mp inside)]
      rw [there d fun same => exists_ (same ▸ known), unchanged, old]

theorem created (balanced : ledger.Balanced) (rooted : ledger.Rooted) {parent : Option ClientId}
    {reqTodo : Nat} (phase : later.phase = ledger.phase) (count : later.clientCount = ledger.clientCount + 1)
    (accounts : later.accounts = (ledger.write ledger.clientCount (.fresh parent reqTodo)).accounts) :
    later.Balanced := by
  have here : later.accounts ledger.clientCount = .fresh parent reqTodo := by
    rw [accounts, accounts_write, if_pos rfl]
  have there (d : ClientId) (other : d ≠ ledger.clientCount) :
      later.accounts d = ledger.accounts d := by rw [accounts, accounts_write, if_neg other]
  have open_ (d : ClientId) : later.openFor d = ledger.openFor d := by
    unfold openFor
    rw [count, Finset.sum_range_succ, here]
    simp only [Account.fresh, ite_self, Nat.add_zero]
    refine Finset.sum_congr rfl fun x inside => ?_
    rw [root, there x (Finset.mem_range.mp inside).ne]
    rfl
  refine ⟨fun before d => ?_, fun during d known orphan => ?_⟩
  · by_cases new : d = ledger.clientCount
    · rw [new, here]
      exact ⟨rfl, rfl⟩
    · rw [there d new]
      exact balanced.early (phase ▸ before) d
  · rw [open_]
    by_cases new : d = ledger.clientCount
    · -- Nobody counts for a client that did not exist.
      rw [new, here]
      refine (Finset.sum_eq_zero fun x inside => if_neg fun same => ?_).symm
      have earlier := Finset.mem_range.mp inside
      rw [root] at same
      cases adopted : (ledger.accounts x).parent with
      | none => rw [adopted] at same; exact earlier.ne same
      | some p =>
        rw [adopted] at same
        exact (rooted.parents x p adopted).1.ne same
    · rw [there d new] at orphan ⊢
      rw [count] at known
      exact balanced.main (phase ▸ during) d (by omega) orphan

theorem counted (balanced : ledger.Balanced) (main : ledger.phase = .mainDuration) {p d : ClientId}
    (phase : later.phase = ledger.phase) (count : later.clientCount = ledger.clientCount)
    (parent : ∀ x, (later.accounts x).parent = (ledger.accounts x).parent)
    (eligible : ∀ x, (later.accounts x).eligible = (ledger.accounts x).eligible + if x = d then 1 else 0)
    (inflight : ∀ x, (later.accounts x).reqInflight = (ledger.accounts x).reqInflight + if x = p then 1 else 0)
    (known : d < ledger.clientCount) (root : ledger.root d = p) : later.Balanced := by
  refine ⟨fun early => ?_, fun _ x listed orphan => ?_⟩
  · rw [phase, main] at early
    rcases early with early | early <;> cases early
  · have old := balanced.main main x (count ▸ listed) (parent x ▸ orphan)
    have changed := openFor_of_change count parent
      (fun other different => by rw [eligible, if_neg different, Nat.add_zero]) known x
    rw [eligible, if_pos rfl, root] at changed
    rw [inflight, old]
    by_cases here : p = x
    · rw [if_pos here, if_pos here] at changed
      rw [if_pos here.symm]
      omega
    · rw [if_neg here, if_neg here] at changed
      rw [if_neg (Ne.symm here)]
      omega

/-- Only the main phase begins with something to count. -/
theorem of_setPhase (balanced : ledger.Balanced) {phase : Phase}
    (fits : (phase = .warmUp ∧ ledger.phase = .initialIdle) ∨
      (phase = .mainDuration ∧ ledger.phase = .warmUp) ∨ phase.afterMain = true) :
    ({ ledger with phase := phase } : Ledger).Balanced := by
  rcases fits with ⟨rfl, idle⟩ | ⟨rfl, warm⟩ | after
  · exact ⟨fun _ => balanced.early (.inl idle), nofun⟩
  · have zero := balanced.early (.inr warm)
    refine ⟨by simp, fun _ c _ _ => (zero c).2.trans ?_⟩
    refine (Finset.sum_eq_zero fun d _ => ?_).symm
    split
    · exact (zero d).1
    · rfl
  · refine ⟨?_, ?_⟩
    · rintro (same | same) <;> exact absurd after (by simp [show phase = _ from same, Phase.afterMain])
    · intro same
      exact absurd after (by simp [show phase = _ from same, Phase.afterMain])

end Ledger.Balanced

/-! ## Effects and groups -/

theorem inflight_eq_eligible (balanced : w.ledger.Balanced) (main : w.currentPhase = .mainDuration)
    (known : c < w.clientCount) (controller : (w.clients c).isController = true)
    (alone : ∀ d ∈ w.subClients c, (w.clients d).eligibleStreams = 0) :
    (w.ledger.accounts c).reqInflight = (w.ledger.accounts c).eligible := by
  rw [balanced.main main c known (isController_iff.mp controller), openFor_eq known controller,
    World.eligibleOpen, Finset.sum_eq_zero alone]
  rfl

theorem balanced_loss (balanced : w.ledger.Balanced) {later : Ledger} {account : Account}
    (phase : later.phase = w.ledger.phase) (count : later.clientCount = w.ledger.clientCount)
    (accounts : later.accounts = (w.ledger.write c account).accounts)
    (parent : account.parent = (w.ledger.accounts c).parent) (dropped : account.eligible = 0)
    (inflight : account.reqInflight =
      if w.currentPhase = .mainDuration then 0 else (w.ledger.accounts c).reqInflight)
    (alone : w.currentPhase = .mainDuration →
      if (w.clients c).isController then ∀ d ∈ w.subClients c, (w.clients d).eligibleStreams = 0
      else (w.clients c).eligibleStreams = 0) : later.Balanced := by
  refine balanced.of_change phase count accounts parent (fun early => ⟨dropped, ?_⟩)
    fun main known => ?_
  · rw [inflight]
    split
    · rfl
    · exact (balanced.early early c).2
  · have conditions := alone main
    rw [parent, dropped, inflight, if_pos (show w.currentPhase = .mainDuration from main)]
    by_cases controller : (w.clients c).isController = true
    · rw [if_pos controller] at conditions
      rw [if_pos (isController_iff.mp controller),
        inflight_eq_eligible balanced main known controller conditions]
      omega
    · rw [if_neg controller] at conditions
      rw [if_neg (mt isController_iff.mpr controller)]
      exact conditions.symm

theorem not_early_of_statsEligible {phase : Phase} (counts : phase.statsEligible = true) :
    ¬(phase = .initialIdle ∨ phase = .warmUp) := by
  rintro (rfl | rfl) <;> cases counts

theorem balanced_closing (balanced : w.ledger.Balanced) {id : Nat} {success : Bool}
    {later : Ledger} (closing : Closing w c id success later) (keeps : w.currentPhase = .mainDuration →
      if (w.clients c).isController then (w.clients c).eligibleAt id = 1 ∨ (w.clients c).reqInflight = 0
      else (w.clients c).eligibleAt id = 0) : later.Balanced := by
  cases closing with
  | absent phase missing after | ineligible stream phase missing excluded after =>
    have none : (w.clients c).eligibleAt id = 0 := by simp [Client.eligibleAt, *]
    subst after
    refine balanced.of_change rfl rfl rfl rfl
      (fun early => absurd early (not_early_of_statsEligible phase)) fun main known => ?_
    have conditions := keeps main
    by_cases controller : (w.clients c).isController = true
    · rw [if_pos controller, none] at conditions
      rw [if_pos (isController_iff.mp controller)]
      have idle : (w.ledger.accounts c).reqInflight = 0 := conditions.resolve_left (by decide)
      show (w.ledger.accounts c).reqInflight - 1 + _ = _
      rw [idle]
    · rw [if_neg (mt isController_iff.mpr controller)]
  | counted stream statusSuccess phase opened included after =>
    have one : (w.clients c).eligibleAt id = 1 := by simp [Client.eligibleAt, *]
    have some_open := eligibleAt_le (w.clients c) id
    subst after
    refine balanced.of_change rfl rfl rfl rfl
      (fun early => absurd early (not_early_of_statsEligible phase)) fun main known => ?_
    have conditions := keeps main
    by_cases controller : (w.clients c).isController = true
    · rw [if_pos (isController_iff.mp controller)]
      have counted := balanced.main main c known (isController_iff.mp controller)
      rw [openFor_eq known controller, World.eligibleOpen] at counted
      show (w.ledger.accounts c).reqInflight - 1 + (w.clients c).eligibleStreams =
        (w.ledger.accounts c).reqInflight + ((w.clients c).eligibleStreams - 1)
      omega
    · rw [if_neg controller, one] at conditions
      cases conditions
  | outside phase after =>
    subst after
    refine balanced.of_change rfl rfl rfl rfl (fun early => ?_) fun main known => ?_
    · obtain ⟨none, idle⟩ := balanced.early early c
      exact ⟨by simp only [none, Nat.zero_sub], idle⟩
    · rw [show w.currentPhase = .mainDuration from main] at phase
      cases phase

/-- What an effect that stands alone finds: no controller drops eligible streams without
accounting for them. -/
def dropsNothing (ledger : Ledger) (c : ClientId) : Prop :=
  ledger.phase = .mainDuration → (ledger.accounts c).parent = none →
    (ledger.accounts c).eligible = 0

theorem balanced_disconnect (balanced : w.ledger.Balanced)
    (idle : w.currentPhase = .mainDuration → (w.clients c).eligibleStreams = 0) :
    (Effect.act (.disconnect c) w).ledger.Balanced := by
  show (w.modifyClient c Client.disconnect).ledger.Balanced
  rw [ledger_disconnect]
  refine balanced.of_change rfl rfl rfl rfl (fun early => ⟨rfl, (balanced.early early c).2⟩)
    fun main _ => ?_
  have none : (w.ledger.accounts c).eligible = 0 := idle main
  split <;> rw [none]

theorem balanced_timeout (balanced : w.ledger.Balanced) (keeps : KeepsBalance w (.timeout c)) :
    (Effect.act (.timeout c) w).ledger.Balanced := by
  show (w.timeout w.config c).ledger.Balanced
  rw [ledger_timeout]
  generalize w.shouldReconnectOnDisconnect w.config c = reconnects
  have accounts : ((w.ledger.abandon c reconnects).write c
        { (w.ledger.abandon c reconnects).accounts c with
          eligible := 0
          hasSession := false }).accounts =
      (w.ledger.write c { (w.ledger.accounts c).abandoned w.ledger.phase reconnects with
        eligible := 0
        hasSession := false }).accounts := by
    simp [Ledger.write, Ledger.accounts_abandon]
  exact balanced_loss balanced (Ledger.phase_abandon ..) (Ledger.clientCount_abandon ..) accounts
    (Account.parent_abandoned ..) rfl (Account.reqInflight_abandoned ..) keeps

theorem balanced_alone {e : Effect} (fits : Alone dropsNothing w e) (keeps : KeepsBalance w e)
    (rooted : w.Rooted) (balanced : w.ledger.Balanced) : (e.act w).ledger.Balanced := by
  have booked := booked_act w e
  generalize acted : (e.act w).ledger = after at booked ⊢
  cases booked with
  | silent => exact balanced
  | createClient | createDestClient => exact balanced.created rooted.roots rfl rfl rfl
  | allocateSession c protocol =>
    exact balanced.of_change rfl rfl rfl rfl (fun early => balanced.early early c)
      fun _ _ => by split <;> rfl
  | listClient c => exact balanced.of_same rfl rfl (fun _ => rfl) (fun _ => rfl) fun _ => rfl
  | setPhase phase => exact balanced.of_setPhase fits
  | disconnect c =>
    rw [← acted]
    refine balanced_disconnect balanced fun main => ?_
    by_cases controller : (w.clients c).isController = true
    · exact fits main (isController_iff.mp controller)
    · exact keeps main (Bool.eq_false_of_not_eq_true controller)
  | freeClient c =>
    rw [Ledger.reportDone]
    split
    · exact balanced.of_change rfl rfl rfl rfl (fun early => balanced.early early c)
        fun _ _ => by split <;> rfl
    · exact balanced
  | startRequest d now stray offset eligible most =>
    have outside : w.currentPhase.statsEligible = false := fits
    refine balanced.of_change rfl rfl rfl rfl (fun early => ?_) fun main => ?_
    · obtain ⟨none, idle⟩ := balanced.early early d
      rw [outside, none] at most
      exact ⟨Nat.le_zero.mp most, idle⟩
    · rw [show w.currentPhase = .mainDuration from main] at outside
      cases outside
  | countStart | failInflight => cases fits
  | requestFailure c exhausted =>
    rw [Ledger.requestFailure]
    split
    · exact balanced
    · split
      · exact balanced.of_same rfl rfl (fun _ => rfl) (fun _ => rfl) fun _ => rfl
      · exact balanced.of_change rfl rfl rfl rfl (fun early => balanced.early early c)
          fun _ _ => by split <;> rfl
  | abandonStreams c =>
    rw [Ledger.abandon, if_pos (show w.ledger.phase ≠ .mainDuration from fits)]
    exact balanced
  | timeout c =>
    rw [← acted]
    exact balanced_timeout balanced keeps
  | closeStream _ _ _ _ _ _ closing => exact balanced_closing balanced closing keeps

theorem Account.abandoned_dropped (account : Account) (phase : Phase) (reconnects : Bool) :
    account.dropped.abandoned phase reconnects = (account.abandoned phase reconnects).dropped := by
  unfold abandoned dropped
  split
  · rfl
  · split <;> rfl

theorem idle_subClients_iff : (∀ d ∈ w.subClients c, (w.clients d).eligibleStreams = 0) ↔
      ∀ d < w.ledger.clientCount, (w.ledger.accounts d).parent = some c →
        (w.ledger.accounts d).eligible = 0 := by
  simp only [World.subClients, Finset.mem_filter, Finset.mem_range, and_imp]
  rfl

theorem balanced_lost {links : List Link} {account : Effect}
    (accounts : account = .failInflight c ∨ account = .abandonStreams c)
    (keeps : Along KeepsBalance w (.disconnect c :: (links.map (Effect.setLink c) ++ [account])))
    (balanced : w.ledger.Balanced) :
    (replay w (.disconnect c :: (links.map (Effect.setLink c) ++ [account]))).ledger.Balanced := by
  obtain ⟨v, reconnects, dropped, accounting, abandoned, -⟩ := ledger_lost accounts keeps
  have drops := keeps.1
  rw [abandoned]
  have written : (v.ledger.abandon c reconnects).accounts =
      (w.ledger.write c
        ((w.ledger.accounts c).abandoned w.ledger.phase reconnects).dropped).accounts := by
    rw [Ledger.accounts_abandon, dropped, Ledger.write_write, Ledger.accounts_write, if_pos rfl,
      ← Account.abandoned_dropped]
    rfl
  refine balanced_loss balanced ?_ ?_ written (Account.parent_abandoned ..) rfl
    (Account.reqInflight_abandoned ..) ?_
  · rw [Ledger.phase_abandon, dropped]
    rfl
  · rw [Ledger.clientCount_abandon, dropped]
    rfl
  · intro main
    have phase : v.currentPhase = .mainDuration :=
      (congrArg Ledger.phase dropped).trans main
    split
    · rename_i controller
      have root : (v.ledger.accounts c).parent = none := by
        rw [dropped, Ledger.accounts_write, if_pos rfl]
        exact isController_iff.mp controller
      have idle : ∀ d ∈ v.subClients c, (v.clients d).eligibleStreams = 0 := by
        rcases accounts with rfl | rfl <;> exact accounting phase (isController_iff.mpr root)
      rw [idle_subClients_iff, dropped] at idle
      refine idle_subClients_iff.mpr fun d known child => ?_
      have other : d ≠ c := by
        rintro rfl
        rw [isController_iff.mp controller] at child
        cases child
      have there := idle d known
      rw [Ledger.accounts_write, if_neg other] at there
      exact there child
    · rename_i sub
      exact drops main (Bool.eq_false_of_not_eq_true sub)

theorem balanced_submitted {p d : ClientId} {sent : List Effect} {scenario request now stray : Nat}
    {offset : Int} (taken : Submitted w p d sent scenario request) (rooted : w.Rooted)
    (keeps : KeepsBalance w (.startRequest d now stray offset)) (balanced : w.ledger.Balanced) :
    (replay w (.startRequest d now stray offset ::
      (sent ++ [.countStart p scenario request]))).ledger.Balanced := by
  obtain ⟨eligible, after, -, exactly⟩ := taken.ledger now stray offset
  have more := exactly (keeps taken.main)
  rw [after]
  have root : w.ledger.root d = p := taken.controller
  have opened (x : ClientId) :
      let before := (w.ledger.write d { w.ledger.accounts d with eligible := eligible }).accounts x
      before.parent = (w.ledger.accounts x).parent ∧
        before.eligible = (w.ledger.accounts x).eligible + (if x = d then 1 else 0) ∧
        before.reqInflight = (w.ledger.accounts x).reqInflight := by
    rw [Ledger.accounts_write]
    by_cases here : x = d
    · subst here
      simp [more]
    · simp [here]
  refine balanced.counted taken.main rfl rfl (fun x => ?_) (fun x => ?_) (fun x => ?_)
    (taken.destination_known rooted) root
  · exact (Ledger.read_write Account.parent (by rfl) x).trans (opened x).1
  · exact (Ledger.read_write Account.eligible (by rfl) x).trans (opened x).2.1
  · rw [Ledger.accounts_countStart, ← (opened x).2.2]
    split
    · rename_i here
      rw [here]
      rfl
    · rfl

theorem balanced_group {group : List Effect} (grouped : Group dropsNothing w group)
    (keeps : Along KeepsBalance w group) (rooted : w.Rooted) (balanced : w.ledger.Balanced) :
    (replay w group).ledger.Balanced := by
  cases grouped with
  | alone fits => exact balanced_alone fits keeps.1 rooted balanced
  | lost accounts => exact balanced_lost accounts keeps balanced
  | submitted taken => exact balanced_submitted taken rooted keeps.1 balanced

/-! ## Runs -/

theorem balanced_initial (cfg : Config) (reqTodo nclients : Nat) :
    (World.initial cfg reqTodo nclients).ledger.Balanced :=
  ⟨fun _ _ => ⟨rfl, rfl⟩, fun _ _ known => absurd known (Nat.not_lt_zero _)⟩

/-- **In the main phase a controller has as many requests in flight as eligible streams are open
on it and its sub-clients**, after every run whose steps keep the balance. -/
theorem balanced_of_run (env : Env) (cfg : Config) (reqTodo nclients : Nat) (events : List Event)
    (log : List Effect) (run : Run env (World.initial cfg reqTodo nclients) events log)
    (idle : EventsAlong DropsIdle (handle env) (World.initial cfg reqTodo nclients) events)
    (inTurn : Along TakesInTurn (World.initial cfg reqTodo nclients) log)
    (keeps : Along KeepsBalance (World.initial cfg reqTodo nclients) log) :
    (replay (World.initial cfg reqTodo nclients) log).Balanced := by
  have grouped : Grouped (Group dropsNothing) (World.initial cfg reqTodo nclients) log := by
    refine grouped_of_run (fun _ _ none _ _ => none) run ?_ inTurn
    refine idle.mono fun w event holds c drops main root => ?_
    exact holds main c drops (isController_iff.mpr root)
  have balanced : (replay (World.initial cfg reqTodo nclients) log).ledger.Balanced := by
    refine (grouped.invariant (I := fun w => w.Rooted ∧ w.ledger.Balanced)
      (fun w group first now holds => ?_) keeps
      ⟨rooted_initial cfg reqTodo nclients, balanced_initial cfg reqTodo nclients⟩).2
    exact ⟨rooted_group first holds.1, balanced_group first now holds.1 holds.2⟩
  intro main c known controller
  rw [← openFor_eq known controller]
  exact balanced.main main c known (isController_iff.mp controller)

/-! ## Poles -/

/-- **Refuting pole**: the controller sends its requests through a sub-client; when a stream of
the sub-client closes, the controller still counts it. -/
theorem subClient_not_balanced :
    ¬ ∀ (env : Env) (cfg : Config) (reqTodo nclients : Nat) (events : List Event) (log : List Effect),
      Run env (World.initial cfg reqTodo nclients) events log →
        (replay (World.initial cfg reqTodo nclients) log).Balanced := by
  intro always
  have balanced := always fanOutEnv fanOutConfig 4 1
    [.createClient, .connected 0 (some .http2), .connected 1 (some .http2), .streamClose 1 1 true] _
    (run_of_isSome (by decide +kernel))
  exact absurd balanced (by decide +kernel)

/-- **Satisfiable pole**: a response that ends the connection, and the connection opened again. -/
theorem reconnected_balanced : ∃ log, Run {} (World.initial pairConfig 4 1)
        [.createClient, .connected 0 (some .http1), .messageComplete 0 false, .connected 0 (some .http1)] log ∧
      ((replay (World.initial pairConfig 4 1) log).clients 0).reqInflight = 1 ∧
      (replay (World.initial pairConfig 4 1) log).Balanced := by
  exact ⟨_, run_of_isSome (by decide +kernel), by decide +kernel,
    balanced_of_run {} pairConfig 4 1 _ _ (run_of_isSome (by decide +kernel)) (by decide +kernel) (by decide +kernel)
      (by decide +kernel)⟩

end H2LoadRunner.Load

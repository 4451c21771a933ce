/-
# Load.Budget -- a controller makes no more requests than it was assigned

In request-count mode a controller has a budget of requests, and `submit_request` takes one off
it without looking whether one is left: that is for the callers to test.  Most do.  The
exceptions are named by `World.untested`: a stream that closes on a sub-client, which tests
the sub-client's own budget and not the one it spends; a sub-client that comes up and gives its
queue back; a controller that comes up at a fixed rate in a build without assertions; and the
loops of a timing script.

`withinBudget_of_run`: where the controller has a request left in each of these cases, and every
HTTP/1 session takes its requests in turn, what a controller has started and what it has left
never exceed what it was assigned, and the decrement never wraps.
-/
import H2LoadRunner.Library.Contract
import H2LoadRunner.Load.PendingStreams
import H2LoadRunner.Load.Reactions

namespace H2LoadRunner.Load

open Library Library.EffectLog
open Library.EffectLog.Contract

set_option autoImplicit false

variable {c : ClientId} {reqTodo : Nat}

/-! ## Statements -/

/-- A controller with a budget has started and has left no more than that. -/
def World.WithinBudget (w : World) : Prop :=
  ∀ p, (w.clients p).isController = true → 0 < (w.clients p).reqTodo →
    (w.clients p).reqStarted + (w.clients p).reqLeft ≤ (w.clients p).reqTodo

def DecrementsInRange (w : World) (e : Effect) : Prop :=
  match e with
  | .countStart p _ _ => 0 < (w.clients p).reqLeft
  | _ => True

/-- What the submissions of a client draw on. -/
def World.budget (w : World) (c : ClientId) : Nat := (w.clients (w.controllerOf c)).reqLeft

/-- A closing stream of the sub-client makes it submit another request. -/
def World.passesOn (w : World) (c : ClientId) : Bool :=
  !(w.clients c).isController && decide (0 < (w.clients c).reqLeft) && w.config.timingScript.isNone &&
    (!w.config.rpsMode || (w.clients c).link.rpsReqPending != 0)

/-- The client for which the source goes on to submit without a look at the budget. -/
def World.untested (w : World) : Effect → Option ClientId
  | .closeStream c _ _ _ _ _ => if w.passesOn c then some c else none
  | .requeueToParent c => if w.config.rpsMode then none else some c
  | .allocateSession c _ =>
    if (w.clients c).isController && w.config.rpsMode && w.config.ndebug then some c else none
  | .startRequest d _ _ _ => if w.config.timingScript.isSome then some d else none
  | _ => none

/-- There is a request left where the source does not test for one. -/
def Affords (w : World) (e : Effect) : Prop :=
  ∀ c ∈ w.untested e, 0 < w.budget c

instance (w : World) (e : Effect) : Decidable (Affords w e) :=
  inferInstanceAs (Decidable (∀ c ∈ w.untested e, 0 < w.budget c))

/-! ## Budgets in the ledger -/

/-- What a client has left is a `size_t`, and within its budget if it has one. -/
structure Account.WithinBudget (account : Account) : Prop where
  range : account.reqLeft ≤ sizeMax
  assigned : 0 < account.reqTodo → account.reqStarted + account.reqLeft ≤ account.reqTodo

structure Ledger.Budgeted (ledger : Ledger) : Prop where
  requestCount : ledger.timingBasedMode = false
  unlisted : ledger.workerClients = []
  share : ledger.nreqsPerClient < sizeMax
  within : ∀ p, (ledger.accounts p).parent = none → (ledger.accounts p).WithinBudget

/-- An account that has spent nothing, though it may have lost what was left. -/
structure Account.Unspent (before after : Account) : Prop where
  parent : after.parent = before.parent
  reqTodo : after.reqTodo = before.reqTodo
  reqStarted : after.reqStarted = before.reqStarted
  reqLeft : after.reqLeft ≤ before.reqLeft

theorem Account.Unspent.refl (account : Account) : account.Unspent account :=
  ⟨rfl, rfl, rfl, Nat.le_refl _⟩

theorem Account.WithinBudget.of_unspent {before after : Account} (within : before.WithinBudget)
    (unspent : before.Unspent after) : after.WithinBudget := by
  obtain ⟨-, reqTodo, reqStarted, reqLeft⟩ := unspent
  refine ⟨reqLeft.trans within.range, fun budget => ?_⟩
  have := within.assigned (reqTodo ▸ budget)
  omega

theorem decWrap_of_pos {left : Nat} (positive : 0 < left) (range : left ≤ sizeMax) :
    decWrap left + 1 = left := by
  unfold decWrap sizeMax at *
  omega

theorem Account.WithinBudget.started {account : Account} (within : account.WithinBudget)
    (positive : 0 < account.reqLeft) : (account.started false).WithinBudget := by
  have left : (account.started false).reqLeft + 1 = account.reqLeft := by
    rw [Account.reqLeft_started, if_neg Bool.false_ne_true]
    exact decWrap_of_pos positive within.range
  refine ⟨?_, fun budget => ?_⟩
  · have := within.range
    omega
  · rw [Account.reqTodo_started] at budget ⊢
    rw [Account.reqStarted_started]
    have := within.assigned budget
    omega

theorem Account.withinBudget_fresh {parent : Option ClientId} (range : reqTodo ≤ sizeMax) :
    (Account.fresh parent reqTodo).WithinBudget := by
  refine ⟨?_, fun budget => ?_⟩
  · show World.initReqLeft reqTodo ≤ sizeMax
    unfold World.initReqLeft
    split
    · exact Nat.one_le_two_pow
    · exact range
  · have some : (Account.fresh parent reqTodo).reqLeft = reqTodo := if_neg (Nat.ne_of_gt budget)
    rw [some]
    exact Nat.le_of_eq (Nat.zero_add _)

namespace Ledger.Budgeted

variable {ledger later : Ledger}

section Accounts

variable (budgeted : ledger.Budgeted) (mode : later.timingBasedMode = ledger.timingBasedMode)
  (listed : later.workerClients = ledger.workerClients)
  (share : later.nreqsPerClient = ledger.nreqsPerClient)

include budgeted mode listed share

theorem of_unspent (accounts : ∀ p, (ledger.accounts p).Unspent (later.accounts p)) : later.Budgeted where
  requestCount := mode.trans budgeted.requestCount
  unlisted := listed.trans budgeted.unlisted
  share := share ▸ budgeted.share
  within p root :=
    (budgeted.within p ((accounts p).parent ▸ root)).of_unspent (accounts p)

theorem replaced {account : Account} (accounts : later.accounts = (ledger.write c account).accounts)
    (unspent : (ledger.accounts c).Unspent account) : later.Budgeted := by
  refine budgeted.of_unspent mode listed share ?_
  rw [accounts]
  exact forall_write (P := fun p after => (ledger.accounts p).Unspent after) unspent fun _ => .refl _

theorem created {parent : Option ClientId}
    (accounts : later.accounts = (ledger.write ledger.clientCount (.fresh parent reqTodo)).accounts)
    (range : parent = none → reqTodo ≤ sizeMax) : later.Budgeted where
  requestCount := mode.trans budgeted.requestCount
  unlisted := listed.trans budgeted.unlisted
  share := share ▸ budgeted.share
  within := by
    rw [accounts]
    exact forall_write (P := fun _ after => after.parent = none → after.WithinBudget)
      (fun root => Account.withinBudget_fresh (range root)) budgeted.within

end Accounts

theorem abandon (budgeted : ledger.Budgeted) (c : ClientId) (reconnects : Bool) :
    (ledger.abandon c reconnects).Budgeted := by
  unfold Ledger.abandon
  dsimp only
  split
  · exact budgeted
  · split
    · exact budgeted.replaced rfl rfl rfl rfl ⟨rfl, rfl, rfl, Nat.le_refl _⟩
    · exact budgeted.replaced rfl rfl rfl rfl ⟨rfl, rfl, rfl, Nat.zero_le _⟩

theorem requestFailure (budgeted : ledger.Budgeted) (c : ClientId) (keeps : Bool) :
    (ledger.requestFailure c keeps).Budgeted := by
  unfold Ledger.requestFailure
  dsimp only
  split
  · exact budgeted
  · split
    · exact budgeted.of_unspent rfl rfl rfl fun _ => .refl _
    · exact budgeted.replaced rfl rfl rfl rfl ⟨rfl, rfl, rfl, Nat.zero_le _⟩

theorem countStart (budgeted : ledger.Budgeted) (scenario request : Nat)
    (positive : 0 < (ledger.accounts c).reqLeft) : (ledger.countStart c scenario request).Budgeted where
  requestCount := budgeted.requestCount
  unlisted := budgeted.unlisted
  share := budgeted.share
  within := by
    refine forall_write (P := fun _ after => after.parent = none → after.WithinBudget) (fun root => ?_)
      budgeted.within
    rw [budgeted.requestCount]
    exact (budgeted.within c root).started positive

theorem closing {w : World} (budgeted : w.ledger.Budgeted) {id : Nat} {success : Bool}
    (closing : Closing w c id success later) : later.Budgeted := by
  cases closing with
  | absent _ _ after | ineligible _ _ _ _ after | outside _ after | counted _ _ _ _ _ after =>
    subst after
    exact budgeted.replaced rfl rfl rfl rfl ⟨rfl, rfl, rfl, Nat.le_refl _⟩

end Ledger.Budgeted

/-- What keeps a ledger within its budgets: a decrement in range, and no listed client in
request-count mode. -/
def KeepsBudget (w : World) (e : Effect) : Prop :=
  match e with
  | .countStart p _ _ => 0 < (w.clients p).reqLeft
  | .listClient _ => w.config.timingBasedMode = true
  | _ => True

theorem budgeted_act (w : World) (e : Effect) (keeps : KeepsBudget w e) (budgeted : w.ledger.Budgeted) :
    (e.act w).ledger.Budgeted := by
  have booked := booked_act w e
  generalize (e.act w).ledger = after at booked ⊢
  cases booked with
  | silent => exact budgeted
  | listClient c => exact absurd (keeps.symm.trans budgeted.requestCount) (by decide)
  | setPhase => exact budgeted.of_unspent rfl rfl rfl fun _ => .refl _
  | createClient candidates =>
    refine budgeted.created rfl rfl rfl rfl fun _ => ?_
    have share := budgeted.share
    unfold Ledger.share
    split <;> omega
  | createDestClient => exact budgeted.created rfl rfl rfl rfl nofun
  | allocateSession | disconnect | startRequest =>
    exact budgeted.replaced rfl rfl rfl rfl ⟨rfl, rfl, rfl, Nat.le_refl _⟩
  | freeClient c =>
    rw [Ledger.reportDone, budgeted.unlisted]
    exact budgeted
  | countStart c scenario request => exact budgeted.countStart scenario request keeps
  | requestFailure c => exact budgeted.requestFailure c _
  | abandonStreams c | failInflight c => exact budgeted.abandon c _
  | timeout c before =>
    subst before
    exact (budgeted.abandon c _).replaced rfl rfl rfl rfl ⟨rfl, rfl, rfl, Nat.le_refl _⟩
  | closeStream _ _ _ _ _ _ closing => exact budgeted.closing closing

/-! ## The contract -/

/-- A worker in request-count mode with the given configuration. -/
structure Thrifty (cfg : Config) (w : World) : Prop where
  config : w.config = cfg
  rooted : w.Rooted
  budgeted : w.ledger.Budgeted

variable {cfg : Config} {w : World} {e : Effect}

theorem Thrifty.requestCount (thrifty : Thrifty cfg w) : ¬ w.config.timingBasedMode = true :=
  Bool.eq_false_iff.mp thrifty.budgeted.requestCount

/-- Requests are taken in turn and within the budget where nothing tests for it; then every
decrement is in range. -/
def thrift (cfg : Config) : Contract World where
  invariant := Thrifty cfg
  rely w e := TakesInTurn w e ∧ Affords w e
  guarantee w e := KeepsBudget w e ∧ KeepsRoots w e
  stable w e keeps thrifty :=
    ⟨(config_act w e).trans thrifty.config, rooted_apply w e keeps.2 thrifty.rooted,
      budgeted_act w e keeps.1 thrifty.budgeted⟩

theorem guarantee_of_alone (fits : Alone (fun _ _ => True) w e) : (thrift cfg).guarantee w e := by
  refine ⟨?_, keepsRoots_of_alone fits⟩
  cases e with
  | countStart => exact fits.elim
  | listClient => exact fits
  | _ => trivial

theorem admits_thrift (cfg : Config) : Admits (fun _ _ => True) (thrift cfg).Honours where
  composable := (thrift cfg).composable_honours
  inTurn holds thrifty along :=
    holds thrifty.rooted (along.mono fun _ _ both => both.1) thrifty along
  alone fits _ _ := ⟨guarantee_of_alone fits, trivial⟩
  lost w c links _ accounts _ _ := by
    refine along_of_forall (fun e member v => ?_) w
    simp only [List.mem_cons, List.mem_append, List.mem_map, List.not_mem_nil, or_false] at member
    rcases member with rfl | ⟨link, -, rfl⟩ | rfl
    · exact ⟨trivial, trivial⟩
    · exact ⟨trivial, trivial⟩
    · rcases accounts with rfl | rfl <;> exact ⟨trivial, trivial⟩

/-- A request may be counted where one is left, or a timing script is relied on to have one
left. -/
theorem counts_thrift {p : ClientId} {left : Nat}
    (enough : cfg.timingScript.isSome = true ∨ 0 < left) : Counts (thrift cfg).Honours p left := by
  intro v d sent scenario request now stray offset same taken thrifty along
  have positive : 0 < (v.clients p).reqLeft := by
    rcases enough with scripted | positive
    · have found := along.1.2 d
      simp only [World.untested, thrifty.config, scripted, if_true, Option.mem_some_iff, World.budget,
        taken.controller, true_implies] at found
      exact found
    · exact same.symm ▸ positive
  have left := (spent_taken taken.root taken.sends now stray offset).2
  refine ⟨⟨trivial, trivial⟩, (along_append _ _ _ _).mpr ⟨?_, ⟨?_, trivial⟩, trivial⟩⟩
  · refine along_of_forall (fun e member u => ?_) _
    exact guarantee_of_alone (alone_of_sends (taken.sends e member) u)
  · exact Nat.lt_of_lt_of_eq positive left.symm

/-! ## What leaves the budgets alone -/

structure SameBudgets (w v : World) : Prop where
  parentClient : ∀ d, (v.clients d).parentClient = (w.clients d).parentClient
  reqLeft : ∀ d, (v.clients d).reqLeft = (w.clients d).reqLeft

namespace SameBudgets

variable {u v w : World}

theorem trans (first : SameBudgets u v) (second : SameBudgets v w) : SameBudgets u w where
  parentClient d := (second.parentClient d).trans (first.parentClient d)
  reqLeft d := (second.reqLeft d).trans (first.reqLeft d)

theorem of_ledger (same : v.ledger = w.ledger) : SameBudgets w v where
  parentClient d := congrArg (fun ledger => (ledger.accounts d).parent) same
  reqLeft d := congrArg (fun ledger => (ledger.accounts d).reqLeft) same

theorem of_write {account : Account} (accounts : v.ledger.accounts = (w.ledger.write c account).accounts)
    (parent : account.parent = (w.clients c).parentClient)
    (left : account.reqLeft = (w.clients c).reqLeft) : SameBudgets w v := by
  constructor
  · exact fun d => (congrArg Account.parent (congrFun accounts d)).trans (Ledger.read_write Account.parent parent d)
  · exact fun d => (congrArg Account.reqLeft (congrFun accounts d)).trans (Ledger.read_write Account.reqLeft left d)

theorem controllerOf (same : SameBudgets w v) (c : ClientId) : v.controllerOf c = w.controllerOf c := by
  unfold World.controllerOf
  rw [same.parentClient]

theorem budget (same : SameBudgets w v) (c : ClientId) : v.budget c = w.budget c := by
  unfold World.budget
  rw [same.controllerOf, same.reqLeft]

end SameBudgets

theorem controllerOf_of_root (root : (w.clients c).parentClient = none) : w.controllerOf c = c := by
  simp [World.controllerOf, root]

theorem budget_of_root (root : (w.clients c).parentClient = none) : w.budget c = (w.clients c).reqLeft := by
  rw [World.budget, controllerOf_of_root root]

theorem budget_controllerOf (rooted : w.Rooted) (c : ClientId) :
    w.budget (w.controllerOf c) = w.budget c :=
  budget_of_root (root_controllerOf rooted c)

theorem sameBudgets_closeStream (w : World) (c : ClientId) (id : Nat) (success verdict : Bool)
    (now : Nat) (assembly : Assembly) :
    SameBudgets w (Machine.apply (Effect.closeStream c id success verdict now assembly) w) := by
  have closing := closing_closeStream w w.config c id success verdict now assembly
  cases closing with
  | absent _ _ after | ineligible _ _ _ _ after | outside _ after =>
    exact .of_write (congrArg Ledger.accounts after) rfl rfl
  | counted _ _ _ _ _ after =>
    have accounts := congrArg Ledger.accounts after
    exact .of_write accounts rfl rfl

theorem sameBudgets_allocateSession (w : World) (c : ClientId) (protocol : Protocol) :
    SameBudgets w (Machine.apply (Effect.allocateSession c protocol) w) := by
  have after : (Effect.act (.allocateSession c protocol) w).ledger =
      w.ledger.write c { w.ledger.accounts c with hasSession := true } := ledger_modifyClient w c _
  exact .of_write (congrArg Ledger.accounts after) rfl rfl

/-! ## Programs within the budget -/

theorem leads_silent (silent : e.silent = true) :
    (thrift cfg).Leads (Program.perform e : M PUnit) w fun _ v => SameBudgets w v := by
  refine .perform fun _ _ => ⟨?_, .of_ledger (ledger_of_silent w e silent)⟩
  cases e with
  | countStart | listClient | createDestClient | allocateSession => cases silent
  | _ => exact ⟨trivial, trivial⟩

theorem leads_client {Q : Client → World → Prop} (holds : Q (w.clients c) w) :
    (thrift cfg).Leads (client c) w Q :=
  .bind (.world (.pure holds))

theorem leads_modifyLink {change : Link → Link} :
    (thrift cfg).Leads (modifyLink c change) w fun _ v => SameBudgets w v :=
  .bind (leads_client (leads_silent rfl))

theorem Spent.le {v : World} {p : ClientId} {count : Nat} (spent : Spent w v p)
    (enough : count + 1 ≤ (w.clients p).reqLeft) (range : (w.clients p).reqLeft ≤ sizeMax) :
    count ≤ (v.clients p).reqLeft := by
  have less := decWrap_of_pos (Nat.lt_of_lt_of_le (Nat.succ_pos count) enough) range
  rcases spent.left with same | taken
  · omega
  · rw [taken]
    omega

section Programs

variable {cfg : Config} (env : Env)

variable {w : World}

theorem leads_submit (enough : cfg.timingScript.isSome = true ∨ 0 < w.budget c) :
    (thrift cfg).Leads (submit env c) w fun result v =>
      result = 0 → Spent w v (w.controllerOf c) := by
  intro result es ends thrifty along
  obtain ⟨honours, made⟩ := (admits_thrift cfg).submits_submit env thrifty.rooted
    (counts_thrift enough) result es ends
  exact ⟨honours thrifty along, (made (along.mono fun _ _ both => both.1)).2⟩

theorem leads_of_meets {α : Type} {q : M α} (meets : (admits_thrift cfg).logs.Keeps q w) :
    (thrift cfg).Leads q w fun _ _ => True :=
  leads_of_honours (Conduct.meets_logging.mp meets)

theorem meets_of_leads {α : Type} {q : M α} {Q : α → World → Prop}
    (leads : (thrift cfg).Leads q w Q) : (admits_thrift cfg).logs.Keeps q w :=
  Conduct.meets_logging.mpr leads.honours

theorem meets_submit_scripted (scripted : cfg.timingScript.isSome = true) {c : ClientId} (_ : True) :
    (admits_thrift cfg).logs.Keeps (submit env c) w :=
  meets_of_leads (leads_submit env (.inl scripted))

theorem leads_closed (c : ClientId) (id : Nat) (success final : Bool) (w : World) :
    (thrift cfg).Leads (closed env c id success final) w fun _ _ => True := by
  refine .bind (.world (.bind (.perform fun _ relies => ⟨⟨trivial, trivial⟩, ?_⟩)))
  have affords := relies.2 c
  have same := sameBudgets_closeStream w c id success (env.verdict w.ticks) (env.clock w.ticks)
    (env.assembly w.ticks 0)
  have pending := pending_act w (.closeStream c id success (env.verdict w.ticks) (env.clock w.ticks)
    (env.assembly w.ticks 0)) c
  refine .unless fun _ => .bind (leads_client ?_)
  refine .ite (fun _ => ?_) fun _ => .when (fun continues => ?_)
  · have looping := (admits_thrift cfg).looping
    exact leads_of_meets (.bind (looping.setupGracefulShutdown c _) fun _ _ _ _ => looping.terminateSession c _)
  refine .unless fun unscripted => ?_
  -- A controller has looked at the budget it spends, a sub-client at its own.
  have positive (passes : w.config.rpsMode = false ∨ (w.clients c).link.rpsReqPending ≠ 0) :
      0 < (Machine.apply (Effect.closeStream c id success (env.verdict w.ticks) (env.clock w.ticks)
        (env.assembly w.ticks 0)) w).budget c := by
    rw [same.budget]
    have left : 0 < (w.clients c).reqLeft := Nat.lt_of_lt_of_eq continues.2 (same.reqLeft c)
    cases parent : (w.clients c).parentClient with
    | none => exact Nat.lt_of_lt_of_eq left (budget_of_root parent).symm
    | some p =>
      refine affords ?_
      have passesOn : w.passesOn c = true := by
        simpa [World.passesOn, Client.isController, parent, left, Option.isSome_iff_ne_none] using
          ⟨by simpa using unscripted, passes⟩
      simp [World.untested, passesOn]
  refine .ite (fun unpaced => ?_) fun paced => .when (fun waiting => ?_)
  · exact .before (leads_submit env (.inr (positive (.inl (by simpa using unpaced)))))
  · refine .bind ((leads_submit env (.inr (positive (.inr (pending.symm.trans_ne waiting))))).mono
      fun _ _ _ _ => .when (fun _ => ?_))
    exact leads_modifyLink.mono fun _ _ _ _ => trivial

theorem leads_submit_then {count : Nat} {rest : M PUnit} (root : (w.clients c).parentClient = none)
    (enough : count + 1 ≤ (w.clients c).reqLeft)
    (next : ∀ v, (v.clients c).parentClient = none → count ≤ (v.clients c).reqLeft →
      (thrift cfg).Leads rest v fun _ _ => True) :
    (thrift cfg).Leads (submit env c >>= fun result => if result ≠ 0 then pure ⟨⟩ else rest) w
      fun _ _ => True := by
  refine .assume fun thrifty => ?_
  have positive : 0 < w.budget c := by
    rw [budget_of_root root]
    omega
  refine .bind ((leads_submit env (.inr positive)).mono fun result v _ spends => ?_)
  refine .unless fun succeeded => ?_
  have spent := spends (not_not.mp succeeded)
  rw [controllerOf_of_root root] at spent
  exact next v spent.root (spent.le enough (thrifty.budgeted.within c root).range)

theorem leads_submitUpTo {count : Nat} (root : (w.clients c).parentClient = none)
    (enough : count ≤ (w.clients c).reqLeft) :
    (thrift cfg).Leads (submitUpTo env count c) w fun _ _ => True := by
  induction count generalizing w with
  | zero => exact .pure trivial
  | succ count ih => exact leads_submit_then env root enough fun _ => ih

theorem leads_rpsLoop {count : Nat} (root : (w.clients c).parentClient = none)
    (enough : count ≤ (w.clients c).reqLeft) : (thrift cfg).Leads (rpsLoop env count c) w fun _ _ => True := by
  induction count generalizing w with
  | zero => exact .pure trivial
  | succ count ih =>
    refine leads_submit_then env root enough fun v root enough => ?_
    refine .bind (leads_modifyLink.mono fun _ u _ same => ih ((same.parentClient c).trans root) ?_)
    rwa [same.reqLeft]

theorem leads_replayQueue (fuel : Nat) (c : ClientId) (w : World) :
    (thrift cfg).Leads (replayQueue env fuel c) w fun _ _ => True := by
  induction fuel generalizing w with
  | zero => exact .fault _
  | succ fuel ih =>
    refine .bind (.world (.unless fun _ => .bind ?_))
    refine .perform fun thrifty relies => ⟨⟨trivial, trivial⟩, ?_⟩
    have same : SameBudgets w (Machine.apply (Effect.requeueToParent c) w) :=
      .of_ledger (ledger_of_silent w (.requeueToParent c) rfl)
    refine .ite (fun unpaced => ?_) fun _ => ih _
    have positive : 0 < w.budget c := relies.2 c (by simpa [World.untested] using unpaced)
    rw [← budget_controllerOf thrifty.rooted, ← same.budget] at positive
    exact .bind ((leads_submit env (.inr positive)).mono fun _ _ _ _ =>
      .unless fun _ => ih _)

/-- A controller that has come up: at a fixed rate the assertion stands for the test, otherwise
the loop is bounded by the budget. -/
theorem leads_connectionMade (known : c < w.clientCount) (protocol : Protocol) :
    (thrift cfg).Leads (connectionMade env c (some protocol)) w fun _ _ => True := by
  refine .bind (.perform fun before relies => ⟨⟨trivial, known⟩, ?_⟩)
  refine .bind ((leads_silent rfl).mono fun _ v thrifty listed => .bind (.world ?_))
  have same := (sameBudgets_allocateSession w c protocol).trans listed
  refine .ite (fun _ => ?_) fun orphan => ?_
  · exact .before (leads_replayQueue env _ c v)
  have root : (v.clients c).parentClient = none := by simpa using orphan
  refine .ite (fun paced => ?_) fun _ => ?_
  · refine .ite (fun _ => .bind (.fault _)) fun asserted => ?_
    refine .bind (leads_modifyLink.mono fun _ u _ linked => ?_)
    have positive : 0 < u.budget c := by
      rw [linked.budget, same.budget]
      by_cases left : (v.clients c).reqLeft = 0
      · refine relies.2 c ?_
        have unasserted : v.config.ndebug = true := by simpa [left] using asserted
        rw [thrifty.config, ← before.config] at paced unasserted
        have controller : (w.clients c).isController = true := by
          rw [Client.isController, ← same.parentClient, root]
          rfl
        simp [World.untested, controller, paced, unasserted]
      · rw [← same.budget, budget_of_root root]
        exact Nat.pos_of_ne_zero left
    exact .before (leads_submit env (.inr positive))
  · split
    · refine .before (leads_submitUpTo env root ?_)
      rw [if_neg thrifty.requestCount]
      exact Nat.min_le_left _ _
    · rename_i timings script
      have scripted : cfg.timingScript.isSome = true := by rw [← thrifty.config, script]; rfl
      split
      · exact .bind (.fault _)
      · exact .when fun _ => .before (leads_of_meets ((admits_thrift cfg).looping.timingConnectLoop
          (meets_submit_scripted env scripted) trivial _ _ trivial))

theorem leads_resetTimeoutRequests (c : ClientId) (w : World) :
    (thrift cfg).Leads (resetTimeoutRequests env c) w fun _ v => SameBudgets w v :=
  .bind (.world (.ite (fun _ => .bind (.fault _)) fun _ => leads_silent rfl))

theorem leads_onRpsTimer (root : (w.clients c).parentClient = none) (n : Nat) :
    (thrift cfg).Leads (onRpsTimer env c n) w fun _ _ => True := by
  refine .bind ((leads_resetTimeoutRequests env c w).mono fun _ v thrifty expired => .bind (.world ?_))
  refine .ite (fun _ => .bind (.fault _)) fun _ => ?_
  refine .unless fun _ => .unless fun _ => ?_
  refine .bind (leads_modifyLink.mono fun _ u _ linked => .unless fun _ => ?_)
  split
  · exact .fault _
  · refine .unless fun _ => leads_rpsLoop env ?_ ?_
    · rw [linked.parentClient, expired.parentClient, root]
    · rw [linked.reqLeft, if_neg thrifty.requestCount]
      exact (Nat.min_le_left _ _).trans (Nat.min_le_right _ _)

theorem honours_handle (w : World) (event : Event) :
    Emits (handle env event) w fun _ es => (thrift cfg).Honours w es := by
  refine Conduct.meets_logging.mp (((admits_thrift cfg).relinking env).handle (fun _ _ _ => trivial)
    (fun _ _ => trivial) (fun _ _ => trivial) ?_ ?_ ?_ ?_)
  · exact fun v c id success final => meets_of_leads (leads_closed env c id success final v)
  · intro c protocol link _ known
    exact meets_of_leads (leads_connectionMade env (known.trans_le (clientCount_le_apply w _)) protocol)
  · intro c n _ controller
    exact meets_of_leads (leads_onRpsTimer env (isController_iff.mp controller) n)
  · intro c _ scripted
    refine meets_of_leads (Leads.assume fun thrifty => leads_of_meets ?_)
    exact (admits_thrift cfg).looping.timingScriptTimeoutHandler
      (meets_submit_scripted env (thrifty.config ▸ scripted)) trivial trivial

end Programs

/-! ## Runs -/

theorem thrifty_initial (requestCount : cfg.timingBasedMode = false) (range : reqTodo < sizeMax)
    (nclients : Nat) : Thrifty cfg (World.initial cfg reqTodo nclients) where
  config := rfl
  rooted := rooted_initial cfg reqTodo nclients
  budgeted :=
    { requestCount := requestCount
      unlisted := rfl
      share := Nat.lt_of_le_of_lt (Nat.div_le_self _ _) range
      within := fun _ _ => ⟨Nat.zero_le _, nofun⟩ }

theorem Thrifty.withinBudget (thrifty : Thrifty cfg w) : w.WithinBudget :=
  fun p controller => (thrifty.budgeted.within p (isController_iff.mp controller)).assigned

theorem guarantee_of_run {env : Env} {nclients : Nat} {events : List Event} {log : List Effect}
    (requestCount : cfg.timingBasedMode = false) (range : reqTodo < sizeMax)
    (run : Run env (World.initial cfg reqTodo nclients) events log)
    (inTurn : Along TakesInTurn (World.initial cfg reqTodo nclients) log)
    (affords : Along Affords (World.initial cfg reqTodo nclients) log) :
    Along (thrift cfg).guarantee (World.initial cfg reqTodo nclients) log := by
  have honours : (thrift cfg).Honours (World.initial cfg reqTodo nclients) log :=
    emits_runAll (thrift cfg).composable_honours (fun w event _ => honours_handle env w event)
      (eventsAlong_of_forall (D := fun _ _ => True) fun _ _ => trivial) _ _ run
  exact honours (thrifty_initial requestCount range nclients) (inTurn.and affords)

theorem decrementsInRange_of_guarantee (keeps : (thrift cfg).guarantee w e) : DecrementsInRange w e := by
  cases e with
  | countStart => exact keeps.1
  | _ => trivial

/-- **No controller makes more requests than it was assigned**, in request-count mode, where a request is
left whenever the source submits without a test and HTTP/1 sessions take their requests in turn. -/
theorem withinBudget_of_run (env : Env) (cfg : Config) (reqTodo nclients : Nat) (events : List Event)
    (log : List Effect) (requestCount : cfg.timingBasedMode = false) (range : reqTodo < sizeMax)
    (run : Run env (World.initial cfg reqTodo nclients) events log)
    (inTurn : Along TakesInTurn (World.initial cfg reqTodo nclients) log)
    (affords : Along Affords (World.initial cfg reqTodo nclients) log) :
    Throughout World.WithinBudget (World.initial cfg reqTodo nclients) log ∧
      Along DecrementsInRange (World.initial cfg reqTodo nclients) log := by
  have kept := guarantee_of_run requestCount range run inTurn affords
  constructor
  · exact (throughout_of_invariant (thrift cfg).stable kept
      (thrifty_initial requestCount range nclients)).mono fun _ => Thrifty.withinBudget
  · exact kept.mono fun _ _ => decrementsInRange_of_guarantee

/-- **Refuting pole**: one request to make, sent through a sub-client; when its stream closes, the
sub-client has its own budget untouched and makes the controller submit once more. -/
theorem lastRequest_not_withinBudget :
    ¬ ∀ (env : Env) (cfg : Config) (reqTodo nclients : Nat) (events : List Event) (log : List Effect),
      cfg.timingBasedMode = false → reqTodo < sizeMax →
      Run env (World.initial cfg reqTodo nclients) events log →
        Throughout World.WithinBudget (World.initial cfg reqTodo nclients) log ∧
          Along DecrementsInRange (World.initial cfg reqTodo nclients) log := by
  intro always
  have within := (always fanOutEnv fanOutConfig 1 1
    [.createClient, .connected 0 (some .http2), .connected 1 (some .http2), .streamClose 1 1 true] _ rfl
    (by decide +kernel) (run_of_isSome (by decide +kernel))).1.last 0 (by decide +kernel) (by decide +kernel)
  exact absurd within (by decide +kernel)

/-- **Satisfiable pole**: a stream closes on a sub-client while the controller has requests
left. -/
theorem fanOut_withinBudget : ∃ log, Run fanOutEnv (World.initial fanOutConfig 4 1)
        [.createClient, .connected 0 (some .http2), .connected 1 (some .http2), .streamClose 1 1 true] log ∧
      ((replay (World.initial fanOutConfig 4 1) log).clients 0).reqStarted = 3 ∧
      Throughout World.WithinBudget (World.initial fanOutConfig 4 1) log ∧
      Along DecrementsInRange (World.initial fanOutConfig 4 1) log := by
  exact ⟨_, run_of_isSome (by decide +kernel), by decide +kernel,
    withinBudget_of_run fanOutEnv fanOutConfig 4 1 _ _ rfl (by decide +kernel) (run_of_isSome (by decide +kernel))
      (by decide +kernel) (by decide +kernel)⟩

end H2LoadRunner.Load

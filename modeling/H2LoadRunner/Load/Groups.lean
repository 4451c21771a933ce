/-
# Load.Groups -- what the log of a run is made of

The effects of a run come in groups: a submission counts its request right after the
session has taken it, a lost connection is accounted for right after the client has
dropped it, and every other effect stands alone and under the tests the source makes for
it.  `Load.Reactions` shows that the log of every run comes in such groups; the statements
about counters are proved group by group.
-/
import H2LoadRunner.Load.Ledger

namespace H2LoadRunner.Load

open Library Library.EffectLog

set_option autoImplicit false

/-! ## Controllers have no controller -/

/-- A controller exists and has no controller itself; what does not exist yet is not
connected. -/
structure Ledger.Rooted (ledger : Ledger) : Prop where
  parents : ∀ d p, (ledger.accounts d).parent = some p →
    p < ledger.clientCount ∧ (ledger.accounts p).parent = none
  sessionless : ∀ d, ledger.clientCount ≤ d → (ledger.accounts d).hasSession = false

namespace Ledger.Rooted

variable {ledger later : Ledger}

theorem of_accounts (rooted : ledger.Rooted) (clientCount : later.clientCount = ledger.clientCount)
    (parent : ∀ d, (later.accounts d).parent = (ledger.accounts d).parent)
    (session : ∀ d, (ledger.accounts d).hasSession = false → (later.accounts d).hasSession = false) :
    later.Rooted where
  parents d p child := by
    rw [clientCount, parent p]
    exact rooted.parents d p (parent d ▸ child)
  sessionless d beyond := session d (rooted.sessionless d (clientCount ▸ beyond))

theorem replaced (rooted : ledger.Rooted) {c : ClientId} {account : Account}
    (clientCount : later.clientCount = ledger.clientCount)
    (accounts : later.accounts = (ledger.write c account).accounts)
    (parent : account.parent = (ledger.accounts c).parent)
    (session : (ledger.accounts c).hasSession = false → account.hasSession = false) : later.Rooted := by
  refine rooted.of_accounts clientCount ?_ ?_
  · rw [accounts]
    exact read_write Account.parent parent
  · rw [accounts]
    exact forall_write (P := fun d after => (ledger.accounts d).hasSession = false →
      after.hasSession = false) session fun _ before => before

theorem created (rooted : ledger.Rooted) {parent : Option ClientId} {reqTodo : Nat}
    (count : later.clientCount = ledger.clientCount + 1)
    (accounts : later.accounts = (ledger.write ledger.clientCount (.fresh parent reqTodo)).accounts)
    (root : ∀ p, parent = some p → p < ledger.clientCount ∧ (ledger.accounts p).parent = none) :
    later.Rooted := by
  refine ⟨fun d p child => ?_, fun d beyond => ?_⟩
  · have old : p < ledger.clientCount ∧ (ledger.accounts p).parent = none := by
      rw [accounts, accounts_write] at child
      split at child
      · exact root p child
      · exact rooted.parents d p child
    rw [count, accounts, accounts_write, if_neg (Nat.ne_of_lt old.1)]
    exact ⟨Nat.lt_succ_of_lt old.1, old.2⟩
  · rw [count] at beyond
    rw [accounts, accounts_write]
    split
    · rfl
    · exact rooted.sessionless d (Nat.le_of_succ_le beyond)

theorem abandon (rooted : ledger.Rooted) (c : ClientId) (reconnects : Bool) :
    (ledger.abandon c reconnects).Rooted := by
  unfold Ledger.abandon
  dsimp only
  split
  · exact rooted
  · split <;> exact rooted.replaced rfl rfl rfl fun before => before

theorem requestFailure (rooted : ledger.Rooted) (c : ClientId) (keeps : Bool) :
    (ledger.requestFailure c keeps).Rooted := by
  unfold Ledger.requestFailure
  dsimp only
  split
  · exact rooted
  · split
    · exact rooted.of_accounts rfl (fun _ => rfl) fun _ before => before
    · exact rooted.replaced rfl rfl rfl fun before => before

theorem closing {w : World} (rooted : w.ledger.Rooted) {c : ClientId} {id : Nat} {success : Bool}
    (closing : Closing w c id success later) : later.Rooted := by
  cases closing with
  | absent _ _ after | ineligible _ _ _ _ after | outside _ after | counted _ _ _ _ _ after =>
    subst after
    exact rooted.replaced rfl rfl rfl fun before => before

end Ledger.Rooted

/-- A sub-client is opened for a controller, and a client that connects exists. -/
def KeepsRoots (w : World) (e : Effect) : Prop :=
  match e with
  | .createDestClient parent _ _ =>
    parent < w.clientCount ∧ (w.clients parent).parentClient = none
  | .allocateSession c _ => c < w.clientCount
  | _ => True

theorem rooted_act (w : World) (e : Effect) (keeps : KeepsRoots w e) (rooted : w.ledger.Rooted) :
    (e.act w).ledger.Rooted := by
  have booked := booked_act w e
  generalize (e.act w).ledger = after at booked ⊢
  cases booked with
  | silent => exact rooted
  | listClient | setPhase => exact rooted.of_accounts rfl (fun _ => rfl) fun _ before => before
  | createClient => exact rooted.created rfl rfl nofun
  | createDestClient => exact rooted.created rfl rfl fun p same => Option.some.inj same ▸ keeps
  | allocateSession c protocol =>
    have parent (d : ClientId) : ((w.ledger.write c
        { w.ledger.accounts c with hasSession := true }).accounts d).parent =
        (w.ledger.accounts d).parent := Ledger.read_write Account.parent (by rfl) d
    refine ⟨fun d p child => ?_, fun d beyond => ?_⟩
    · rw [parent]
      exact rooted.parents d p (parent d ▸ child)
    · rw [Ledger.accounts_write, if_neg]
      · exact rooted.sessionless d beyond
      · rintro rfl
        exact absurd keeps (Nat.not_lt_of_le beyond)
  | disconnect => exact rooted.replaced rfl rfl rfl fun _ => rfl
  | freeClient c =>
    rw [Ledger.reportDone]
    split
    · exact rooted.replaced rfl rfl rfl fun before => before
    · exact rooted
  | startRequest | countStart => exact rooted.replaced rfl rfl rfl fun before => before
  | requestFailure c => exact rooted.requestFailure c _
  | abandonStreams c | failInflight c => exact rooted.abandon c _
  | timeout c before =>
    subst before
    exact (rooted.abandon c _).replaced rfl rfl rfl fun _ => rfl
  | closeStream _ _ _ _ _ _ closing => exact rooted.closing closing

/-! ## Groups -/

def World.bodyless (w : World) (d : ClientId) : Bool :=
  if w.config.scenarios.isEmpty then w.config.dataLength == 0
  else ((w.clients d).requestsToSubmit.head?.map fun request =>
    request.content.reqPayload.isEmpty).getD true

/-- An HTTP/1 session takes a request with a body only while it is not shutting down and the
response to the request before has not overtaken the request. -/
def TakesInTurn (w : World) (e : Effect) : Prop :=
  match e with
  | .startRequest d _ _ _ =>
    match (w.clients d).session with
    | some (.http1 session) => w.bodyless d = true ∨
        session.complete = false ∧ session.streamRespCounter ≠ session.streamReqCounter + 2
    | _ => True
  | _ => True

instance (w : World) (e : Effect) : Decidable (TakesInTurn w e) := by
  unfold TakesInTurn
  split
  · split <;> infer_instance
  · infer_instance

/-- The tests the source makes before an effect that stands alone.  A client may drop its
connection without accounting for it where `permits` says so. -/
def Alone (permits : Ledger → ClientId → Prop) (w : World) (e : Effect) : Prop :=
  match e with
  | .createClient _ => w.nconnsMade < w.nclients
  | .createDestClient parent _ _ =>
    parent < w.clientCount ∧ (w.clients parent).parentClient = none
  | .allocateSession c _ => c < w.clientCount
  | .listClient _ => w.config.timingBasedMode = true
  | .setPhase phase =>
    (phase = .warmUp ∧ w.currentPhase = .initialIdle) ∨
      (phase = .mainDuration ∧ w.currentPhase = .warmUp) ∨ phase.afterMain = true
  | .startRequest _ _ _ _ => w.currentPhase.statsEligible = false
  | .countStart _ _ _ | .failInflight _ => False
  | .abandonStreams _ => w.currentPhase ≠ .mainDuration
  | .timeout c => w.shouldReconnectOnDisconnect w.config c = false
  | .disconnect c => permits w.ledger c
  | _ => True

/-- Bytes of a body leave an HTTP/1 session. -/
def Effect.sends (d : ClientId) : Effect → Prop
  | .cutPayload c _ _ | .advanceOffset c _ _ | .requestSent c => c = d
  | _ => False

/-- The session of `d` takes the request at its front in the main phase, on behalf of the
controller `p`. -/
structure Submitted (w : World) (p d : ClientId) (sent : List Effect) (scenario request : Nat) :
    Prop where
  main : w.currentPhase = .mainDuration
  controller : w.controllerOf d = p
  known : p < w.clientCount
  root : (w.clients p).parentClient = none
  sends : ∀ e ∈ sent, e.sends d
  front : w.config.scenarios.isEmpty = false → ∃ first rest,
    (w.clients d).requestsToSubmit = first :: rest ∧ scenario = first.scenarioIndex ∧
      request = first.currRequestIdx

/-- Effects that come together. -/
inductive Group (permits : Ledger → ClientId → Prop) (w : World) : List Effect → Prop
  | alone {e : Effect} (fits : Alone permits w e) : Group permits w [e]
  /-- A connection is lost and what was in flight on it accounted for. -/
  | lost {c : ClientId} {links : List Link} {account : Effect}
      (accounts : account = .failInflight c ∨ account = .abandonStreams c) :
      Group permits w (.disconnect c :: (links.map (Effect.setLink c) ++ [account]))
  /-- A request is taken by a session and counted. -/
  | submitted {p d : ClientId} {sent : List Effect} {scenario request now stray : Nat}
      {offset : Int} (taken : Submitted w p d sent scenario request) :
      Group permits w (.startRequest d now stray offset :: (sent ++ [.countStart p scenario request]))

/-- Lists and controllers agree, and controllers have no controller. -/
structure World.Rooted (w : World) : Prop where
  listed : w.WellListed
  roots : w.ledger.Rooted

section Permits

variable {permits : Ledger → ClientId → Prop}

theorem rooted_apply (w : World) (e : Effect) (keeps : KeepsRoots w e) (rooted : w.Rooted) :
    (Machine.apply e w).Rooted :=
  ⟨wellListed_apply w e rooted.listed, rooted_act w e keeps rooted.roots⟩

theorem keepsRoots_of_alone {w : World} {e : Effect} (fits : Alone permits w e) : KeepsRoots w e := by
  cases e with
  | createDestClient | allocateSession => exact fits
  | _ => trivial

/-- No sub-client is opened and no session allocated. -/
def Effect.plain : Effect → Bool
  | .createDestClient _ _ _ | .allocateSession _ _ => false
  | _ => true

theorem rooted_replay_plain {w : World} {es : List Effect} (plain : ∀ e ∈ es, e.plain = true)
    (rooted : w.Rooted) : (replay w es).Rooted := by
  induction es generalizing w with
  | nil => exact rooted
  | cons e es ih =>
    refine ih (fun f member => plain f (List.mem_cons_of_mem _ member)) ?_
    refine rooted_apply w e ?_ rooted
    have first := plain e List.mem_cons_self
    cases e with
    | createDestClient | allocateSession => cases first
    | _ => trivial

theorem rooted_group {w : World} {group : List Effect} (grouped : Group permits w group)
    (rooted : w.Rooted) : (replay w group).Rooted := by
  cases grouped with
  | alone fits => exact rooted_apply w _ (keepsRoots_of_alone fits) rooted
  | lost accounts =>
    refine rooted_replay_plain ?_ rooted
    intro e member
    simp only [List.mem_cons, List.mem_append, List.mem_map, List.not_mem_nil, or_false] at member
    rcases member with rfl | ⟨link, -, rfl⟩ | rfl
    · rfl
    · rfl
    · rcases accounts with rfl | rfl <;> rfl
  | submitted taken =>
    refine rooted_replay_plain ?_ rooted
    intro e member
    simp only [List.mem_cons, List.mem_append, List.not_mem_nil, or_false] at member
    rcases member with rfl | sent | rfl
    · rfl
    · have sends := taken.sends e sent
      cases e with
      | createDestClient | allocateSession => cases sends
      | _ => rfl
    · rfl

/-! ## What a group does to the ledger -/

end Permits

theorem silent_of_sends {d : ClientId} {e : Effect} (sends : e.sends d) : e.silent = true := by
  cases e with
  | cutPayload | advanceOffset | requestSent => rfl
  | _ => cases sends

theorem ledger_replay_silent {w : World} {es : List Effect} (silent : ∀ e ∈ es, e.silent = true) :
    (replay w es).ledger = w.ledger := by
  induction es generalizing w with
  | nil => rfl
  | cons e es ih =>
    rw [replay_cons, ih fun f member => silent f (List.mem_cons_of_mem _ member)]
    exact ledger_of_silent w e (silent e List.mem_cons_self)

def Account.dropped (account : Account) : Account :=
  { account with
    eligible := 0
    hasSession := false }

theorem ledger_replay_lost (w : World) (c : ClientId) (links : List Link) :
    (replay (Machine.apply (Effect.disconnect c) w) (links.map (Effect.setLink c))).ledger =
      w.ledger.write c (w.ledger.accounts c).dropped := by
  have quiet : ∀ e ∈ links.map (Effect.setLink c), e.silent = true := by
    intro e member
    obtain ⟨link, -, rfl⟩ := List.mem_map.mp member
    rfl
  exact (ledger_replay_silent quiet).trans (ledger_disconnect w c)

theorem ledger_lost {w : World} {c : ClientId} {links : List Link} {account : Effect}
    {C : World → Effect → Prop} (accounts : account = .failInflight c ∨ account = .abandonStreams c)
    (along : Along C w (.disconnect c :: (links.map (Effect.setLink c) ++ [account]))) :
    ∃ (v : World) (reconnects : Bool), v.ledger = w.ledger.write c (w.ledger.accounts c).dropped ∧
      C v account ∧ (replay w (.disconnect c :: (links.map (Effect.setLink c) ++ [account]))).ledger =
        v.ledger.abandon c reconnects ∧
      (account = .failInflight c ∧ reconnects = true ∨ account = .abandonStreams c ∧
        reconnects = v.shouldReconnectOnDisconnect v.config c) := by
  obtain ⟨-, fits, -⟩ := (along_append _ _ _ _).mp along.2
  rw [replay_cons, replay_append]
  rcases accounts with rfl | rfl
  · exact ⟨_, true, ledger_replay_lost w c links, fits, ledger_failInflight _ c, .inl ⟨rfl, rfl⟩⟩
  · exact ⟨_, _, ledger_replay_lost w c links, fits, ledger_processAbandonedStreams _ _ c,
      .inr ⟨rfl, rfl⟩⟩

namespace Submitted

variable {w : World} {p d : ClientId} {sent : List Effect} {scenario request : Nat}

theorem offers (taken : Submitted w p d sent scenario request) : w.offers d = true := by
  unfold World.offers
  cases none : w.config.scenarios.isEmpty with
  | true => rfl
  | false =>
    obtain ⟨first, rest, queue, -, -⟩ := taken.front none
    simp [queue]

theorem destination_known (taken : Submitted w p d sent scenario request) (rooted : w.Rooted) :
    d < w.clientCount := by
  by_contra beyond
  have orphan := rooted.listed.unborn d (Nat.le_of_not_lt beyond)
  have self : w.controllerOf d = d := by simp [World.controllerOf, orphan]
  exact beyond (self.symm.trans taken.controller ▸ taken.known)

/-- The destination has at most one more eligible stream, and one more if its identifier was
not in use; then the request is counted. -/
theorem ledger (taken : Submitted w p d sent scenario request) (now stray : Nat) (offset : Int) :
    ∃ eligible, (replay w (.startRequest d now stray offset ::
        (sent ++ [.countStart p scenario request]))).ledger =
      (w.ledger.write d { w.ledger.accounts d with eligible := eligible }).countStart p scenario
        request ∧
      eligible ≤ (w.ledger.accounts d).eligible + 1 ∧
      ((w.clients d).streams.lookup (w.clients d).nextStreamId = none →
        eligible = (w.ledger.accounts d).eligible + 1) := by
  obtain ⟨eligible, started, most, exactly⟩ := ledger_startRequest w d now stray offset
  rw [taken.main, show Phase.mainDuration.statsEligible = true from rfl, if_pos rfl] at most exactly
  refine ⟨eligible, ?_, most, exactly taken.offers⟩
  rw [replay_cons, replay_append]
  have before : (replay (Machine.apply (Effect.startRequest d now stray offset) w) sent).ledger =
      w.ledger.write d { w.ledger.accounts d with eligible := eligible } :=
    (ledger_replay_silent fun e member => silent_of_sends (taken.sends e member)).trans started
  rw [← before]
  generalize replay (Machine.apply (Effect.startRequest d now stray offset) w) sent = v
  exact ledger_countStart v p scenario request

end Submitted

/-! ## Programs whose logs come in groups -/

section Permits

variable {permits : Ledger → ClientId → Prop}

/-- A property of logs that sequencing keeps, that is about logs from rooted worlds in which
requests are taken in turn, and that every effect under the tests of the source and every loss
that is accounted for have. -/
structure Admits (permits : Ledger → ClientId → Prop) (B : World → List Effect → Prop) : Prop where
  composable : Composable B
  inTurn : ∀ {w es}, (w.Rooted → Along TakesInTurn w es → B w es) → B w es
  alone : ∀ {w e}, Alone permits w e → B w [e]
  lost : ∀ (w c) (links : List Link) {account : Effect},
    account = .failInflight c ∨ account = .abandonStreams c →
      B w (.disconnect c :: (links.map (Effect.setLink c) ++ [account]))

abbrev InGroups (permits : Ledger → ClientId → Prop) : World → List Effect → Prop :=
  GroupedFrom (Group permits) World.Rooted TakesInTurn

theorem inGroups_of_group {w : World} {group : List Effect} (grouped : w.Rooted → Group permits w group) :
    InGroups permits w group :=
  fun rooted _ => ⟨.of_group (grouped rooted), rooted_group (grouped rooted) rooted⟩

theorem admits_inGroups : Admits permits (InGroups permits) where
  composable := composable_groupedFrom (Group permits) World.Rooted TakesInTurn
  inTurn holds rooted along := holds rooted along rooted along
  alone fits := inGroups_of_group fun _ => .alone fits
  lost _ _ _ _ accounts := inGroups_of_group fun _ => .lost accounts

theorem composable : Composable (InGroups permits) := admits_inGroups.composable

end Permits

end H2LoadRunner.Load

/-
# Load.Reactions -- every reaction of the worker comes in groups of effects

One lemma for each function of `Load.Program` that submits, about any property of logs that `Admits`
the tests the source makes: what the function does has the property.  A submission takes at most one
request, and none if it fails (`Draws`), and at most one off what its controller has left
(`Spent`).  Coming in the groups of `Load.Groups` is such a property, so `grouped_of_run`: the log
of every run comes in groups, provided that no HTTP/1 session takes a request with a body while it
is shutting down or while the response has overtaken the request.
-/
import H2LoadRunner.Load.Idling

namespace H2LoadRunner.Load

open Library Library.EffectLog

set_option autoImplicit false

variable {c d p : ClientId} {close : ClientId → Nat → Bool → Bool → M Unit}
  {session : Http1Session} {w : World}

variable {permits : Ledger → ClientId → Prop}

/-! ## Programs that submit nothing -/

namespace Admits

variable {B : World → List Effect → Prop} (admits : Admits permits B)

include admits

theorem nil (w : World) : B w [] := admits.composable.nil w

theorem append {es fs : List Effect} (early : B w es) (late : B (replay w es) fs) :
    B w (es ++ fs) :=
  admits.composable.append w es fs early late

abbrev logs : LoadConduct := .logging admits.composable

theorem relinking (env : Env) : Relinking env (fun _ _ => True) permits admits.logs where
  idle _ alone _ := admits.alone alone
  lost link _ _ _ accounts := admits.lost _ _ link.toList accounts
  unfinished _ := trivial
  links _ _ _ := trivial
  drops _ _ := trivial
  faults _ _ := trivial
  relinks _ _ := admits.alone trivial
  connects _ _ _ _ := admits.alone trivial

theorem looping : Looping admits.logs fun _ _ => True where
  toLight := (admits.relinking {}).lights
  kept _ _ := trivial
  controllers _ _ := trivial
  relinks _ _ := admits.alone trivial

end Admits

/-! ## What is taken -/

def World.pending (w : World) (c : ClientId) : Nat := (w.clients c).link.rpsReqPending

theorem pending_act (w : World) (e : Effect) (d : ClientId) :
    (e.act w).pending d = match e with
      | .createClient _ | .createDestClient _ _ _ => if d = w.clientCount then 0 else w.pending d
      | .setLink c link | .connecting c link => if d = c then link.rpsReqPending else w.pending d
      | _ => w.pending d := by
  have kept {e : Effect} (each : ∀ {a b}, Touch w a e d b → b.link.rpsReqPending = a.link.rpsReqPending) :
      (e.act w).pending d = w.pending d := read_act (fun client => client.link.rpsReqPending) w e d each
  cases e with
  | createClient candidates =>
    simp only [World.pending, Effect.act, World.createClient, Function.update_apply]
    split <;> rfl
  | createDestClient p schema authority =>
    dsimp only
    split
    · rename_i here
      simp only [here, World.pending, Effect.act, World.createDestClient, Function.update_self]
      rfl
    · rename_i other
      refine kept fun touch => ?_
      cases touch with
      | createDest => exact absurd rfl other
      | _ => rfl
  | setLink c link | connecting c link =>
    simp only [World.pending, Effect.act, World.clients_modifyClient]
    split <;> rfl
  | _ => exact kept fun touch => by cases touch <;> rfl

def Leaves (w : World) : Effect → Prop
  | .setLink c link | .connecting c link => link.rpsReqPending = w.pending c
  | _ => True

/-- The session of a client of `p`'s takes a request. -/
def Effect.takesFor (p : ClientId) (w : World) : Effect → Bool
  | .startRequest d _ _ _ => w.controllerOf d == p
  | _ => false

/-- How many requests the sessions of `p` and of its sub-clients take. -/
def taken (p : ClientId) : World → List Effect → Int :=
  total fun w e => if e.takesFor p w then 1 else 0

theorem taken_append (p : ClientId) (w : World) (es fs : List Effect) :
    taken p w (es ++ fs) = taken p w es + taken p (replay w es) fs :=
  total_append _ w es fs

theorem taken_cons (p : ClientId) (w : World) (e : Effect) (es : List Effect) :
    taken p w (e :: es) = (if e.takesFor p w then 1 else 0) + taken p (Machine.apply e w) es :=
  rfl

theorem taken_of_untaken {es : List Effect}
    (untaken : ∀ e ∈ es, ∀ p w, Effect.takesFor p w e = false) (p : ClientId) : taken p w es = 0 := by
  induction es generalizing w with
  | nil => rfl
  | cons e es ih =>
    rw [taken_cons, untaken e List.mem_cons_self p w,
      ih fun f member => untaken f (List.mem_cons_of_mem _ member)]
    rfl

/-- What is pending is left, and `p` takes at most `n` requests, nobody else any. -/
structure Draws (p : ClientId) (n : Int) (w : World) (es : List Effect) : Prop where
  leaves : Along Leaves w es
  takes : ∀ q, taken q w es ≤ if q = p then n else 0

namespace Draws

variable {es : List Effect} {e : Effect}

theorem nil (p : ClientId) (w : World) : Draws p 0 w [] :=
  ⟨trivial, fun q => by split <;> exact le_rfl⟩

theorem append {m n : Int} {fs : List Effect} (early : Draws p m w es)
    (late : Draws p n (replay w es) fs) : Draws p (m + n) w (es ++ fs) := by
  refine ⟨(along_append Leaves w es fs).mpr ⟨early.leaves, late.leaves⟩, fun q => ?_⟩
  rw [taken_append]
  have first := early.takes q
  have second := late.takes q
  split at first
  · rename_i same
    rw [if_pos same] at second ⊢
    omega
  · rename_i other
    rw [if_neg other] at second ⊢
    omega

theorem then_nothing {n : Int} {fs : List Effect} (early : Draws p n w es)
    (late : Draws p 0 (replay w es) fs) : Draws p n w (es ++ fs) := by
  have both := early.append late
  rwa [Int.add_zero] at both

theorem mono {m n : Int} (draws : Draws p m w es) (most : m ≤ n) : Draws p n w es := by
  refine ⟨draws.leaves, fun q => (draws.takes q).trans ?_⟩
  split
  · exact most
  · exact le_rfl

theorem of_untaken (leaves : Along Leaves w es)
    (untaken : ∀ e ∈ es, ∀ p w, Effect.takesFor p w e = false) : Draws p 0 w es := by
  refine ⟨leaves, fun q => ?_⟩
  rw [taken_of_untaken untaken]
  split <;> exact le_rfl

theorem of_effect (leaves : Leaves w e) (untaken : ∀ p w, Effect.takesFor p w e = false) : Draws p 0 w [e] := by
  refine of_untaken ⟨leaves, trivial⟩ fun f member => ?_
  rw [List.mem_singleton.mp member]
  exact untaken

/-- A request of `p` is taken and its body sent. -/
theorem of_taken {now stray : Nat} {offset : Int} {sent : List Effect}
    (controller : w.controllerOf d = p) (sends : ∀ e ∈ sent, e.sends d) :
    Draws p 1 w (.startRequest d now stray offset :: sent) := by
  have untaken : ∀ e ∈ sent, ∀ p w, Effect.takesFor p w e = false := by
    intro e member q v
    have sent := sends e member
    cases e with
    | startRequest => cases sent
    | _ => rfl
  have leaves : ∀ e ∈ sent, ∀ v, Leaves v e := by
    intro e member v
    have sent := sends e member
    cases e with
    | setLink | connecting => cases sent
    | _ => trivial
  refine ⟨⟨trivial, along_of_forall leaves _⟩, fun q => ?_⟩
  rw [taken_cons, taken_of_untaken untaken, Effect.takesFor, controller]
  by_cases same : q = p
  · subst same
    simp
  · have other : (p == q) = false := beq_false_of_ne fun back => same back.symm
    simp [other, same]

theorem composable (p : ClientId) : Composable (Draws p 0) where
  nil := .nil p
  append _ _ _ early late := early.then_nothing late

theorem lights (p : ClientId) : Light (.logging (Draws.composable p)) where
  light {w e} _ is := by
    refine .of_effect ?_ fun q v => ?_
    · cases e with
      | setLink | connecting => cases is
      | _ => trivial
    · cases e with
      | startRequest => cases is
      | _ => rfl
  cuts _ _ := .of_effect trivial fun _ _ => rfl
  links _ akin := .of_effect (congrArg Prod.fst akin.counts) fun _ _ => rfl
  faults _ _ := trivial

end Draws

/-! ## Submissions -/

section Submissions

variable (env : Env)

@[simp] theorem emits_startRequest (d : ClientId) (w : World) (Q : PUnit → List Effect → Prop) :
    Emits (startRequest env d) w Q ↔
      Q ⟨⟩ [.startRequest d (env.clock w.ticks) (env.stray w.ticks) (env.offset w.ticks)] := by
  simp [startRequest, emits_bind]

theorem session_requestSent (here : (w.clients d).session = some (.http1 session)) :
    ((Machine.apply (Effect.requestSent d) w).clients d).session =
      some (.http1 { session with streamReqCounter := session.streamReqCounter + 2 }) := by
  simp [Effect.act, Client.modifyHttp1, here, World.clients_modifyClient]

theorem emits_http1RequestSent (here : (w.clients d).session = some (.http1 session))
    (behind : session.streamRespCounter ≠ session.streamReqCounter + 2) :
    Emits (http1RequestSent close d) w fun _ es => ∀ e ∈ es, e.sends d := by
  unfold http1RequestSent
  simp only [emits_bind, emits_perform, emits_client, replay_cons, replay_nil,
    session_requestSent here, emits_ite, emits_pure]
  refine ⟨fun same => absurd same behind, fun _ e member => ?_⟩
  obtain rfl := List.mem_singleton.mp (by simpa using member)
  exact rfl

theorem emits_http1OnWrite (here : (w.clients d).session = some (.http1 session))
    (runs : session.complete = false) (behind : session.streamRespCounter ≠ session.streamReqCounter + 2) :
    Emits (http1OnWrite close d session) w fun result es => result = 0 ∧ ∀ e ∈ es, e.sends d := by
  unfold http1OnWrite
  simp only [runs, Bool.false_eq_true, if_false, emits_bind, emits_world, replay_nil,
    List.nil_append]
  split
  · simp
  · rename_i stream opened
    simp only [emits_ite, emits_pure, emits_perform, emits_bind, List.append_nil]
    have offset : ((replay w [Effect.advanceOffset d session.streamReqCounter Client.chunk]).clients
        d).session = some (.http1 session) := by
      rw [← here]
      simp [Effect.act, World.clients_modifyClient, Client.advanceOffset]
    refine ⟨fun _ => ⟨fun _ => ⟨fun _ => ?_, fun _ => ⟨trivial, by simp [Effect.sends]⟩⟩, by simp⟩,
      fun _ => ?_⟩
    · intro a es sent
      have sends := emits_http1RequestSent offset behind a es sent
      refine ⟨trivial, fun e member => ?_⟩
      rcases List.mem_cons.mp member with rfl | later
      · exact rfl
      · exact sends e later
    · split
      · simp [emits_ite]
      · simp only [emits_ite, emits_pure, emits_perform, emits_bind, List.append_nil, true_and]
        refine ⟨by simp, fun _ => ⟨by simp [Effect.sends], fun _ => ?_⟩⟩
        exact emits_http1RequestSent here behind

/-- The request at the front of the queue was taken, or refused. -/
inductive Took (w : World) (d : ClientId) (result : Int) (es : List Effect) : Prop
  | refused (failed : result ≠ 0)
      (dropped : es = [] ∨ es = [.dropRequest d] ∨ ∃ link : Link, link.rpsReqPending = w.pending d ∧
        es = [.setLink d link])
  | taken {now stray : Nat} {offset : Int} {sent : List Effect} (succeeded : result = 0)
      (offers : w.offers d = true) (sends : ∀ e ∈ sent, e.sends d)
      (shape : es = .startRequest d now stray offset :: sent)

theorem took_http2SubmitRequest (d : ClientId) (session : Http2Session) (w : World) :
    Emits (http2SubmitRequest env d session) w (Took w d) := by
  unfold http2SubmitRequest
  simp only [emits_bind, emits_world, replay_nil, List.nil_append, emits_ite, emits_pure,
    emits_modifyLink, emits_startRequest, emits_perform, List.append_nil, emits_fault]
  have bare (result : Int) (failed : result ≠ 0) : Took w d result [] := .refused failed (.inl rfl)
  have started (offers : w.offers d = true) : Took w d 0
      [.startRequest d (env.clock w.ticks) (env.stray w.ticks) (env.offset w.ticks)] :=
    .taken rfl offers (by simp) rfl
  refine ⟨fun _ => bare _ (by decide), fun _ => ⟨fun plain => ⟨fun _ => ?_, fun _ => ?_⟩,
    fun _ => ⟨fun _ => bare _ (by decide), fun _ => ⟨fun _ => trivial, fun queued =>
      ⟨fun _ => ?_, fun _ => ?_⟩⟩⟩⟩⟩
  · exact .refused (by decide) (.inr (.inr ⟨_, by rfl, rfl⟩))
  · exact started (by simp [World.offers, plain])
  · exact .refused (by decide) (.inr (.inl rfl))
  · exact started (by simp [World.offers, queued])

theorem session_startRequest (now stray : Nat) (offset : Int) (offers : w.offers d = true) :
    ((Machine.apply (Effect.startRequest d now stray offset) w).clients d).session =
      (w.clients d).session.map (Client.acceptedSession w.config (w.bodyless d)) := by
  simp only [clients_apply, Effect.act, World.clients_modifyClient, if_true, Client.startRequest,
    World.bodyless]
  by_cases scenarios : w.config.scenarios.isEmpty = true
  · simp only [if_pos scenarios]
    rfl
  · simp only [if_neg scenarios]
    cases queue : (w.clients d).requestsToSubmit with
    | nil => simp [World.offers, scenarios, queue] at offers
    | cons request rest => rfl

theorem took_http1SubmitRequest (here : (w.clients d).session = some (.http1 session)) :
    Emits (http1SubmitRequest env close d) w fun result es =>
      Along TakesInTurn w es → Took w d result es := by
  have written (offers : w.offers d = true) :
      Emits (http1Send env close d (w.bodyless d)) w fun result es =>
        Along TakesInTurn w es → Took w d result es := by
    unfold http1Send
    simp only [emits_bind, emits_startRequest, emits_ite, emits_pure, emits_client, replay_cons,
      replay_nil, List.nil_append, List.cons_append, session_startRequest _ _ _ offers, here,
      Option.map_some]
    refine ⟨fun _ _ => .taken rfl offers (by simp) rfl, fun bodied => ?_⟩
    have same : Client.acceptedSession w.config (w.bodyless d) (.http1 session) = .http1 session := by
      simp [Client.acceptedSession, bodied]
    have after := session_startRequest (env.clock w.ticks) (env.stray w.ticks) (env.offset w.ticks) offers
    rw [here, Option.map_some, same] at after
    rw [same]
    intro result es writes along
    have turn := along.1
    simp only [TakesInTurn, here] at turn
    obtain ⟨runs, behind⟩ := turn.resolve_left bodied
    obtain ⟨zero, sends⟩ := emits_http1OnWrite after runs behind result es writes
    exact .taken zero offers sends rfl
  unfold http1SubmitRequest
  simp only [emits_bind (Program.world), emits_world, replay_nil, List.nil_append]
  by_cases scenarios : w.config.scenarios.isEmpty = true
  · have offers : w.offers d = true := by simp [World.offers, scenarios]
    have bodyless : w.bodyless d = (w.config.dataLength == 0) := by simp [World.bodyless, scenarios]
    rw [← bodyless]
    simp only [if_pos scenarios, emits_bind (pure _), emits_pure, replay_nil, List.nil_append]
    exact written offers
  · rw [if_neg scenarios]
    split
    · simp [emits_bind]
    · rename_i request rest queue
      have offers : w.offers d = true := by simp [World.offers, queue]
      have bodyless : w.bodyless d = request.content.reqPayload.isEmpty := by
        simp [World.bodyless, scenarios, queue]
      rw [← bodyless]
      simp only [emits_bind (pure _), emits_pure, replay_nil, List.nil_append]
      exact written offers

theorem took_sessionSubmitRequest (close : ClientId → Nat → Bool → Bool → M Unit) (d : ClientId) (w : World) :
    Emits (sessionSubmitRequest env close d) w fun result es =>
      Along TakesInTurn w es → Took w d result es := by
  unfold sessionSubmitRequest
  simp only [emits_bind, emits_client, replay_nil, List.nil_append]
  split
  · exact emits_fault _ _ _
  · exact (took_http2SubmitRequest env d _ w).mono fun _ _ took _ => took
  · rename_i session here
    exact took_http1SubmitRequest env here

theorem Took.draws {result : Int} {es : List Effect} (took : Took w d result es) :
    Draws (w.controllerOf d) (if result = 0 then 1 else 0) w es := by
  cases took with
  | refused failed dropped =>
    rw [if_neg failed]
    rcases dropped with rfl | rfl | ⟨link, same, rfl⟩
    · exact .nil _ w
    · exact .of_effect trivial fun _ _ => rfl
    · exact .of_effect same fun _ _ => rfl
  | taken succeeded _ sends shape =>
    rw [if_pos succeeded, shape]
    exact .of_taken rfl sends

theorem alone_of_sends {e : Effect} (sends : e.sends d) (w : World) : Alone permits w e := by
  cases e with
  | cutPayload | advanceOffset | requestSent => trivial
  | _ => cases sends

theorem ledger_taken {sent : List Effect} (sends : ∀ e ∈ sent, e.sends d) (now stray : Nat) (offset : Int) :
    ∃ eligible, (replay w (.startRequest d now stray offset :: sent)).ledger =
      w.ledger.write d { w.ledger.accounts d with eligible := eligible } := by
  obtain ⟨eligible, started, -, -⟩ := ledger_startRequest w d now stray offset
  refine ⟨eligible, ?_⟩
  rw [replay_cons]
  exact (ledger_replay_silent fun e member => silent_of_sends (sends e member)).trans started

theorem currentPhase_taken {now stray : Nat} {offset : Int} {sent : List Effect}
    (sends : ∀ e ∈ sent, e.sends d) :
    (replay w (.startRequest d now stray offset :: sent)).currentPhase = w.currentPhase := by
  obtain ⟨eligible, ledger⟩ := ledger_taken sends now stray offset
  exact congrArg Ledger.phase ledger

/-- What is left to the controller after a submission that succeeded: as much as before, or one
less. -/
structure Spent (w v : World) (p : ClientId) : Prop where
  root : (v.clients p).parentClient = none
  left : (v.clients p).reqLeft = (w.clients p).reqLeft ∨
    (v.clients p).reqLeft = decWrap (w.clients p).reqLeft

theorem spent_taken {sent : List Effect} (root : (w.clients p).parentClient = none)
    (sends : ∀ e ∈ sent, e.sends d) (now stray : Nat) (offset : Int) :
    let v := replay w (.startRequest d now stray offset :: sent)
    (v.clients p).parentClient = none ∧ (v.clients p).reqLeft = (w.clients p).reqLeft := by
  obtain ⟨eligible, ledger⟩ := ledger_taken (w := w) sends now stray offset
  have account : (replay w (.startRequest d now stray offset :: sent)).ledger.accounts p =
      if p = d then { w.ledger.accounts d with eligible := eligible } else w.ledger.accounts p := by
    rw [ledger, Ledger.accounts_write]
  constructor
  · refine (congrArg Account.parent account).trans (Eq.trans ?_ root)
    split
    · rename_i here
      rw [here]
      rfl
    · rfl
  · refine (congrArg Account.reqLeft account).trans ?_
    split
    · rename_i here
      rw [here]
      rfl
    · rfl

theorem Spent.of_left {u v : World} (spent : Spent v w p)
    (same : (v.clients p).reqLeft = (u.clients p).reqLeft) : Spent u w p :=
  ⟨spent.root, same ▸ spent.left⟩

theorem spent_countStart {v : World} (root : (v.clients p).parentClient = none)
    (left : (v.clients p).reqLeft = (w.clients p).reqLeft) (scenario request : Nat) :
    Spent w (replay v [.countStart p scenario request]) p := by
  have account : (replay v [.countStart p scenario request]).ledger.accounts p =
      (v.ledger.accounts p).started v.config.timingBasedMode := by
    have ledger : (replay v [.countStart p scenario request]).ledger = _ :=
      ledger_countStart v p scenario request
    rw [ledger, Ledger.accounts_countStart, if_pos rfl]
    rfl
  refine ⟨(congrArg Account.parent account).trans root, ?_⟩
  have after : ((replay v [.countStart p scenario request]).clients p).reqLeft =
      if v.config.timingBasedMode then (w.clients p).reqLeft else decWrap (w.clients p).reqLeft := by
    rw [← left]
    exact (congrArg Account.reqLeft account).trans (Account.reqLeft_started _ _)
  rw [after]
  by_cases timing : v.config.timingBasedMode = true
  · exact .inl (if_pos timing)
  · exact .inr (if_neg timing)

/-- The client is the controller itself or one of its sub-clients, and phase and budget have not
changed. -/
structure Destination (w v : World) (p d : ClientId) : Prop where
  controller : v.controllerOf d = p
  known : p < v.clientCount
  root : (v.clients p).parentClient = none
  phase : v.currentPhase = w.currentPhase
  left : (v.clients p).reqLeft = (w.clients p).reqLeft

theorem ledger_opened (w : World) (p : ClientId) (schema authority : String) (link : Link) :
    (replay w [Effect.createDestClient p schema authority, .connecting w.clientCount link]).ledger =
      { w.ledger.write w.clientCount (.fresh (some p) (w.ledger.accounts p).reqTodo) with
        clientCount := w.clientCount + 1 } :=
  (ledger_of_silent _ (.connecting _ _) rfl).trans (ledger_createDestClient w w.config p schema authority)

theorem destination_opened (known : p < w.clientCount) (root : (w.clients p).parentClient = none)
    (schema authority : String) (link : Link) :
    Destination w (replay w [.createDestClient p schema authority, .connecting w.clientCount link]) p
      w.clientCount := by
  have ledger := ledger_opened w p schema authority link
  have parent (d : ClientId) : ((replay w [Effect.createDestClient p schema authority,
        .connecting w.clientCount link]).clients d).parentClient =
      if d = w.clientCount then some p else (w.clients d).parentClient := by
    refine (congrArg (fun ledger => (ledger.accounts d).parent) ledger).trans ?_
    dsimp only
    rw [Ledger.accounts_write, apply_ite Account.parent]
    rfl
  refine ⟨?_, ?_, ?_, congrArg Ledger.phase ledger, ?_⟩
  · rw [World.controllerOf, parent, if_pos rfl]
    rfl
  · exact Nat.lt_of_lt_of_eq (Nat.lt_succ_of_lt known) (congrArg Ledger.clientCount ledger).symm
  · rw [parent, if_neg (Nat.ne_of_lt known), root]
  · refine (congrArg (fun ledger => (ledger.accounts p).reqLeft) ledger).trans ?_
    dsimp only
    rw [Ledger.accounts_write, if_neg (Nat.ne_of_lt known)]
    rfl

theorem root_controllerOf (rooted : w.Rooted) (c : ClientId) :
    (w.clients (w.controllerOf c)).parentClient = none := by
  unfold World.controllerOf
  cases parent : (w.clients c).parentClient with
  | none => exact parent
  | some p => exact (rooted.roots.parents c p parent).2

/-- A submission counted for `p`, which has `left` requests left, has `B`. -/
def Counts (B : World → List Effect → Prop) (p : ClientId) (left : Nat) : Prop :=
  ∀ v d sent scenario request now stray offset, (v.clients p).reqLeft = left →
    Submitted v p d sent scenario request →
      B v (.startRequest d now stray offset :: (sent ++ [.countStart p scenario request]))

/-- What is known of a log of `submit_request` of the controller `p`: it takes one request at most,
and none if it fails. -/
def Submits (B : World → List Effect → Prop) (w : World) (p : ClientId) (result : Int)
    (es : List Effect) : Prop :=
  B w es ∧ (Along TakesInTurn w es →
    Draws p (if result = 0 then 1 else 0) w es ∧ (result = 0 → Spent w (replay w es) p))

namespace Admits

variable {B : World → List Effect → Prop} (admits : Admits permits B)

include admits

theorem of_forall_alone {es : List Effect} (alone : ∀ e ∈ es, ∀ w, Alone permits w e) (w : World) : B w es := by
  induction es generalizing w with
  | nil => exact admits.nil w
  | cons e es ih =>
    have first : B w [e] := admits.alone (alone e List.mem_cons_self w)
    exact admits.append first (ih (fun f member => alone f (List.mem_cons_of_mem _ member)) _)

theorem submits_nothing (root : (w.clients p).parentClient = none) (result : Int) :
    Submits B w p result [] :=
  ⟨admits.nil w, fun _ => ⟨(Draws.nil p w).mono (by split <;> decide), fun _ => ⟨root, .inl rfl⟩⟩⟩

theorem submits_after {es fs : List Effect} {result : Int} (before : B w es) (draws : Draws p 0 w es)
    (left : ((replay w es).clients p).reqLeft = (w.clients p).reqLeft)
    (submits : Submits B (replay w es) p result fs) : Submits B w p result (es ++ fs) := by
  refine ⟨admits.append before submits.1, fun along => ?_⟩
  obtain ⟨later, spent⟩ := submits.2 ((along_append _ w es fs).mp along).2
  have both := draws.append later
  rw [Int.zero_add] at both
  refine ⟨both, fun succeeded => ?_⟩
  rw [replay_append]
  exact (spent succeeded).of_left left

theorem submits_submitTo (controller : w.controllerOf d = p) (known : p < w.clientCount)
    (root : (w.clients p).parentClient = none) (phase : w.currentPhase ≠ .mainDurationGracefulShutdown)
    (counts : Counts B p (w.clients p).reqLeft) : Emits (submitTo env close p d) w (Submits B w p) := by
  unfold submitTo
  simp only [emits_bind, emits_client, emits_ite, emits_pure, emits_world, emits_perform, replay_nil,
    List.nil_append, List.append_nil]
  refine ⟨fun _ => admits.submits_nothing root 0, fun _ result es submits => ?_⟩
  have took := took_sessionSubmitRequest env close d w result es submits
  have draws (along : Along TakesInTurn w es) := controller ▸ (took along).draws
  refine ⟨fun failed a fs fails => ?_, fun succeeded => ⟨fun outside => ?_, fun inside => ?_⟩⟩
  · constructor
    · refine admits.inTurn fun _ along => ?_
      cases took ((along_append _ w es fs).mp along).1 with
      | taken zero => exact absurd zero failed
      | refused _ dropped =>
        refine admits.append ?_ (Conduct.meets_logging.mp (admits.looping.processRequestFailure result
          fun _ _ _ => admits.alone trivial) a fs fails)
        rcases dropped with rfl | rfl | ⟨link, -, rfl⟩
        · exact admits.nil w
        · exact admits.alone trivial
        · exact admits.alone trivial
    · refine fun along => ⟨?_, fun succeeded => absurd succeeded failed⟩
      exact (draws ((along_append _ w es fs).mp along).1).then_nothing
        (Conduct.meets_logging.mp ((Draws.lights p).processRequestFailure result
          fun _ _ _ => .of_effect trivial fun _ _ => rfl) a fs fails)
  · constructor
    · refine admits.inTurn fun _ along => ?_
      cases took along with
      | refused failed => exact absurd failed succeeded
      | @taken now stray offset sent _ offers sends shape =>
        subst shape
        rw [currentPhase_taken sends] at outside
        have uncounted : w.currentPhase.statsEligible = false := by
          cases now : w.currentPhase with
          | mainDuration => exact absurd now outside
          | mainDurationGracefulShutdown => exact absurd now phase
          | _ => rfl
        have first : B w [.startRequest d now stray offset] := admits.alone uncounted
        exact admits.append first
          (admits.of_forall_alone (fun e member v => alone_of_sends (sends e member) v) _)
    · intro along
      obtain rfl : result = 0 := not_not.mp succeeded
      refine ⟨draws along, fun _ => ?_⟩
      cases took along with
      | refused failed => exact absurd failed succeeded
      | taken _ offers sends shape =>
        subst shape
        obtain ⟨controls, left⟩ := spent_taken root sends _ _ _
        exact ⟨controls, .inl left⟩
  · constructor
    · refine admits.inTurn fun _ along => ?_
      cases took ((along_append _ w es _).mp along).1 with
      | refused failed => exact absurd failed succeeded
      | taken _ offers sends shape =>
        subst shape
        rw [currentPhase_taken sends] at inside
        refine counts w d _ _ _ _ _ _ rfl ⟨not_not.mp inside, controller, known, root, sends, ?_⟩
        intro scenarios
        cases queue : (w.clients d).requestsToSubmit with
        | nil => simp [World.offers, queue, scenarios] at offers
        | cons first rest => exact ⟨first, rest, rfl, rfl, rfl⟩
    · intro along
      have early := ((along_append _ w es _).mp along).1
      obtain rfl : result = 0 := not_not.mp succeeded
      refine ⟨(draws early).then_nothing (.of_effect trivial fun _ _ => rfl), fun _ => ?_⟩
      cases took early with
      | refused failed => exact absurd failed succeeded
      | taken _ offers sends shape =>
        subst shape
        obtain ⟨controls, left⟩ := spent_taken root sends _ _ _
        rw [replay_append]
        exact spent_countStart controls left _ _

theorem emits_findOrCreateDestClient (rooted : w.Rooted) (known : p < w.clientCount)
    (root : (w.clients p).parentClient = none) (request : RequestData) :
    Emits (findOrCreateDestClient p request) w fun d es =>
      B w es ∧ Draws p 0 w es ∧ Destination w (replay w es) p d := by
  unfold findOrCreateDestClient
  simp only [emits_bind, emits_world, replay_nil, List.nil_append]
  split
  · rename_i d found
    rw [emits_pure]
    refine ⟨admits.nil w, .nil p w, ?_, known, root, rfl, rfl⟩
    rcases rooted.listed.family p d (FiniteMap.mem_values.mpr ⟨_, found⟩) with rfl | child
    · simp [World.controllerOf, root]
    · simp [World.controllerOf, child]
  · simp only [emits_bind, emits_perform, emits_client, emits_connectToHost, emits_pure, replay_cons,
      replay_nil, List.nil_append, List.append_nil, List.cons_append]
    have opened : B w [.createDestClient p request.content.schema request.content.authority] :=
      admits.alone ⟨known, root⟩
    have untaken : Draws p 0 w [.createDestClient p request.content.schema request.content.authority] :=
      .of_effect trivial fun _ _ => rfl
    exact ⟨admits.append opened (admits.alone trivial), untaken.then_nothing (.of_effect rfl fun _ _ => rfl),
      destination_opened known root _ _ _⟩

theorem emits_destinationClient (rooted : w.Rooted) (known : p < w.clientCount)
    (root : (w.clients p).parentClient = none) :
    Emits (destinationClient p) w fun d es =>
      B w es ∧ Draws p 0 w es ∧ Destination w (replay w es) p d := by
  unfold destinationClient
  simp only [emits_bind, emits_world, replay_nil, List.nil_append, emits_ite, emits_pure]
  refine ⟨fun _ => ⟨admits.nil w, .nil p w, by simp [World.controllerOf, root], known, root, rfl, rfl⟩,
    fun _ => ?_⟩
  split
  · exact emits_fault _ _ _
  · rename_i request rest _
    simp only [emits_bind, emits_ite, emits_pure, emits_perform, List.append_nil]
    intro d es found
    obtain ⟨grouped, draws, controller, known, root, phase, left⟩ :=
      admits.emits_findOrCreateDestClient rooted known root request d es found
    refine ⟨fun _ => ⟨admits.append grouped (admits.alone trivial),
        draws.then_nothing (.of_effect trivial fun _ _ => rfl), ?_⟩,
      fun _ => ⟨grouped, draws, controller, known, root, phase, left⟩⟩
    have moved : (replay w (es ++ [.moveToDest p d])).ledger = (replay w es).ledger := by
      rw [replay_append]
      exact ledger_of_silent _ (.moveToDest p d) rfl
    have parent (c : ClientId) := congrArg (fun ledger => (ledger.accounts c).parent) moved
    exact ⟨(congrArg (fun parent => parent.getD d) (parent d)).trans controller,
      known.trans_eq (congrArg Ledger.clientCount moved).symm, (parent p).trans root,
      (congrArg Ledger.phase moved).trans phase,
      (congrArg (fun ledger => (ledger.accounts p).reqLeft) moved).trans left⟩

/-- The request at the front goes to its destination. -/
theorem submits_handOver (close : ClientId → Nat → Bool → Bool → M Unit) (rooted : w.Rooted)
    (known : p < w.clientCount) (root : (w.clients p).parentClient = none)
    (phase : w.currentPhase ≠ .mainDurationGracefulShutdown) (counts : Counts B p (w.clients p).reqLeft) :
    Emits (do
      let d ← destinationClient p
      submitTo env close p d) w (Submits B w p) := by
  rw [emits_bind]
  intro d es found result fs submits
  obtain ⟨grouped, draws, destination⟩ := admits.emits_destinationClient rooted known root d es found
  exact admits.submits_after grouped draws destination.left (admits.submits_submitTo env
    destination.controller destination.known destination.root (destination.phase ▸ phase)
    (destination.left.symm ▸ counts) result fs submits)

theorem submits_submitAsController (close : ClientId → Nat → Bool → Bool → M Unit)
    (rooted : w.Rooted) (root : (w.clients p).parentClient = none) (counts : Counts B p (w.clients p).reqLeft) :
    Emits (submitAsController env close p) w (Submits B w p) := by
  unfold submitAsController
  simp only [emits_bind Program.world, emits_world, replay_nil, List.nil_append, emits_ite, emits_pure]
  refine ⟨fun _ => admits.submits_nothing root 0, fun _ => ?_⟩
  split
  · exact emits_fault _ _ _
  · rename_i session connected
    have known : p < w.clientCount := by
      by_contra beyond
      have := rooted.roots.sessionless p (Nat.le_of_not_lt beyond)
      simp [World.ledger, Client.account, connected] at this
    simp only [emits_ite, emits_pure]
    refine ⟨fun _ => admits.submits_nothing root _, fun _ => ⟨fun _ => admits.submits_nothing root _,
      fun phase => ⟨fun _ => ?_, fun _ => admits.submits_handOver env close rooted known root phase counts⟩⟩⟩
    rw [emits_bind]
    intro a es prepares
    obtain ⟨scenarioIndex, now, assemble, rfl⟩ : ∃ scenarioIndex now assemble,
        es = [.pushFirstRequest p scenarioIndex now assemble] :=
      ⟨_, _, _, emits_prepareFirstRequest env p w a es prepares⟩
    have ledger : (replay w [.pushFirstRequest p scenarioIndex now assemble]).ledger = w.ledger :=
      ledger_of_silent w (.pushFirstRequest p scenarioIndex now assemble) rfl
    have left : ((replay w [.pushFirstRequest p scenarioIndex now assemble]).clients p).reqLeft =
        (w.clients p).reqLeft := congrArg (fun ledger => (ledger.accounts p).reqLeft) ledger
    refine (admits.submits_handOver env close ?_ ?_ ?_ ?_ (left.symm ▸ counts)).mono
      fun result fs => admits.submits_after (admits.alone trivial) (.of_effect trivial fun _ _ => rfl) left
    · exact rooted_apply w _ trivial rooted
    · exact known.trans_eq (congrArg Ledger.clientCount ledger).symm
    · exact (congrArg (fun ledger => (ledger.accounts p).parent) ledger).trans root
    · exact (congrArg Ledger.phase ledger).trans_ne phase

theorem submits_submitWith (close : ClientId → Nat → Bool → Bool → M Unit) (rooted : w.Rooted)
    (counts : Counts B (w.controllerOf c) (w.clients (w.controllerOf c)).reqLeft) :
    Emits (submitWith env close c) w (Submits B w (w.controllerOf c)) := by
  have root := root_controllerOf rooted c
  unfold submitWith
  simp only [emits_bind Program.world, emits_world, replay_nil, List.nil_append, emits_ite, emits_pure]
  exact ⟨fun _ => admits.submits_nothing root 0, fun _ =>
    admits.submits_submitAsController env close rooted root counts⟩

/-- `submit_request` makes at most one request, and takes at most one off the controller's
budget. -/
theorem submits_submit (rooted : w.Rooted)
    (counts : Counts B (w.controllerOf c) (w.clients (w.controllerOf c)).reqLeft) :
    Emits (submit env c) w (Submits B w (w.controllerOf c)) := by
  unfold submit
  simp only [emits_bind Program.world, emits_world, replay_nil, List.nil_append]
  exact admits.submits_submitWith env _ rooted counts

end Admits

theorem counts_inGroups (p : ClientId) (left : Nat) : Counts (InGroups permits) p left :=
  fun _ _ _ _ _ _ _ _ _ taken => inGroups_of_group fun _ => .submitted taken

theorem inGroups_submit (c : ClientId) (w : World) :
    Emits (submit env c) w fun _ es => InGroups permits w es := by
  by_cases rooted : w.Rooted
  · exact (admits_inGroups.submits_submit env rooted (counts_inGroups _ _)).mono fun _ _ submits => submits.1
  · exact fun _ _ _ holds => absurd holds rooted

end Submissions

/-! ## Handlers -/

/-- Whatever happens to the worker, it reacts in groups of effects. -/
theorem inGroups_handle (env : Env)
    (idle : ∀ ledger c, (ledger.accounts c).eligible = 0 → permits ledger c) {event : Event}
    (permitted : ∀ c, w.drops event = some c → permits w.ledger c) :
    Emits (handle env event) w fun _ es => InGroups permits w es := by
  have admits : Admits permits (InGroups permits) := admits_inGroups
  have submitted {v : World} {c : ClientId} (_ : True) :
      admits.logs.Keeps (submit env c) v :=
    Conduct.meets_logging.mpr (inGroups_submit env c v)
  refine Conduct.meets_logging.mp ((admits.relinking env).handle idle (fun _ _ => trivial) permitted ?_ ?_ ?_ ?_)
  · exact fun v c id success final => admits.looping.onStreamClose env submitted id success final trivial
  · rintro c protocol link rfl known
    refine admits.looping.connectionMade submitted trivial (.refl _) (fun _ => admits.alone ?_) trivial
    exact known.trans_le (clientCount_le_apply w _)
  · exact fun c n _ _ => admits.looping.onRpsTimer submitted n fun _ => trivial
  · exact fun c _ _ => admits.looping.timingScriptTimeoutHandler submitted trivial trivial

/-! ## Runs -/

theorem rooted_initial (cfg : Config) (reqTodo nclients : Nat) :
    (World.initial cfg reqTodo nclients).Rooted :=
  ⟨wellListed_initial cfg reqTodo nclients, nofun, fun _ _ => rfl⟩

/-- **The log of every run comes in groups**, where every HTTP/1 session takes its requests in
turn. -/
theorem grouped_of_run (idle : ∀ ledger c, (ledger.accounts c).eligible = 0 → permits ledger c)
    {env : Env} {cfg : Config} {reqTodo nclients : Nat} {events : List Event} {log : List Effect}
    (run : Run env (World.initial cfg reqTodo nclients) events log)
    (permitted : EventsAlong (fun w event => ∀ c, w.drops event = some c → permits w.ledger c)
      (handle env) (World.initial cfg reqTodo nclients) events)
    (inTurn : Along TakesInTurn (World.initial cfg reqTodo nclients) log) :
    Grouped (Group permits) (World.initial cfg reqTodo nclients) log :=
  (emits_runAll composable (fun _ _ permits => inGroups_handle env idle permits) permitted _ _ run
    (rooted_initial cfg reqTodo nclients) inTurn).1

end H2LoadRunner.Load

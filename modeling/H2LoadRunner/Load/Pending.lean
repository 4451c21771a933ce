/-
# Load.Pending -- what a controller may still submit before its next tick

`rps_req_pending` is set by a tick of `on_rps_timer` and goes down by one for each request that
the tick or a stream that closes submits.  A log of effects takes requests (`taken`); it `Spends`
no more than is pending if what it takes and what is pending afterwards are together no more
than what was pending before.

* `frugal_handle`: where every HTTP/1 session takes its requests in turn, every event other than
  a tick or a new connection spends no more than is pending.
* `allots_onRpsTimer`: a tick that allots `n` requests spends no more than `n`.
-/
import H2LoadRunner.Load.Lineage
import H2LoadRunner.Load.Reactions

namespace H2LoadRunner.Load

open Library Library.EffectLog

set_option autoImplicit false

variable {c : ClientId} {e : Effect}

/-! ## What is pending -/

/-- What is pending belongs to controllers that exist. -/
def World.Thrifty (w : World) : Prop :=
  ∀ c, w.pending c ≠ 0 → c < w.clientCount ∧ (w.clients c).parentClient = none

variable {w : World} {es : List Effect}

theorem World.Thrifty.controllerOf (thrifty : w.Thrifty) (some : w.pending c ≠ 0) :
    w.controllerOf c = c :=
  World.controllerOf_root (thrifty c some).2

theorem pending_apply (thrifty : w.Thrifty) (leaves : Leaves w e) (d : ClientId) :
    (Machine.apply e w).pending d = w.pending d := by
  have unborn (new : d = w.clientCount) : w.pending d = 0 := by
    by_contra some
    exact Nat.ne_of_lt (thrifty d some).1 new
  refine (pending_act w e d).trans ?_
  cases e with
  | createClient | createDestClient =>
    dsimp only
    split
    · rename_i new
      exact (unborn new).symm
    · rfl
  | setLink c link | connecting c link =>
    dsimp only
    split
    · rename_i here
      rw [here]
      exact leaves
    · rfl
  | _ => rfl

theorem thrifty_of_pending (before : ∀ d, (Machine.apply e w).pending d ≠ 0 → d < w.clientCount ∧
      (w.clients d).parentClient = none) : (Machine.apply e w).Thrifty := by
  intro d some
  obtain ⟨known, root⟩ := before d some
  exact ⟨known.trans_le (clientCount_le_apply w e), (parentClient_apply e known).trans root⟩

theorem thrifty_apply (leaves : Leaves w e) (thrifty : w.Thrifty) : (Machine.apply e w).Thrifty :=
  thrifty_of_pending fun d some => thrifty d ((pending_apply thrifty leaves d).symm.trans_ne some)

theorem thrifty_replay (leaves : Along Leaves w es) (thrifty : w.Thrifty) : (replay w es).Thrifty :=
  replay_invariant (fun _ _ => thrifty_apply) leaves thrifty

theorem pending_replay (leaves : Along Leaves w es) (thrifty : w.Thrifty) (d : ClientId) :
    (replay w es).pending d = w.pending d := by
  induction es generalizing w with
  | nil => rfl
  | cons e es ih =>
    exact (ih leaves.2 (thrifty_apply leaves.1 thrifty)).trans (pending_apply thrifty leaves.1 d)

/-! ## What is spent -/

/-- Every client takes requests off what it has pending. -/
def Spends (w : World) (es : List Effect) : Prop :=
  ∀ p, taken p w es + (replay w es).pending p ≤ w.pending p

theorem Spends.append {fs : List Effect} (early : Spends w es) (late : Spends (replay w es) fs) :
    Spends w (es ++ fs) := by
  intro p
  rw [taken_append, replay_append]
  have first := early p
  have second := late p
  omega

theorem Draws.spends {p : ClientId} (draws : Draws p 0 w es) (thrifty : w.Thrifty) : Spends w es := by
  intro q
  rw [pending_replay draws.leaves thrifty]
  have most := draws.takes q
  rw [ite_self] at most
  omega

/-- The worker runs at a rate, what is pending belongs to controllers, and those have no controller. -/
structure World.Paces (w : World) : Prop where
  rooted : w.Rooted
  thrifty : w.Thrifty
  rpsMode : w.config.rpsMode = true
  unscripted : w.config.timingScript = none

theorem World.Paces.positive (paces : w.Paces) : 0 < w.config.rps := of_decide_eq_true paces.rpsMode

/-- Where requests are taken in turn, no more is spent than was pending. -/
def Frugal (w : World) (es : List Effect) : Prop :=
  w.Paces → Along TakesInTurn w es → Spends w es ∧ (replay w es).Paces

theorem composable_frugal : Composable Frugal where
  nil w paces _ := ⟨(Draws.nil 0 w).spends paces.thrifty, paces⟩
  append w es fs early late paces along := by
    obtain ⟨first, second⟩ := (along_append _ w es fs).mp along
    obtain ⟨now, between⟩ := early paces first
    obtain ⟨later, after⟩ := late between second
    exact ⟨now.append later, by rwa [replay_append]⟩

theorem World.Paces.apply (paces : w.Paces) (keeps : KeepsRoots w e)
    (thrifty : (Machine.apply e w).Thrifty) : (Machine.apply e w).Paces where
  rooted := rooted_apply w e keeps paces.rooted
  thrifty := thrifty
  rpsMode := (congrArg Config.rpsMode (config_replay w [e])).trans paces.rpsMode
  unscripted := (congrArg Config.timingScript (config_replay w [e])).trans paces.unscripted

theorem World.Paces.leaving (paces : w.Paces) (leaves : Leaves w e) (keeps : KeepsRoots w e) :
    (Machine.apply e w).Paces :=
  paces.apply keeps (thrifty_apply leaves paces.thrifty)

theorem pending_setLink (w : World) (c p : ClientId) (link : Link) :
    (replay w [Effect.setLink c link]).pending p = if p = c then link.rpsReqPending else w.pending p :=
  pending_act w (.setLink c link) p

theorem World.Paces.setLink (paces : w.Paces) (known : c < w.clientCount ∧ (w.clients c).parentClient = none)
    (link : Link) : (replay w [Effect.setLink c link]).Paces := by
  refine paces.apply (e := .setLink c link) trivial (thrifty_of_pending fun d some => ?_)
  by_cases here : d = c
  · exact here ▸ known
  · have same := pending_setLink w c d link
    rw [if_neg here] at same
    exact paces.thrifty d (same.symm.trans_ne some)

theorem frugal_of_effect (leaves : Leaves w e) (keeps : KeepsRoots w e)
    (untaken : ∀ p w, Effect.takesFor p w e = false) : Frugal w [e] :=
  fun paces _ => ⟨(Draws.of_effect (p := 0) leaves untaken).spends paces.thrifty, paces.leaving leaves keeps⟩

abbrev frugal : LoadConduct := .logging composable_frugal

theorem relinking_frugal (env : Env) : Relinking env (fun _ _ => True) (fun _ _ => True) frugal where
  idle {w e} _ _ idle := by
    refine frugal_of_effect ?_ ?_ fun p v => ?_
    · cases e with
      | setLink => exact congrArg Prod.fst (Link.Akin.counts idle)
      | connecting => exact congrArg Prod.fst idle.2.2.counts
      | _ => trivial
    · cases e with
      | createDestClient | allocateSession => cases idle
      | _ => trivial
    · cases e with
      | startRequest => cases idle
      | _ => rfl
  lost link := by
    refine lost_of_each (k := frugal) (fun _ => frugal_of_effect trivial trivial fun _ _ => rfl)
      (fun _ => frugal_of_effect (by exact rfl) trivial fun _ _ => rfl)
      (fun _ _ which => ?_) link
    rcases which with rfl | rfl <;> exact frugal_of_effect trivial trivial fun _ _ => rfl
  unfinished _ := trivial
  links _ _ _ := trivial
  drops _ _ := trivial
  faults _ _ := trivial
  relinks _ same := frugal_of_effect (congrArg Prod.fst same) trivial fun _ _ => rfl
  connects _ _ _ same := frugal_of_effect (congrArg Prod.fst same) trivial fun _ _ => rfl

theorem decWrap_eq_mod {n : Nat} (some : n ≠ 0) : decWrap n = (n - 1) % sizeMax := by
  have below : n + (sizeMax - 1) = n - 1 + sizeMax := by
    have : 0 < sizeMax := by decide
    omega
  rw [decWrap, below, Nat.add_mod_right]

theorem add_decWrap_le {n : Nat} (some : n ≠ 0) : 1 + decWrap n ≤ n := by
  have most : (n - 1) % sizeMax ≤ n - 1 := Nat.mod_le _ _
  rw [decWrap_eq_mod some]
  omega

section Handlers

variable (env : Env)

variable {w : World}

theorem paces_submit : Emits (submit env c) w fun result es => w.Paces → Along TakesInTurn w es →
      Draws (w.controllerOf c) (if result = 0 then 1 else 0) w es ∧ (replay w es).Paces := by
  intro result es submits paces along
  have permits : Admits (fun _ _ => True) (InGroups fun _ _ => True) := admits_inGroups
  obtain ⟨grouped, made⟩ := permits.submits_submit env paces.rooted (counts_inGroups _ _) result es submits
  obtain ⟨draws, -⟩ := made along
  exact ⟨draws, (grouped paces.rooted along).2, thrifty_replay draws.leaves paces.thrifty,
    by rw [config_replay]; exact paces.rpsMode, by rw [config_replay]; exact paces.unscripted⟩

/-- A request is submitted and taken off what is pending. -/
theorem spends_counted {es : List Effect} (change : Link → Link)
    (counts : ∀ link, (change link).rpsReqPending = decWrap link.rpsReqPending) (paces : w.Paces)
    (some : w.pending c ≠ 0) (draws : Draws (w.controllerOf c) 1 w es) (after : (replay w es).Paces) :
    let fs := es ++ [.setLink c (change ((replay w es).clients c).link)]
    Spends w fs ∧ (replay w fs).Paces ∧ (replay w fs).pending c = decWrap (w.pending c) := by
  have left := pending_replay draws.leaves paces.thrifty
  have counted : (change ((replay w es).clients c).link).rpsReqPending = decWrap (w.pending c) :=
    (counts _).trans (congrArg decWrap (left c))
  generalize change ((replay w es).clients c).link = link at counted
  have pending (p : ClientId) : (replay w (es ++ [.setLink c link])).pending p =
      if p = c then decWrap (w.pending c) else w.pending p := by
    rw [replay_append, pending_setLink, counted, left]
  refine ⟨fun p => ?_, ?_, by rw [pending, if_pos rfl]⟩
  · have untaken : taken p (replay w es) [.setLink c link] = 0 := rfl
    have takes := draws.takes p
    rw [paces.thrifty.controllerOf some] at takes
    rw [taken_append, untaken, pending]
    split at takes
    · rename_i same
      subst same
      have less := add_decWrap_le some
      rw [if_pos rfl]
      omega
    · rename_i other
      rw [if_neg other]
      omega
  · rw [replay_append]
    exact after.setLink (after.thrifty c ((left c).trans_ne some)) link

theorem frugal_onStreamClose (c : ClientId) (id : Nat) (success final : Bool) (w : World) :
    Emits (closed env c id success final) w fun _ es => Frugal w es := by
  unfold closed onStreamClose
  simp only [emits_bind Program.world, emits_world, replay_nil, List.nil_append]
  rw [emits_bind, emits_perform]
  refine Emits.mono (Q := fun _ fs => Frugal (replay w [Effect.closeStream c id success
    (env.verdict w.ticks) (env.clock w.ticks) (env.assembly w.ticks 0)]) fs) ?_
    fun _ fs later => composable_frugal.append w _ fs (frugal_of_effect trivial trivial fun _ _ => rfl) later
  have config : (replay w [Effect.closeStream c id success (env.verdict w.ticks) (env.clock w.ticks)
    (env.assembly w.ticks 0)]).config = w.config := config_replay w _
  generalize replay w [Effect.closeStream c id success (env.verdict w.ticks) (env.clock w.ticks)
    (env.assembly w.ticks 0)] = v at config
  have nothing : Frugal v [] := composable_frugal.nil v
  simp only [emits_bind (client c), emits_client, replay_nil, List.nil_append, emits_ite, emits_pure]
  refine ⟨fun _ => nothing, fun _ => ⟨fun _ => ?_, fun _ => ⟨fun _ => ⟨fun _ => nothing, fun _ => ⟨fun closed => ?_,
    fun _ => ⟨fun some => ?_, fun _ => nothing⟩⟩⟩, fun _ => nothing⟩⟩⟩
  · have lights := (relinking_frugal env).lights
    have quits : frugal.Keeps (do setupGracefulShutdown c; terminateSession c) v :=
      .bind (lights.setupGracefulShutdown c v) fun _ _ _ _ => lights.terminateSession c _
    exact Conduct.meets_logging.mp quits
  · intro a es _ paces
    rw [← config, paces.rpsMode] at closed
    cases closed
  · rw [emits_bind]
    intro result es submits
    have drawn := paces_submit env result es submits
    simp only [emits_ite, emits_modifyLink, emits_pure, List.append_nil]
    refine ⟨fun succeeded paces along => ?_, fun failed paces along => ?_⟩
    · obtain ⟨draws, after⟩ := drawn paces ((along_append _ v es _).mp along).1
      rw [if_pos succeeded] at draws
      obtain ⟨spends, still, -⟩ := spends_counted
        (fun link => { link with rpsReqPending := decWrap link.rpsReqPending }) (fun _ => rfl) paces some
        draws after
      exact ⟨spends, still⟩
    · obtain ⟨draws, after⟩ := drawn paces along
      rw [if_neg failed] at draws
      exact ⟨draws.spends paces.thrifty, after⟩

theorem spends_rpsLoop (count : Nat) (c : ClientId) (w : World) :
    Emits (rpsLoop env count c) w fun _ es => count ≤ w.pending c → w.pending c < sizeMax → Frugal w es := by
  induction count generalizing w with
  | zero =>
    show Emits (Pure.pure ()) w _
    rw [emits_pure]
    exact fun _ _ => composable_frugal.nil w
  | succ count ih =>
    unfold rpsLoop
    rw [emits_bind]
    intro result es submits
    have drawn := paces_submit env result es submits
    simp only [emits_ite, emits_pure, emits_bind, emits_modifyLink, List.append_nil]
    refine ⟨fun failed _ _ paces along => ?_, fun succeeded a fs loops enough fits paces along => ?_⟩
    · obtain ⟨draws, after⟩ := drawn paces along
      rw [if_neg failed] at draws
      exact ⟨draws.spends paces.thrifty, after⟩
    · have some : w.pending c ≠ 0 := by omega
      rw [← List.append_assoc] at along ⊢
      rw [← replay_append] at loops
      obtain ⟨first, rest⟩ := (along_append _ w _ fs).mp along
      obtain ⟨draws, after⟩ := drawn paces ((along_append _ w es _).mp first).1
      rw [if_pos (not_not.mp succeeded)] at draws
      obtain ⟨spends, still, less⟩ := spends_counted
        (fun link => { link with
          rpsReqInflight := link.rpsReqInflight + 1
          rpsReqPending := decWrap link.rpsReqPending }) (fun _ => rfl) paces some draws after
      have one : decWrap (w.pending c) = w.pending c - 1 := by
        rw [decWrap_eq_mod some, Nat.mod_eq_of_lt (by omega)]
      have enough' : count ≤ decWrap (w.pending c) := by omega
      have fits' : decWrap (w.pending c) < sizeMax := by omega
      obtain ⟨later, done⟩ := ih _ a fs loops (enough'.trans_eq less.symm) (less.trans_lt fits') still rest
      rw [replay_append]
      exact ⟨spends.append later, done⟩

def World.allots (w : World) (c : ClientId) : Bool :=
  decide ((w.clients c).state = .connected) && decide ((w.clients c).reqLeft ≠ 0)

theorem emits_resetTimeoutRequests (c : ClientId) (w : World) :
    Emits (resetTimeoutRequests env c) w fun _ es => es = [.resetTimeoutRequests c (env.clock w.ticks)] := by
  unfold resetTimeoutRequests
  simp only [emits_bind, emits_world, List.nil_append, emits_ite, emits_fault, emits_perform, implies_true,
    and_self]

theorem allots_resetTimeoutRequests (w : World) (c : ClientId) (now : Nat) :
    (Machine.apply (Effect.resetTimeoutRequests c now) w).allots c = w.allots c := by
  simp [World.allots, Effect.act, World.resetTimeoutRequests, World.modifyStats, World.clients_modifyClient, Client.expire]

/-- What is known of a log of a tick. -/
def Allots (c : ClientId) (n : Nat) (w : World) (es : List Effect) : Prop :=
  w.Paces → Along TakesInTurn w es → (replay w es).Paces ∧ ∀ p, taken p w es + (replay w es).pending p ≤
    if p = c ∧ w.allots c = true then (n : Int) else w.pending p

/-- **A tick spends no more than it allots**, and other clients no more than they have pending. -/
theorem allots_onRpsTimer {c : ClientId} {n : Nat} (fits : n < sizeMax) (known : c < w.clientCount)
    (root : (w.clients c).parentClient = none) : Emits (onRpsTimer env c n) w fun _ es => Allots c n w es := by
  unfold onRpsTimer
  rw [emits_bind]
  intro a es resets
  obtain rfl := emits_resetTimeoutRequests env c w a es resets
  generalize moment : Effect.resetTimeoutRequests c (env.clock w.ticks) = e
  have leaves : Leaves w e := by rw [← moment]; trivial
  have keeps : KeepsRoots w e := by rw [← moment]; trivial
  have same : (replay w [e]).allots c = w.allots c := moment ▸ allots_resetTimeoutRequests w c _
  have controls : c < (replay w [e]).clientCount ∧ ((replay w [e]).clients c).parentClient = none :=
    ⟨known.trans_le (clientCount_le_apply w e), (parentClient_apply e known).trans root⟩
  refine Emits.mono (Q := fun _ fs => Allots c n (replay w [e]) fs) ?_ fun _ fs later paces along => ?_
  swap
  · obtain ⟨done, bound⟩ := later (paces.leaving leaves keeps) ((along_append _ w [e] fs).mp along).2
    rw [replay_append]
    refine ⟨done, fun p => ?_⟩
    have most := bound p
    have untaken : taken p w ([e] ++ fs) = taken p (replay w [e]) fs := by
      rw [List.singleton_append, taken_cons, ← moment]
      exact Int.zero_add _
    rw [same, show (replay w [e]).pending p = w.pending p from pending_apply paces.thrifty leaves p] at most
    rw [untaken]
    exact most
  generalize replay w [e] = v at controls
  simp only [emits_bind Program.world, emits_world, replay_nil, List.nil_append, emits_ite, emits_pure]
  have refused (away : v.allots c = false) : Allots c n v [] := by
    refine fun paces _ => ⟨paces, fun p => ?_⟩
    rw [away, if_neg (by simp)]
    exact (Int.zero_add _).le
  refine ⟨fun _ => ?_, fun _ => ⟨fun away => refused ?_, fun connected => ⟨fun done => refused ?_, fun left => ?_⟩⟩⟩
  · rw [emits_bind]
    exact emits_fault _ _ _
  · simp [World.allots, away]
  · simp [World.allots, done]
  have allots : v.allots c = true := by simp [World.allots, not_not.mp connected, left]
  rw [emits_bind, emits_modifyLink]
  have due : ({ (v.clients c).link with rpsReqPending := n } : Link).rpsReqPending = n := rfl
  generalize ({ (v.clients c).link with rpsReqPending := n } : Link) = link at due
  refine Emits.mono (Q := fun _ fs => Frugal (replay v [.setLink c link]) fs) ?_ fun _ fs later paces along => ?_
  · have pending : (replay v [.setLink c link]).pending c = n := by rw [pending_setLink, if_pos rfl, due]
    have nothing := composable_frugal.nil (replay v [.setLink c link])
    simp only [emits_ite, emits_pure]
    refine ⟨fun _ => nothing, fun _ => ?_⟩
    split
    · exact emits_fault _ _ _
    · simp only [emits_ite, emits_pure]
      refine ⟨fun _ => nothing, fun _ a fs loops => ?_⟩
      exact spends_rpsLoop env _ c _ a fs loops (by rw [pending]; exact Nat.min_le_right _ _)
        (pending.trans_lt fits)
  · obtain ⟨spends, done⟩ := later (paces.setLink controls link) ((along_append _ v [_] fs).mp along).2
    rw [replay_append]
    refine ⟨done, fun p => ?_⟩
    have most := spends p
    have untaken : taken p v ([.setLink c link] ++ fs) = taken p (replay v [.setLink c link]) fs :=
      Int.zero_add _
    rw [pending_setLink, due] at most
    rw [untaken]
    refine most.trans (le_of_eq ?_)
    by_cases here : p = c
    · rw [if_pos here, if_pos ⟨here, allots⟩]
    · rw [if_neg here, if_neg fun both => here both.1]

/-! ## New connections -/

theorem requeues_replayQueue (fuel : Nat) (c : ClientId) (w : World) :
    Emits (replayQueue env fuel c) w fun _ es =>
      w.config.rpsMode = true → ∀ e ∈ es, e = .requeueToParent c := by
  induction fuel generalizing w with
  | zero => exact emits_fault _ _ _
  | succ fuel ih =>
    unfold replayQueue
    simp only [emits_bind Program.world, emits_world, replay_nil, List.nil_append, emits_ite, emits_pure]
    refine ⟨by simp, fun _ => ?_⟩
    rw [emits_bind, emits_perform]
    simp only [emits_ite]
    refine ⟨fun closed a es _ paced => ?_, fun _ a es continues paced => ?_⟩
    · rw [paced] at closed
      cases closed
    · have later := ih _ a es continues ((congrArg Config.rpsMode (config_replay w _)).trans paced)
      intro e member
      rcases List.mem_cons.mp member with rfl | rest
      · rfl
      · exact later e rest

/-- What is known of a log of `connection_made`. -/
def Opens (c : ClientId) (w : World) (result : Int) (es : List Effect) : Prop :=
  w.Paces → Along TakesInTurn w es → result = 0 ∧ Draws c 1 w es ∧ (replay w es).Paces

theorem Opens.after {result : Int} {es : List Effect} (later : Opens c (replay w [e]) result es)
    (leaves : Leaves w e) (keeps : KeepsRoots w e) (untaken : ∀ p w, Effect.takesFor p w e = false) :
    Opens c w result ([e] ++ es) := by
  intro paces along
  obtain ⟨zero, draws, done⟩ := later (paces.leaving leaves keeps) ((along_append _ w [e] es).mp along).2
  have both := (Draws.of_effect leaves untaken).append draws
  rw [Int.zero_add] at both
  rw [replay_append]
  exact ⟨zero, both, done⟩

theorem opens_connectionMade (known : c < w.clientCount) (protocol : Protocol) :
    Emits (connectionMade env c (some protocol)) w (Opens c w) := by
  unfold connectionMade
  dsimp only
  rw [emits_bind, emits_perform]
  refine Emits.mono (Q := Opens c (replay w [Effect.allocateSession c protocol])) ?_
    fun _ fs later => later.after trivial known fun _ _ => rfl
  rw [emits_bind, emits_perform]
  generalize replay w [Effect.allocateSession c protocol] = u
  refine Emits.mono (Q := Opens c (replay u [Effect.updateThisInDestClientMap c])) ?_
    fun _ fs later => later.after trivial trivial fun _ _ => rfl
  generalize replay u [Effect.updateThisInDestClientMap c] = v
  simp only [emits_bind Program.world, emits_world, replay_nil, List.nil_append, emits_ite]
  refine ⟨fun _ => ?_, fun root => ⟨fun _ => ⟨fun _ => ?_, fun _ => ?_⟩, fun closed => ?_⟩⟩
  · rw [emits_bind]
    intro a es replays
    rw [emits_pure, List.append_nil]
    intro paces along
    have requeues := requeues_replayQueue env _ c v a es replays paces.rpsMode
    have draws : Draws c 0 v es := by
      refine .of_untaken (along_of_forall (fun e member w => ?_) v) fun e member q w => ?_
      · rw [requeues e member]
        trivial
      · rw [requeues e member]
        rfl
    have plain : ∀ e ∈ es, e.plain = true := fun e member => by rw [requeues e member]; rfl
    exact ⟨rfl, draws.mono (by decide), rooted_replay_plain plain paces.rooted,
      thrifty_replay draws.leaves paces.thrifty, by rw [config_replay]; exact paces.rpsMode,
      by rw [config_replay]; exact paces.unscripted⟩
  · rw [emits_bind]
    exact emits_fault _ _ _
  · rw [emits_bind, emits_modifyLink]
    have controls (link : Link) : (replay v [Effect.setLink c link]).controllerOf c = c := by
      refine World.controllerOf_root ((parentClient_act v (.setLink c link) c).trans ?_)
      simpa using root
    refine Emits.mono (Q := Opens c (replay v [Effect.setLink c
      { (v.clients c).link with rpsReqInflight := (v.clients c).link.rpsReqInflight + 1 }])) ?_
      fun _ fs later => later.after rfl trivial fun _ _ => rfl
    rw [emits_bind]
    intro result es submits
    rw [emits_pure, List.append_nil]
    intro paces along
    obtain ⟨draws, after⟩ := paces_submit env result es submits paces along
    rw [controls] at draws
    exact ⟨rfl, draws.mono (by split <;> decide), after⟩
  · intro result es _ paces
    rw [paces.rpsMode] at closed
    exact absurd rfl closed

/-- **A new connection takes one request at most** and leaves what is pending. -/
theorem opens_connected {c : ClientId} (known : c < w.clientCount) (protocol : Protocol) :
    Emits (connected env c (some protocol)) w fun _ es => w.Paces → Along TakesInTurn w es →
      Draws c 1 w es ∧ (replay w es).Paces := by
  unfold connected
  rw [emits_bind, emits_modifyLink]
  refine Emits.mono (Q := fun _ fs => Opens c (replay w [Effect.setLink c
    { (w.clients c).link with isClientStopped := false }]) 0 fs) ?_ fun _ fs later paces along =>
      (later.after rfl trivial (fun _ _ => rfl) paces along).2
  generalize here : replay w [Effect.setLink c
    { (w.clients c).link with isClientStopped := false }] = v
  have known' : c < v.clientCount := by
    rw [← here]
    exact known.trans_le (clientCount_le_replay w _)
  rw [emits_bind]
  intro result es makes
  have opens := opens_connectionMade env known' protocol result es makes
  simp only [emits_ite, emits_pure, List.append_nil]
  refine ⟨fun failed a fs _ paces along => ?_, fun succeeded => ?_⟩
  · exact absurd (opens paces ((along_append _ v es fs).mp along).1).1 failed
  · rwa [not_not.mp succeeded] at opens

/-- **Every other event spends no more than is pending.** -/
theorem frugal_handle {event : Event} (untimed : ∀ c n, event ≠ .rpsTimer c n)
    (settled : ∀ c protocol, event ≠ .connected c (some protocol)) :
    Emits (handle env event) w fun _ es => Frugal w es := by
  refine Conduct.meets_logging.mp ((relinking_frugal env).handle (fun _ _ _ => trivial) (fun _ _ => trivial)
    (fun _ _ => trivial) (fun v c id success final =>
      Conduct.meets_logging.mpr (frugal_onStreamClose env c id success final v))
    (fun c protocol _ same _ => absurd same (settled c protocol))
    (fun c n same _ => absurd same (untimed c n)) fun c _ scripted => Conduct.meets_logging.mpr ?_)
  · intro a es _ paces
    rw [paces.unscripted] at scripted
    cases scripted

end Handlers

end H2LoadRunner.Load

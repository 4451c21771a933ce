/-
# Load.Instances -- one scenario instance, one request at a time

`prepare_first_request` creates an instance of a scenario, and a finished request of a
scenario that does not run in parallel makes the next one.  A request of the instance
is in one place at a time: queued or delayed at some client, or stored for the stream
that carries it.

* `instance_inOrder`: while no connection is lost, the submissions of an instance are
  its requests 0, 1, 2, … in this order, each after the stream of the one before has
  closed, and never is more than one of its requests queued, delayed or stored.
-/
import H2LoadRunner.Load.Frames
import H2LoadRunner.Load.Holdings

namespace H2LoadRunner.Load

open Library Library.EffectLog

set_option autoImplicit false

variable {a b client : Client} {c : ClientId} {request : RequestData} {v : World}

/-! ## What is stated -/

def RequestData.OwnedBy (request : RequestData) (i : Nat) : Prop :=
  request.scenarioDataPerUser = some i

instance (request : RequestData) (i : Nat) : Decidable (request.OwnedBy i) :=
  inferInstanceAs (Decidable (_ = _))

def Client.awaiting (client : Client) (i : Nat) : Nat :=
  FiniteMap.sum (fun _ request => if request.OwnedBy i then 1 else 0) client.requestsAwaitingResponse

def Client.holding (client : Client) (i : Nat) : Nat :=
  client.queued.countP (fun request => request.OwnedBy i) + client.awaiting i

def AtMostOne (held : ClientId → Nat) : Prop :=
  (∀ c, held c ≤ 1) ∧ ∀ c d, c ≠ d → held c + held d ≤ 1

/-- What happens to an instance, as far as the order of its requests is concerned. -/
inductive Milestone where
  | submitted (c : ClientId) (id index : Nat)
  | closed (c : ClientId) (id : Nat)
  deriving DecidableEq

/-- A submission of a request of the instance, or the end of an open stream. -/
def milestone (i : Nat) (w : World) (e : Effect) : Option Milestone :=
  match e with
  | .startRequest d _ _ _ =>
    match (w.clients d).requestsToSubmit with
    | [] => none
    | request :: _ =>
      if w.config.scenarios.isEmpty = false ∧ request.OwnedBy i then
        some (.submitted d (w.clients d).nextStreamId request.currRequestIdx)
      else none
  | .closeStream c id _ _ _ _ =>
    if ((w.clients c).streams.lookup id).isSome then some (.closed c id) else none
  | _ => none

def timeline (i : Nat) : World → List Effect → List Milestone
  | _, [] => []
  | w, e :: es => (milestone i w e).toList ++ timeline i (Machine.apply e w) es

/-- Submissions come with the indices `next`, `next + 1`, …, each only while no stream of an
earlier one is open; `last` is that stream. -/
def InOrder : Option (ClientId × Nat) → Nat → List Milestone → Prop
  | _, _, [] => True
  | last, next, .submitted c id index :: rest =>
    last = none ∧ index = next ∧ InOrder (some (c, id)) (next + 1) rest
  | last, next, .closed c id :: rest => InOrder (if last = some (c, id) then none else last) next rest

def KeepsConnections (_ : World) (e : Effect) : Prop :=
  match e with
  | .disconnect _ | .timeout _ => False
  | _ => True

/-- If the instance is created here, it is one of a scenario that does not run in parallel. -/
def CreatedSequential (i : Nat) (w : World) (e : Effect) : Prop :=
  match e with
  | .pushFirstRequest _ scenarioIndex _ _ => w.nextInstance = i →
      ∀ scenario ∈ w.config.scenario? scenarioIndex, scenario.runRequestsInParallel = false
  | _ => True

/-! ## At most one -/

variable {held later : ClientId → Nat} {i next : Nat} {last closing : Option (ClientId × Nat)} {w : World}
  {cfg : Config} {p : ClientId} {place : Option Nat}

theorem atMostOne_iff : AtMostOne held ↔ ∃ c, ∀ d, held d ≤ if d = c then 1 else 0 := by
  constructor
  · rintro ⟨each, pairs⟩
    by_cases some : ∃ c, 0 < held c
    · obtain ⟨c, some⟩ := some
      refine ⟨c, fun d => ?_⟩
      have most := each d
      have both := pairs d c
      grind
    · exact ⟨0, fun d => (Nat.le_of_not_lt fun more => some ⟨d, more⟩).trans (Nat.zero_le _)⟩
  · rintro ⟨c, bound⟩
    refine ⟨fun d => ?_, fun a b different => ?_⟩
    · have := bound d
      grind
    · have := bound a
      have := bound b
      grind

theorem AtMostOne.mono (one : AtMostOne held) (fewer : ∀ c, later c ≤ held c) : AtMostOne later := by
  obtain ⟨c, bound⟩ := atMostOne_iff.mp one
  exact atMostOne_iff.mpr ⟨c, fun d => (fewer d).trans (bound d)⟩

/-- What `c` loses may turn up at `p`. -/
theorem AtMostOne.move {lost gained : Nat} (one : AtMostOne held) (less : gained ≤ lost)
    (count : ∀ d, later d + (if d = c then lost else 0) = held d + if d = p then gained else 0) :
    AtMostOne later := by
  obtain ⟨e, bound⟩ := atMostOne_iff.mp one
  refine atMostOne_iff.mpr ⟨if lost = 0 ∨ c = p then e else p, fun d => ?_⟩
  have source := count c
  have here := count d
  have most := bound c
  have before := bound d
  grind

/-! ## What a client holds -/

/-- The client holds a request of the instance, in its queues or stored for a stream. -/
inductive Client.Holds (client : Client) (i : Nat) : Option Nat → RequestData → Prop where
  | queued {request : RequestData} (member : request ∈ client.queued) (owned : request.OwnedBy i) :
      Holds client i none request
  | stored {id : Nat} {request : RequestData}
      (found : client.requestsAwaitingResponse.lookup id = some request) (owned : request.OwnedBy i) :
      Holds client i (some id) request

def owns (i : Nat) (request : Option RequestData) : Nat :=
  request.toList.countP fun request => request.OwnedBy i

theorem owns_some (owned : request.OwnedBy i) : owns i (some request) = 1 := by
  simp [owns, owned]

theorem owns_le_one (i : Nat) (request : Option RequestData) : owns i request ≤ 1 := by
  cases request with
  | none => exact Nat.zero_le 1
  | some request => exact List.countP_le_length

theorem awaiting_erase (client : Client) (i id : Nat) :
    FiniteMap.sum (fun _ (request : RequestData) => if request.OwnedBy i then 1 else 0)
        (client.requestsAwaitingResponse.erase id) +
      owns i (client.requestsAwaitingResponse.lookup id) = client.awaiting i := by
  unfold Client.awaiting owns
  cases found : client.requestsAwaitingResponse.lookup id with
  | none => simp [FiniteMap.sum_erase_of_none _ found]
  | some request =>
    have taken := FiniteMap.sum_erase
      (fun _ (request : RequestData) => if request.OwnedBy i then 1 else 0) found
    simp only [Option.toList_some, List.countP_singleton, decide_eq_true_eq]
    exact taken

theorem countP_pos (member : request ∈ client.queued) (owned : request.OwnedBy i) :
    0 < client.queued.countP (fun request => request.OwnedBy i) :=
  List.countP_pos_iff.mpr ⟨request, member, decide_eq_true owned⟩

theorem Client.Holds.pos (holds : client.Holds i place request) : 0 < client.holding i := by
  unfold Client.holding
  cases holds with
  | queued member owned =>
    have := countP_pos member owned
    omega
  | @stored id _ found owned =>
    have := awaiting_erase client i id
    rw [found, owns_some owned] at this
    omega

/-- The client `b` holds at most what `a` held: requests of the instance, each where it was,
and streams for what is stored. -/
structure Fewer (i : Nat) (a b : Client) : Prop where
  holds : ∀ place request, b.Holds i place request → ∃ before, a.Holds i place before ∧
    before.scenarioIndex = request.scenarioIndex ∧ before.currRequestIdx = request.currRequestIdx
  holding : b.holding i ≤ a.holding i
  opened : (∀ id, (a.requestsAwaitingResponse.lookup id).isSome → (a.streams.lookup id).isSome) →
    ∀ id, (b.requestsAwaitingResponse.lookup id).isSome → (b.streams.lookup id).isSome

namespace Fewer

theorem refl (a : Client) : Fewer i a a where
  holds _ request holds := ⟨request, holds, rfl, rfl⟩
  holding := Nat.le_refl _
  opened opened := opened

theorem trans {c : Client} (first : Fewer i a b) (second : Fewer i b c) : Fewer i a c where
  holds place request holds := by
    obtain ⟨between, holds, scenario, index⟩ := second.holds place request holds
    obtain ⟨before, holds, scenario', index'⟩ := first.holds place between holds
    exact ⟨before, holds, scenario'.trans scenario, index'.trans index⟩
  holding := second.holding.trans first.holding
  opened opened := second.opened (first.opened opened)

theorem of_queue (queued : ∀ request ∈ b.queued, request.OwnedBy i → request ∈ a.queued)
    (count : b.queued.countP (fun request => request.OwnedBy i) ≤
      a.queued.countP (fun request => request.OwnedBy i))
    (stored : b.requestsAwaitingResponse = a.requestsAwaitingResponse)
    (streams : ∀ id, (a.streams.lookup id).isSome → (b.streams.lookup id).isSome) : Fewer i a b where
  holds place request holds := by
    refine ⟨request, ?_, rfl, rfl⟩
    cases holds with
    | queued member owned => exact .queued (queued request member owned) owned
    | stored found owned => exact .stored (stored ▸ found) owned
  holding := by
    rw [Client.holding, Client.holding, Client.awaiting, Client.awaiting, stored]
    exact Nat.add_le_add_right count _
  opened opened id found := streams id (opened id (stored ▸ found))

theorem of_requests (queued : b.queued = a.queued)
    (stored : b.requestsAwaitingResponse = a.requestsAwaitingResponse)
    (streams : ∀ id, (a.streams.lookup id).isSome → (b.streams.lookup id).isSome) : Fewer i a b :=
  .of_queue (fun _ member _ => queued ▸ member) (by rw [queued]) stored streams

theorem of_perm (new : List RequestData) (queued : b.queued.Perm (new ++ a.queued))
    (foreign : ∀ request ∈ new, ¬ request.OwnedBy i)
    (stored : b.requestsAwaitingResponse = a.requestsAwaitingResponse)
    (streams : b.streams = a.streams) : Fewer i a b := by
  refine .of_queue (fun request member owned => ?_) ?_ stored fun id opened => streams ▸ opened
  · exact (List.mem_append.mp (queued.mem_iff.mp member)).resolve_left fun new =>
      foreign request new owned
  · have none : new.countP (fun request => request.OwnedBy i) = 0 :=
      List.countP_eq_zero.mpr fun request member owned =>
        foreign request member (of_decide_eq_true owned)
    rw [queued.countP_eq, List.countP_append, none, Nat.zero_add]

theorem of_nothing (queued : b.queued = []) (stored : b.requestsAwaitingResponse = ∅) : Fewer i a b where
  holds place request holds := by
    cases holds with
    | queued member => simp [queued] at member
    | stored found => simp [stored] at found
  holding := by simp [Client.holding, Client.awaiting, queued, stored, FiniteMap.sum_empty]
  opened _ _ found := by simp [stored] at found

theorem of_adjust {id : Nat} {onStream : Stream → Stream} {onRequest : RequestData → RequestData}
    (queued : b.queued = a.queued) (streams : b.streams = FiniteMap.adjust id onStream a.streams)
    (stored : b.requestsAwaitingResponse = FiniteMap.adjust id onRequest a.requestsAwaitingResponse)
    (kept : ∀ request, (onRequest request).scenarioDataPerUser = request.scenarioDataPerUser ∧
      (onRequest request).scenarioIndex = request.scenarioIndex ∧
      (onRequest request).currRequestIdx = request.currRequestIdx) : Fewer i a b where
  holds place request holds := by
    cases holds with
    | queued member owned => exact ⟨request, .queued (queued ▸ member) owned, rfl, rfl⟩
    | stored found owned =>
      rw [stored] at found
      obtain ⟨before, here, rfl | rfl⟩ := FiniteMap.exists_of_lookup_adjust found
      · exact ⟨request, .stored here owned, rfl, rfl⟩
      · obtain ⟨owner, scenario, index⟩ := kept before
        exact ⟨before, .stored here (owner.symm.trans owned), scenario.symm, index.symm⟩
  holding := by
    rw [Client.holding, Client.holding, Client.awaiting, Client.awaiting, queued, stored,
      FiniteMap.sum_adjust_of_same]
    intro request
    have same : (onRequest request).OwnedBy i ↔ request.OwnedBy i := by
      rw [RequestData.OwnedBy, (kept request).1, RequestData.OwnedBy]
    simp only [same]
  opened opened other found := by
    rw [stored, FiniteMap.lookup_adjust_map, Option.isSome_map] at found
    rw [streams, FiniteMap.lookup_adjust_map, Option.isSome_map]
    exact opened other found

theorem of_touch {e : Effect} {d : ClientId} (touch : Touch w a e d b) (connected : KeepsConnections w e)
    (calm : e.queues = false) (idle : ∀ now stray offset, e ≠ .startRequest d now stray offset) :
    Fewer i a b := by
  have same {id : Nat} {onStream : Stream → Stream} {later : Client} (queued : later.queued = a.queued)
      (stored : later.requestsAwaitingResponse = a.requestsAwaitingResponse)
      (streams : later.streams = FiniteMap.adjust id onStream a.streams) : Fewer i a later :=
    .of_requests queued stored fun other opened => by
      rwa [streams, FiniteMap.lookup_adjust_map, Option.isSome_map]
  cases touch with
  | create | createDest => exact .of_nothing rfl rfl
  | disconnect | timeout => exact absurd connected id
  | queue queues => exact absurd (queues.symm.trans calm) (by decide)
  | start => exact absurd rfl (idle _ _ _)
  | expire c now =>
    refine .of_requests rfl rfl fun id opened => ?_
    rwa [lookup_streams_expire, Option.isSome_map]
  | status | cut => exact .of_adjust rfl rfl rfl fun _ => ⟨rfl, rfl, rfl⟩
  | read c shape =>
    rw [← shape]
    unfold Client.readPayload
    split
    · exact .refl a
    · exact .of_adjust rfl rfl rfl fun _ => ⟨rfl, rfl, rfl⟩
  | offset => exact same rfl rfl rfl
  | validate closes | release closes | record closes | finish closes =>
    cases e <;> simp_all [Effect.closes, Effect.queues]
  | _ => exact .of_requests rfl rfl fun _ opened => opened

end Fewer

/-! ## What is known on the way -/

def RequestData.Valid (request : RequestData) (cfg : Config) : Prop :=
  ∃ scenario, cfg.scenario? request.scenarioIndex = some scenario ∧
    request.currRequestIdx < scenario.requests.length

/-- With `next` requests of the instance submitted and the stream `last` of the latest still
open: where its one request is, and which. -/
structure Tracks (i : Nat) (last : Option (ClientId × Nat)) (next : Nat) (w : World) : Prop where
  single : AtMostOne fun d => (w.clients d).holding i
  fits : ∀ d place request, (w.clients d).Holds i place request →
    last = place.map (Prod.mk d) ∧ request.currRequestIdx + place.toList.length = next ∧
      request.Valid w.config
  opened : ∀ d id, ((w.clients d).requestsAwaitingResponse.lookup id).isSome →
    ((w.clients d).streams.lookup id).isSome
  unborn : w.nextInstance ≤ i → last = none ∧ next = 0 ∧ ∀ d, (w.clients d).holding i = 0

theorem tracks_initial (i : Nat) (cfg : Config) (reqTodo nclients : Nat) :
    Tracks i none 0 (World.initial cfg reqTodo nclients) where
  single := atMostOne_iff.mpr ⟨0, fun _ => Nat.zero_le _⟩
  fits _ _ _ holds := absurd holds.pos (Nat.lt_irrefl 0)
  opened _ _ found := by simp [World.initial] at found
  unborn _ := ⟨rfl, rfl, fun _ => rfl⟩

/-- An instance with a request has been created. -/
theorem Tracks.born (tracks : Tracks i last next w) {d : ClientId}
    (holds : (w.clients d).Holds i place request) : i < w.nextInstance := by
  refine Nat.lt_of_not_le fun early => ?_
  have := holds.pos
  rw [(tracks.unborn early).2.2 d] at this
  exact Nat.lt_irrefl 0 this

theorem tracks_of_fewer (tracks : Tracks i last next w) (config : v.config = w.config)
    (nextInstance : w.nextInstance ≤ v.nextInstance)
    (fewer : ∀ d, Fewer i (w.clients d) (v.clients d)) : Tracks i last next v where
  single := tracks.single.mono fun d => (fewer d).holding
  fits d place request holds := by
    obtain ⟨before, holds, scenario, index⟩ := (fewer d).holds place request holds
    obtain ⟨at_last, at_next, valid⟩ := tracks.fits d place before holds
    rw [config]
    exact ⟨at_last, index ▸ at_next, by rwa [RequestData.Valid, ← scenario, ← index]⟩
  opened d := (fewer d).opened (tracks.opened d)
  unborn early := by
    obtain ⟨at_last, at_next, none⟩ := tracks.unborn (nextInstance.trans early)
    exact ⟨at_last, at_next, fun d => Nat.le_zero.mp (none d ▸ (fewer d).holding)⟩

theorem tracks_of_fewer_update (tracks : Tracks i last next w)
    (clients : v.clients = Function.update w.clients c b)
    (config : v.config = w.config) (nextInstance : w.nextInstance ≤ v.nextInstance)
    (fewer : Fewer i (w.clients c) b) : Tracks i last next v := by
  refine tracks_of_fewer tracks config nextInstance ?_
  rw [clients]
  exact (Function.forall_update_iff w.clients (p := fun d b => Fewer i (w.clients d) b)).mpr
    ⟨fewer, fun d _ => .refl _⟩

/-! ## Requests that move -/

/-- The queues of `c` lose a request and those of `p` gain one, and `c` forgets what it stores
under an identifier. -/
structure Moved (w v : World) (c p : ClientId) (lost gained : Option RequestData)
    (erased : Option Nat) : Prop where
  config : v.config = w.config
  nextInstance : w.nextInstance ≤ v.nextInstance
  queued : ∀ d, ((if d = c then lost.toList else []) ++ (v.clients d).queued).Perm
    ((if d = p then gained.toList else []) ++ (w.clients d).queued)
  stored : ∀ d, (v.clients d).requestsAwaitingResponse = if d = c then
    erased.elim (w.clients d).requestsAwaitingResponse (w.clients d).requestsAwaitingResponse.erase
    else (w.clients d).requestsAwaitingResponse
  streams : ∀ d id, ¬ (d = c ∧ erased = some id) → ((w.clients d).streams.lookup id).isSome →
    ((v.clients d).streams.lookup id).isSome

namespace Moved

variable {lost gained : Option RequestData} {erased : Option Nat}

theorem lookup (moved : Moved w v c p lost gained erased) {d : ClientId} {id : Nat}
    (found : (v.clients d).requestsAwaitingResponse.lookup id = some request) :
    (w.clients d).requestsAwaitingResponse.lookup id = some request ∧ ¬ (d = c ∧ erased = some id) := by
  rw [moved.stored d] at found
  by_cases here : d = c
  · rw [if_pos here] at found
    cases erased with
    | none => exact ⟨found, by simp⟩
    | some other =>
      rw [Option.elim_some, FiniteMap.lookup_erase_eq] at found
      split at found
      · cases found
      · rename_i different
        exact ⟨found, fun both => different (Option.some.inj both.2).symm⟩
  · rw [if_neg here] at found
    exact ⟨found, fun both => here both.1⟩

theorem holding (moved : Moved w v c p lost gained erased) (i : Nat) (d : ClientId) :
    (v.clients d).holding i + (if d = c then owns i lost +
        owns i (erased.bind (w.clients c).requestsAwaitingResponse.lookup) else 0) =
      (w.clients d).holding i + if d = p then owns i gained else 0 := by
  have queue := (moved.queued d).countP_eq fun request => decide (request.OwnedBy i)
  rw [List.countP_append, List.countP_append, apply_ite (List.countP _), apply_ite (List.countP _),
    List.countP_nil] at queue
  unfold Client.holding Client.awaiting owns
  rw [moved.stored d]
  by_cases here : d = c
  · subst here
    simp only [if_true] at queue ⊢
    cases erased with
    | none =>
      simp only [Option.elim_none, Option.bind_none, Option.toList_none, List.countP_nil]
      omega
    | some id =>
      have erases := awaiting_erase (w.clients d) i id
      unfold Client.awaiting owns at erases
      simp only [Option.elim_some, Option.bind_some]
      omega
  · simp only [if_neg here] at queue ⊢
    omega

theorem tracks (moved : Moved w v c p lost gained erased) (tracks : Tracks i last next w)
    (single : AtMostOne fun d => (v.clients d).holding i)
    (same : (∀ id, erased = some id → last ≠ some (c, id)) → closing = last)
    (follows : ∀ request, gained = some request → request.OwnedBy i →
      closing = none ∧ request.currRequestIdx = next ∧ request.Valid w.config ∧ i < v.nextInstance) :
    Tracks i closing next v where
  single := single
  fits d place request holds := by
    rw [moved.config]
    cases holds with
    | queued member owned =>
      rcases List.mem_append.mp ((moved.queued d).mem_iff.mp (List.mem_append_right _ member)) with
        new | old
      · have made : gained = some request := by
          split at new
          · exact Option.mem_toList.mp new
          · cases new
        obtain ⟨closed, index, valid, -⟩ := follows request made owned
        exact ⟨closed, index, valid⟩
      · obtain ⟨at_last, at_next, valid⟩ := tracks.fits d none request (.queued old owned)
        exact ⟨(same fun _ _ => by rw [at_last]; exact nofun).trans at_last, at_next, valid⟩
    | @stored id _ found owned =>
      obtain ⟨old, kept⟩ := moved.lookup found
      obtain ⟨at_last, at_next, valid⟩ := tracks.fits d (some id) request (.stored old owned)
      refine ⟨(same fun other erases => ?_).trans at_last, at_next, valid⟩
      rw [at_last]
      rintro ⟨⟩
      exact kept ⟨rfl, erases⟩
  opened d id found := by
    obtain ⟨request, found⟩ := Option.isSome_iff_exists.mp found
    obtain ⟨old, kept⟩ := moved.lookup found
    exact moved.streams d id kept (tracks.opened d id (by rw [old]; rfl))
  unborn early := by
    obtain ⟨at_last, at_next, none⟩ := tracks.unborn (moved.nextInstance.trans early)
    refine ⟨(same fun _ _ => by rw [at_last]; exact nofun).trans at_last, at_next, fun d => ?_⟩
    have foreign : owns i gained = 0 := by
      refine List.countP_eq_zero.mpr fun request made owned => ?_
      have born := (follows request (Option.mem_toList.mp made) (of_decide_eq_true owned)).2.2.2
      omega
    have count := moved.holding i d
    rw [foreign, ite_self, none d] at count
    omega

end Moved

/-- One request goes from the queue of `c` to that of `p`. -/
theorem tracks_handover (tracks : Tracks i last next w) (c p : ClientId) (request : RequestData)
    (take give : List RequestData → List RequestData)
    (taken : (w.clients c).requestsToSubmit.Perm (request :: take (w.clients c).requestsToSubmit))
    (given : ∀ queue, (give queue).Perm (request :: queue)) :
    Tracks i last next ((w.modifyClient c fun client =>
        { client with requestsToSubmit := take client.requestsToSubmit }).modifyClient p fun client =>
          { client with requestsToSubmit := give client.requestsToSubmit }) := by
  generalize made : ((w.modifyClient c fun client =>
    { client with requestsToSubmit := take client.requestsToSubmit }).modifyClient p fun client =>
      { client with requestsToSubmit := give client.requestsToSubmit }) = v
  have moved : Moved w v c p (some request) (some request) none := by
    have front (d : ClientId) : ((if d = c then [request] else []) ++ (v.clients d).requestsToSubmit).Perm
        ((if d = p then [request] else []) ++ (w.clients d).requestsToSubmit) := by
      subst made
      simp only [World.clients_modifyClient]
      by_cases at_p : d = p <;> by_cases at_c : d = c <;> by_cases p_c : p = c <;> subst_vars <;>
        simp_all
      · exact (given _).trans taken.symm
      · exact taken.symm
    have rest (d : ClientId) : v.clients d =
        { w.clients d with requestsToSubmit := (v.clients d).requestsToSubmit } := by
      subst made
      simp only [World.clients_modifyClient]
      split_ifs <;> simp_all
    refine ⟨made ▸ rfl, made ▸ Nat.le_refl _, fun d => ?_, fun d => ?_, fun d id _ opened => ?_⟩
    · rw [Client.queued, Client.queued, ← List.append_assoc, ← List.append_assoc, rest d]
      exact (front d).append_right _
    · rw [rest d]
      exact (ite_self _).symm
    · rwa [rest d]
  have was : request ∈ (w.clients c).queued :=
    List.mem_append_left _ (taken.mem_iff.mpr List.mem_cons_self)
  refine moved.tracks tracks (tracks.single.move (Nat.le_add_right _ _) (moved.holding i)) (fun _ => rfl) ?_
  rintro _ ⟨⟩ owned
  have holds : (w.clients c).Holds i none request := .queued was owned
  obtain ⟨closed, index, valid⟩ := tracks.fits c none request holds
  exact ⟨closed, index, valid, (tracks.born holds).trans_le moved.nextInstance⟩

theorem tracks_moveToDest (tracks : Tracks i last next w) (c d : ClientId) :
    Tracks i last next (w.moveToDest c d) := by
  unfold World.moveToDest
  split
  · exact tracks
  · rename_i request rest front
    refine tracks_handover tracks c d request List.tail (· ++ [request]) ?_ ?_
    · rw [front]
      exact .refl _
    · intro queue
      exact List.perm_append_singleton request queue

theorem tracks_requeueToParent (tracks : Tracks i last next w) (c : ClientId) :
    Tracks i last next (w.requeueToParent c) := by
  unfold World.requeueToParent
  split
  · exact tracks
  · rename_i request back
    refine tracks_handover tracks c (w.controllerOf c) request List.dropLast (request :: ·) ?_ ?_
    · have split_ : (w.clients c).requestsToSubmit =
          (w.clients c).requestsToSubmit.dropLast ++ [request] :=
        (List.dropLast_append_getLast? request back).symm
      nth_rewrite 1 [split_]
      exact List.perm_append_singleton _ _
    · exact fun queue => .refl _

/-! ## A new instance -/

theorem nextRequest_spec {link : Link} {finished : RequestData} {assembly : Assembly}
    (made : nextRequest cfg link finished assembly = some request) :
    request.scenarioDataPerUser = finished.scenarioDataPerUser ∧
      (finished.Valid cfg → request.currRequestIdx = finished.currRequestIdx + 1 ∧ request.Valid cfg) := by
  unfold nextRequest at made
  split at made
  · cases made
  · rename_i scenario found
    dsimp only at made
    split at made
    · cases made
    · rename_i further
      split at made
      · cases made
      · split at made
        · cases made
        · cases made
          refine ⟨rfl, ?_⟩
          rintro ⟨same, known, inside⟩
          rw [found] at known
          cases known
          -- The index wraps only to 0, where there is no next request.
          have successor : (finished.currRequestIdx + 1) % scenario.requests.length =
              finished.currRequestIdx + 1 := by
            refine Nat.mod_eq_of_lt (Nat.lt_of_le_of_ne inside fun wraps => further ?_)
            rw [wraps, Nat.mod_self]
          refine ⟨successor, scenario, found, ?_⟩
          show (finished.currRequestIdx + 1) % scenario.requests.length < scenario.requests.length
          exact Nat.mod_lt _ (List.length_pos_iff.mpr scenario.nonempty)

theorem tracks_pushFirstRequest (tracks : Tracks i last next w) (c : ClientId) (scenarioIndex now : Nat)
    (assemble : Nat → Assembly)
    (sequential : w.nextInstance = i → ∀ scenario, w.config.scenario? scenarioIndex = some scenario →
      scenario.runRequestsInParallel = false) :
    Tracks i last next (w.pushFirstRequest w.config c scenarioIndex now assemble) := by
  unfold World.pushFirstRequest
  split
  · exact tracks
  · rename_i scenario found
    dsimp only
    generalize more_ : (if scenario.runRequestsInParallel = true then _ else _) = more
    obtain ⟨toSubmit, delayed, shape, queued⟩ := queueFirst_eq (w.clients c) now
      (firstRequest (w.clients c).link scenario scenarioIndex w.nextInstance (assemble 0)) more
    by_cases mine : w.nextInstance = i
    · -- The instance begins: its first request is the only one anywhere.
      obtain ⟨rfl, rfl, none⟩ := tracks.unborn (Nat.le_of_eq mine)
      have alone : more = [] := by
        rw [← more_, sequential mine scenario found]
        rfl
      generalize made : ({ w.modifyClient c fun client => client.queueFirst now _ more with
        nextInstance := w.nextInstance + 1 } : World) = v
      have clients (d : ClientId) : v.clients d = if d = c then
          { w.clients c with requestsToSubmit := toSubmit, delayedRequestsToSubmit := delayed }
          else w.clients d := by
        rw [← made, ← shape]
        exact Function.update_apply _ _ _ _
      have moved : Moved w v c c .none (some (firstRequest (w.clients c).link scenario scenarioIndex
          w.nextInstance (assemble 0))) .none := by
        refine ⟨made ▸ rfl, made ▸ Nat.le_succ _, fun d => ?_, fun d => ?_, fun d id _ opened => ?_⟩
        all_goals
          rw [clients d]
          by_cases here : d = c
        · subst here
          simp only [if_true]
          rw [alone] at queued
          exact queued
        · simp [here]
        · subst here
          simp
        · simp [here]
        · subst here
          simpa using opened
        · simpa [here] using opened
      refine moved.tracks tracks (atMostOne_iff.mpr ⟨c, fun d => ?_⟩) (fun _ => rfl) ?_
      · have count := moved.holding i d
        have most := owns_le_one i (some (firstRequest (w.clients c).link scenario scenarioIndex
          w.nextInstance (assemble 0)))
        rw [none d] at count
        grind
      · rintro _ ⟨⟩ -
        exact ⟨rfl, rfl, ⟨scenario, found, List.length_pos_iff.mpr scenario.nonempty⟩,
          made ▸ Nat.lt_succ_of_le mine.ge⟩
    · refine tracks_of_fewer_update tracks rfl rfl (Nat.le_succ _) ?_
      dsimp only
      rw [shape]
      refine .of_perm (_ :: more.filterMap id) queued (fun request member owned => mine ?_) rfl rfl
      refine Option.some.inj (Eq.trans ?_ owned)
      rcases List.mem_cons.mp member with rfl | further
      · rfl
      · obtain ⟨_, further, rfl⟩ := List.mem_filterMap.mp further
        subst more_
        split at further
        · obtain ⟨j, -, made⟩ := List.mem_map.mp further
          exact (nextRequest_spec made).1.symm
        · cases further

/-! ## A submission -/

def Client.offered (client : Client) (cfg : Config) : Option RequestData :=
  if cfg.scenarios.isEmpty then none else client.requestsToSubmit.head?

theorem milestone_startRequest (i : Nat) (w : World) (d : ClientId) (now stray : Nat) (offset : Int) :
    milestone i w (.startRequest d now stray offset) = ((w.clients d).offered w.config).bind fun request =>
      if request.OwnedBy i then some (.submitted d (w.clients d).nextStreamId request.currRequestIdx)
      else none := by
  unfold milestone Client.offered
  cases front : (w.clients d).requestsToSubmit with
  | nil => simp [front]
  | cons request rest => cases w.config.scenarios.isEmpty <;> simp [front]

/-- The session takes it off the queue and stores it under the identifier of the new stream, unless
there is a request under it already. -/
structure Started (cfg : Config) (a b : Client) : Prop where
  queued : a.queued = (a.offered cfg).toList ++ b.queued
  stored : b.requestsAwaitingResponse = (a.offered cfg).elim a.requestsAwaitingResponse
    fun request => FiniteMap.emplace a.nextStreamId request a.requestsAwaitingResponse
  streams : ∀ id, (a.streams.lookup id).isSome ∨ ((a.offered cfg).isSome ∧ id = a.nextStreamId) →
    (b.streams.lookup id).isSome

theorem started_startRequest (client : Client) (cfg : Config) (phase : Phase) (serial now stray : Nat)
    (offset : Int) : Started cfg client (client.startRequest cfg phase serial now stray offset) := by
  have opens (stream : Stream) (id : Nat)
      (opened : (client.streams.lookup id).isSome ∨ id = client.nextStreamId) :
      (((client.streams.erase client.nextStreamId).insert client.nextStreamId stream).lookup id).isSome := by
    rw [FiniteMap.lookup_insert_eq, FiniteMap.lookup_erase_eq]
    by_cases here : id = client.nextStreamId
    · simp [here]
    · simpa [here] using opened
  unfold Client.startRequest
  dsimp only
  split
  · rename_i none
    refine ⟨?_, ?_, fun id opened => opens _ id (opened.imp_right And.right)⟩ <;>
      rw [Client.offered, if_pos none] <;> rfl
  · rename_i some
    split
    · rename_i empty
      refine ⟨?_, ?_, fun id opened => opened.resolve_right ?_⟩ <;>
        simp [Client.offered, empty]
    · rename_i request rest front
      refine ⟨?_, ?_, fun id opened => opens _ id (opened.imp_right And.right)⟩ <;>
        simp [Client.offered, some, front, Client.queued, Client.onRequestStart]

namespace Started

theorem lookup (started : Started cfg a b) {id : Nat}
    (found : b.requestsAwaitingResponse.lookup id = some request) :
    a.requestsAwaitingResponse.lookup id = some request ∨
      a.offered cfg = some request ∧ id = a.nextStreamId := by
  rw [started.stored] at found
  cases taken : a.offered cfg with
  | none =>
    rw [taken] at found
    exact .inl found
  | some front =>
    rw [taken, Option.elim_some, FiniteMap.lookup_emplace] at found
    split at found
    · rename_i here
      cases kept : a.requestsAwaitingResponse.lookup a.nextStreamId with
      | none => exact .inr ⟨by simpa [kept] using found, here⟩
      | some old => exact .inl (by rw [here, kept, ← found, kept]; rfl)
    · exact .inl found

theorem holding (started : Started cfg a b) (i : Nat) :
    b.queued.countP (fun request => request.OwnedBy i) + owns i (a.offered cfg) + a.awaiting i =
        a.holding i ∧ b.holding i ≤ a.holding i := by
  have queue := congrArg (List.countP fun request => decide (request.OwnedBy i)) started.queued
  rw [List.countP_append] at queue
  have stored : b.awaiting i ≤ a.awaiting i + owns i (a.offered cfg) := by
    unfold Client.awaiting
    rw [started.stored]
    cases a.offered cfg with
    | none => exact Nat.le_add_right _ _
    | some request =>
      rw [Option.elim_some, FiniteMap.emplace]
      split
      · exact Nat.le_add_right _ _
      · rename_i missing
        rw [FiniteMap.sum_insert_of_none _ _ missing, Nat.add_comm]
        simp [owns, List.countP_singleton]
  unfold Client.holding owns at *
  omega

theorem opened (started : Started cfg a b)
    (opened : ∀ id, (a.requestsAwaitingResponse.lookup id).isSome → (a.streams.lookup id).isSome) (id : Nat)
    (found : (b.requestsAwaitingResponse.lookup id).isSome) : (b.streams.lookup id).isSome := by
  obtain ⟨request, found⟩ := Option.isSome_iff_exists.mp found
  refine started.streams id ((started.lookup found).imp (fun old => opened id (by rw [old]; rfl)) ?_)
  exact fun new => ⟨by rw [new.1]; rfl, new.2⟩

theorem fewer (started : Started cfg a b)
    (foreign : ∀ request, a.offered cfg = some request → ¬ request.OwnedBy i) : Fewer i a b where
  holds place request holds := by
    refine ⟨request, ?_, rfl, rfl⟩
    cases holds with
    | queued member owned => exact .queued (started.queued ▸ List.mem_append_right _ member) owned
    | stored found owned =>
      exact .stored ((started.lookup found).resolve_right fun new => foreign request new.1 owned) owned
  holding := (started.holding i).2
  opened := started.opened

end Started

theorem tracks_startRequest (tracks : Tracks i last next w) {d : ClientId}
    (offered : (w.clients d).offered w.config = some request) (owned : request.OwnedBy i)
    (clients : v.clients = Function.update w.clients d b) (started : Started w.config (w.clients d) b)
    (config : v.config = w.config) (nextInstance : v.nextInstance = w.nextInstance) :
    last = none ∧ request.currRequestIdx = next ∧
      Tracks i (some (d, (w.clients d).nextStreamId)) (next + 1) v := by
  have member : request ∈ (w.clients d).queued := by
    rw [started.queued, offered]
    exact List.mem_cons_self
  have front : (w.clients d).Holds i none request := .queued member owned
  obtain ⟨closed, index, valid⟩ := tracks.fits d none request front
  have count := (started.holding i).1
  have most : (w.clients d).holding i ≤ 1 := tracks.single.1 d
  rw [offered, owns_some owned] at count
  -- There is no other request of the instance anywhere.
  have elsewhere (c : ClientId) (other : c ≠ d) (place : Option Nat) (request : RequestData) :
      ¬ (w.clients c).Holds i place request := by
    intro holds
    have pair : (w.clients c).holding i + (w.clients d).holding i ≤ 1 := tracks.single.2 c d other
    have := holds.pos
    have := front.pos
    omega
  refine ⟨closed, index, ?_, ?_, ?_, fun early => ?_⟩
  · refine tracks.single.mono ?_
    rw [clients]
    exact (Function.forall_update_iff w.clients (p := fun d b => b.holding i ≤ (w.clients d).holding i)).mpr
      ⟨(started.holding i).2, fun _ _ => Nat.le_refl _⟩
  · intro c place r holds
    by_cases here : c = d
    swap
    · rw [clients, Function.update_of_ne here] at holds
      exact absurd holds (elsewhere c here place r)
    subst here
    rw [clients, Function.update_self] at holds
    cases holds with
    | queued member mine =>
      have := countP_pos member mine
      omega
    | @stored id _ found mine =>
      rcases started.lookup found with old | ⟨new, rfl⟩
      · have := awaiting_erase (w.clients c) i id
        rw [old, owns_some mine] at this
        omega
      · obtain rfl : request = r := Option.some.inj (offered.symm.trans new)
        exact ⟨rfl, congrArg (· + 1) index, config ▸ valid⟩
  · rw [clients]
    exact (Function.forall_update_iff w.clients (p := fun _ (b : Client) => ∀ id,
      (b.requestsAwaitingResponse.lookup id).isSome → (b.streams.lookup id).isSome)).mpr
      ⟨started.opened (tracks.opened d), fun c _ => tracks.opened c⟩
  · exact absurd (tracks.born front) (Nat.not_lt_of_le (nextInstance ▸ early))

/-! ## The end of a stream -/

theorem followUp_spec {id : Nat} {assembly : Assembly} (made : client.followUp cfg id assembly = some request) :
    ∃ finished, client.requestsAwaitingResponse.lookup id = some finished ∧
      request.scenarioDataPerUser = finished.scenarioDataPerUser ∧
      (finished.Valid cfg → request.currRequestIdx = finished.currRequestIdx + 1 ∧ request.Valid cfg) := by
  unfold Client.followUp at made
  split at made
  · cases made
  · rename_i finished found
    split at made
    · cases made
    · exact ⟨finished, found, nextRequest_spec made⟩

/-- The controller may queue the next request, and the client forgets the finished one and its
stream. -/
theorem moved_finishRequest (w : World) (c : ClientId) (id now : Nat) (assembly : Assembly) :
    Moved w (w.finishRequest w.config c id now assembly) c (w.controllerOf c) none
      ((w.clients c).followUp w.config id assembly) (some id) := by
  obtain ⟨toSubmit, delayed, shape, perm⟩ := enqueueNext_eq (w.clients (w.controllerOf c)) now
    ((w.clients c).followUpDelay id) ((w.clients c).followUp w.config id assembly)
  generalize made : (w.modifyClient (w.controllerOf c) fun client => client.enqueueNext now
    ((w.clients c).followUpDelay id) ((w.clients c).followUp w.config id assembly)) = u
  have between (d : ClientId) : (u.clients d).queued.Perm ((if d = w.controllerOf c then
        ((w.clients c).followUp w.config id assembly).toList else []) ++ (w.clients d).queued) ∧
      (u.clients d).requestsAwaitingResponse = (w.clients d).requestsAwaitingResponse ∧
      (u.clients d).streams = (w.clients d).streams := by
    rw [← made, World.clients_modifyClient]
    split
    · rename_i here
      rw [here, shape]
      exact ⟨perm, rfl, rfl⟩
    · exact ⟨.refl _, rfl, rfl⟩
  have after (d : ClientId) : (w.finishRequest w.config c id now assembly).clients d =
      if d = c then (u.clients c).finish id else u.clients d := by
    subst made
    exact Function.update_apply _ _ _ _
  refine ⟨rfl, Nat.le_refl _, fun d => ?_, fun d => ?_, fun d other kept opened => ?_⟩
  all_goals
    obtain ⟨queued, stored, streams⟩ := between d
    rw [after d]
    by_cases here : d = c
  · subst here
    simpa [Client.finish, Client.queued] using queued
  · simpa [here] using queued
  · subst here
    simp [Client.finish, stored]
  · simp [here, stored]
  · subst here
    have different : other ≠ id := fun same => kept ⟨rfl, congrArg some same.symm⟩
    rw [if_pos rfl, Client.finish, streams, FiniteMap.lookup_erase_eq, if_neg different]
    exact opened
  · rwa [if_neg here, streams]

/-- The finished request makes the next one, if any; `closing` is the stream of the instance
still open afterwards. -/
theorem tracks_finishRequest (tracks : Tracks i last next w) (c : ClientId) (id now : Nat)
    (assembly : Assembly) (closed : ((w.clients c).streams.lookup id).isSome →
      closing = if last = some (c, id) then none else last)
    (absent : (w.clients c).streams.lookup id = none → closing = last) :
    Tracks i closing next (w.finishRequest w.config c id now assembly) := by
  have moved := moved_finishRequest w c id now assembly
  -- The request that follows is the next one of the instance, once its stream has closed.
  have follows (request : RequestData) (made : (w.clients c).followUp w.config id assembly = some request)
      (owned : request.OwnedBy i) : (∃ finished, (w.clients c).Holds i (some id) finished) ∧
        closing = none ∧ request.currRequestIdx = next ∧ request.Valid w.config := by
    obtain ⟨finished, found, owner, further⟩ := followUp_spec made
    have holds : (w.clients c).Holds i (some id) finished := .stored found (owner.symm.trans owned)
    obtain ⟨at_last, at_next, valid⟩ := tracks.fits c (some id) finished holds
    obtain ⟨index, valid⟩ := further valid
    refine ⟨⟨finished, holds⟩, ?_, index.trans at_next, valid⟩
    rw [closed (tracks.opened c id (by rw [found]; rfl))]
    exact if_pos at_last
  refine moved.tracks tracks (tracks.single.move ?_ (moved.holding i)) (fun other => ?_)
    fun request made owned => ?_
  · cases made : (w.clients c).followUp w.config id assembly with
    | none => exact Nat.zero_le _
    | some request =>
      by_cases owned : request.OwnedBy i
      · obtain ⟨⟨finished, holds⟩, -⟩ := follows request made owned
        cases holds with
        | stored found mine =>
          rw [Option.bind_some, found, owns_some mine]
          exact (owns_le_one i _).trans (Nat.le_add_left _ _)
      · simp [owns, owned]
  · cases opened : (w.clients c).streams.lookup id with
    | none => exact absent opened
    | some stream => rw [closed (by rw [opened]; rfl), if_neg (other id rfl)]
  · obtain ⟨⟨finished, holds⟩, closes, index, valid⟩ := follows request made owned
    exact ⟨closes, index, valid, tracks.born holds⟩

theorem tracks_closeStream (tracks : Tracks i last next w) (c : ClientId) (id : Nat)
    (success verdict : Bool) (now : Nat) (assembly : Assembly)
    (closed : ((w.clients c).streams.lookup id).isSome → closing = if last = some (c, id) then none else last)
    (absent : (w.clients c).streams.lookup id = none → closing = last) :
    Tracks i closing next (w.closeStream w.config c id success verdict now assembly) := by
  obtain ⟨v, same, early | result⟩ := closeStream_cases w w.config c id success verdict now assembly
  all_goals
    have kept : Tracks i last next v := tracks_of_fewer tracks same.config same.nextInstance.ge
      fun d => .of_requests (same.clients d).queued (same.clients d).stored
        fun other opened => (same.clients d).opened other ▸ opened
  · rw [early.2, absent early.1]
    exact kept
  · have streams := (same.clients c).opened id
    rw [result, ← same.config]
    refine tracks_finishRequest kept c id now assembly (fun opened => closed (streams ▸ opened))
      fun missing => absent ?_
    rw [missing] at streams
    exact Option.isNone_iff_eq_none.mp (by simpa using streams.symm)

/-! ## Every effect -/

theorem queued_resumeDelayed_perm (client : Client) (now : Nat) :
    (client.resumeDelayed now).queued.Perm client.queued := by
  have parts := List.filter_append_perm (fun entry : Nat × RequestData => decide (entry.1 ≤ now))
    client.delayedRequestsToSubmit
  simp only [← decide_not, Nat.not_le] at parts
  unfold Client.queued Client.resumeDelayed
  rw [List.append_assoc, ← List.map_append]
  exact (parts.map Prod.snd).append_left _

theorem fewer_popFront (client : Client) : Fewer i client client.popFront := by
  have less : client.popFront.queued.Sublist client.queued :=
    (List.tail_sublist _).append_right _
  exact .of_queue (fun request member _ => less.subset member) less.countP_le rfl fun _ opened => opened

theorem tracks_of_no_milestone (tracks : Tracks i last next w) (e : Effect)
    (connected : KeepsConnections w e) (sequential : CreatedSequential i w e)
    (other : milestone i w e = none) : Tracks i last next (e.act w) := by
  have touched (calm : e.queues = false)
      (idle : ∀ d now stray offset, e ≠ .startRequest d now stray offset) : Tracks i last next (e.act w) :=
    tracks_of_fewer tracks (config_act w e) (touches_act w e).nextInstance fun d =>
      follow_act w e d .refl .trans fun touch => .of_touch touch connected calm (idle d)
  cases e with
  | pushFirstRequest c scenarioIndex now assemble =>
    exact tracks_pushFirstRequest tracks c scenarioIndex now assemble sequential
  | moveToDest c d => exact tracks_moveToDest tracks c d
  | requeueToParent c => exact tracks_requeueToParent tracks c
  | resumeDelayed c now =>
    exact tracks_of_fewer_update tracks rfl rfl (Nat.le_refl _)
      (.of_perm [] (queued_resumeDelayed_perm _ now) (by simp) rfl rfl)
  | dropRequest d => exact tracks_of_fewer_update tracks rfl rfl (Nat.le_refl _) (fewer_popFront _)
  | startRequest d now stray offset =>
    refine tracks_of_fewer_update tracks rfl rfl (Nat.le_refl _)
      ((started_startRequest _ _ _ _ _ _ _).fewer fun request offered owned => ?_)
    rw [milestone_startRequest, offered, Option.bind_some, if_pos owned] at other
    cases other
  | closeStream c id success verdict now assembly =>
    refine tracks_closeStream tracks c id success verdict now assembly (fun opened => ?_) fun _ => rfl
    simp only [milestone, opened, if_true] at other
    cases other
  | _ => exact touched rfl (by simp)

/-! ## Runs -/

theorem tracks_apply (tracks : Tracks i last next w) (e : Effect)
    (connected : KeepsConnections w e) (sequential : CreatedSequential i w e) :
    match milestone i w e with
    | none => Tracks i last next (Machine.apply e w)
    | some (.submitted c id index) =>
      last = none ∧ index = next ∧ Tracks i (some (c, id)) (next + 1) (Machine.apply e w)
    | some (.closed c id) =>
      Tracks i (if last = some (c, id) then none else last) next (Machine.apply e w) := by
  have ticked {last next} (acted : Tracks i last next (e.act w)) :
      Tracks i last next (Machine.apply e w) :=
    tracks_of_fewer acted rfl (Nat.le_refl _) fun d => .refl _
  have inert : milestone i w e = none → Tracks i last next (Machine.apply e w) :=
    fun other => ticked (tracks_of_no_milestone tracks e connected sequential other)
  cases e with
  | startRequest d now stray offset =>
    rw [milestone_startRequest] at inert ⊢
    cases offered : (w.clients d).offered w.config with
    | none => exact inert (by rw [offered]; rfl)
    | some request =>
      rw [offered, Option.bind_some] at inert
      rw [Option.bind_some]
      by_cases mine : request.OwnedBy i
      · rw [if_pos mine]
        obtain ⟨closed, index, submitted⟩ := tracks_startRequest tracks offered mine
          (v := Effect.act (.startRequest d now stray offset) w) rfl
          (started_startRequest _ _ _ _ _ _ _) rfl rfl
        exact ⟨closed, index, ticked submitted⟩
      · rw [if_neg mine] at inert ⊢
        exact inert rfl
  | closeStream c id success verdict now assembly =>
    by_cases opened : ((w.clients c).streams.lookup id).isSome
    · simp only [milestone, opened, if_true]
      refine ticked (tracks_closeStream tracks c id success verdict now assembly (fun _ => rfl) ?_)
      intro missing
      rw [missing] at opened
      cases opened
    · simp only [milestone, opened] at inert ⊢
      exact inert rfl
  | _ => exact inert rfl

/-- By induction on the log. -/
theorem inOrder_of_tracks (tracks : Tracks i last next w) {es : List Effect}
    (connected : Along KeepsConnections w es) (sequential : Along (CreatedSequential i) w es) :
    InOrder last next (timeline i w es) ∧
      Throughout (fun w => AtMostOne fun d => (w.clients d).holding i) w es := by
  induction es generalizing w last next with
  | nil =>
    refine ⟨trivial, fun fs early => ?_⟩
    rw [List.prefix_nil.mp early]
    exact tracks.single
  | cons e es ih =>
    have step := tracks_apply tracks e connected.1 sequential.1
    unfold timeline
    split at step
    · rename_i none
      obtain ⟨order, single⟩ := ih step connected.2 sequential.2
      rw [none]
      exact ⟨order, throughout_cons tracks.single single⟩
    · rename_i c id index submitted
      obtain ⟨closed, at_next, later⟩ := step
      obtain ⟨order, single⟩ := ih later connected.2 sequential.2
      rw [submitted]
      exact ⟨⟨closed, at_next, order⟩, throughout_cons tracks.single single⟩
    · rename_i c id closed
      obtain ⟨order, single⟩ := ih step connected.2 sequential.2
      rw [closed]
      exact ⟨order, throughout_cons tracks.single single⟩

/-- **An instance of a sequential scenario submits its requests 0, 1, 2, … in this order**, one
at a time, in every log and so in every run that loses no connection. -/
theorem instance_inOrder (cfg : Config) (reqTodo nclients : Nat) (log : List Effect)
    (connected : Along KeepsConnections (World.initial cfg reqTodo nclients) log) (i : Nat)
    (sequential : Along (CreatedSequential i) (World.initial cfg reqTodo nclients) log) :
    InOrder none 0 (timeline i (World.initial cfg reqTodo nclients) log) ∧
      Throughout (fun w => AtMostOne fun d => (w.clients d).holding i)
        (World.initial cfg reqTodo nclients) log :=
  inOrder_of_tracks (tracks_initial i cfg reqTodo nclients) connected sequential

/-! ## Two requests in turn -/

instance (w : World) (e : Effect) : Decidable (KeepsConnections w e) := by
  induction e using Effect.casesOn <;> dsimp only [KeepsConnections] <;> infer_instance

instance (i : Nat) (w : World) (e : Effect) : Decidable (CreatedSequential i w e) := by
  induction e using Effect.casesOn <;> dsimp only [CreatedSequential] <;> infer_instance

/-- A scenario of two requests, on a connection with room for two instances. -/
def inTurnConfig : Config :=
  { scenarios := [{ requests := [{}, {}] }]
    maxConcurrentStreams := 4
    hostAuthority := "host:80" }

def inTurnEvents : List Event :=
  [.createClient, .connected 0 (some .http2), .streamClose 0 3 true, .streamClose 0 1 true]

/-- **Satisfiable pole**: two instances whose requests alternate on one connection. -/
theorem inTurn_inOrder : ∃ log, Run {} (World.initial inTurnConfig 4 1) inTurnEvents log ∧
      timeline 0 (World.initial inTurnConfig 4 1) log =
        [.submitted 0 1 0, .closed 0 3, .closed 0 1, .submitted 0 7 1] ∧
      InOrder none 0 (timeline 0 (World.initial inTurnConfig 4 1) log) ∧
      Throughout (fun w => AtMostOne fun d => (w.clients d).holding 0)
        (World.initial inTurnConfig 4 1) log := by
  exact ⟨_, run_of_isSome (by decide +kernel), by decide +kernel,
    instance_inOrder inTurnConfig 4 1 _ (by decide +kernel) 0 (by decide +kernel)⟩

end H2LoadRunner.Load

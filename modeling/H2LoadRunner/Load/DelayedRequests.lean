/-
# Load.DelayedRequests -- requests that wait for their time

`enqueue_request` files a request that has to wait under the time it becomes due, and
`resume_delayed_request_execution` takes what is due by then.  A request may be filed between two such
sweeps, also by a sub-client for its controller.

* `resumed_inOrder`: as long as the clock does not go back, the delayed requests of a client become
  submittable in the order of their times over all sweeps, and none before its time.
-/
import H2LoadRunner.Load.Touches

namespace H2LoadRunner.Load

open Library Library.EffectLog

set_option autoImplicit false

/-! ## A queue in the order of its times -/

def InOrderOfTime {α : Type} (queue : List (Nat × α)) : Prop := queue.Pairwise (·.1 ≤ ·.1)

theorem inOrderOfTime_timedInsert {α : Type} {queue : List (Nat × α)} (time : Nat) (value : α)
    (ordered : InOrderOfTime queue) : InOrderOfTime (timedInsert time value queue) := by
  induction queue with
  | nil => exact List.pairwise_singleton _ _
  | cons entry rest ih =>
    obtain ⟨least, rested⟩ := List.pairwise_cons.mp ordered
    unfold timedInsert
    split
    · rename_i before
      refine List.pairwise_cons.mpr ⟨fun later member => ?_, ih rested⟩
      rcases List.mem_cons.mp ((timedInsert_perm time value rest).mem_iff.mp member) with rfl | old
      exacts [before, least later old]
    · rename_i behind
      have before := Nat.le_of_not_le behind
      exact List.pairwise_cons.mpr
        ⟨List.forall_mem_cons.mpr ⟨before, fun later old => before.trans (least later old)⟩, ordered⟩

/-- Requests may be filed at `now` or later, and others taken out. -/
structure Files (now : Nat) (before after : List (Nat × RequestData)) : Prop where
  ordered : InOrderOfTime before → InOrderOfTime after
  later : ∀ entry ∈ after, entry ∈ before ∨ now ≤ entry.1

namespace Files

variable {now : Nat} {before between after : List (Nat × RequestData)}

theorem refl (now : Nat) (queue : List (Nat × RequestData)) : Files now queue queue :=
  ⟨id, fun _ => .inl⟩

theorem trans (first : Files now before between) (second : Files now between after) :
    Files now before after where
  ordered := second.ordered ∘ first.ordered
  later entry member := (second.later entry member).elim (first.later entry) .inr

theorem of_sublist (fewer : after.Sublist before) : Files now before after :=
  ⟨fun ordered => ordered.sublist fewer, fun _ member => .inl (fewer.subset member)⟩

theorem enqueueNext (client : Client) (now delay : Nat) (next : Option RequestData) :
    Files now client.delayedRequestsToSubmit (client.enqueueNext now delay next).delayedRequestsToSubmit := by
  unfold Client.enqueueNext Client.enqueueRequest
  split
  · exact refl now _
  · split
    · exact refl now _
    · refine ⟨inOrderOfTime_timedInsert _ _, fun entry member => ?_⟩
      rcases List.mem_cons.mp ((timedInsert_perm _ _ _).mem_iff.mp member) with rfl | old
      · exact .inr (Nat.le_add_right _ _)
      · exact .inl old

theorem queueFirst (client : Client) (now : Nat) (first : RequestData) (more : List (Option RequestData)) :
    Files now client.delayedRequestsToSubmit (client.queueFirst now first more).delayedRequestsToSubmit := by
  unfold Client.queueFirst
  dsimp only
  induction more generalizing client with
  | nil => exact refl now _
  | cons next more ih => exact (enqueueNext client now _ next).trans (ih _)

end Files

/-! ## Every effect -/

/-- The time at which an effect files requests or takes those that are due. -/
def Effect.instant : Effect → Option Nat
  | .pushFirstRequest _ _ now _ | .resumeDelayed _ now | .closeStream _ _ _ _ now _ => some now
  | _ => none

def World.delayed (w : World) (p : ClientId) : List (Nat × RequestData) :=
  (w.clients p).delayedRequestsToSubmit

namespace Files

variable {now : Nat} {before : List (Nat × RequestData)} {u v : World} {c p : ClientId} {b : Client}

theorem step (files : Files now before (u.delayed p)) (clients : v.clients = Function.update u.clients c b)
    (one : Files now (u.delayed c) b.delayedRequestsToSubmit) : Files now before (v.delayed p) := by
  unfold World.delayed at *
  rw [clients]
  by_cases here : p = c
  · subst here
    rw [Function.update_self]
    exact files.trans one
  · rwa [Function.update_of_ne here]

theorem kept (files : Files now before (u.delayed p)) (clients : v.clients = Function.update u.clients c b)
    (same : b.delayedRequestsToSubmit = u.delayed c) : Files now before (v.delayed p) :=
  files.step clients (same ▸ refl now _)

theorem closeStream (w : World) (c : ClientId) (id : Nat) (success verdict : Bool) (now : Nat)
    (assembly : Assembly) (p : ClientId) :
    Files now (w.delayed p) ((w.closeStream w.config c id success verdict now assembly).delayed p) := by
  have finished {v : World} (files : Files now (w.delayed p) (v.delayed p)) :
      Files now (w.delayed p) ((v.finishRequest w.config c id now assembly).delayed p) :=
    kept (files.step (v := v.modifyClient (v.controllerOf c) fun client => client.enqueueNext now
      ((v.clients c).followUpDelay id) ((v.clients c).followUp w.config id assembly)) rfl
        (enqueueNext _ now _ _)) rfl rfl
  have validated : Files now (w.delayed p) ((w.validateResponse w.config c id verdict).delayed p) := by
    unfold World.validateResponse
    dsimp only
    split
    · exact refl now _
    · split
      · exact (refl now _).kept rfl rfl
      · split <;> exact (refl now _).kept rfl rfl
  unfold World.closeStream
  generalize w.validateResponse w.config c id verdict = v at *
  have released : Files now (w.delayed p) ((v.modifyClient c (World.releaseInflight w.config)).delayed p) :=
    validated.kept rfl rfl
  dsimp only
  split
  · split
    · exact released
    · refine finished ?_
      unfold World.recordOutcome
      dsimp only
      split
      · exact released
      · split <;> exact released.kept rfl rfl
  · exact finished validated

end Files

/-- **An effect files requests for now or later**, and keeps the queue in order. -/
theorem files_apply (w : World) (e : Effect) (p : ClientId) {now : Nat}
    (time : ∀ t, e.instant = some t → t = now) : Files now (w.delayed p) ((Machine.apply e w).delayed p) := by
  change Files now _ ((e.act w).delayed p)
  have start := Files.refl now (w.delayed p)
  by_cases queues : e.queues = true
  · cases e with
    | pushFirstRequest c scenarioIndex t assemble =>
      obtain rfl := time t rfl
      unfold Effect.act World.pushFirstRequest
      dsimp only
      split
      · exact start
      · exact start.step rfl (.queueFirst _ t _ _)
    | closeStream c id success verdict t assembly =>
      obtain rfl := time t rfl
      exact .closeStream w c id success verdict t assembly p
    | resumeDelayed c t => exact start.step rfl (.of_sublist List.filter_sublist)
    | moveToDest c d =>
      unfold Effect.act World.moveToDest
      dsimp only
      split
      · exact start
      · exact (start.kept (v := w.modifyClient c Client.popFront) rfl rfl).kept rfl rfl
    | requeueToParent c =>
      unfold Effect.act World.requeueToParent
      dsimp only
      split
      · exact start
      · exact (start.kept (v := w.modifyClient c Client.popBack) rfl rfl).kept rfl rfl
    | dropRequest c => exact start.kept rfl rfl
    | _ => cases queues
  · refine follow_act (R := fun a b => Files now a.delayedRequestsToSubmit b.delayedRequestsToSubmit) w e p
      (fun a => .refl now _) (fun first second => first.trans second) fun touch => ?_
    cases touch with
    -- a client that is made at a used number starts with an empty queue
    | create | createDest => exact .of_sublist (List.nil_sublist _)
    | queue queued => exact absurd queued queues
    | _ => exact .refl now _

/-! ## Every run -/

/-- The requests of `p` that an effect makes submittable, each with the time of the sweep. -/
def sweep (p : ClientId) (w : World) : Effect → List (Nat × Nat × RequestData)
  | .resumeDelayed c now => if c = p then (due now (w.delayed p)).map (Prod.mk now) else []
  | _ => []

def resumed (p : ClientId) : World → List Effect → List (Nat × Nat × RequestData)
  | _, [] => []
  | w, e :: es => sweep p w e ++ resumed p (Machine.apply e w) es

/-- The clock does not go back. -/
def Clocked : Nat → List Effect → Prop
  | _, [] => True
  | now, e :: es => now ≤ e.instant.getD now ∧ Clocked (e.instant.getD now) es

theorem mem_sweep {p : ClientId} {w : World} {e : Effect} {entry : Nat × Nat × RequestData}
    (swept : entry ∈ sweep p w e) :
    e = .resumeDelayed p entry.1 ∧ entry.2 ∈ w.delayed p ∧ entry.2.1 ≤ entry.1 := by
  unfold sweep at swept
  split at swept
  · split at swept
    · rename_i same
      obtain ⟨waiting, taken, rfl⟩ := List.mem_map.mp swept
      obtain ⟨held, early⟩ := List.mem_filter.mp taken
      exact ⟨by rw [same], held, of_decide_eq_true early⟩
    · cases swept
  · cases swept

theorem clients_resumeDelayed (p : ClientId) (w : World) (now : Nat) :
    (Machine.apply (Effect.resumeDelayed p now) w).clients p = (w.clients p).resumeDelayed now := by
  change (w.modifyClient p fun client => client.resumeDelayed now).clients p = _
  rw [World.clients_modifyClient, if_pos rfl]

theorem delayed_resumeDelayed (p : ClientId) (w : World) (now : Nat) :
    (Machine.apply (Effect.resumeDelayed p now) w).delayed p = notDue now (w.delayed p) := by
  rw [World.delayed, clients_resumeDelayed]
  rfl

theorem requestsToSubmit_resumeDelayed (p : ClientId) (w : World) (now : Nat) :
    ((Machine.apply (Effect.resumeDelayed p now) w).clients p).requestsToSubmit =
      (w.clients p).requestsToSubmit ++ (sweep p w (.resumeDelayed p now)).map (·.2.2) := by
  rw [clients_resumeDelayed, sweep, if_pos rfl, List.map_map]
  rfl

/-- By induction on the log: what is resumed later was waiting already, or is filed from now on. -/
theorem resumed_of_clocked (p : ClientId) (log : List Effect) {now : Nat} {w : World} (clock : Clocked now log)
    (ordered : InOrderOfTime (w.delayed p)) :
    (resumed p w log).Pairwise (·.2.1 ≤ ·.2.1) ∧
      ∀ entry ∈ resumed p w log, entry.2.1 ≤ entry.1 ∧ (entry.2 ∈ w.delayed p ∨ now ≤ entry.2.1) := by
  induction log generalizing now w with
  | nil => simp [resumed]
  | cons e es ih =>
    obtain ⟨later, rest⟩ := clock
    have files := files_apply w e p fun t is => (by rw [is]; rfl : t = e.instant.getD now)
    obtain ⟨sorted, waits⟩ := ih rest (files.ordered ordered)
    refine ⟨List.pairwise_append.mpr ⟨?_, sorted, fun entry swept other further => ?_⟩, fun entry member => ?_⟩
    · unfold sweep
      split
      · split
        · exact (ordered.filter _).map _ fun _ _ le => le
        · exact .nil
      · exact .nil
    -- what this sweep left is due later than all it took
    · obtain ⟨rfl, -, early⟩ := mem_sweep swept
      rcases (waits other further).2 with still | new
      · rw [delayed_resumeDelayed] at still
        exact early.trans (of_decide_eq_true (List.mem_filter.mp still).2).le
      · exact early.trans new
    · rcases List.mem_append.mp member with swept | further
      · obtain ⟨-, held, early⟩ := mem_sweep swept
        exact ⟨early, .inl held⟩
      · obtain ⟨early, place⟩ := waits entry further
        refine ⟨early, place.elim (fun still => ?_) fun new => .inr (later.trans new)⟩
        exact (files.later _ still).elim .inl fun new => .inr (later.trans new)

/-- **Delayed requests become submittable in the order of their times**, over all sweeps and whatever the
worker does in between, and none before its time.  A sweep puts them behind what is queued already. -/
theorem resumed_inOrder (cfg : Config) (reqTodo nclients : Nat) (log : List Effect) (clock : Clocked 0 log)
    (p : ClientId) :
    (resumed p (World.initial cfg reqTodo nclients) log).Pairwise (·.2.1 ≤ ·.2.1) ∧
      (∀ entry ∈ resumed p (World.initial cfg reqTodo nclients) log, entry.2.1 ≤ entry.1) ∧
      ∀ w now, ((Machine.apply (Effect.resumeDelayed p now) w).clients p).requestsToSubmit =
        (w.clients p).requestsToSubmit ++ (sweep p w (.resumeDelayed p now)).map (·.2.2) := by
  obtain ⟨sorted, waits⟩ := resumed_of_clocked p log (w := World.initial cfg reqTodo nclients) clock .nil
  exact ⟨sorted, fun entry member => (waits entry member).1, requestsToSubmit_resumeDelayed p⟩

def delayedConfig : Config :=
  { scenarios := [{ runRequestsInParallel := true, requests := [{ delayBeforeExecutingNext := 3 }, {}] }] }

def delayedLog : List Effect :=
  [.createClient [], .pushFirstRequest 0 0 5 fun _ => {}, .pushFirstRequest 0 0 7 fun _ => {},
    .resumeDelayed 0 9, .resumeDelayed 0 20]

/-- **Satisfiable pole:** of two delayed requests each becomes submittable in a call of its own. -/
theorem delayedLog_resumed :
    ((resumed 0 (World.initial delayedConfig 4 1) delayedLog).map fun entry => (entry.1, entry.2.1)) =
      [(9, 8), (20, 10)] ∧
    (resumed 0 (World.initial delayedConfig 4 1) delayedLog).Pairwise (·.2.1 ≤ ·.2.1) :=
  ⟨by decide,
    (resumed_inOrder delayedConfig 4 1 delayedLog (by simp [Clocked, delayedLog, Effect.instant]) 0).1⟩

end H2LoadRunner.Load

/-
# Load.ParallelRequests -- a scenario whose requests run in parallel

`prepare_first_request` makes all requests of such a scenario at once: it calls
`prepare_next_request` once for each request behind the first, and no request makes another one when
it is finished.  Each call is given the first request as the finished one, so each makes the request
with the index 1.
-/
import H2LoadRunner.Load.Instances

namespace H2LoadRunner.Load

open Library Library.EffectLog

set_option autoImplicit false

/-- The URI of the request can be used and its script does not refuse it. -/
def RequestTemplate.acceptable (template : RequestTemplate) (assembly : Assembly) : Bool :=
  uriUsable template assembly && (!template.luaScript || assembly.luaAccepts)

/-- Between the two worlds the client has queued the requests `added`, one for each index below
`count`, and none of them makes another one when it is finished. -/
structure EnqueuesEach (w v : World) (c : ClientId) (count : Nat) (added : List RequestData) : Prop where
  queued : (v.clients c).queued.Perm ((w.clients c).queued ++ added)
  others : ∀ d, d ≠ c → v.clients d = w.clients d
  indices : (added.map RequestData.currRequestIdx).Perm (List.range count)
  final : ∀ request ∈ added, ∀ (client : Client) id assembly,
    client.requestsAwaitingResponse.lookup id = some request →
      client.followUp w.config id assembly = none

/-! ## What is queued -/

theorem queued_queueFirst_perm (client : Client) (now : Nat) (first : RequestData)
    (more : List (Option RequestData)) :
    (client.queueFirst now first more).queued.Perm (client.queued ++ (more.reduceOption ++ [first])) := by
  obtain ⟨toSubmit, delayed, shape, queued⟩ := queueFirst_eq client now first more
  rw [shape]
  refine queued.trans ?_
  rw [← List.append_assoc]
  exact (List.perm_append_comm.cons first).trans (List.perm_append_singleton _ _).symm

section Scenario

variable {cfg : Config} {scenario : Scenario} {scenarioIndex : Nat}

/-- The request that is made from the first one: the second, if there is one and it can be built. -/
theorem nextRequest_first (found : cfg.scenario? scenarioIndex = some scenario) (link : Link) (owner : Nat)
    (first assembly : Assembly) :
    (nextRequest cfg link (firstRequest link scenario scenarioIndex owner first) assembly).map
        (fun request => (request.scenarioIndex, request.currRequestIdx)) =
      if 1 < scenario.requests.length ∧ (scenario.requests.getD 1 {}).acceptable assembly = true then
        some (scenarioIndex, 1)
      else none := by
  have some := List.length_pos_iff.mpr scenario.nonempty
  have known : cfg.scenario? (firstRequest link scenario scenarioIndex owner first).scenarioIndex =
      .some scenario := found
  have index : ((firstRequest link scenario scenarioIndex owner first).currRequestIdx + 1) %
      scenario.requests.length = if 1 < scenario.requests.length then 1 else 0 := by
    show (0 + 1) % _ = _
    split
    · rename_i more
      exact Nat.mod_eq_of_lt more
    · have single : scenario.requests.length = 1 := by omega
      rw [single]
  unfold nextRequest
  rw [known]
  dsimp only
  rw [index]
  by_cases more : 1 < scenario.requests.length
  · simp only [more, if_true, Nat.one_ne_zero, if_false, true_and, RequestTemplate.acceptable]
    cases uriUsable (scenario.requests.getD 1 {}) assembly <;>
      cases (scenario.requests.getD 1 {}).luaScript <;> cases assembly.luaAccepts <;> rfl
  · simp [more]

def startedRequests (cfg : Config) (link : Link) (scenario : Scenario) (scenarioIndex owner : Nat)
    (assemble : Nat → Assembly) : List RequestData :=
  ((List.range (scenario.requests.length - 1)).map fun j =>
      nextRequest cfg link (firstRequest link scenario scenarioIndex owner (assemble 0))
        (assemble (j + 1))).reduceOption ++
    [firstRequest link scenario scenarioIndex owner (assemble 0)]

theorem startedRequests_cases (found : cfg.scenario? scenarioIndex = some scenario) {link : Link} {owner : Nat}
    {assemble : Nat → Assembly} {request : RequestData}
    (member : request ∈ startedRequests cfg link scenario scenarioIndex owner assemble) :
    request.scenarioIndex = scenarioIndex ∧ (request.currRequestIdx = 0 ∨
      request.currRequestIdx = 1 ∧ ∃ j, j + 1 < scenario.requests.length ∧
        (scenario.requests.getD 1 {}).acceptable (assemble (j + 1)) = true) := by
  rcases List.mem_append.mp member with further | first
  · obtain ⟨j, below, made⟩ := List.mem_map.mp (List.reduceOption_mem_iff.mp further)
    have second := nextRequest_first found link owner (assemble 0) (assemble (j + 1))
    rw [made] at second
    split at second
    · rename_i accepted
      obtain ⟨same, one⟩ := Prod.mk.inj (Option.some.inj second)
      have inside := List.mem_range.mp below
      exact ⟨same, .inr ⟨one, j, by omega, accepted.2⟩⟩
    · cases second
  · rw [List.mem_singleton.mp first]
    exact ⟨rfl, .inl rfl⟩

theorem indices_startedRequests_iff (found : cfg.scenario? scenarioIndex = some scenario) (link : Link)
    (owner : Nat) (assemble : Nat → Assembly) :
    ((startedRequests cfg link scenario scenarioIndex owner assemble).map
        RequestData.currRequestIdx).Perm (List.range scenario.requests.length) ↔
      scenario.requests.length ≤ 2 ∧ (scenario.requests.length = 2 →
        (scenario.requests.getD 1 {}).acceptable (assemble 1) = true) := by
  have some := List.length_pos_iff.mpr scenario.nonempty
  constructor
  · intro perm
    -- every index that is reached is that of the first or of the second request
    have reached : ∀ index < scenario.requests.length, index = 0 ∨ index = 1 ∧
        ∃ j, j + 1 < scenario.requests.length ∧
          (scenario.requests.getD 1 {}).acceptable (assemble (j + 1)) = true := by
      intro index below
      obtain ⟨request, member, rfl⟩ := List.mem_map.mp (perm.mem_iff.mpr (List.mem_range.mpr below))
      exact (startedRequests_cases found member).2
    refine ⟨?_, fun two => ?_⟩
    · by_contra more
      rcases reached 2 (by omega) with zero | ⟨one, -⟩
      · cases zero
      · cases one
    · rcases reached 1 (by omega) with zero | ⟨-, j, below, accepted⟩
      · cases zero
      · obtain rfl : j = 0 := by omega
        exact accepted
  · rintro ⟨few, accepted⟩
    by_cases two : scenario.requests.length = 2
    · have second := nextRequest_first found link owner (assemble 0) (assemble 1)
      rw [if_pos ⟨by omega, accepted two⟩, Option.map_eq_some_iff] at second
      obtain ⟨request, made, index⟩ := second
      have queued : startedRequests cfg link scenario scenarioIndex owner assemble =
          [request, firstRequest link scenario scenarioIndex owner (assemble 0)] := by
        unfold startedRequests
        rw [two]
        show (([nextRequest _ _ _ _] : List (Option RequestData))).reduceOption ++ _ = _
        rw [made]
        rfl
      rw [queued, two]
      show [request.currRequestIdx, 0].Perm [0, 1]
      rw [(Prod.mk.inj index).2]
      exact .swap _ _ _
    · have one : scenario.requests.length = 1 := by omega
      unfold startedRequests
      rw [one]
      exact .refl _

theorem followUp_of_parallel (found : cfg.scenario? scenarioIndex = some scenario)
    (parallel : scenario.runRequestsInParallel = true) {client : Client} {id : Nat} {request : RequestData}
    (stored : client.requestsAwaitingResponse.lookup id = some request)
    (same : request.scenarioIndex = scenarioIndex) (assembly : Assembly) :
    client.followUp cfg id assembly = none := by
  unfold Client.followUp
  rw [stored]
  dsimp only
  rw [same, found, Option.map_some, Option.getD_some, parallel, if_pos rfl]

end Scenario

theorem clients_pushFirstRequest {w : World} {scenario : Scenario} {scenarioIndex : Nat}
    (found : w.config.scenario? scenarioIndex = some scenario)
    (parallel : scenario.runRequestsInParallel = true) (c : ClientId) (now : Nat) (assemble : Nat → Assembly) :
    ((w.pushFirstRequest w.config c scenarioIndex now assemble).clients c).queued.Perm ((w.clients c).queued ++
          startedRequests w.config (w.clients c).link scenario scenarioIndex w.nextInstance assemble) ∧
      ∀ d, d ≠ c → (w.pushFirstRequest w.config c scenarioIndex now assemble).clients d = w.clients d := by
  unfold World.pushFirstRequest
  rw [found]
  dsimp only
  rw [if_pos parallel]
  refine ⟨?_, fun d other => ?_⟩
  · rw [World.clients_modifyClient, if_pos rfl]
    exact queued_queueFirst_perm _ _ _ _
  · rw [World.clients_modifyClient, if_neg other]

theorem enqueuesEach_pushFirstRequest_iff {w : World} {scenario : Scenario} {scenarioIndex : Nat}
    (found : w.config.scenario? scenarioIndex = some scenario)
    (parallel : scenario.runRequestsInParallel = true) (c : ClientId) (now : Nat) (assemble : Nat → Assembly) :
    (∃ added, EnqueuesEach w (replay w [.pushFirstRequest c scenarioIndex now assemble]) c
        scenario.requests.length added) ↔ scenario.requests.length ≤ 2 ∧ (scenario.requests.length = 2 →
        (scenario.requests.getD 1 {}).acceptable (assemble 1) = true) := by
  obtain ⟨queued, others⟩ := clients_pushFirstRequest found parallel c now assemble
  rw [← indices_startedRequests_iff found (w.clients c).link w.nextInstance assemble]
  constructor
  · rintro ⟨added, enqueues⟩
    have same := (List.perm_append_left_iff _).mp (queued.symm.trans enqueues.queued)
    exact (same.map _).trans enqueues.indices
  · intro indices
    refine ⟨_, queued, others, indices, fun request member client id assembly stored => ?_⟩
    exact followUp_of_parallel found parallel stored (startedRequests_cases found member).1 assembly

/-- **A scenario that runs in parallel queues each of its requests once exactly when it has at most
two and the second can be built.** -/
theorem parallel_enqueued_iff {env : Env} {p : ClientId} {w : World} {log : List Effect}
    {scenario : Scenario} (ran : prepareFirstRequest env p w = .ok (⟨⟩, log))
    (found : w.config.scenario? (w.drawnScenario env) = some scenario)
    (parallel : scenario.runRequestsInParallel = true) :
    (∃ added, EnqueuesEach w (replay w log) p scenario.requests.length added) ↔
      scenario.requests.length ≤ 2 ∧ (scenario.requests.length = 2 →
        (scenario.requests.getD 1 {}).acceptable (env.assembly w.ticks 1) = true) := by
  rw [emits_prepareFirstRequest env p w _ _ ran]
  exact enqueuesEach_pushFirstRequest_iff found parallel p _ _

/-! ## Poles -/

def parallelConfig (more : Nat) : Config :=
  { scenarios := [{ runRequestsInParallel := true, requests := {} :: List.replicate more {}
                    nonempty := List.cons_ne_nil _ _ }]
    hostAuthority := "host:80" }

def creationLog (more : Nat) : List Effect :=
  (runLog {} (World.initial (parallelConfig more) 4 1) [.createClient]).getD []

def createdWorld (more : Nat) : World := replay (World.initial (parallelConfig more) 4 1) (creationLog more)

/-- **Satisfiable pole:** two requests. -/
theorem twoRequests_enqueued : Run {} (World.initial (parallelConfig 1) 4 1) [.createClient] (creationLog 1) ∧
      ∃ log, prepareFirstRequest {} 0 (createdWorld 1) = .ok (⟨⟩, log) ∧
        ∃ added, EnqueuesEach (createdWorld 1) (replay (createdWorld 1) log) 0 2 added := by
  refine ⟨run_iff_runLog.mpr rfl, _, rfl, ?_⟩
  have ran : prepareFirstRequest {} 0 (createdWorld 1) = .ok (⟨⟩, _) := rfl
  have found : (createdWorld 1).config.scenario? ((createdWorld 1).drawnScenario {}) = some _ := rfl
  exact (parallel_enqueued_iff ran found rfl).mpr ⟨by decide, fun _ => by decide⟩

/-- **Refuting pole:** three requests; the second is queued twice and the third is not. -/
theorem threeRequests_not_enqueued :
    Run {} (World.initial (parallelConfig 2) 4 1) [.createClient] (creationLog 2) ∧
      ∃ log, prepareFirstRequest {} 0 (createdWorld 2) = .ok (⟨⟩, log) ∧
        ((replay (createdWorld 2) log).clients 0).queued.map RequestData.currRequestIdx = [1, 1, 0] ∧
        ¬ ∃ added, EnqueuesEach (createdWorld 2) (replay (createdWorld 2) log) 0 3 added := by
  refine ⟨run_iff_runLog.mpr rfl, _, rfl, rfl, fun enqueues => ?_⟩
  have found : (createdWorld 2).config.scenario? 0 = some _ := rfl
  have few := (enqueuesEach_pushFirstRequest_iff found rfl 0 _ _).mp enqueues
  exact absurd few.1 (by decide)

end H2LoadRunner.Load

/-
# Load.PendingStreams -- the number a controller compares with its concurrency

`get_total_pending_streams` adds the streams of every client in `dest_clients` to the
controller's own, and the controller is in `dest_clients` itself.  A sub-client whose
map entry another client has taken over is not counted at all.
-/
import H2LoadRunner.Load.Family

namespace H2LoadRunner.Load

open Library Library.EffectLog

set_option autoImplicit false

namespace World

def subClients (w : World) (c : ClientId) : Finset ClientId :=
  (Finset.range w.clientCount).filter fun d => (w.clients d).parentClient = some c

def openStreams (w : World) (c : ClientId) : Nat :=
  FiniteMap.size (w.clients c).streams +
    ∑ d ∈ w.subClients c, FiniteMap.size (w.clients d).streams

/-- The number agrees with the open streams, and a submission is refused for lack of
concurrency exactly when these have reached the session's limit. -/
structure CountsOnce (w : World) (c : ClientId) : Prop where
  total : w.getTotalPendingStreams c = w.openStreams c
  refuses : ∀ session, (w.clients c).session = some session →
    (w.lacksConcurrency c session = true ↔
      session.maxConcurrentStreams w.config ≤ w.openStreams c)

def listed (w : World) (c : ClientId) : Finset ClientId :=
  (FiniteMap.values (w.clients c).destClients).toFinset

/-- The controller's own streams, if it is in its own map. -/
def countedTwice (w : World) (c : ClientId) : Nat :=
  if c ∈ w.listed c then FiniteMap.size (w.clients c).streams else 0

def notCounted (w : World) (c : ClientId) : Nat :=
  ∑ d ∈ w.subClients c \ w.listed c, FiniteMap.size (w.clients d).streams

/-! ## The two counts -/

theorem countsOnce_iff_total {w : World} {c : ClientId} :
    w.CountsOnce c ↔ w.getTotalPendingStreams c = w.openStreams c := by
  constructor
  · exact CountsOnce.total
  · intro total
    refine ⟨total, fun session _ => ?_⟩
    rw [lacksConcurrency, decide_eq_true_eq, total]

section Listed

variable {w : World} {c : ClientId}

theorem listed_eq (wellListed : w.WellListed) (controller : (w.clients c).isController = true) :
    w.listed c \ {c} = w.subClients c ∩ w.listed c := by
  ext d
  simp only [Finset.mem_sdiff, Finset.mem_singleton, Finset.mem_inter, subClients, Finset.mem_filter,
    Finset.mem_range]
  have orphan : (w.clients c).parentClient = none := by
    simpa [Client.isController] using controller
  constructor
  · rintro ⟨member, other⟩
    rcases wellListed.family c d (List.mem_toFinset.mp member) with same | child
    · exact absurd same other
    · refine ⟨⟨?_, child⟩, member⟩
      by_contra beyond
      rw [wellListed.unborn d (Nat.le_of_not_lt beyond)] at child
      cases child
  · rintro ⟨⟨-, child⟩, member⟩
    refine ⟨member, ?_⟩
    rintro rfl
    rw [orphan] at child
    cases child

theorem sum_listed (wellListed : w.WellListed) (controller : (w.clients c).isController = true) :
    FiniteMap.sum (fun _ d => FiniteMap.size (w.clients d).streams) (w.clients c).destClients =
      w.countedTwice c +
        ∑ d ∈ w.subClients c ∩ w.listed c, FiniteMap.size (w.clients d).streams := by
  rw [FiniteMap.sum_eq_sum_values (fun d => FiniteMap.size (w.clients d).streams)
    (wellListed.distinct c)]
  show ∑ d ∈ w.listed c, FiniteMap.size (w.clients d).streams = _
  rw [← listed_eq wellListed controller, countedTwice]
  split
  · rename_i member
    exact (Finset.add_sum_erase (w.listed c) _ member).symm.trans
      (by rw [Finset.sdiff_singleton_eq_erase])
  · rename_i absent
    rw [Finset.sdiff_singleton_eq_erase, Finset.erase_eq_of_notMem absent, Nat.zero_add]

theorem sum_subClients : ∑ d ∈ w.subClients c, FiniteMap.size (w.clients d).streams = w.notCounted c +
        ∑ d ∈ w.subClients c ∩ w.listed c, FiniteMap.size (w.clients d).streams := by
  rw [notCounted, ← Finset.sum_inter_add_sum_sdiff (w.subClients c) (w.listed c), Nat.add_comm]

theorem countsOnce_iff_of_wellListed (wellListed : w.WellListed)
    (controller : (w.clients c).isController = true) : w.CountsOnce c ↔ w.countedTwice c = w.notCounted c := by
  have self : w.controllerOf c = c := by
    have orphan : (w.clients c).parentClient = none := by
      simpa [Client.isController] using controller
    simp [controllerOf, orphan]
  rw [countsOnce_iff_total, getTotalPendingStreams, openStreams, self,
    sum_listed wellListed controller, sum_subClients]
  omega

end Listed

end World

/-! ## Runs -/

/-- **A controller counts each open stream once exactly when what it counts twice is as much
as what it does not count**, in every world of every log and so of every run. -/
theorem countsOnce_iff (cfg : Config) (reqTodo nclients : Nat) (log : List Effect) :
    Throughout (fun w => ∀ c, (w.clients c).isController = true →
        (w.CountsOnce c ↔ w.countedTwice c = w.notCounted c))
      (World.initial cfg reqTodo nclients) log := by
  rintro early -
  have wellListed := replay_preserves wellListed_apply early (wellListed_initial cfg reqTodo nclients)
  exact fun c controller => World.countsOnce_iff_of_wellListed wellListed controller

/-! ## Poles -/

def pairConfig : Config :=
  { scenarios := [oneRequest]
    maxConcurrentStreams := 2
    hostAuthority := "host:80" }

/-- **Refuting pole**: one stream is open on the controller, which counts two and has no room
for the second. -/
theorem connected_not_countsOnce :
    ¬ ∀ (env : Env) (cfg : Config) (reqTodo nclients : Nat) (events : List Event) (log : List Effect),
      Run env (World.initial cfg reqTodo nclients) events log →
        Throughout (fun w => ∀ c, (w.clients c).isController = true → w.CountsOnce c)
          (World.initial cfg reqTodo nclients) log := by
  intro always
  have once := (always {} pairConfig 4 1 [.createClient, .connected 0 (some .http2)] _
    (run_of_isSome (by decide +kernel))).last 0 (by decide +kernel)
  exact absurd once.total (by decide +kernel)

/-- The same, and requests for another authority get a connection of their own. -/
def fanOutConfig : Config :=
  { pairConfig with openNewConnectionBasedOnAuthorityHeader := true }

/-- Every request is for a host other than the controller's. -/
def fanOutEnv : Env :=
  { assembly := fun _ _ => { assembled := { schema := "http", authority := "other:80" } } }

/-- **Satisfiable pole**: with both streams on the sub-client the count is exact. -/
theorem fanOut_countsOnce : ∃ log, Run fanOutEnv (World.initial fanOutConfig 4 1)
        [.createClient, .connected 0 (some .http2), .connected 1 (some .http2)] log ∧
      (replay (World.initial fanOutConfig 4 1) log).openStreams 0 = 2 ∧
      (replay (World.initial fanOutConfig 4 1) log).CountsOnce 0 := by
  exact ⟨_, run_of_isSome (by decide +kernel), by decide +kernel,
    ((countsOnce_iff fanOutConfig 4 1 _).last 0
      (by decide +kernel)).mpr (by decide +kernel)⟩

end H2LoadRunner.Load

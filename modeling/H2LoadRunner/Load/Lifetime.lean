/-
# Load.Lifetime -- controllers and sub-clients in `managed_clients`

A sub-client keeps a plain pointer to its controller and calls `submit_request` on it when a
stream closes.  Both are freed on their own, by tasks posted when a connection has been shut
down or lost for good, and nothing makes a controller wait for its sub-clients: only
`should_reconnect_on_disconnect` keeps it, until the test is finished.

* `accompanied_iff`: in a run, every sub-client that exists has a controller that exists, in
  every state on the way, exactly when no controller is freed before its sub-clients.
-/
import H2LoadRunner.Load.Lineage
import H2LoadRunner.Load.PendingStreams

namespace H2LoadRunner.Load

open Library Library.EffectLog

set_option autoImplicit false

/-! ## What is stated -/

/-- Every sub-client in `managed_clients` has its controller there. -/
def World.Accompanied (w : World) : Prop :=
  ∀ d < w.clientCount, (w.clients d).freed = false → ∀ p, (w.clients d).parentClient = some p →
    p < w.clientCount ∧ (w.clients p).freed = false

def FreesLast (w : World) (e : Effect) : Prop :=
  match e with
  | .freeClient c => ∀ d < w.clientCount, (w.clients d).parentClient = some c → (w.clients d).freed = true
  | _ => True

instance (w : World) (e : Effect) : Decidable (FreesLast w e) := by
  induction e using Effect.casesOn <;> dsimp only [FreesLast] <;> infer_instance

/-! ## Who is freed first -/

theorem accompanied_apply {w : World} {e : Effect} (adopts : Adopts w e) (last : FreesLast w e)
    (accompanied : w.Accompanied) : (Machine.apply e w).Accompanied := by
  intro d known alive p parent
  rw [clientCount_apply, clientCount_act] at known ⊢
  rw [clients_apply] at alive parent ⊢
  rw [freed_act] at alive ⊢
  rw [parentClient_act] at parent
  have older (existed : d < w.clientCount) (free : (w.clients d).freed = false)
      (child : (w.clients d).parentClient = some p) := accompanied d existed free p child
  cases e with
  | createClient =>
    dsimp only at known alive parent ⊢
    split at parent
    · cases parent
    · rename_i existed
      rw [if_neg existed] at alive
      obtain ⟨before, free⟩ :=
        older (Nat.lt_of_le_of_ne (Nat.le_of_lt_succ known) existed) alive parent
      rw [if_neg (Nat.ne_of_lt before)]
      exact ⟨Nat.lt_succ_of_lt before, free⟩
  | createDestClient q =>
    dsimp only at known alive parent ⊢
    have before : p < w.clientCount ∧ (w.clients p).freed = false := by
      split at parent
      · cases parent
        exact ⟨adopts.known, adopts.alive⟩
      · rename_i existed
        rw [if_neg existed] at alive
        exact older (Nat.lt_of_le_of_ne (Nat.le_of_lt_succ known) existed) alive parent
    rw [if_neg (Nat.ne_of_lt before.1)]
    exact ⟨Nat.lt_succ_of_lt before.1, before.2⟩
  | freeClient c =>
    dsimp only at known alive parent ⊢
    split at alive
    · cases alive
    · obtain ⟨before, free⟩ := older known alive parent
      refine ⟨before, ?_⟩
      rw [if_neg, free]
      rintro rfl
      exact nomatch alive.symm.trans (last d known parent)
  | _ => exact older known alive parent

/-- Where the property holds after a client is freed, its sub-clients were freed before. -/
theorem freesLast_of_accompanied {w : World} {e : Effect} (lineage : w.Lineage)
    (accompanied : (Machine.apply e w).Accompanied) : FreesLast w e := by
  cases e with
  | freeClient c =>
    intro d known parent
    by_contra alive
    have other : d ≠ c := by
      rintro rfl
      exact nomatch parent.symm.trans (lineage.roots d d parent).2
    have alive' : ((Machine.apply (Effect.freeClient c) w).clients d).freed = false := by
      rw [clients_apply, freed_act]
      dsimp only
      rw [if_neg other]
      exact Bool.not_eq_true _ ▸ alive
    have parent' : ((Machine.apply (Effect.freeClient c) w).clients d).parentClient = some c := by
      rw [clients_apply, parentClient_act]
      exact parent
    have known' : d < (Machine.apply (Effect.freeClient c) w).clientCount := by
      rw [clientCount_apply, clientCount_act]
      exact known
    have free := (accompanied d known' alive' c parent').2
    rw [clients_apply, freed_act] at free
    dsimp only at free
    rw [if_pos rfl] at free
    cases free
  | _ => trivial

theorem along_freesLast {w : World} {log : List Effect} (lineage : w.Lineage)
    (adopts : Along Adopts w log) (throughout : Throughout World.Accompanied w log) :
    Along FreesLast w log := by
  induction log generalizing w with
  | nil => trivial
  | cons e es ih =>
    refine ⟨freesLast_of_accompanied lineage (throughout [e] (by simp)), ?_⟩
    refine ih (lineage_apply w e adopts.1 lineage) adopts.2 fun fs early => ?_
    exact throughout (e :: fs) (List.cons_prefix_cons.mpr ⟨rfl, early⟩)

/-- **Every sub-client keeps its controller exactly when controllers are freed last.** -/
theorem accompanied_iff (env : Env) (cfg : Config) (reqTodo nclients : Nat) (events : List Event)
    (log : List Effect) (run : Run env (World.initial cfg reqTodo nclients) events log) :
    Throughout World.Accompanied (World.initial cfg reqTodo nclients) log ↔
      Along FreesLast (World.initial cfg reqTodo nclients) log := by
  have adopts := adopts_of_run run
  constructor
  · exact along_freesLast (lineage_initial cfg reqTodo nclients) adopts
  · intro last
    have start : (World.initial cfg reqTodo nclients).Accompanied :=
      fun _ known => absurd known (Nat.not_lt_zero _)
    exact throughout_of_invariant (fun _ _ fits accompanied => accompanied_apply fits.1 fits.2 accompanied)
      (adopts.and last) start

/-! ## Poles -/

/-- The one request goes to a sub-client; then the controller loses its connection. -/
def finishedEvents : List Event :=
  [.createClient, .connected 0 (some .http2), .connected 1 (some .http2), .connectionError 0,
    .freeClient 0]

/-- **Refuting pole:** the controller is freed while the stream of its sub-client is open. -/
theorem finished_not_accompanied :
    ¬ ∀ (env : Env) (cfg : Config) (reqTodo nclients : Nat) (events : List Event) (log : List Effect),
      Run env (World.initial cfg reqTodo nclients) events log →
        Throughout World.Accompanied (World.initial cfg reqTodo nclients) log := by
  intro always
  have accompanied := (always fanOutEnv fanOutConfig 1 1 finishedEvents _ (run_of_isSome (by decide +kernel))).last
  exact absurd (accompanied 1 (by decide +kernel) (by decide +kernel) 0 (by decide +kernel)).2 (by decide +kernel)

/-- **Satisfiable pole:** the sub-client goes first. -/
theorem inOrder_accompanied : ∃ log, Run fanOutEnv (World.initial fanOutConfig 1 1)
        [.createClient, .connected 0 (some .http2), .connected 1 (some .http2), .streamClose 1 1 true,
          .connectionError 1, .freeClient 1, .connectionError 0, .freeClient 0] log ∧
      ((replay (World.initial fanOutConfig 1 1) log).clients 0).freed = true ∧
      Throughout World.Accompanied (World.initial fanOutConfig 1 1) log := by
  exact ⟨_, run_of_isSome (by decide +kernel), by decide +kernel,
    (accompanied_iff fanOutEnv fanOutConfig 1 1 _ _ (run_of_isSome (by decide +kernel))).mpr (by decide +kernel)⟩

end H2LoadRunner.Load

/-
# Load.Holdings -- the end of a stream

`on_stream_close` validates the response and counts before it finishes the request.  What a client
holds, its requests in all their places and its streams, stays the same until then
(`closeStream_cases`).
-/
import H2LoadRunner.Load.Touches

namespace H2LoadRunner.Load

open Library Library.EffectLog

set_option autoImplicit false

/-- The two clients have the same requests in the same places and the same streams open. -/
structure SameRequests (a b : Client) : Prop where
  queued : b.queued = a.queued
  stored : b.requestsAwaitingResponse = a.requestsAwaitingResponse
  opened : ∀ id, (b.streams.lookup id).isSome = (a.streams.lookup id).isSome

structure SameHoldings (w v : World) : Prop where
  config : v.config = w.config
  nextInstance : v.nextInstance = w.nextInstance
  clients : ∀ d, SameRequests (w.clients d) (v.clients d)

theorem SameHoldings.refl (w : World) : SameHoldings w w := ⟨rfl, rfl, fun _ => ⟨rfl, rfl, fun _ => rfl⟩⟩

theorem SameHoldings.step {u v w : World} {c : ClientId} {b : Client} (same : SameHoldings w u)
    (clients : v.clients = Function.update u.clients c b) (config : v.config = u.config)
    (nextInstance : v.nextInstance = u.nextInstance) (requests : SameRequests (u.clients c) b) :
    SameHoldings w v where
  config := config.trans same.config
  nextInstance := nextInstance.trans same.nextInstance
  clients := by
    obtain ⟨queued, stored, opened⟩ := same.clients c
    rw [clients]
    exact (Function.forall_update_iff u.clients (p := fun d b => SameRequests (w.clients d) b)).mpr
      ⟨⟨requests.queued.trans queued, requests.stored.trans stored,
        fun id => (requests.opened id).trans (opened id)⟩, fun d _ => same.clients d⟩

theorem sameHoldings_validateResponse (w : World) (cfg : Config) (c : ClientId) (id : Nat) (verdict : Bool) :
    SameHoldings w (w.validateResponse cfg c id verdict) := by
  have judged (value : Int) (client : Client) :
      SameRequests client (World.setStatusSuccess id value client) :=
    ⟨rfl, rfl, fun other => by
      rw [World.setStatusSuccess, FiniteMap.lookup_adjust_map, Option.isSome_map]⟩
  unfold World.validateResponse
  dsimp only
  split
  · exact .refl w
  · split
    · exact (SameHoldings.refl w).step rfl rfl rfl (judged _ _)
    · split <;> exact (SameHoldings.refl w).step rfl rfl rfl (judged _ _)

/-- `on_stream_close` validates and counts; then it stops, where the stream is not open, or finishes
the request. -/
theorem closeStream_cases (w : World) (cfg : Config) (c : ClientId) (id : Nat)
    (success verdict : Bool) (now : Nat) (assembly : Assembly) :
    ∃ v, SameHoldings w v ∧ ((w.clients c).streams.lookup id = none ∧
          w.closeStream cfg c id success verdict now assembly = v ∨
        w.closeStream cfg c id success verdict now assembly = v.finishRequest cfg c id now assembly) := by
  have validated := sameHoldings_validateResponse w cfg c id verdict
  unfold World.closeStream
  generalize w.validateResponse cfg c id verdict = u at *
  have released : SameHoldings w (u.modifyClient c (World.releaseInflight cfg)) :=
    validated.step rfl rfl rfl ⟨rfl, rfl, fun _ => rfl⟩
  dsimp only
  split
  · split
    · rename_i missing
      have opened := (released.clients c).opened id
      rw [missing] at opened
      exact ⟨_, released, .inl ⟨Option.isNone_iff_eq_none.mp (by simpa using opened.symm), rfl⟩⟩
    · refine ⟨_, ?_, .inr rfl⟩
      unfold World.recordOutcome
      dsimp only
      split
      · exact released
      · split <;> exact released.step rfl rfl rfl ⟨rfl, rfl, fun _ => rfl⟩
  · exact ⟨u, validated, .inr rfl⟩

end H2LoadRunner.Load

/-
# Load.Standing -- what connects a client

A client's standing is its controller, the state of its connection, the hosts it rotates over
and whether the object still exists.  Only the effects that create, connect, disconnect and
free clients change it, each that of one client (`standing_act`).
-/
import H2LoadRunner.Load.Family
import H2LoadRunner.Load.Loops

namespace H2LoadRunner.Load

open Library Library.EffectLog

set_option autoImplicit false

structure Standing where
  parentClient : Option ClientId
  state : ClientState
  hasSession : Bool
  rotation : Rotation String
  freed : Bool

namespace Client

def standing (client : Client) : Standing where
  parentClient := client.parentClient
  state := client.state
  hasSession := client.session.isSome
  rotation := client.link.rotation
  freed := client.freed

end Client

def Effect.restands (w : World) : Effect → Option (ClientId × Standing)
  | .createClient candidates => some (w.clientCount, (w.newController w.config candidates).standing)
  | .createDestClient p schema authority =>
    some (w.clientCount, (w.newDestClient w.config p schema authority).standing)
  | .setLink c link => some (c, { (w.clients c).standing with rotation := link.rotation })
  | .connecting c link =>
    some (c, { (w.clients c).standing with state := .connecting, rotation := link.rotation })
  | .allocateSession c _ =>
    some (c, { (w.clients c).standing with state := .connected, hasSession := true })
  -- A connection that times out is dropped.
  | .disconnect c | .timeout c =>
    some (c, { (w.clients c).standing with
      state := .idle
      hasSession := false
      rotation := { (w.clients c).standing.rotation with retrying := false } })
  | .freeClient c => some (c, { (w.clients c).standing with freed := true })
  | _ => none

theorem standing_act (w : World) (e : Effect) (d : ClientId) :
    ((e.act w).clients d).standing =
      match e.restands w with
      | some (c, after) => if d = c then after else (w.clients d).standing
      | none => (w.clients d).standing := by
  by_cases quiet : e.restands w = none
  · rw [quiet]
    refine read_act Client.standing w e d ?_
    intro a b touch
    cases touch with
    | create | createDest | enlist | link | connect | allocate | disconnect | timeout | report | unlist
    | free => cases quiet
    | http1 _ kept | start _ kept => simp only [Client.standing, kept, Link.rotation]
    | _ => rfl
  have modified (c : ClientId) (change : Client → Client) :
      ((w.modifyClient c change).clients d).standing =
        if d = c then (change (w.clients c)).standing else (w.clients d).standing := by
    rw [World.clients_modifyClient, apply_ite Client.standing]
  cases e with
  | createClient candidates =>
    exact (congrArg Client.standing (Function.update_apply ..)).trans (apply_ite ..)
  | createDestClient p schema authority =>
    refine (congrArg Client.standing (Function.update_apply ..)).trans ((apply_ite ..).trans ?_)
    refine congrArg (ite _ _) ((modified p _).trans ?_)
    split
    · rename_i same
      rw [same]
      rfl
    · rfl
  | setLink c | connecting c | allocateSession c | disconnect c =>
    simp only [Effect.act]
    exact modified c _
  | timeout c =>
    obtain ⟨inflight, left, -, dropped⟩ := clients_timeout w w.config c
    have acted : ((Effect.timeout c).act w).clients = (w.timeout w.config c).clients := rfl
    rw [acted, dropped, Function.update_apply, apply_ite Client.standing]
    rfl
  | freeClient c =>
    by_cases here : d = c
    · subst here
      have kept := read_act (fun client => { client.standing with freed := true }) w (.freeClient d) d <| by
        intro a b touch
        cases touch with
        | http1 speaks => cases speaks
        | _ => rfl
      have freed : (((Effect.freeClient d).act w).clients d).standing.freed = true := by
        show ((w.freeClient d).clients d).freed = true
        rw [World.freeClient, World.clients_modifyClient, if_pos rfl]
      simp only [Effect.restands, if_true]
      rw [← kept, ← freed]
    · simp only [Effect.restands, if_neg here]
      refine read_act Client.standing w _ d ?_
      intro a b touch
      cases touch with
      | http1 speaks => cases speaks
      | report | free => exact absurd rfl here
      | _ => rfl
  | _ => exact absurd rfl quiet

/-! ## Controllers and ends of clients -/

theorem read_standing {β : Type} (read : Standing → β) (same : ∀ standing state hasSession rotation,
      read { standing with state := state, hasSession := hasSession, rotation := rotation } = read standing)
    (w : World) (d : ClientId) :
    ∀ e, read ((Effect.act e w).clients d).standing = match e with
      | .createClient candidates =>
        if d = w.clientCount then read (w.newController w.config candidates).standing
        else read (w.clients d).standing
      | .createDestClient p schema authority =>
        if d = w.clientCount then read (w.newDestClient w.config p schema authority).standing
        else read (w.clients d).standing
      | .freeClient c =>
        if d = c then read { (w.clients c).standing with freed := true }
        else read (w.clients d).standing
      | _ => read (w.clients d).standing := by
  have updated (c : ClientId) (state : ClientState) (hasSession : Bool) (rotation : Rotation String) :
      read (if d = c then
          { (w.clients c).standing with state := state, hasSession := hasSession, rotation := rotation }
        else (w.clients d).standing) = read (w.clients d).standing := by
    split
    · rename_i here
      rw [same, here]
    · rfl
  intro e
  have after := congrArg read (standing_act w e d)
  cases e with
  | createClient | createDestClient | freeClient => exact after.trans (apply_ite ..)
  | setLink c | connecting c | allocateSession c | disconnect c | timeout c =>
    exact after.trans (updated c _ _ _)
  | _ => exact after

theorem parentClient_act (w : World) (e : Effect) (d : ClientId) :
    ((e.act w).clients d).parentClient = match e with
      | .createClient _ => if d = w.clientCount then none else (w.clients d).parentClient
      | .createDestClient p _ _ => if d = w.clientCount then some p else (w.clients d).parentClient
      | _ => (w.clients d).parentClient := by
  have after := read_standing Standing.parentClient (fun _ _ _ _ => rfl) w d e
  cases e with
  | freeClient c =>
    refine after.trans ?_
    dsimp only
    split
    · rename_i here
      rw [here]
      rfl
    · rfl
  | _ => exact after

theorem freed_act (w : World) (e : Effect) (d : ClientId) :
    ((e.act w).clients d).freed = match e with
      | .createClient _ | .createDestClient _ _ _ =>
        if d = w.clientCount then false else (w.clients d).freed
      | .freeClient c => if d = c then true else (w.clients d).freed
      | _ => (w.clients d).freed := by
  have after := read_standing Standing.freed (fun _ _ _ _ => rfl) w d e
  cases e with
  | _ => exact after

end H2LoadRunner.Load

/-
# Load.Family -- controllers and their sub-clients

A client names its controller in `parentClient`, and a controller lists itself and its
sub-clients in `dest_clients` under the destination each is connected to.  Only the
creation of clients, a new connection and the end of a client change the two
(`sameKin_act`), and every run keeps them in agreement (`wellListed_apply`): a map
lists no client twice, and only its owner and the owner's sub-clients.
-/
import H2LoadRunner.Load.Frames

namespace H2LoadRunner.Load

open Library Library.EffectLog

set_option autoImplicit false

variable {v w : World}

/-! ## What leaves families alone -/

def SameKin (a b : Client) : Prop :=
  b.parentClient = a.parentClient ∧ b.destClients = a.destClients

def Effect.relists : Effect → Bool
  | .createClient _ | .createDestClient _ _ _ | .updateThisInDestClientMap _ | .freeClient _ => true
  | _ => false

theorem Touch.sameKin {a b : Client} {e : Effect} {d : ClientId} (touch : Touch w a e d b)
    (other : e.relists = false) : SameKin a b := by
  cases touch with
  | create | createDest | enlist | relist | report | unlist | free => cases other
  | _ => exact ⟨rfl, rfl⟩

theorem sameKin_act (w : World) (e : Effect) (other : e.relists = false) (d : ClientId) :
    SameKin (w.clients d) ((e.act w).clients d) :=
  follow_act w e d (fun _ => ⟨rfl, rfl⟩)
    (fun first second => ⟨second.1.trans first.1, second.2.trans first.2⟩) fun touch => touch.sameKin other

theorem clientCount_act (w : World) (e : Effect) :
    (e.act w).clientCount = match e with
      | .createClient _ | .createDestClient _ _ _ => w.clientCount + 1
      | _ => w.clientCount := by
  have kept (same : e.reframes = false) := congrArg (fun frame => frame.2.1) (frame_act w e same)
  cases e with
  | createClient | createDestClient | setPhase => rfl
  | _ => exact kept rfl

theorem clientCount_le_apply (w : World) (e : Effect) : w.clientCount ≤ (Machine.apply e w).clientCount := by
  rw [clientCount_apply, clientCount_act]
  split <;> simp

theorem clientCount_le_replay (w : World) (es : List Effect) :
    w.clientCount ≤ (replay w es).clientCount :=
  replay_preserves (I := fun v => w.clientCount ≤ v.clientCount)
    (fun v e known => known.trans (clientCount_le_apply v e)) es (Nat.le_refl _)

/-! ## Lists and controllers agree -/

/-- Clients that do not exist yet have no controller, no list names a client twice, and a
list names its owner and the owner's sub-clients only. -/
structure World.WellListed (w : World) : Prop where
  unborn : ∀ d, w.clientCount ≤ d → (w.clients d).parentClient = none
  distinct : ∀ c, (FiniteMap.values (w.clients c).destClients).Nodup
  family : ∀ c, ∀ d ∈ FiniteMap.values (w.clients c).destClients,
    d = c ∨ (w.clients d).parentClient = some c

theorem wellListed_of_sublist (listed : w.WellListed) (clientCount : v.clientCount = w.clientCount)
    (parent : ∀ d, (v.clients d).parentClient = (w.clients d).parentClient)
    (values : ∀ c, (FiniteMap.values (v.clients c).destClients).Sublist
      (FiniteMap.values (w.clients c).destClients)) : v.WellListed where
  unborn d beyond := by
    rw [parent d]
    exact listed.unborn d (clientCount ▸ beyond)
  distinct c := (listed.distinct c).sublist (values c)
  family c d member := by
    rw [parent d]
    exact listed.family c d ((values c).subset member)

theorem values_updateDestClientMap (client : Client) (this : ClientId) (schema authority : String)
    (distinct : (FiniteMap.values client.destClients).Nodup) :
    (FiniteMap.values (client.updateDestClientMap this schema authority).destClients).Nodup ∧
      ∀ d ∈ FiniteMap.values (client.updateDestClientMap this schema authority).destClients,
        d = this ∨ d ∈ FiniteMap.values client.destClients := by
  have removed : ∃ without : FiniteMap String ClientId,
      (client.updateDestClientMap this schema authority).destClients =
        without.insert (destinationKey schema authority) this ∧
      (FiniteMap.values without).Sublist (FiniteMap.values client.destClients) ∧
      this ∉ FiniteMap.values without := by
    unfold Client.updateDestClientMap
    dsimp only
    split
    · rename_i entry found
      refine ⟨_, rfl, FiniteMap.values_erase_sublist _ _, ?_⟩
      have here : entry.2 = this := by simpa using List.find?_some found
      exact here ▸ FiniteMap.notMem_values_erase distinct
        (AList.mem_lookup_iff.mpr (List.mem_of_find?_eq_some found))
    · rename_i missing
      refine ⟨_, rfl, .refl _, ?_⟩
      intro member
      obtain ⟨entry, inside, same⟩ := List.mem_map.mp member
      simpa [same] using List.find?_eq_none.mp missing entry inside
  obtain ⟨without, shape, sublist, absent⟩ := removed
  have erased := FiniteMap.values_erase_sublist (destinationKey schema authority) without
  rw [shape, FiniteMap.values_insert]
  refine ⟨List.nodup_cons.mpr ⟨fun member => absent (erased.subset member), ?_⟩, ?_⟩
  · exact distinct.sublist (erased.trans sublist)
  · intro d member
    rcases List.mem_cons.mp member with rfl | before
    · exact .inl rfl
    · exact .inr (sublist.subset (erased.subset before))

theorem World.WellListed.ne_clientCount (listed : w.WellListed) {c d : ClientId}
    (member : d ∈ FiniteMap.values (w.clients c).destClients) (other : c ≠ w.clientCount) :
    d ≠ w.clientCount := by
  rintro rfl
  rcases listed.family c _ member with same | child
  · exact other same.symm
  · rw [listed.unborn _ (Nat.le_refl _)] at child
    cases child

theorem wellListed_created (listed : w.WellListed) (clientCount : v.clientCount = w.clientCount + 1)
    (parent : ∀ d, d ≠ w.clientCount → (v.clients d).parentClient = (w.clients d).parentClient)
    (distinct : ∀ c, (FiniteMap.values (v.clients c).destClients).Nodup)
    (fresh : ∀ d ∈ FiniteMap.values (v.clients w.clientCount).destClients, d = w.clientCount)
    (others : ∀ c, c ≠ w.clientCount → ∀ d ∈ FiniteMap.values (v.clients c).destClients,
      d ∈ FiniteMap.values (w.clients c).destClients ∨
        d = w.clientCount ∧ (v.clients w.clientCount).parentClient = some c) : v.WellListed := by
  refine ⟨?_, distinct, ?_⟩
  · intro d beyond
    rw [parent d (by omega)]
    exact listed.unborn d (by omega)
  · intro c d member
    by_cases new : c = w.clientCount
    · subst new
      exact .inl (fresh d member)
    · rcases others c new d member with before | ⟨rfl, child⟩
      · rw [parent d (listed.ne_clientCount before new)]
        exact listed.family c d before
      · exact .inr child

theorem wellListed_createClient (listed : w.WellListed) (cfg : Config) (candidates : List String) :
    (w.createClient cfg candidates).WellListed := by
  have here : (w.createClient cfg candidates).clients w.clientCount =
      w.newController cfg candidates := Function.update_self ..
  have there : ∀ d, d ≠ w.clientCount → (w.createClient cfg candidates).clients d = w.clients d :=
    fun d old => Function.update_of_ne old ..
  have own : FiniteMap.values (w.newController cfg candidates).destClients = [w.clientCount] := rfl
  refine wellListed_created listed rfl ?_ ?_ ?_ ?_
  · intro d old
    rw [there d old]
  · intro c
    by_cases new : c = w.clientCount
    · rw [new, here, own]
      exact List.nodup_singleton _
    · rw [there c new]
      exact listed.distinct c
  · intro d member
    rw [here, own] at member
    exact List.mem_singleton.mp member
  · intro c old d member
    rw [there c old] at member
    exact .inl member

theorem wellListed_createDestClient (listed : w.WellListed) (cfg : Config) (parent : ClientId)
    (schema authority : String) : (w.createDestClient cfg parent schema authority).WellListed := by
  have here : (w.createDestClient cfg parent schema authority).clients w.clientCount =
      w.newDestClient cfg parent schema authority := Function.update_self ..
  have there : ∀ d, d ≠ w.clientCount →
      (w.createDestClient cfg parent schema authority).clients d =
        if d = parent then (w.clients parent).updateDestClientMap w.clientCount schema authority
        else w.clients d := by
    intro d old
    exact (Function.update_of_ne old ..).trans (World.clients_modifyClient w parent _ d)
  have moved := values_updateDestClientMap (w.clients parent) w.clientCount schema authority
    (listed.distinct parent)
  refine wellListed_created listed rfl ?_ ?_ ?_ ?_
  · intro d old
    rw [there d old]
    split
    · rename_i same
      rw [same]
      rfl
    · rfl
  · intro c
    by_cases new : c = w.clientCount
    · rw [new, here]
      exact List.nodup_nil
    · rw [there c new]
      split
      · exact moved.1
      · exact listed.distinct c
  · intro d member
    rw [here] at member
    cases member
  · intro c old d member
    rw [there c old] at member
    split at member
    · rename_i same
      subst same
      rcases moved.2 d member with rfl | before
      · exact .inr ⟨rfl, by rw [here]; rfl⟩
      · exact .inl before
    · exact .inl member

theorem wellListed_updateThisInDestClientMap (listed : w.WellListed) (c : ClientId) :
    (w.updateThisInDestClientMap c).WellListed := by
  have moved := values_updateDestClientMap (w.clients (w.controllerOf c)) c
    (w.clients c).link.schema (w.clients c).link.authority (listed.distinct _)
  have parent : ∀ d, ((w.updateThisInDestClientMap c).clients d).parentClient =
      (w.clients d).parentClient := by
    intro d
    rw [World.updateThisInDestClientMap, World.clients_modifyClient]
    split
    · rename_i same
      rw [same]
      rfl
    · rfl
  refine ⟨?_, ?_, ?_⟩
  · intro d beyond
    rw [parent d]
    exact listed.unborn d beyond
  · intro d
    rw [World.updateThisInDestClientMap, World.clients_modifyClient]
    split
    · exact moved.1
    · exact listed.distinct d
  · intro owner d member
    rw [parent d]
    rw [World.updateThisInDestClientMap, World.clients_modifyClient] at member
    split at member
    · rename_i same
      subst same
      rcases moved.2 d member with rfl | before
      · cases isSub : (w.clients d).parentClient with
        | none => exact .inl (by simp [World.controllerOf, isSub])
        | some p => exact .inr (by simp [World.controllerOf, isSub])
      · exact listed.family _ d before
    · exact listed.family owner d member

theorem wellListed_freeClient (listed : w.WellListed) (c : ClientId) :
    ((Effect.freeClient c).act w).WellListed := by
  refine wellListed_of_sublist listed (clientCount_act w _) (fun d => read_act Client.parentClient w _ d ?_)
    fun d => follow_act (R := fun a b => (FiniteMap.values b.destClients).Sublist
      (FiniteMap.values a.destClients)) w _ d (fun _ => .refl _) (fun first second => second.trans first) ?_
  · intro a b touch
    cases touch with
    | _ => rfl
  · intro a b touch
    cases touch with
    | unlist => exact FiniteMap.values_erase_sublist _ _
    | _ => exact .refl _

theorem wellListed_apply (w : World) (e : Effect) (listed : w.WellListed) : (Machine.apply e w).WellListed := by
  have acted : (e.act w).WellListed := by
    by_cases other : e.relists = false
    · refine wellListed_of_sublist listed ?_ (fun d => (sameKin_act w e other d).1) fun d => ?_
      · rw [clientCount_act]
        cases e <;> first | rfl | cases other
      · rw [(sameKin_act w e other d).2]
    · cases e with
      | createClient candidates => exact wellListed_createClient listed _ candidates
      | createDestClient parent schema authority =>
        exact wellListed_createDestClient listed _ parent schema authority
      | updateThisInDestClientMap c => exact wellListed_updateThisInDestClientMap listed c
      | freeClient c => exact wellListed_freeClient listed c
      | _ => exact absurd rfl other
  exact { acted with }

theorem wellListed_initial (cfg : Config) (reqTodo nclients : Nat) :
    (World.initial cfg reqTodo nclients).WellListed :=
  ⟨fun _ _ => rfl, fun _ => List.nodup_nil, fun _ _ member => by cases member⟩

end H2LoadRunner.Load

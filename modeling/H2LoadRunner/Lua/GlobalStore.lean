/-
# Lua.GlobalStore -- the values scripts share across worker threads

`store_value`, `get_value` and `delete_value` keep their values in 256 times 256 maps, each with a
mutex of its own; the map of a key is found from the sum of its bytes.  A call with the wrong
number of arguments complains and then goes on with an empty key and an empty value.

Behind well-formed calls the maps are one map (`contents_modify`).  `behavesAsMap_iff` says which
sequences of calls cannot be told from calls on one map that ignores malformed ones: those whose
malformed calls meet an empty key that is absent, or for `store_value` one that already holds the
empty value.  A malformed `store_value` on the empty store is enough to see the difference
(`storedNothing_not_behavesAsMap`).
-/
import H2LoadRunner.Library.FiniteMap

namespace H2LoadRunner.Lua.GlobalStore

open Library

set_option autoImplicit false

abbrev Bytes := List UInt8

/-! ## The shards -/

/-- `get_u16_sum`: each turn narrows the sum to a `uint16_t`. -/
def getU16Sum (key : Bytes) : Nat := key.foldl (fun sum c => (sum + c.toNat) % 2 ^ 16) 0

def row (key : Bytes) : Nat := (getU16Sum key >>> 16) % 2 ^ 8

def col (key : Bytes) : Nat := (getU16Sum key &&& 0xFF) % 2 ^ 8

abbrev GlobalDatas := Nat → Nat → FiniteMap Bytes Bytes

def GlobalDatas.shard (datas : GlobalDatas) (key : Bytes) : FiniteMap Bytes Bytes := datas (row key) (col key)

def GlobalDatas.modify (datas : GlobalDatas) (key : Bytes)
    (change : FiniteMap Bytes Bytes → FiniteMap Bytes Bytes) : GlobalDatas := fun r c =>
  if r = row key ∧ c = col key then change (datas r c) else datas r c

/-! ## The calls -/

/-- What `lua_tolstring` gives for an argument; `none` for a value that is not a text. -/
abbrev Argument := Option Bytes

/-- `assign(str, len)`, with a length of zero where there is no text. -/
def Argument.text (argument : Argument) : Bytes := argument.getD []

inductive Call where
  | storeValue (arguments : List Argument)
  | getValue (arguments : List Argument)
  | deleteValue (arguments : List Argument)

/-- The key of `get_value` and `delete_value`, empty after `invalid arguments`. -/
def soleKey : List Argument → Bytes
  | [key] => key.text
  | _ => []

def Call.onShards (datas : GlobalDatas) : Call → GlobalDatas × Option Bytes
  | .storeValue arguments =>
    let (key, value) := match arguments with
      | [key, value] => (key.text, value.text)
      | _ => ([], [])
    (datas.modify key (·.insert key value), none)
  | .getValue arguments =>
    let key := soleKey arguments
    (datas, (datas.shard key).lookup key)
  | .deleteValue arguments =>
    let key := soleKey arguments
    match (datas.shard key).lookup key with
    | some value => (datas.modify key (·.erase key), some value)
    | none => (datas, none)

def Call.onMap (values : Bytes → Option Bytes) : Call → (Bytes → Option Bytes) × Option Bytes
  | .storeValue [key, value] => (Function.update values key.text (some value.text), none)
  | .getValue [key] => (values, values key.text)
  | .deleteValue [key] => (Function.update values key.text none, values key.text)
  | _ => (values, none)

def run {S : Type} (step : S → Call → S × Option Bytes) (start : S) (calls : List Call) :
    S × List (Option Bytes) :=
  calls.foldl (fun s call => ((step s.1 call).1, s.2 ++ [(step s.1 call).2])) (start, [])

def GlobalDatas.contents (datas : GlobalDatas) (key : Bytes) : Option Bytes := (datas.shard key).lookup key

/-- After each call the shards hold what one map would, and the calls have returned the same. -/
def BehavesAsMap (calls : List Call) : Prop :=
  ∀ n, let shards := run Call.onShards (fun _ _ => ∅) (calls.take n)
    (shards.1.contents, shards.2) = run Call.onMap (fun _ => none) (calls.take n)

/-- A malformed call meets an empty key it does not change or return. -/
def Call.Harmless (values : Bytes → Option Bytes) : Call → Prop
  | .storeValue arguments => arguments.length = 2 ∨ values [] = some []
  | .getValue arguments | .deleteValue arguments => arguments.length = 1 ∨ values [] = none

/-! ## One map -/

variable {datas : GlobalDatas}

theorem contents_modify {key : Bytes} {value : Option Bytes}
    {change : FiniteMap Bytes Bytes → FiniteMap Bytes Bytes}
    (changes : ∀ map other, (change map).lookup other = if other = key then value else map.lookup other) :
    (datas.modify key change).contents = Function.update datas.contents key value := by
  funext other
  simp only [GlobalDatas.contents, GlobalDatas.shard, GlobalDatas.modify, Function.update_apply]
  by_cases same : other = key
  · subst same
    simp [changes]
  · split <;> simp [changes, same]

theorem contents_store (key value : Bytes) :
    (datas.modify key (·.insert key value)).contents = Function.update datas.contents key (some value) :=
  contents_modify fun map other => FiniteMap.lookup_insert_eq key other value map

theorem contents_delete (key : Bytes) :
    (datas.modify key (·.erase key)).contents = Function.update datas.contents key none :=
  contents_modify fun map other => FiniteMap.lookup_erase_eq key other map

theorem contents_onShards_delete (datas : GlobalDatas) (arguments : List Argument) :
    (Call.onShards datas (.deleteValue arguments)).1.contents =
        Function.update datas.contents (soleKey arguments) none ∧
      (Call.onShards datas (.deleteValue arguments)).2 = datas.contents (soleKey arguments) := by
  simp only [Call.onShards]
  cases held : (datas.shard (soleKey arguments)).lookup (soleKey arguments) with
  | none => exact ⟨(Function.update_eq_self_iff.mpr held.symm).symm, held.symm⟩
  | some value => exact ⟨contents_delete _, held.symm⟩

/-- One call cannot be told from one on a single map exactly when it is harmless. -/
theorem onShards_eq_iff (call : Call) :
    ((call.onShards datas).1.contents, (call.onShards datas).2) = call.onMap datas.contents ↔
      call.Harmless datas.contents := by
  cases call with
  | storeValue arguments =>
    rcases arguments with _ | ⟨key, _ | ⟨value, _ | more⟩⟩ <;>
      simp [Call.onShards, Call.onMap, Call.Harmless, contents_store, eq_comm]
  | getValue arguments =>
    rcases arguments with _ | ⟨key, _ | more⟩ <;>
      simp [Call.onShards, Call.onMap, Call.Harmless, soleKey, GlobalDatas.contents]
  | deleteValue arguments =>
    obtain ⟨after, returned⟩ := contents_onShards_delete datas arguments
    rw [after, returned]
    rcases arguments with _ | ⟨key, _ | more⟩ <;>
      simp [Call.onMap, Call.Harmless, soleKey, eq_comm]

theorem run_take_succ {S : Type} (step : S → Call → S × Option Bytes) (start : S) {calls : List Call} {n : Nat}
    (inside : n < calls.length) :
    run step start (calls.take (n + 1)) = let before := run step start (calls.take n)
      ((step before.1 calls[n]).1, before.2 ++ [(step before.1 calls[n]).2]) := by
  rw [run, List.take_succ_eq_append_getElem inside, List.foldl_append]
  rfl

/-- **The shards are one map** to every sequence of calls whose malformed ones are harmless, and to no
other; no call leaves the array of shards. -/
theorem behavesAsMap_iff (calls : List Call) : (∀ key, row key < 0x100 ∧ col key < 0x100) ∧
      (BehavesAsMap calls ↔ ∀ n (inside : n < calls.length),
        calls[n].Harmless (run Call.onMap (fun _ => none) (calls.take n)).1) := by
  refine ⟨fun key => ⟨Nat.mod_lt _ (by decide), Nat.mod_lt _ (by decide)⟩, ?_, ?_⟩
  · intro behaves n inside
    have before := behaves n
    have after := behaves (n + 1)
    simp only [run_take_succ _ _ inside, ← before] at after ⊢
    rw [← onShards_eq_iff]
    simpa [Prod.ext_iff] using after
  · intro harmless n
    induction n with
    | zero => rfl
    | succ n ih =>
      by_cases inside : n < calls.length
      · have step := harmless n inside
        simp only [run_take_succ _ _ inside, ← ih] at step ⊢
        have same := onShards_eq_iff _ |>.mpr step
        rw [← same]
      · rw [List.take_of_length_le (by omega)] at ih ⊢
        exact ih

/-- **Refuting pole:** `store_value()` stores an empty value, which `get_value("")` then returns. -/
theorem storedNothing_not_behavesAsMap : ¬ ∀ calls, BehavesAsMap calls := by
  intro always
  have returned := congrArg Prod.snd (always [.storeValue [], .getValue [some []]] 2)
  revert returned
  decide

end H2LoadRunner.Lua.GlobalStore

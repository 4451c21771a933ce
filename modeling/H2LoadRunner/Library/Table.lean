/-
# Library.Table -- tables of which one entry changes

A list of rows, an entry addressed by row and column.  Changing an entry that does not
exist changes nothing.  A finite sum of which one summand changes.  A loop that writes one
value of a function in each turn: the last write to a place stays (`foldl_update_last`).
-/
import Mathlib

namespace H2LoadRunner.Library

set_option autoImplicit false

theorem sum_of_change {ι : Type*} [DecidableEq ι] {s : Finset ι} {f g : ι → Nat} {c : ι}
    (member : c ∈ s) (others : ∀ d ∈ s, d ≠ c → g d = f d) : ∑ d ∈ s, g d + f c = ∑ d ∈ s, f d + g c := by
  have rest : ∑ d ∈ s.erase c, g d = ∑ d ∈ s.erase c, f d :=
    Finset.sum_congr rfl fun d inside =>
      others d (Finset.mem_of_mem_erase inside) (Finset.ne_of_mem_erase inside)
  have before := Finset.add_sum_erase s f member
  have after := Finset.add_sum_erase s g member
  omega

/-! ## Writing one value after another -/

section Update

variable {ι α β : Type*} [DecidableEq α] (place : ι → α) (value : ι → β)

theorem foldl_update_of_ne {items : List ι} {target : α} (elsewhere : ∀ item ∈ items, place item ≠ target)
    (f : α → β) :
    items.foldl (fun f item => Function.update f (place item) (value item)) f target = f target := by
  induction items generalizing f with
  | nil => rfl
  | cons item items ih =>
    rw [List.foldl_cons, ih fun later listed => elsewhere later (List.mem_cons_of_mem _ listed),
      Function.update_of_ne (elsewhere item List.mem_cons_self).symm]

theorem foldl_update_last (before : List ι) {item : ι} {after : List ι}
    (last : ∀ other ∈ after, place other ≠ place item) (f : α → β) :
    (before ++ item :: after).foldl (fun f item => Function.update f (place item) (value item)) f
      (place item) = value item := by
  rw [List.foldl_append, List.foldl_cons, foldl_update_of_ne place value last, Function.update_self]

theorem exists_last {items : List ι} {item : ι} (listed : item ∈ items) :
    ∃ before last after, items = before ++ last :: after ∧ place last = place item ∧
      ∀ other ∈ after, place other ≠ place last := by
  induction items generalizing item with
  | nil => cases listed
  | cons first items ih =>
    by_cases later : ∃ other ∈ items, place other = place item
    · obtain ⟨other, member, same⟩ := later
      obtain ⟨before, last, after, rfl, named, others⟩ := ih member
      exact ⟨first :: before, last, after, rfl, named.trans same, others⟩
    · rcases List.mem_cons.mp listed with rfl | rest
      · exact ⟨[], item, items, rfl, rfl, fun other member same => later ⟨other, member, same⟩⟩
      · exact absurd ⟨item, rest, rfl⟩ later

end Update

/-! ## Tables -/

namespace Table

variable {α β : Type*}

def modify (row column : Nat) (change : α → α) (table : List (List α)) : List (List α) :=
  table.modify row fun entries => entries.modify column change

def sum (f : α → Nat) (table : List (List α)) : Nat :=
  (table.map fun entries => (entries.map f).sum).sum

def Covers (table : List (List α)) (row column : Nat) : Prop :=
  ∃ entries, table[row]? = some entries ∧ column < entries.length

theorem modify_same (row column : Nat) (table : List (List α)) :
    modify row column (fun a => a) table = table := by
  have entry (entries : List α) : entries.modify column (fun a => a) = entries :=
    List.modify_id column entries
  unfold modify
  simp only [entry]
  exact List.modify_id row table

theorem map_modify_of_commutes (f : α → β) (change : α → α) (onImage : β → β)
    (commutes : ∀ a, f (change a) = onImage (f a)) (i : Nat) (entries : List α) :
    (entries.modify i change).map f = (entries.map f).modify i onImage := by
  refine List.ext_getElem? fun j => ?_
  rw [List.getElem?_map, List.getElem?_modify, List.getElem?_modify, List.getElem?_map]
  cases entries[j]? with
  | none => rfl
  | some a =>
    simp only [Option.map_eq_map, Option.map_some]
    split
    · rw [commutes]
    · rfl

theorem map_modify (f : α → β) (change : α → α) (onImage : β → β)
    (commutes : ∀ a, f (change a) = onImage (f a)) (row column : Nat) (table : List (List α)) :
    (modify row column change table).map (List.map f) =
      modify row column onImage (table.map (List.map f)) :=
  map_modify_of_commutes (List.map f) _ _
    (fun entries => map_modify_of_commutes f change onImage commutes column entries) row table

theorem map_length_modify (row column : Nat) (change : α → α) (table : List (List α)) :
    (modify row column change table).map List.length = table.map List.length := by
  have same := map_modify_of_commutes List.length (fun entries : List α => entries.modify column change)
    (fun length => length) (fun entries => List.length_modify ..) row table
  exact same.trans (List.modify_id row _)

theorem sum_map_modify (f : α → Nat) (change : α → α) (gain : Nat)
    (grows : ∀ a, f (change a) = f a + gain) {i : Nat} {entries : List α} (inside : i < entries.length) :
    ((entries.modify i change).map f).sum = (entries.map f).sum + gain := by
  induction entries generalizing i with
  | nil => cases inside
  | cons a entries ih =>
    cases i with
    | zero =>
      simp only [List.modify_zero_cons, List.map_cons, List.sum_cons, grows]
      omega
    | succ i =>
      have rest := ih (Nat.lt_of_succ_lt_succ inside)
      simp only [List.modify_succ_cons, List.map_cons, List.sum_cons, rest]
      omega

theorem sum_modify (f : α → Nat) (change : α → α) (gain : Nat)
    (grows : ∀ a, f (change a) = f a + gain) {row column : Nat} {table : List (List α)}
    (covered : Covers table row column) : sum f (modify row column change table) = sum f table + gain := by
  obtain ⟨entries, found, inside⟩ := covered
  unfold sum modify
  induction table generalizing row with
  | nil => simp at found
  | cons first rest ih =>
    cases row with
    | zero =>
      obtain rfl : first = entries := by simpa using found
      simp only [List.modify_zero_cons, List.map_cons, List.sum_cons,
        sum_map_modify f change gain grows inside]
      omega
    | succ row =>
      have later := ih (by simpa using found)
      simp only [List.modify_succ_cons, List.map_cons, List.sum_cons, later]
      omega

end Table

end H2LoadRunner.Library

/-
# Library.FiniteMap -- finite maps with sums over their entries

Finite maps are Mathlib's association lists with distinct keys.  This module adds what a bookkeeping
argument needs and that library does not have: changing the value under a key (`adjust`), and sums
over the entries with their behaviour under every operation (`sum_insert`, `sum_erase`,
`sum_adjust`).
-/
import Mathlib

namespace H2LoadRunner.Library

set_option autoImplicit false

universe u v

abbrev FiniteMap (κ : Type u) (α : Type v) : Type (max u v) := AList fun _ : κ => α

namespace FiniteMap

variable {κ : Type u} {α : Type v} [DecidableEq κ]

def adjust (key : κ) (change : α → α) (map : FiniteMap κ α) : FiniteMap κ α :=
  match map.lookup key with
  | some value => map.insert key (change value)
  | none => map

def emplace (key : κ) (value : α) (map : FiniteMap κ α) : FiniteMap κ α :=
  match map.lookup key with
  | some _ => map
  | none => map.insert key value

def mapValues (change : α → α) (map : FiniteMap κ α) : FiniteMap κ α where
  entries := map.entries.map fun entry => ⟨entry.1, change entry.2⟩
  nodupKeys := by
    have keys : map.entries.keys.Nodup := map.nodupKeys
    show (List.keys _).Nodup
    simpa [List.keys, Function.comp_def] using keys

def sum (f : κ → α → Nat) (map : FiniteMap κ α) : Nat :=
  (map.entries.map fun entry => f entry.1 entry.2).sum

def size (map : FiniteMap κ α) : Nat := map.entries.length

/-! ## Lookups -/

theorem lookup_insert_eq (key other : κ) (value : α) (map : FiniteMap κ α) :
    (map.insert key value).lookup other = if other = key then some value else map.lookup other := by
  by_cases same : other = key
  · subst same
    simp
  · simp [same, AList.lookup_insert_ne same]

theorem lookup_erase_eq (key other : κ) (map : FiniteMap κ α) :
    (map.erase key).lookup other = if other = key then none else map.lookup other := by
  by_cases same : other = key
  · subst same
    simp
  · simp [same, AList.lookup_erase_ne same]

theorem lookup_adjust (key other : κ) (change : α → α) (map : FiniteMap κ α) :
    (adjust key change map).lookup other =
      if other = key then (map.lookup key).map change else map.lookup other := by
  unfold adjust
  split
  · rename_i value found
    rw [lookup_insert_eq, found]
    rfl
  · rename_i missing
    by_cases same : other = key
    · subst same
      simp [missing]
    · simp [same]

theorem lookup_adjust_map (key other : κ) (change : α → α) (map : FiniteMap κ α) :
    (adjust key change map).lookup other =
      (map.lookup other).map fun value => if other = key then change value else value := by
  rw [lookup_adjust]
  by_cases same : other = key
  · subst same
    simp
  · simp [same]

theorem mem_adjust (key other : κ) (change : α → α) (map : FiniteMap κ α) :
    other ∈ adjust key change map ↔ other ∈ map := by
  rw [← AList.lookup_isSome, ← AList.lookup_isSome, lookup_adjust_map, Option.isSome_map]

theorem exists_of_lookup_adjust {key other : κ} {change : α → α} {map : FiniteMap κ α} {value : α}
    (found : (adjust key change map).lookup other = some value) :
    ∃ before, map.lookup other = some before ∧ (value = before ∨ value = change before) := by
  rw [lookup_adjust_map, Option.map_eq_some_iff] at found
  obtain ⟨before, present, rfl⟩ := found
  refine ⟨before, present, ?_⟩
  split
  · exact .inr rfl
  · exact .inl rfl

theorem lookup_emplace (key other : κ) (value : α) (map : FiniteMap κ α) :
    (emplace key value map).lookup other =
      if other = key then some ((map.lookup key).getD value) else map.lookup other := by
  unfold emplace
  split
  · rename_i present found
    by_cases same : other = key
    · subst same
      simp [found]
    · simp [same]
  · rename_i missing
    rw [lookup_insert_eq, missing]
    rfl

theorem mem_emplace (key other : κ) (value : α) (map : FiniteMap κ α) :
    other ∈ emplace key value map ↔ other = key ∨ other ∈ map := by
  rw [← AList.lookup_isSome, ← AList.lookup_isSome, lookup_emplace]
  by_cases same : other = key <;> simp [same]

theorem lookup_foldl_adjust {ι : Type*} (keyOf : ι → κ) (change : α → α) (items : List ι)
    (map : FiniteMap κ α) (key : κ) :
    (items.foldl (fun map item => adjust (keyOf item) change map) map).lookup key =
      (map.lookup key).map (change^[items.countP fun item => keyOf item = key]) := by
  induction items generalizing map with
  | nil => simp
  | cons item items ih =>
    rw [List.foldl_cons, ih, lookup_adjust_map, Option.map_map]
    congr 1
    funext value
    by_cases same : keyOf item = key
    · simp [same]
    · simp [same, Ne.symm same]

theorem lookup_foldl_insert {items : List (κ × α)} (distinct : (items.map Prod.fst).Nodup) (key : κ)
    (value : α) (map : FiniteMap κ α) :
    (items.foldl (fun (map : FiniteMap κ α) item => map.insert item.1 item.2) map).lookup key =
        some value ↔
      (key, value) ∈ items ∨ (key ∉ items.map Prod.fst ∧ map.lookup key = some value) := by
  induction items generalizing map with
  | nil => simp
  | cons item items ih =>
    obtain ⟨other, held⟩ := item
    rw [List.map_cons, List.nodup_cons] at distinct
    rw [List.foldl_cons, ih distinct.2, lookup_insert_eq]
    by_cases same : key = other
    · subst same
      have absent : (key, value) ∉ items := fun listed =>
        distinct.1 (List.mem_map.mpr ⟨(key, value), listed, rfl⟩)
      rw [if_pos rfl, or_iff_right absent, and_iff_right distinct.1, Option.some.injEq, eq_comm]
      simp [absent]
    · rw [if_neg same]
      simp [same]

theorem dlookup_map (change : α → α) (key : κ) (entries : List (Sigma fun _ : κ => α)) :
    (entries.map fun entry => (⟨entry.1, change entry.2⟩ : Sigma fun _ : κ => α)).dlookup key =
      (entries.dlookup key).map change := by
  induction entries with
  | nil => rfl
  | cons entry rest ih =>
    obtain ⟨head, value⟩ := entry
    by_cases same : key = head
    · subst same
      simp
    · have here := List.dlookup_cons_ne (β := fun _ => α) rest ⟨head, value⟩ same
      have there := List.dlookup_cons_ne (β := fun _ => α)
        (rest.map fun entry => ⟨entry.1, change entry.2⟩) ⟨head, change value⟩ same
      rw [List.map_cons, there, here, ih]

theorem lookup_mapValues (change : α → α) (key : κ) (map : FiniteMap κ α) :
    (mapValues change map).lookup key = (map.lookup key).map change :=
  dlookup_map change key map.entries

/-! ## Sums -/

omit [DecidableEq κ] in
theorem sum_empty (f : κ → α → Nat) : sum f (∅ : FiniteMap κ α) = 0 := rfl

omit [DecidableEq κ] in
theorem size_eq_sum (map : FiniteMap κ α) : size map = sum (fun _ _ => 1) map := by
  simp [size, sum]

theorem sum_kerase (f : κ → α → Nat) (key : κ) (value : α) (entries : List (Sigma fun _ : κ => α))
    (found : entries.dlookup key = some value) :
    ((entries.kerase key).map fun entry => f entry.1 entry.2).sum + f key value =
      (entries.map fun entry => f entry.1 entry.2).sum := by
  induction entries with
  | nil => simp at found
  | cons entry rest ih =>
    obtain ⟨head, headValue⟩ := entry
    by_cases same : key = head
    · subst same
      obtain rfl : headValue = value := by simpa using found
      simp [Nat.add_comm]
    · have skipped := List.dlookup_cons_ne (β := fun _ => α) rest ⟨head, headValue⟩ same
      rw [skipped] at found
      rw [List.kerase_cons_ne same]
      simp only [List.map_cons, List.sum_cons]
      have tail := ih found
      omega

theorem sum_erase (f : κ → α → Nat) {key : κ} {value : α} {map : FiniteMap κ α}
    (found : map.lookup key = some value) : sum f (map.erase key) + f key value = sum f map :=
  sum_kerase f key value map.entries found

theorem sum_erase_of_none (f : κ → α → Nat) {key : κ} {map : FiniteMap κ α}
    (missing : map.lookup key = none) : sum f (map.erase key) = sum f map := by
  have absent : key ∉ map.entries.keys := by
    rw [AList.lookup_eq_none] at missing
    exact missing
  simp [sum, AList.erase, List.kerase_of_notMem_keys absent]

theorem sum_insert (f : κ → α → Nat) (key : κ) (value : α) (map : FiniteMap κ α) :
    sum f (map.insert key value) = f key value + sum f (map.erase key) := rfl

theorem sum_insert_of_none (f : κ → α → Nat) {key : κ} (value : α) {map : FiniteMap κ α}
    (missing : map.lookup key = none) : sum f (map.insert key value) = f key value + sum f map := by
  rw [sum_insert, sum_erase_of_none f missing]

theorem sum_eq_zero (f : κ → α → Nat) {map : FiniteMap κ α}
    (nothing : ∀ key, ∀ value ∈ map.lookup key, f key value = 0) : sum f map = 0 := by
  refine List.sum_eq_zero fun n member => ?_
  obtain ⟨entry, inside, rfl⟩ := List.mem_map.mp member
  exact nothing entry.1 entry.2 (AList.mem_lookup_iff.mpr inside)

theorem sum_emplace_of_zero (f : κ → α → Nat) {key : κ} {value : α} (map : FiniteMap κ α)
    (nothing : f key value = 0) : sum f (emplace key value map) = sum f map := by
  unfold emplace
  split
  · rfl
  · rename_i missing
    rw [sum_insert_of_none f value missing, nothing, Nat.zero_add]

theorem sum_adjust (f : κ → α → Nat) {key : κ} {value : α} {map : FiniteMap κ α}
    (change : α → α) (found : map.lookup key = some value) :
    sum f (adjust key change map) + f key value = sum f map + f key (change value) := by
  have taken := sum_erase f found
  simp only [adjust, found, sum_insert]
  omega

theorem sum_adjust_of_same (f : κ → α → Nat) (key : κ) (change : α → α) (map : FiniteMap κ α)
    (same : ∀ value, f key (change value) = f key value) : sum f (adjust key change map) = sum f map := by
  cases found : map.lookup key with
  | none => simp [adjust, found]
  | some value =>
    have replaced := sum_adjust f change found
    rw [same] at replaced
    omega

omit [DecidableEq κ] in
theorem sum_mapValues_of_same (f : κ → α → Nat) (change : α → α) (map : FiniteMap κ α)
    (same : ∀ key value, f key (change value) = f key value) : sum f (mapValues change map) = sum f map := by
  simp [sum, mapValues, Function.comp_def, same]

/-! ## Values -/

def values (map : FiniteMap κ α) : List α := map.entries.map fun entry => entry.2

theorem mem_values {value : α} {map : FiniteMap κ α} :
    value ∈ values map ↔ ∃ key, map.lookup key = some value := by
  constructor
  · intro member
    obtain ⟨⟨key, found⟩, inside, rfl⟩ := List.mem_map.mp member
    exact ⟨key, AList.mem_lookup_iff.mpr inside⟩
  · rintro ⟨key, found⟩
    exact List.mem_map.mpr ⟨⟨key, value⟩, AList.mem_lookup_iff.mp found, rfl⟩

theorem values_erase_sublist (key : κ) (map : FiniteMap κ α) :
    (values (map.erase key)).Sublist (values map) := by
  show (List.map _ (map.entries.kerase key)).Sublist (List.map _ map.entries)
  exact (List.kerase_sublist key map.entries).map _

theorem values_insert (key : κ) (value : α) (map : FiniteMap κ α) :
    values (map.insert key value) = value :: values (map.erase key) := rfl

theorem notMem_values_erase {key : κ} {value : α} {map : FiniteMap κ α}
    (distinct : (values map).Nodup) (found : map.lookup key = some value) : value ∉ values (map.erase key) := by
  intro still
  obtain ⟨other, elsewhere⟩ := mem_values.mp still
  rw [lookup_erase_eq] at elsewhere
  split at elsewhere
  · cases elsewhere
  · rename_i different
    have same : (⟨other, value⟩ : Sigma fun _ : κ => α) = ⟨key, value⟩ :=
      List.inj_on_of_nodup_map distinct (AList.mem_lookup_iff.mp elsewhere)
        (AList.mem_lookup_iff.mp found) rfl
    cases same
    exact different rfl

omit [DecidableEq κ] in
theorem sum_eq_sum_values [DecidableEq α] (f : α → Nat) {map : FiniteMap κ α} (distinct : (values map).Nodup) :
    sum (fun _ value => f value) map = ∑ value ∈ (values map).toFinset, f value := by
  rw [List.sum_toFinset f distinct, values, List.map_map]
  rfl

end FiniteMap

end H2LoadRunner.Library

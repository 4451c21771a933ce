/-
# Library.OrderedSet -- ordered sets that identify what their comparator cannot tell apart

An ordered container with a user-supplied comparator keeps its elements in increasing order and
refuses an element when it already holds an equivalent one (neither compares below the other).

The comparator is any Boolean function presented by a key into a linear order
(`ByKey`).  Under that presentation:

* the elements stay strictly increasing in their keys (`sorted_ofList`);
* every key that was offered is held (`exists_key_mem_ofList`), by the first
  element offered with it, and when the key is injective on what was offered the
  container holds exactly that (`mem_ofList_of_injOn`);
* positions name keys (`position_eq_iff`);
* a search from the greatest element finds the greatest satisfying one
  (`find_reverse_greatest`).
-/
import Mathlib

namespace H2LoadRunner.Library.OrderedSet

set_option autoImplicit false

universe u v

variable {α : Type u} {κ : Type v} {held xs : List α} {x y : α}

/-! ## The container -/

/-- Insert by comparator; an equivalent element already present is kept and the
new one dropped. -/
def insert (lt : α → α → Bool) (x : α) : List α → List α
  | [] => [x]
  | y :: ys =>
    if lt x y then x :: y :: ys
    else if lt y x then y :: insert lt x ys
    else y :: ys

/-- The container after offering the elements of a list from left to right. -/
def ofList (lt : α → α → Bool) (xs : List α) : List α :=
  xs.foldl (fun held x => insert lt x held) []

def equivalent (lt : α → α → Bool) (x y : α) : Bool := !lt x y && !lt y x

/-- Distance from the first element to the one equivalent to `x`; the number of
elements when there is none. -/
def position (lt : α → α → Bool) (x : α) (held : List α) : Nat :=
  held.findIdx (equivalent lt x)

theorem map_insert {β : Type v} (lt : α → α → Bool) (below : β → β → Bool) (f : α → β)
    (same : ∀ x y, below (f x) (f y) = lt x y) (x : α) (held : List α) :
    (insert lt x held).map f = insert below (f x) (held.map f) := by
  induction held with
  | nil => rfl
  | cons y ys ih =>
    simp only [insert, List.map_cons, same]
    split
    · rfl
    · split
      · rw [List.map_cons, ih]
      · rfl

theorem find?_insert {lt : α → α → Bool} {p : α → Bool} (satisfied : p x = true)
    (missing : ∀ y ∈ held, p y = false) (comparable : ∀ y ∈ held, lt x y = true ∨ lt y x = true) :
    (insert lt x held).find? p = some x := by
  induction held with
  | nil => simp [insert, satisfied]
  | cons y ys ih =>
    have tail := ih (fun z member => missing z (by simp [member]))
      fun z member => comparable z (by simp [member])
    simp only [insert]
    split
    · simp [satisfied]
    · rename_i notBelow
      have above : lt y x = true := (comparable y (by simp)).resolve_left notBelow
      rw [if_pos above, List.find?_cons, missing y (by simp)]
      exact tail

theorem find?_insert_of_not {lt : α → α → Bool} {p : α → Bool} (refuted : p x = false)
    (held : List α) : (insert lt x held).find? p = held.find? p := by
  induction held with
  | nil => simp [insert, refuted]
  | cons y ys ih =>
    simp only [insert]
    split
    · rw [List.find?_cons, refuted]
    · split
      · rw [List.find?_cons, List.find?_cons, ih]
      · rfl

variable [LinearOrder κ]

def ByKey (lt : α → α → Bool) (key : α → κ) : Prop :=
  ∀ x y, lt x y = true ↔ key x < key y

def Sorted (key : α → κ) (held : List α) : Prop := held.Pairwise (key · < key ·)

variable {lt : α → α → Bool} {key : α → κ}

theorem equivalent_iff (byKey : ByKey lt key) (x y : α) : equivalent lt x y = true ↔ key x = key y := by
  have forward := byKey x y
  have backward := byKey y x
  rw [equivalent, Bool.and_eq_true, Bool.not_eq_true', Bool.not_eq_true',
    ← Bool.not_eq_true, ← Bool.not_eq_true, forward, backward]
  exact ⟨fun h => le_antisymm (not_lt.mp h.2) (not_lt.mp h.1), fun h => by simp [h]⟩

/-- What an ordered container asks of its comparator. -/
structure StrictWeakOrder (lt : α → α → Bool) : Prop where
  irrefl : ∀ x, lt x x = false
  trans : ∀ x y z, lt x y = true → lt y z = true → lt x z = true
  incomparable : ∀ x y z, equivalent lt x y = true → equivalent lt y z = true → equivalent lt x z = true

theorem ByKey.strictWeakOrder (byKey : ByKey lt key) : StrictWeakOrder lt where
  irrefl x := Bool.eq_false_iff.mpr fun below => lt_irrefl _ ((byKey x x).mp below)
  trans x y z first second := (byKey x z).mpr (((byKey x y).mp first).trans ((byKey y z).mp second))
  incomparable x y z first second := by
    rw [equivalent_iff byKey] at first second ⊢
    exact first.trans second

/-! ## Membership and order -/

theorem mem_insert (member : y ∈ insert lt x held) : y = x ∨ y ∈ held := by
  induction held with
  | nil => simpa [insert] using member
  | cons z zs ih =>
    simp only [insert] at member
    split at member
    · simpa using member
    · split at member
      · rcases List.mem_cons.mp member with rfl | tail
        · simp
        · rcases ih tail with rfl | old
          · simp
          · simp [old]
      · exact Or.inr member

theorem mem_insert_of_mem (member : y ∈ held) : y ∈ insert lt x held := by
  induction held with
  | nil => simp at member
  | cons z zs ih =>
    simp only [insert]
    split
    · exact List.mem_cons_of_mem _ member
    · split
      · rcases List.mem_cons.mp member with rfl | tail
        · simp
        · exact List.mem_cons_of_mem _ (ih tail)
      · exact member

theorem exists_key_mem_insert (byKey : ByKey lt key) (x : α) (held : List α) :
    ∃ y ∈ insert lt x held, key y = key x := by
  induction held with
  | nil => exact ⟨x, by simp [insert], rfl⟩
  | cons z zs ih =>
    simp only [insert]
    split
    · exact ⟨x, by simp, rfl⟩
    · rename_i notBelow
      split
      · obtain ⟨y, member, same⟩ := ih
        exact ⟨y, List.mem_cons_of_mem _ member, same⟩
      · rename_i notAbove
        have equiv : equivalent lt x z = true := by simp [equivalent, notBelow, notAbove]
        exact ⟨z, by simp, ((equivalent_iff byKey x z).mp equiv).symm⟩

theorem sorted_insert (byKey : ByKey lt key) (x : α) (sorted : Sorted key held) :
    Sorted key (insert lt x held) := by
  induction held with
  | nil => simp [insert, Sorted]
  | cons z zs ih =>
    obtain ⟨headLess, tailSorted⟩ := List.pairwise_cons.mp sorted
    simp only [insert]
    split
    · rename_i below
      refine List.pairwise_cons.mpr ⟨fun y member => ?_, sorted⟩
      have head : key x < key z := (byKey x z).mp below
      rcases List.mem_cons.mp member with rfl | tail
      · exact head
      · exact head.trans (headLess y tail)
    · split
      · rename_i above
        refine List.pairwise_cons.mpr ⟨fun y member => ?_, ih tailSorted⟩
        rcases mem_insert member with rfl | old
        · exact (byKey z y).mp above
        · exact headLess y old
      · exact sorted

theorem nodup_of_sorted (sorted : Sorted key held) : held.Nodup :=
  sorted.imp fun below same => absurd (congrArg key same) below.ne

/-! ## A container filled from a list -/

theorem foldl_insert_sorted (byKey : ByKey lt key) (xs : List α) (sorted : Sorted key held) :
    Sorted key (xs.foldl (fun held x => insert lt x held) held) := by
  induction xs generalizing held with
  | nil => exact sorted
  | cons x xs ih => exact ih (sorted_insert byKey x sorted)

theorem sorted_ofList (byKey : ByKey lt key) (xs : List α) : Sorted key (ofList lt xs) :=
  foldl_insert_sorted byKey xs List.Pairwise.nil

theorem mem_foldl_insert (member : y ∈ xs.foldl (fun held x => insert lt x held) held) :
    y ∈ xs ∨ y ∈ held := by
  induction xs generalizing held with
  | nil => exact Or.inr member
  | cons x xs ih =>
    rcases ih member with tail | inserted
    · exact Or.inl (List.mem_cons_of_mem _ tail)
    · rcases mem_insert inserted with rfl | old
      · simp
      · exact Or.inr old

theorem mem_of_mem_ofList (member : y ∈ ofList lt xs) : y ∈ xs := by
  simpa using mem_foldl_insert member

theorem mem_foldl_insert_of_held (xs : List α) (member : y ∈ held) :
    y ∈ xs.foldl (fun held x => insert lt x held) held := by
  induction xs generalizing held with
  | nil => exact member
  | cons x xs ih => exact ih (mem_insert_of_mem member)

theorem exists_key_mem_foldl_insert (byKey : ByKey lt key) (held : List α) (offered : x ∈ xs) :
    ∃ y ∈ xs.foldl (fun held x => insert lt x held) held, key y = key x := by
  induction xs generalizing held with
  | nil => simp at offered
  | cons z zs ih =>
    rcases List.mem_cons.mp offered with rfl | tail
    · obtain ⟨y, member, same⟩ := exists_key_mem_insert byKey x held
      exact ⟨y, mem_foldl_insert_of_held zs member, same⟩
    · exact ih (insert lt z held) tail

theorem exists_key_mem_ofList (byKey : ByKey lt key) (offered : x ∈ xs) :
    ∃ y ∈ ofList lt xs, key y = key x :=
  exists_key_mem_foldl_insert byKey [] offered

/-- Where the key tells the offered elements apart nothing is lost. -/
theorem mem_ofList_of_injOn (byKey : ByKey lt key) (injective : Set.InjOn key {x | x ∈ xs}) (x : α) :
    x ∈ ofList lt xs ↔ x ∈ xs := by
  refine ⟨mem_of_mem_ofList, fun offered => ?_⟩
  obtain ⟨y, member, same⟩ := exists_key_mem_ofList byKey offered
  have equal : y = x := injective (mem_of_mem_ofList member) offered same
  exact equal ▸ member

theorem length_ofList_of_injOn [DecidableEq α] (byKey : ByKey lt key)
    (injective : Set.InjOn key {x | x ∈ xs}) : (ofList lt xs).length = xs.dedup.length := by
  have perm : (ofList lt xs).Perm xs.dedup := by
    refine (List.perm_ext_iff_of_nodup (nodup_of_sorted (sorted_ofList byKey xs))
      (List.nodup_dedup xs)).mpr fun x => ?_
    rw [mem_ofList_of_injOn byKey injective, List.mem_dedup]
  exact perm.length_eq

theorem insert_greatest (byKey : ByKey lt key) (x : α) (greatest : ∀ y ∈ held, key y < key x) :
    insert lt x held = held ++ [x] := by
  induction held with
  | nil => rfl
  | cons z zs ih =>
    have above : key z < key x := greatest z (by simp)
    have notBelow : lt x z = false := by
      rw [← Bool.not_eq_true, byKey x z]
      exact above.not_gt
    have tail : ∀ y ∈ zs, key y < key x := fun y member => greatest y (by simp [member])
    rw [insert, notBelow, (byKey z x).mpr above, ih tail]
    rfl

theorem foldl_insert_of_sorted (byKey : ByKey lt key) (xs held : List α)
    (sorted : Sorted key (held ++ xs)) : xs.foldl (fun held x => insert lt x held) held = held ++ xs := by
  induction xs generalizing held with
  | nil => simp
  | cons x xs ih =>
    have greatest : ∀ y ∈ held, key y < key x := fun y member =>
      (List.pairwise_append.mp sorted).2.2 y member x (by simp)
    rw [List.foldl_cons, insert_greatest byKey x greatest, ih _ (by simpa using sorted)]
    simp

theorem ofList_of_sorted (byKey : ByKey lt key) (sorted : Sorted key xs) : ofList lt xs = xs :=
  foldl_insert_of_sorted byKey xs [] sorted

/-! ## Positions -/

/-- Positions name keys: two elements whose keys are held sit at one position
exactly when their keys agree. -/
theorem position_eq_iff (byKey : ByKey lt key) (left : ∃ z ∈ held, key z = key x) :
    position lt x held = position lt y held ↔ key x = key y := by
  constructor
  · intro same
    have bound : position lt x held < held.length := by
      obtain ⟨z, member, equal⟩ := left
      exact List.findIdx_lt_length_of_exists ⟨z, member, (equivalent_iff byKey x z).mpr equal.symm⟩
    have bound' : position lt y held < held.length := same ▸ bound
    have foundX : equivalent lt x held[position lt x held] = true := List.findIdx_getElem
    have foundY : equivalent lt y held[position lt y held] = true := List.findIdx_getElem
    rw [equivalent_iff byKey] at foundX foundY
    simp only [← same] at foundY
    exact foundX.trans foundY.symm
  · intro same
    have agree : equivalent lt x = equivalent lt y := by
      funext z
      rw [Bool.eq_iff_iff, equivalent_iff byKey, equivalent_iff byKey, same]
    rw [position, position, agree]

/-! ## Searching from the greatest element -/

/-- The first satisfying element from the greatest end has the greatest key
among the satisfying elements. -/
theorem find_reverse_greatest (sorted : Sorted key held) {p : α → Bool}
    (found : held.reverse.find? p = some x) (member : y ∈ held) (satisfied : p y = true) : key y ≤ key x := by
  obtain ⟨-, before, after, split, refused⟩ := List.find?_eq_some_iff_append.mp found
  have reversed : held.reverse.Pairwise (fun a b => key b < key a) :=
    List.pairwise_reverse.mpr sorted
  rw [← List.mem_reverse, split, List.mem_append, List.mem_cons] at member
  rw [split] at reversed
  rcases member with earlier | rfl | later
  · exact absurd satisfied (by simpa using refused y earlier)
  · exact le_rfl
  · have tail := (List.pairwise_append.mp reversed).2.1
    exact ((List.pairwise_cons.mp tail).1 y later).le

end H2LoadRunner.Library.OrderedSet

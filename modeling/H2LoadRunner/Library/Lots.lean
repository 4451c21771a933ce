/-
# Library.Lots -- lots in proportion

Shares that stand one after another divide the numbers below their sum: `Draws shares number i` says
that the number falls into share `i`.  Every number falls into one of them (`exists_draws`,
`Draws.unique`), and into each as many as it is large (`card_draws`).  A map that has the places under
the ends of the shares finds where a number falls (`Ends.upperBound_eq`).

To divide by several numbers without a rest one multiplies what divides no other of them.  `Covers`
is what a list has of that when the divisors of others are left out, one after another; what is kept
are the maximal elements (`Covers.prod_eq`), and their product is a multiple of everything seen
(`Covers.dvd_prod`).
-/
import Mathlib

namespace H2LoadRunner.Library.Lots

set_option autoImplicit false

/-! ## Shares -/

def start (shares : List Nat) (i : Nat) : Nat := (shares.take i).sum

theorem start_zero (shares : List Nat) : start shares 0 = 0 := rfl

variable {shares : List Nat} {i number : Nat}

theorem start_succ {share : Nat} (found : shares[i]? = some share) :
    start shares (i + 1) = start shares i + share := by
  obtain ⟨inside, rfl⟩ := List.getElem?_eq_some_iff.mp found
  rw [start, List.take_succ_eq_append_getElem inside, List.sum_append, List.sum_singleton]
  rfl

theorem start_mono (shares : List Nat) : Monotone (start shares) := by
  refine monotone_nat_of_le_succ fun i => ?_
  cases found : shares[i]? with
  | none =>
    have beyond := List.getElem?_eq_none_iff.mp found
    rw [start, start, List.take_of_length_le beyond, List.take_of_length_le (by omega)]
  | some share =>
    rw [start_succ found]
    omega

theorem start_length (shares : List Nat) : start shares shares.length = shares.sum := by
  rw [start, List.take_length]

theorem start_le_sum (shares : List Nat) (i : Nat) : start shares i ≤ shares.sum := by
  rw [← List.sum_take_add_sum_drop shares i]
  exact Nat.le_add_right _ _

structure Draws (shares : List Nat) (number i : Nat) : Prop where
  after : start shares i ≤ number
  before : number < start shares (i + 1)

instance (shares : List Nat) (number i : Nat) : Decidable (Draws shares number i) :=
  decidable_of_iff (start shares i ≤ number ∧ number < start shares (i + 1))
    ⟨fun both => ⟨both.1, both.2⟩, fun draws => ⟨draws.after, draws.before⟩⟩

theorem Draws.unique {j : Nat} (draws : Draws shares number i) (other : Draws shares number j) : i = j := by
  by_contra different
  rcases Nat.lt_or_gt_of_ne different with less | greater
  · exact absurd (draws.before.trans_le (start_mono shares less)) (Nat.not_lt.mpr other.after)
  · exact absurd (other.before.trans_le (start_mono shares greater)) (Nat.not_lt.mpr draws.after)

theorem exists_draws {bound : Nat} (below : number < start shares bound) :
    ∃ i < bound, Draws shares number i := by
  induction bound with
  | zero => exact absurd below (Nat.not_lt_zero _)
  | succ bound ih =>
    by_cases earlier : number < start shares bound
    · obtain ⟨i, inside, draws⟩ := ih earlier
      exact ⟨i, Nat.lt_succ_of_lt inside, draws⟩
    · exact ⟨bound, Nat.lt_succ_self _, Nat.le_of_not_lt earlier, below⟩

theorem Draws.share_pos (draws : Draws shares number i) : ∃ share, shares[i]? = some share ∧ 0 < share := by
  cases found : shares[i]? with
  | none =>
    have beyond := List.getElem?_eq_none_iff.mp found
    have after := draws.after
    have before := draws.before
    rw [start, List.take_of_length_le beyond] at after
    rw [start, List.take_of_length_le (by omega)] at before
    omega
  | some share =>
    have after := draws.after
    have before := draws.before
    rw [start_succ found] at before
    exact ⟨share, rfl, by omega⟩

theorem card_draws {share : Nat} (found : shares[i]? = some share) :
    ((Finset.range shares.sum).filter (Draws shares · i)).card = share := by
  have numbers : (Finset.range shares.sum).filter (Draws shares · i) =
      Finset.Ico (start shares i) (start shares (i + 1)) := by
    ext number
    rw [Finset.mem_filter, Finset.mem_range, Finset.mem_Ico]
    constructor
    · exact fun both => ⟨both.2.after, both.2.before⟩
    · exact fun both => ⟨both.2.trans_le (start_le_sum shares _), both.1, both.2⟩
  rw [numbers, Nat.card_Ico, start_succ found, Nat.add_sub_cancel_left]

/-! ## Maps of the ends

A map from where a share ends to its place finds the share of a number with `upper_bound`. -/

section EndMaps

variable {map : List (Nat × Nat)} {number : Nat}

def assign (key value : Nat) (map : List (Nat × Nat)) : List (Nat × Nat) :=
  (key, value) :: map.filter (·.1 ≠ key)

def least : List (Nat × Nat) → Option (Nat × Nat)
  | [] => none
  | entry :: rest =>
    match least rest with
    | none => some entry
    | some other => if entry.1 ≤ other.1 then some entry else some other

def upperBound (map : List (Nat × Nat)) (number : Nat) : Option Nat :=
  (least (map.filter (number < ·.1))).map Prod.snd

variable {entry : Nat × Nat} {shares : List Nat}

theorem mem_of_least (found : least map = some entry) : entry ∈ map := by
  induction map generalizing entry with
  | nil => cases found
  | cons head rest ih =>
    rw [least] at found
    cases behind : least rest with
    | none =>
      rw [behind] at found
      cases found
      exact List.mem_cons_self
    | some other =>
      rw [behind] at found
      simp only at found
      split at found <;> cases found
      · exact List.mem_cons_self
      · exact List.mem_cons_of_mem _ (ih behind)

theorem least_eq_none : least map = none ↔ map = [] := by
  cases map with
  | nil => exact iff_of_true rfl rfl
  | cons head rest =>
    refine iff_of_false ?_ (List.cons_ne_nil _ _)
    rw [least]
    cases least rest with
    | none => simp
    | some other => simp only; split <;> simp

theorem mem_of_upperBound {index : Nat} (found : upperBound map number = some index) :
    ∃ key, (key, index) ∈ map := by
  obtain ⟨entry, least, rfl⟩ := Option.map_eq_some_iff.mp found
  exact ⟨entry.1, (List.mem_filter.mp (mem_of_least least)).1⟩

theorem upperBound_ne_none (listed : entry ∈ map) (below : number < entry.1) : upperBound map number ≠ none := by
  intro behind
  have empty := least_eq_none.mp (Option.map_eq_none_iff.mp behind)
  have kept : entry ∈ map.filter (number < ·.1) := by simp [listed, below]
  rw [empty] at kept
  cases kept

theorem exists_lt_of_lt_foldl_max {bound : Nat}
    (below : number < map.foldl (fun most entry => max most entry.1) bound) :
    number < bound ∨ ∃ entry ∈ map, number < entry.1 := by
  induction map generalizing bound with
  | nil => exact .inl below
  | cons head rest ih =>
    rcases ih below with first | ⟨entry, listed, later⟩
    · rcases lt_max_iff.mp first with first | first
      · exact .inl first
      · exact .inr ⟨head, List.mem_cons_self, first⟩
    · exact .inr ⟨entry, List.mem_cons_of_mem _ listed, later⟩

/-- The keys of the map are the ends of the shares up to `index`. -/
structure Ends (shares : List Nat) (index : Nat) (map : List (Nat × Nat)) : Prop where
  mem_iff : ∀ key i, (key, i) ∈ map ↔
    i < index ∧ (∃ share, shares[i]? = some share ∧ 0 < share) ∧ key = start shares (i + 1)
  last : 0 < start shares index → ∃ i, (start shares index, i) ∈ map

theorem ends_nil (shares : List Nat) : Ends shares 0 [] where
  mem_iff key i := by simp
  last impossible := absurd impossible (Nat.lt_irrefl 0)

theorem Ends.skip {index : Nat} (ends : Ends shares index map) (empty : shares[index]? = some 0) :
    Ends shares (index + 1) map where
  mem_iff key i := by
    rw [ends.mem_iff]
    constructor
    · rintro ⟨inside, rest⟩
      exact ⟨Nat.lt_succ_of_lt inside, rest⟩
    · rintro ⟨inside, ⟨share, found, positive⟩, same⟩
      refine ⟨?_, ⟨share, found, positive⟩, same⟩
      refine Nat.lt_of_le_of_ne (Nat.le_of_lt_succ inside) ?_
      rintro rfl
      cases empty.symm.trans found
      exact absurd positive (Nat.lt_irrefl 0)
  last := by
    rw [start_succ empty]
    exact ends.last

theorem Ends.assign {index share : Nat} (ends : Ends shares index map)
    (found : shares[index]? = some share) (positive : 0 < share) :
    Ends shares (index + 1) (assign (start shares (index + 1)) index map) where
  mem_iff key i := by
    have kept : map.filter (·.1 ≠ start shares (index + 1)) = map := by
      refine List.filter_eq_self.mpr fun entry member => ?_
      obtain ⟨inside, -, same⟩ := (ends.mem_iff entry.1 entry.2).mp member
      have before : start shares (entry.2 + 1) ≤ start shares index :=
        start_mono shares inside
      have further := start_succ found
      refine decide_eq_true ?_
      rw [same]
      omega
    rw [Lots.assign, kept, List.mem_cons, ends.mem_iff, Prod.mk.injEq]
    constructor
    · rintro (⟨rfl, rfl⟩ | ⟨inside, rest⟩)
      · exact ⟨Nat.lt_succ_self _, ⟨share, found, positive⟩, rfl⟩
      · exact ⟨Nat.lt_succ_of_lt inside, rest⟩
    · rintro ⟨inside, rest, same⟩
      rcases Nat.lt_succ_iff_lt_or_eq.mp inside with earlier | rfl
      · exact .inr ⟨earlier, rest, same⟩
      · exact .inl ⟨same, rfl⟩
  last _ := ⟨index, List.mem_cons_self⟩

theorem le_foldl_max (bound : Nat) : bound ≤ map.foldl (fun most entry => max most entry.1) bound ∧
      ∀ entry ∈ map, entry.1 ≤ map.foldl (fun most entry => max most entry.1) bound := by
  induction map generalizing bound with
  | nil => exact ⟨Nat.le_refl _, by simp⟩
  | cons head rest ih =>
    obtain ⟨more, all⟩ := ih (max bound head.1)
    refine ⟨(Nat.le_max_left _ _).trans more, fun entry member => ?_⟩
    rcases List.mem_cons.mp member with rfl | later
    · exact (Nat.le_max_right _ _).trans more
    · exact all entry later

theorem Ends.foldl_max_eq (ends : Ends shares shares.length map) (weighted : 0 < shares.sum) :
    map.foldl (fun most entry => max most entry.1) 0 = shares.sum := by
  apply Nat.le_antisymm
  · by_contra more
    rcases exists_lt_of_lt_foldl_max (Nat.lt_of_not_le more) with impossible | ⟨entry, member, greater⟩
    · exact absurd impossible (Nat.not_lt_zero _)
    · obtain ⟨-, -, same⟩ := (ends.mem_iff entry.1 entry.2).mp member
      exact absurd (start_le_sum shares (entry.2 + 1)) (Nat.not_le.mpr (same ▸ greater))
  · rw [← start_length] at weighted ⊢
    obtain ⟨i, member⟩ := ends.last weighted
    exact (le_foldl_max 0).2 _ member

theorem least_le (found : least map = some entry) : ∀ other ∈ map, entry.1 ≤ other.1 := by
  induction map generalizing entry with
  | nil => cases found
  | cons head rest ih =>
    rw [least] at found
    intro other member
    cases behind : least rest with
    | none =>
      rw [behind] at found
      cases found
      rw [least_eq_none.mp behind] at member
      rw [List.mem_singleton.mp member]
    | some later =>
      rw [behind] at found
      dsimp only at found
      have least := ih behind
      split at found <;> cases found
      · rename_i first
        rcases List.mem_cons.mp member with rfl | listed
        · exact Nat.le_refl _
        · exact first.trans (least other listed)
      · rename_i second
        rcases List.mem_cons.mp member with rfl | listed
        · exact Nat.le_of_not_le second
        · exact least other listed

theorem Ends.upperBound_eq (ends : Ends shares shares.length map) {number i : Nat}
    (draws : Draws shares number i) : upperBound map number = some i := by
  obtain ⟨share, found, positive⟩ := draws.share_pos
  have inside := (List.getElem?_eq_some_iff.mp found).1
  have listed : (start shares (i + 1), i) ∈ map :=
    (ends.mem_iff _ i).mpr ⟨inside, ⟨share, found, positive⟩, rfl⟩
  have kept : (start shares (i + 1), i) ∈ map.filter (number < ·.1) :=
    List.mem_filter.mpr ⟨listed, decide_eq_true draws.before⟩
  cases chosen : least (map.filter (number < ·.1)) with
  | none =>
    rw [least_eq_none.mp chosen] at kept
    cases kept
  | some entry =>
    rw [upperBound, chosen]
    obtain ⟨member, behind⟩ := List.mem_filter.mp (mem_of_least chosen)
    obtain ⟨-, -, same⟩ := (ends.mem_iff entry.1 entry.2).mp member
    have before : number < start shares (entry.2 + 1) := same ▸ of_decide_eq_true behind
    have first : start shares (entry.2 + 1) ≤ start shares (i + 1) :=
      same ▸ least_le chosen _ kept
    -- The share of the least end begins at or before the number, or an earlier one would contain it.
    have after : start shares entry.2 ≤ number := by
      by_contra later
      obtain ⟨j, earlier, other⟩ := exists_draws (Nat.lt_of_not_le later)
      have end' := start_mono shares (Nat.succ_le_of_lt earlier)
      cases draws.unique other
      obtain ⟨own, at', large⟩ : ∃ own, shares[entry.2]? = some own ∧ 0 < own :=
        ((ends.mem_iff entry.1 entry.2).mp member).2.1
      have further := start_succ at'
      have order : start shares (i + 1) ≤ start shares entry.2 := end'
      omega
    exact congrArg some (Draws.unique ⟨after, before⟩ draws)

end EndMaps

/-! ## A common multiple -/

def maximal (s : Finset Nat) : Finset Nat := s.filter fun m => ∀ n ∈ s, m ∣ n → n = m

def multiple (s : Finset Nat) : Nat := (maximal s).prod id

theorem multiple_pos {s : Finset Nat} (positive : ∀ n ∈ s, 0 < n) : 0 < multiple s :=
  Finset.prod_pos fun n member => positive n (Finset.mem_filter.mp member).1

structure Covers (seen kept : List Nat) : Prop where
  nodup : kept.Nodup
  mem_seen : ∀ m ∈ kept, m ∈ seen
  covers : ∀ n ∈ seen, ∃ m ∈ kept, n ∣ m
  apart : ∀ m ∈ kept, ∀ n ∈ seen, m ∣ n → n = m

namespace Covers

variable {seen kept : List Nat}

theorem nil : Covers [] [] where
  nodup := List.nodup_nil
  mem_seen := by simp
  covers := by simp
  apart := by simp

theorem skip (covers : Covers seen kept) {val : Nat} (positive : 0 < val) (less : ∀ n ∈ seen, val < n)
    (divides : ∃ m ∈ kept, val ∣ m) : Covers (seen ++ [val]) kept where
  nodup := covers.nodup
  mem_seen m member := List.mem_append_left _ (covers.mem_seen m member)
  covers n member := by
    rcases List.mem_append.mp member with old | new
    · exact covers.covers n old
    · rw [List.mem_singleton.mp new]
      exact divides
  apart m member n listed dvd := by
    rcases List.mem_append.mp listed with old | new
    · exact covers.apart m member n old dvd
    · rw [List.mem_singleton.mp new] at dvd
      exact absurd (Nat.le_of_dvd positive dvd) (Nat.not_le.mpr (less m (covers.mem_seen m member)))

theorem keep (covers : Covers seen kept) {val : Nat} (positive : 0 < val) (less : ∀ n ∈ seen, val < n)
    (divides : ¬ ∃ m ∈ kept, val ∣ m) : Covers (seen ++ [val]) (val :: kept) where
  nodup := by
    refine List.nodup_cons.mpr ⟨fun member => ?_, covers.nodup⟩
    exact absurd (less val (covers.mem_seen val member)) (Nat.lt_irrefl _)
  mem_seen m member := by
    rcases List.mem_cons.mp member with rfl | old
    · exact List.mem_append_right _ (List.mem_singleton.mpr rfl)
    · exact List.mem_append_left _ (covers.mem_seen m old)
  covers n member := by
    rcases List.mem_append.mp member with old | new
    · obtain ⟨m, kept, dvd⟩ := covers.covers n old
      exact ⟨m, List.mem_cons_of_mem _ kept, dvd⟩
    · exact ⟨val, List.mem_cons_self, by rw [List.mem_singleton.mp new]⟩
  apart m member n listed dvd := by
    rcases List.mem_cons.mp member with rfl | old
    · rcases List.mem_append.mp listed with seen | new
      · obtain ⟨k, kept, further⟩ := covers.covers n seen
        exact absurd ⟨k, kept, dvd.trans further⟩ divides
      · exact List.mem_singleton.mp new
    · rcases List.mem_append.mp listed with seen | new
      · exact covers.apart m old n seen dvd
      · rw [List.mem_singleton.mp new] at dvd
        exact absurd (Nat.le_of_dvd positive dvd) (Nat.not_le.mpr (less m (covers.mem_seen m old)))

theorem toFinset_eq (covers : Covers seen kept) : kept.toFinset = maximal seen.toFinset := by
  ext m
  rw [maximal, Finset.mem_filter, List.mem_toFinset, List.mem_toFinset]
  constructor
  · exact fun member => ⟨covers.mem_seen m member, fun n listed dvd =>
      covers.apart m member n (List.mem_toFinset.mp listed) dvd⟩
  · rintro ⟨listed, alone⟩
    obtain ⟨n, member, dvd⟩ := covers.covers m listed
    rwa [← alone n (List.mem_toFinset.mpr (covers.mem_seen n member)) dvd]

theorem prod_eq (covers : Covers seen kept) : kept.prod = multiple seen.toFinset := by
  rw [multiple, ← covers.toFinset_eq, List.prod_toFinset id covers.nodup, List.map_id]

theorem dvd_prod (covers : Covers seen kept) {n : Nat} (listed : n ∈ seen) : n ∣ kept.prod := by
  obtain ⟨m, member, dvd⟩ := covers.covers n listed
  exact dvd.trans (List.dvd_prod member)

end Covers

end H2LoadRunner.Library.Lots

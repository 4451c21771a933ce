/-
# Library.Dealing -- a total dealt out in equal shares

A total is divided by the number of takers; every taker gets the quotient and, as long as
something of the remainder is left, one more.  The takers may come in several groups: dealing
to `m + n` of them is dealing to `m` and then to `n` (`hands_add`).

* `share_mono`: of two totals dealt to equally many, each taker's share of the larger one is at
  least its share of the smaller.
-/
import Mathlib

namespace H2LoadRunner.Library

set_option autoImplicit false

/-- What each taker gets, and how many still get one more. -/
structure Deal where
  each : Nat
  extra : Nat

namespace Deal

def of (total takers : Nat) : Deal := ⟨total / takers, total % takers⟩

def share (deal : Deal) : Nat := if 0 < deal.extra then deal.each + 1 else deal.each

def next (deal : Deal) : Deal := { deal with extra := deal.extra - 1 }

def hands (deal : Deal) : Nat → List Nat
  | 0 => []
  | n + 1 => deal.share :: deal.next.hands n

def after (deal : Deal) (n : Nat) : Deal := { deal with extra := deal.extra - n }

@[simp] theorem after_zero (deal : Deal) : deal.after 0 = deal := rfl

theorem next_after (deal : Deal) (n : Nat) : deal.next.after n = deal.after (n + 1) := by
  simp only [next, after, Nat.sub_sub, Nat.add_comm 1 n]

@[simp] theorem length_hands (deal : Deal) (n : Nat) : (deal.hands n).length = n := by
  induction n generalizing deal with
  | zero => rfl
  | succ n ih => simp [hands, ih]

theorem hands_add (deal : Deal) (m n : Nat) : deal.hands (m + n) = deal.hands m ++ (deal.after m).hands n := by
  induction m generalizing deal with
  | zero => simp [hands]
  | succ m ih =>
    rw [Nat.add_right_comm]
    simp only [hands, List.cons_append]
    rw [ih, next_after]

theorem each_le_share (deal : Deal) : deal.each ≤ deal.share := by
  unfold share
  split <;> omega

theorem each_le_of_mem_hands {deal : Deal} {n todo : Nat} (member : todo ∈ deal.hands n) :
    deal.each ≤ todo := by
  induction n generalizing deal with
  | zero => cases member
  | succ n ih =>
    rcases List.mem_cons.mp member with rfl | later
    · exact deal.each_le_share
    · have rest : deal.next.each ≤ todo := ih later
      exact rest

theorem sum_hands (deal : Deal) (n : Nat) : (deal.hands n).sum = n * deal.each + min n deal.extra := by
  induction n generalizing deal with
  | zero => simp [hands]
  | succ n ih =>
    simp only [hands, List.sum_cons, ih, Nat.succ_mul]
    unfold share next
    dsimp only
    split <;> omega

theorem sum_hands_le_sum_hands (deal : Deal) {m n : Nat} (le : m ≤ n) :
    (deal.hands m).sum ≤ (deal.hands n).sum := by
  obtain ⟨more, rfl⟩ := Nat.exists_eq_add_of_le le
  rw [hands_add, List.sum_append]
  exact Nat.le_add_right _ _

/-- **All takers together get the total.** -/
theorem sum_hands_of (total : Nat) {takers : Nat} (some : 0 < takers) :
    ((of total takers).hands takers).sum = total := by
  have fewer := Nat.mod_lt total some
  have split := Nat.div_add_mod total takers
  simp only [sum_hands, of]
  omega

def shareAt (deal : Deal) (i : Nat) : Nat := (deal.after i).share

theorem sum_hands_succ (deal : Deal) (n : Nat) :
    (deal.hands (n + 1)).sum = (deal.hands n).sum + deal.shareAt n := by
  rw [hands_add, List.sum_append]
  simp [hands, shareAt]

theorem each_le_shareAt (deal : Deal) (i : Nat) : deal.each ≤ deal.shareAt i :=
  (deal.after i).each_le_share

theorem shareAt_eq (deal : Deal) (i : Nat) : deal.shareAt i = deal.each + if deal.extra ≤ i then 0 else 1 := by
  show (if 0 < deal.extra - i then deal.each + 1 else deal.each) = _
  split_ifs <;> omega

theorem shareAt_le_each_succ (deal : Deal) (i : Nat) : deal.shareAt i ≤ deal.each + 1 := by
  rw [shareAt_eq]
  split <;> omega

theorem exists_hand (deal : Deal) {n unit : Nat} (dealt : unit < (deal.hands n).sum) :
    ∃ i < n, (deal.hands i).sum ≤ unit ∧ unit < (deal.hands (i + 1)).sum := by
  induction n with
  | zero => exact absurd dealt (Nat.not_lt_zero _)
  | succ n ih =>
    by_cases earlier : unit < (deal.hands n).sum
    · obtain ⟨i, less, inside⟩ := ih earlier
      exact ⟨i, Nat.lt_succ_of_lt less, inside⟩
    · exact ⟨n, Nat.lt_succ_self n, Nat.le_of_not_lt earlier, dealt⟩

theorem after_succ (deal : Deal) (i : Nat) : deal.after (i + 1) = (deal.after i).next := by
  simp only [next, after, Nat.sub_sub]

theorem hands_eq_map (deal : Deal) (n : Nat) : deal.hands n = (List.range n).map deal.shareAt := by
  induction n with
  | zero => rfl
  | succ n ih => rw [hands_add, ih, List.range_succ, List.map_append]; rfl

/-- **The larger total gives each taker at least as much.** -/
theorem share_mono {small large : Nat} (takers : Nat) (le : small ≤ large) (i : Nat) :
    (of small takers).shareAt i ≤ (of large takers).shareAt i := by
  have quotient : small / takers ≤ large / takers := Nat.div_le_div_right le
  have smallSplit := Nat.div_add_mod small takers
  have largeSplit := Nat.div_add_mod large takers
  show (if 0 < small % takers - i then small / takers + 1 else small / takers) ≤
    if 0 < large % takers - i then large / takers + 1 else large / takers
  rcases Nat.lt_or_eq_of_le quotient with less | same
  · split_ifs <;> omega
  · have remainder : small % takers ≤ large % takers := by
      rw [same] at smallSplit
      omega
    split_ifs <;> omega

theorem shareAt_le (total : Nat) {takers : Nat} (some : 0 < takers) (i : Nat) :
    (of total takers).shareAt i ≤ total := by
  have split := Nat.div_add_mod total takers
  have quotient := Nat.le_mul_of_pos_left (total / takers) some
  show (if 0 < total % takers - i then total / takers + 1 else total / takers) ≤ total
  split_ifs <;> omega

theorem one_le_each {total takers : Nat} (some : 0 < takers) (enough : takers ≤ total) :
    1 ≤ (of total takers).each :=
  Nat.div_pos enough some

end Deal

end H2LoadRunner.Library

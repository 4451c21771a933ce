/-
# Library.Buffers -- memory blocks and first-in-first-out queues

A block of memory is the list of its cells.  `overwrite` copies data into a block at an
offset and leaves every other cell, so that the beginning up to the end of the copy is
the old beginning followed by the data (`take_overwrite`).

A `Fifo` is what a buffered writer is for: items enter in order, and what has been taken, followed
by what waits, is everything that entered.
-/
import Mathlib

namespace H2LoadRunner.Library

set_option autoImplicit false

universe u

variable {α : Type u}

/-! ## Blocks -/

/-- Copy `data` into the block, from the cell at `offset` on. -/
def overwrite (block : List α) (offset : Nat) (data : List α) : List α :=
  block.take offset ++ data ++ block.drop (offset + data.length)

theorem length_overwrite {block data : List α} {offset : Nat} (fits : offset + data.length ≤ block.length) :
    (overwrite block offset data).length = block.length := by
  simp only [overwrite, List.length_append, List.length_take, List.length_drop]
  omega

theorem take_overwrite {block data : List α} {offset : Nat} (fits : offset + data.length ≤ block.length) :
    (overwrite block offset data).take (offset + data.length) = block.take offset ++ data := by
  refine List.take_left' ?_
  rw [List.length_append, List.length_take]
  omega

/-! ## Queues -/

structure Fifo (α : Type u) where
  /-- Every item that entered, in order. -/
  entered : List α
  /-- The items taken so far, in the order they were taken. -/
  taken : List α
  waiting : List α
  conserved : taken ++ waiting = entered

namespace Fifo

def empty : Fifo α := ⟨[], [], [], rfl⟩

def enter (q : Fifo α) (items : List α) : Fifo α where
  entered := q.entered ++ items
  taken := q.taken
  waiting := q.waiting ++ items
  conserved := by rw [← List.append_assoc, q.conserved]

def takeAll (q : Fifo α) : Fifo α where
  entered := q.entered
  taken := q.taken ++ q.waiting
  waiting := []
  conserved := by rw [List.append_nil, q.conserved]

end Fifo

end H2LoadRunner.Library

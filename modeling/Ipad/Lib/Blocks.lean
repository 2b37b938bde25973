import Mathlib.Data.List.Basic

namespace Lib.Blocks

variable {α : Type*}

def block (n : Nat) (xs : List α) (i : Nat) : List α :=
  (xs.drop (n * i)).take n

def blocks (n : Nat) (xs : List α) (k : Nat) : List (List α) :=
  (List.range k).map (block n xs)

theorem length_block (n : Nat) (xs : List α) (i : Nat) :
    (block n xs i).length = min n (xs.length - n * i) := by
  simp [block]

theorem length_block_full (n : Nat) (xs : List α) (i : Nat) (inside : n * (i + 1) ≤ xs.length) :
    (block n xs i).length = n := by
  rw [Nat.mul_add, Nat.mul_one] at inside
  rw [length_block]
  omega

theorem blocks_succ (n : Nat) (xs : List α) (k : Nat) :
    blocks n xs (k + 1) = blocks n xs k ++ [block n xs k] := by
  simp [blocks, List.range_succ]

theorem flatten_blocks (n : Nat) (xs : List α) (k : Nat) :
    (blocks n xs k).flatten = xs.take (n * k) := by
  induction k with
  | zero => simp [blocks]
  | succ k ih =>
      rw [blocks_succ, List.flatten_append, ih, List.flatten_singleton, block, Nat.mul_add, Nat.mul_one,
        List.take_add]

end Lib.Blocks

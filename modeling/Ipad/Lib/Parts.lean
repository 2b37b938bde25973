import Ipad.Lib.Pointers

/-!
# Programs over several heaps

A program on one part of the state is a program on the whole state. What a program keeps of a heap is said by
its blocks alone, wherever new blocks would go next.
-/

namespace Lib.Parts
open Lib.Pointers

section
variable {σ τ ε α γ : Type}

theorem run_bind {first : StateT σ (Except ε) α} {s s' : σ} {value : α} {next : α → StateT σ (Except ε) γ}
    {out : Except ε (γ × σ)} (done : first s = .ok (value, s')) (rest : next value s' = out) :
    (first >>= next) s = out := by
  show (first s >>= fun out => next out.1 out.2) = out
  rw [done]
  exact rest

theorem run_bind_error {first : StateT σ (Except ε) α} {s : σ} {reason : ε} (failed : first s = .error reason)
    (next : α → StateT σ (Except ε) γ) : (first >>= next) s = .error reason := by
  show (first s >>= fun out => next out.1 out.2) = .error reason
  rw [failed]
  rfl

def fault (reason : ε) : StateT σ (Except ε) α := fun _ => .error reason

def zoom (get : σ → τ) (put : τ → σ → σ) (prog : StateT τ (Except ε) α) : StateT σ (Except ε) α := fun s =>
  match prog (get s) with
  | .error reason => .error reason
  | .ok (value, t) => .ok (value, put t s)

theorem zoom_ok {get : σ → τ} {put : τ → σ → σ} {prog : StateT τ (Except ε) α} {s : σ} {value : α} {t : τ}
    (done : prog (get s) = .ok (value, t)) : zoom get put prog s = .ok (value, put t s) := by
  simp only [zoom, done]

end

/-! ## Releasing a block -/

def release {β ε : Type} (invalid : ε) (p : Pointer) : Prog β ε Unit := fun heap =>
  match heap.block p with
  | none => .error invalid
  | some _ => .ok ((), heap.erase p)

theorem release_eq {β ε : Type} {heap : Heap β} {p : Pointer} {value : β} (invalid : ε)
    (live : heap.block p = some value) : release invalid p heap = .ok ((), heap.erase p) := by
  simp only [release, live]

/-! ## One block more -/

/-- The blocks of `before` and under a pointer that is new to it `value`. -/
structure OneMore {β : Type} (before heap : Heap β) (p : Pointer) (value : β) : Prop where
  blocks : heap.block = Function.update before.block p (some value)
  new : before.block p = none

section
variable {β : Type} {before heap : Heap β} {p : Pointer} {value : β}

theorem oneMore_grown (same : heap.block = before.block) (value : β) :
    OneMore before (heap.grown value) heap.next value where
  blocks := by rw [← same]; rfl
  new := by rw [← same]; exact heap.fresh _ (Nat.le_refl _)

theorem OneMore.live (more : OneMore before heap p value) : heap.block p = some value := by
  rw [more.blocks, Function.update_self]

theorem OneMore.set (more : OneMore before heap p value) (other : β) : OneMore before (heap.set p other) p other where
  blocks := by
    show Function.update heap.block p ((heap.block p).map fun _ => other) = _
    rw [more.live, more.blocks, Function.update_idem]
    rfl
  new := more.new

theorem OneMore.erase (more : OneMore before heap p value) : (heap.erase p).block = before.block := by
  show Function.update heap.block p none = before.block
  rw [more.blocks, Function.update_idem, ← more.new, Function.update_eq_self]

theorem OneMore.of_block (more : OneMore before heap p value) {heap' : Heap β} (same : heap'.block = heap.block) :
    OneMore before heap' p value :=
  ⟨same.trans more.blocks, more.new⟩

/-- A block more than a heap that has the blocks of `before` is one more than `before` has. -/
theorem OneMore.congr {mid : Heap β} (more : OneMore mid heap p value) (same : mid.block = before.block) :
    OneMore before heap p value := by
  obtain ⟨blocks, new⟩ := more
  rw [same] at blocks new
  exact ⟨blocks, new⟩

end

end Lib.Parts

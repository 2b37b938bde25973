import Mathlib.Algebra.Order.Group.Multiset

/-!
# Objects on a heap

Which objects a program holds, reads and releases. An object is released at most once: its number
never comes back. A program that ends with the objects it started with has released each object it
allocated exactly once.
-/

namespace Lib.Objects

structure Heap where
  next : Nat
  live : Multiset Nat
  nodup : live.Nodup
  fresh : ∀ object ∈ live, object < next

def Heap.empty : Heap where
  next := 0
  live := 0
  nodup := Multiset.nodup_zero
  fresh _ member := absurd member (Multiset.notMem_zero _)

def Heap.grown (heap : Heap) : Heap where
  next := heap.next + 1
  live := heap.next ::ₘ heap.live
  nodup := Multiset.nodup_cons.mpr ⟨fun member => Nat.lt_irrefl _ (heap.fresh _ member), heap.nodup⟩
  fresh object member := by
    rcases Multiset.mem_cons.mp member with rfl | old
    · exact Nat.lt_succ_self _
    · exact Nat.lt_succ_of_lt (heap.fresh object old)

def Heap.shrunk (heap : Heap) (object : Nat) : Heap where
  next := heap.next
  live := heap.live.erase object
  nodup := heap.nodup.erase object
  fresh other member := heap.fresh other (Multiset.mem_of_mem_erase member)

/-- Why a program does not return: it reads a local that was not assigned, it reads or releases an object
that is not there, or it stops for a reason of its own. -/
inductive Stop (ε : Type) where
  | unassigned
  | dangling
  | program (reason : ε)
  deriving DecidableEq, Repr

abbrev Mem (ε α : Type) := StateT Heap (Except (Stop ε)) α

section
variable {ε α β : Type}

def stop (reason : ε) : Mem ε α := fun _ => .error (.program reason)

def alloc : Mem ε Nat := fun heap => .ok (heap.next, heap.grown)

def free (object : Nat) : Mem ε Unit := fun heap =>
  if object ∈ heap.live then .ok ((), heap.shrunk object) else .error .dangling

def access (object : Nat) : Mem ε Unit := fun heap =>
  if object ∈ heap.live then .ok ((), heap) else .error .dangling

def lift : Except ε α → Mem ε α
  | .error reason => stop reason
  | .ok value => pure value

/-- The value of a local. -/
def assigned (local' : Option α) : Mem ε α := fun heap =>
  match local' with
  | none => .error .unassigned
  | some value => .ok (value, heap)

/-- Releasing no object does nothing. -/
def freeOpt : Option Nat → Mem ε Unit
  | none => pure ()
  | some object => free object

def freeEach : List Nat → Mem ε Unit
  | [] => pure ()
  | object :: objects => do
      free object
      freeEach objects

def accessEach : List Nat → Mem ε Unit
  | [] => pure ()
  | object :: objects => do
      access object
      accessEach objects

def allocEach : Nat → Mem ε (List Nat)
  | 0 => pure []
  | count + 1 => do
      let object ← alloc
      let objects ← allocEach count
      return object :: objects

/-- A pointer and what it points to. -/
structure Ref (α : Type) where
  object : Nat
  value : α

def Ref.new (value : α) : Mem ε (Ref α) := do
  let object ← alloc
  return { object, value }

theorem coe_cons_add (object : Nat) (objects : List Nat) (rest : Multiset Nat) :
    ((object :: objects : List Nat) : Multiset Nat) + rest = object ::ₘ ((objects : Multiset Nat) + rest) := by
  rw [← Multiset.cons_coe, Multiset.cons_add]

theorem held_left {heap : Heap} {objects : List Nat} {rest : Multiset Nat}
    (held : heap.live = (objects : Multiset Nat) + rest) {object : Nat} (member : object ∈ objects) :
    object ∈ heap.live := by
  rw [held]
  exact Multiset.mem_add.mpr (.inl (Multiset.mem_coe.mpr member))

theorem held_right {heap : Heap} {first rest : Multiset Nat} (held : heap.live = first + rest) {object : Nat}
    (member : object ∈ rest) : object ∈ heap.live := by
  rw [held]
  exact Multiset.mem_add.mpr (.inr member)

/-! ## Safety -/

def Ended (post : α → Heap → Prop) (stopped : ε → Prop) : Except (Stop ε) (α × Heap) → Prop
  | .ok (value, heap) => post value heap
  | .error (.program reason) => stopped reason
  | .error _ => False

/-- The program reads and releases live objects and assigned locals only. It returns with `post`, or it stops
for a reason of its own with `stopped`. -/
def Safe (program : Mem ε α) (heap : Heap) (post : α → Heap → Prop) (stopped : ε → Prop) : Prop :=
  Ended post stopped (program heap)

variable {program : Mem ε α} {heap : Heap} {post : α → Heap → Prop} {stopped : ε → Prop}

theorem safe_pure (value : α) : Safe (pure value : Mem ε α) heap post stopped ↔ post value heap := Iff.rfl

theorem safe_bind (next : α → Mem ε β) {post : β → Heap → Prop} :
    Safe (program >>= next) heap post stopped ↔
      Safe program heap (fun value heap => Safe (next value) heap post stopped) stopped := by
  show Ended post stopped (program heap >>= fun out => next out.1 out.2) ↔ Ended _ stopped (program heap)
  cases program heap with
  | error reason => cases reason <;> rfl
  | ok out => rfl

theorem Safe.mono (safe : Safe program heap post stopped) {post' : α → Heap → Prop} {stopped' : ε → Prop}
    (returns : ∀ value heap, post value heap → post' value heap)
    (stops : ∀ reason, stopped reason → stopped' reason) :
    Safe program heap post' stopped' := by
  unfold Safe at safe ⊢
  generalize program heap = outcome at safe
  rcases outcome with (_ | _ | reason) | ⟨value, heap⟩
  · exact safe
  · exact safe
  · exact stops reason safe
  · exact returns value heap safe

/-- A program that is safe on its way to `post` has no other way. -/
theorem Safe.meet (passes : Safe program heap post fun _ => False) {post' : α → Heap → Prop}
    (safe : Safe program heap post' stopped) : ∃ value heap', post value heap' ∧ post' value heap' := by
  unfold Safe at passes safe
  generalize program heap = outcome at passes safe
  rcases outcome with (_ | _ | reason) | ⟨value, heap'⟩
  · exact passes.elim
  · exact passes.elim
  · exact passes.elim
  · exact ⟨value, heap', passes, safe⟩

/-- A program that has no reason to stop returns. -/
theorem Safe.returns (safe : Safe program heap post fun _ => False) :
    ∃ value heap', program heap = .ok (value, heap') ∧ post value heap' := by
  unfold Safe at safe
  generalize program heap = outcome at safe
  rcases outcome with (_ | _ | reason) | ⟨value, heap'⟩
  · exact safe.elim
  · exact safe.elim
  · exact safe.elim
  · exact ⟨value, heap', rfl, safe⟩

theorem safe_lift {result : Except ε α} {value : α} (returned : result = .ok value) (next : post value heap) :
    Safe (lift result) heap post stopped := by
  rw [returned]
  exact next

theorem safe_assigned (value : α) :
    Safe (assigned (some value) : Mem ε α) heap post stopped ↔ post value heap := Iff.rfl

theorem not_safe_unassigned : ¬ Safe (assigned none : Mem ε α) heap post stopped := id

theorem safe_alloc {post : Nat → Heap → Prop}
    (next : ∀ object heap', heap'.live = object ::ₘ heap.live → post object heap') :
    Safe (alloc : Mem ε Nat) heap post stopped := next _ _ rfl

theorem safe_free {object : Nat} {rest : Multiset Nat} {post : Unit → Heap → Prop}
    (held : heap.live = object ::ₘ rest) (next : ∀ heap', heap'.live = rest → post () heap') :
    Safe (free object : Mem ε Unit) heap post stopped := by
  have member : object ∈ heap.live := held ▸ Multiset.mem_cons_self object rest
  unfold Safe free
  rw [if_pos member]
  apply next
  show heap.live.erase object = rest
  rw [held, Multiset.erase_cons_head]

theorem safe_access {object : Nat} {post : Unit → Heap → Prop} (member : object ∈ heap.live)
    (next : post () heap) : Safe (access object : Mem ε Unit) heap post stopped := by
  unfold Safe access
  rw [if_pos member]
  exact next

theorem safe_freeOpt {object : Option Nat} {rest : Multiset Nat} {post : Unit → Heap → Prop}
    (held : heap.live = (object.toList : Multiset Nat) + rest) (next : ∀ heap', heap'.live = rest → post () heap') :
    Safe (freeOpt object : Mem ε Unit) heap post stopped := by
  cases object with
  | none => exact next heap (held.trans (Multiset.zero_add rest))
  | some object => exact safe_free held next

theorem safe_freeEach {objects : List Nat} {rest : Multiset Nat} {post : Unit → Heap → Prop}
    (held : heap.live = (objects : Multiset Nat) + rest) (next : ∀ heap', heap'.live = rest → post () heap') :
    Safe (freeEach objects : Mem ε Unit) heap post stopped := by
  induction objects generalizing heap with
  | nil => exact next heap (held.trans (Multiset.zero_add rest))
  | cons object objects ih =>
      rw [freeEach, safe_bind]
      rw [coe_cons_add] at held
      exact safe_free held fun heap' still => ih still

theorem safe_accessEach {objects : List Nat} {post : Unit → Heap → Prop}
    (members : ∀ object ∈ objects, object ∈ heap.live) (next : post () heap) :
    Safe (accessEach objects : Mem ε Unit) heap post stopped := by
  induction objects with
  | nil => exact next
  | cons object objects ih =>
      rw [List.forall_mem_cons] at members
      rw [accessEach, safe_bind]
      exact safe_access members.1 (ih members.2)

theorem safe_allocEach (count : Nat) {post : List Nat → Heap → Prop}
    (next : ∀ (objects : List Nat) heap', heap'.live = (objects : Multiset Nat) + heap.live → post objects heap') :
    Safe (allocEach count : Mem ε (List Nat)) heap post stopped := by
  induction count generalizing heap post with
  | zero => exact next [] heap (Multiset.zero_add _).symm
  | succ count ih =>
      rw [allocEach, safe_bind]
      refine safe_alloc fun object heap' grown => ?_
      rw [safe_bind]
      refine ih fun objects heap'' held => next _ _ ?_
      rw [held, grown, coe_cons_add, Multiset.add_cons]

theorem safe_new (value : α) {post : Ref α → Heap → Prop}
    (next : ∀ object heap', heap'.live = object ::ₘ heap.live → post { object, value } heap') :
    Safe (Ref.new value : Mem ε (Ref α)) heap post stopped := next _ _ rfl

end

end Lib.Objects

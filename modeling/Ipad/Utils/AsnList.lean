import Mathlib.Data.List.Forall2
import Ipad.Lib.Objects

/-!
# Lists of the ASN.1 library

`A_SEQUENCE_OF`: an array of pointers that grows with its entries.
-/

namespace Ipad.Utils
open Lib.Objects

structure AsnList (α : Type) where
  array : Option Nat
  size : Nat
  entries : List α
  fits : entries.length ≤ size
  allocated : array = none ↔ size = 0

def AsnList.empty {α : Type} : AsnList α where
  array := none
  size := 0
  entries := []
  fits := Nat.le_refl 0
  allocated := iff_of_true rfl rfl

section
variable {ε α β : Type}

/-- `realloc` releases the old array. -/
def asnSetAdd (set : AsnList β) (entry : β) : Mem ε (AsnList β) :=
  if full : set.entries.length = set.size then do
    freeOpt set.array
    let array ← alloc
    let size := if set.size = 0 then 4 else set.size * 2
    return {
      array := some array, size, entries := set.entries ++ [entry]
      fits := by
        show (set.entries ++ [entry]).length ≤ if set.size = 0 then 4 else set.size * 2
        rw [List.length_append, List.length_singleton, full]
        split <;> omega
      allocated := by
        show some array = none ↔ (if set.size = 0 then 4 else set.size * 2) = 0
        refine iff_of_false (Option.some_ne_none array) ?_
        split <;> omega }
  else do
    accessEach set.array.toList
    return {
      array := set.array, size := set.size, entries := set.entries ++ [entry]
      fits := by
        have fits := set.fits
        rw [List.length_append, List.length_singleton]
        omega
      allocated := set.allocated }

def AsnList.collect (make : α → Mem ε β) (set : AsnList β) : List α → Mem ε (AsnList β)
  | [] => pure set
  | value :: values => do
      let entry ← make value
      let set ← asnSetAdd set entry
      collect make set values

theorem safe_asnSetAdd {heap : Heap} {rest : Multiset Nat} (set : AsnList β) (entry : β)
    {post : AsnList β → Heap → Prop} {stopped : ε → Prop}
    (held : heap.live = (set.array.toList : Multiset Nat) + rest)
    (next : ∀ set' heap', set'.entries = set.entries ++ [entry] →
      heap'.live = (set'.array.toList : Multiset Nat) + rest → post set' heap') :
    Safe (asnSetAdd set entry : Mem ε (AsnList β)) heap post stopped := by
  unfold asnSetAdd
  split
  · rw [safe_bind]
    refine safe_freeOpt held fun heap' released => ?_
    rw [safe_bind]
    refine safe_alloc fun array heap'' grown => ?_
    exact next _ _ rfl (by rw [grown, released]; rfl)
  · rw [safe_bind]
    exact safe_accessEach (fun object member => held_left held member) (next _ _ rfl held)

/-- `borrowed` are objects that making an entry reads. -/
theorem safe_collect (make : α → Mem ε β) (good : α → β → Prop) (objects : β → List Nat) (borrowed : List Nat)
    {stopped : ε → Prop} (values : List α)
    (makes : ∀ value ∈ values, ∀ (heap : Heap) (post : β → Heap → Prop),
      (∀ object ∈ borrowed, object ∈ heap.live) →
      (∀ entry heap', good value entry → heap'.live = (objects entry : Multiset Nat) + heap.live →
        post entry heap') → Safe (make value) heap post stopped)
    (set : AsnList β) {heap : Heap} {rest : Multiset Nat} {post : AsnList β → Heap → Prop}
    (held : heap.live = (set.array.toList : Multiset Nat) + rest) (lent : ∀ object ∈ borrowed, object ∈ rest)
    (next : ∀ (set' : AsnList β) (entries : List β) (heap' : Heap), set'.entries = set.entries ++ entries →
      List.Forall₂ good values entries →
      heap'.live = (set'.array.toList : Multiset Nat) + ((entries.flatMap objects : List Nat) + rest) →
      post set' heap') :
    Safe (AsnList.collect make set values) heap post stopped := by
  induction values generalizing set heap rest with
  | nil => exact next set [] heap (List.append_nil _).symm .nil (by rw [held]; simp)
  | cons value values ih =>
      rw [List.forall_mem_cons] at makes
      rw [AsnList.collect, safe_bind]
      have readable : ∀ object ∈ borrowed, object ∈ heap.live :=
        fun object member => held_right held (lent object member)
      refine makes.1 heap _ readable fun entry heap' made held' => ?_
      rw [safe_bind]
      rw [held, add_left_comm] at held'
      have lent' : ∀ object ∈ borrowed, object ∈ (objects entry : Multiset Nat) + rest :=
        fun object member => Multiset.mem_add.mpr (.inr (lent object member))
      refine safe_asnSetAdd set entry held' fun set' heap'' added held'' => ?_
      refine ih makes.2 set' held'' lent' fun last entries heap''' collected each final => ?_
      refine next last (entry :: entries) heap''' ?_ (.cons made each) ?_
      · rw [collected, added, List.append_assoc, List.singleton_append]
      · rw [final, List.flatMap_cons, ← Multiset.coe_add, add_assoc, add_left_comm (objects entry : Multiset Nat)]

end

end Ipad.Utils

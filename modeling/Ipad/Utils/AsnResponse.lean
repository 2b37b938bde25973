import Ipad.Utils.AsnList

/-!
# Responses with a list

Several responses of the eUICC are a CHOICE of a list and an error code. Their lists are copied without what
the members of an entry point to.
-/

namespace Ipad.Utils
open Lib.Objects

/-- An entry, with the objects that its members point to. -/
structure AsnEntry (α : Type) where
  object : Nat
  members : List Nat
  value : α

/-- An alternative that is not known leaves the CHOICE without a selection. -/
inductive ListChoice (Entries : Type) where
  | list (entries : Entries)
  | error (code : Int)
  | nothing
  deriving DecidableEq

structure AsnResponse (α : Type) where
  object : Nat
  choice : ListChoice (AsnList (AsnEntry α))

section
variable {ε α : Type}

def AsnEntry.objects (entry : AsnEntry α) : List Nat := entry.object :: entry.members

def ListChoice.values : ListChoice (AsnList (AsnEntry α)) → ListChoice (List α)
  | .list set => .list (set.entries.map AsnEntry.value)
  | .error code => .error code
  | .nothing => .nothing

def ListChoice.objects : ListChoice (AsnList (AsnEntry α)) → List Nat
  | .list set => set.array.toList ++ set.entries.flatMap AsnEntry.objects
  | .error _ => []
  | .nothing => []

def AsnResponse.objects (res : AsnResponse α) : List Nat := res.object :: res.choice.objects

/-- The structures themselves, without what the members of the entries point to. -/
def ListChoice.shells : ListChoice (AsnList (AsnEntry α)) → List Nat
  | .list set => set.array.toList ++ set.entries.map AsnEntry.object
  | .error _ => []
  | .nothing => []

def AsnResponse.shells (res : AsnResponse α) : List Nat := res.object :: res.choice.shells

/-- `size` is the number of objects behind the members of a decoded entry. -/
def decodeAsnEntry (size : α → Nat) (value : α) : Mem ε (AsnEntry α) := do
  let object ← alloc
  let members ← allocEach (size value)
  return { object, members, value }

def decodeAsnResponse (size : α → Nat) (choice : ListChoice (List α)) : Mem ε (AsnResponse α) := do
  let object ← alloc
  match choice with
  | .list values =>
      let list ← AsnList.collect (decodeAsnEntry size) .empty values
      return { object, choice := .list list }
  | .error code => return { object, choice := .error code }
  | .nothing => return { object, choice := .nothing }

/-- The members of the copy point to the objects of the entry. -/
def copyEntry (entry : AsnEntry α) : Mem ε (AsnEntry α) := do
  let object ← alloc
  access entry.object
  return { entry with object }

/-- What the members of the copies point to is not released with them. -/
def freeCopies (set : AsnList (AsnEntry α)) : Mem ε Unit := do
  accessEach set.array.toList
  freeEach (set.entries.map AsnEntry.object)
  freeOpt set.array

variable {heap : Heap} {stopped : ε → Prop}

theorem safe_decodeAsnEntry (size : α → Nat) (value : α) {post : AsnEntry α → Heap → Prop}
    (next : ∀ (entry : AsnEntry α) heap', entry.value = value →
      heap'.live = (entry.objects : Multiset Nat) + heap.live → post entry heap') :
    Safe (decodeAsnEntry size value : Mem ε (AsnEntry α)) heap post stopped := by
  rw [decodeAsnEntry, safe_bind]
  refine safe_alloc fun object heap' held => ?_
  rw [safe_bind]
  refine safe_allocEach (size value) fun members heap'' held' => next _ heap'' rfl ?_
  rw [held', held, Multiset.add_cons, AsnEntry.objects, coe_cons_add]

theorem map_value_of_forall₂ {values : List α} {entries : List (AsnEntry α)}
    (each : List.Forall₂ (fun value entry => entry.value = value) values entries) :
    entries.map AsnEntry.value = values := by
  induction each with
  | nil => rfl
  | cons same each ih => rw [List.map_cons, same, ih]

theorem safe_decodeAsnResponse (size : α → Nat) (choice : ListChoice (List α)) {post : AsnResponse α → Heap → Prop}
    (next : ∀ (res : AsnResponse α) heap', res.choice.values = choice →
      heap'.live = (res.objects : Multiset Nat) + heap.live → post res heap') :
    Safe (decodeAsnResponse size choice : Mem ε (AsnResponse α)) heap post stopped := by
  rw [decodeAsnResponse, safe_bind]
  refine safe_alloc fun object heap' held => ?_
  cases choice with
  | list values =>
      simp only
      rw [safe_bind]
      refine safe_collect (decodeAsnEntry size) (fun value entry => entry.value = value) AsnEntry.objects [] values
        (fun value _ _ _ _ next => safe_decodeAsnEntry size value next) .empty (zero_add _).symm
        (fun _ none => absurd none List.not_mem_nil) fun list entries last collected each final => ?_
      have all : list.entries = entries := collected
      refine next _ last ?_ ?_
      · rw [ListChoice.values, all, map_value_of_forall₂ each]
      · rw [final, held, AsnResponse.objects, ListChoice.objects, all]
        simp only [← Multiset.cons_coe, ← Multiset.coe_add, ← Multiset.singleton_add]
        ac_rfl
  | error code => exact next _ heap' rfl held
  | nothing => exact next _ heap' rfl held

/-- What a copy has in common with its entry. -/
structure Copied (entry copy : AsnEntry α) : Prop where
  value : copy.value = entry.value
  members : copy.members = entry.members

theorem safe_copyEntry (entry : AsnEntry α) {post : AsnEntry α → Heap → Prop} (readable : entry.object ∈ heap.live)
    (next : ∀ copy heap', Copied entry copy → heap'.live = copy.object ::ₘ heap.live → post copy heap') :
    Safe (copyEntry entry : Mem ε (AsnEntry α)) heap post stopped := by
  rw [copyEntry, safe_bind]
  refine safe_alloc fun object heap' held => ?_
  rw [safe_bind]
  refine safe_access ?_ (next _ heap' ⟨rfl, rfl⟩ held)
  rw [held]
  exact Multiset.mem_cons_of_mem readable

/-! ## Copies of a list -/

theorem Copied.values {entries copies : List (AsnEntry α)} (each : List.Forall₂ Copied entries copies) :
    copies.map AsnEntry.value = entries.map AsnEntry.value := by
  induction each with
  | nil => rfl
  | cons copied each ih => rw [List.map_cons, List.map_cons, copied.value, ih]

/-- The copies lead to nothing but the objects of the entries. -/
theorem Copied.flatMap_members {entries copies : List (AsnEntry α)} (each : List.Forall₂ Copied entries copies)
    (object : Nat) (member : object ∈ copies.flatMap AsnEntry.members) :
    object ∈ entries.flatMap AsnEntry.objects := by
  induction each with
  | nil => exact member
  | cons copied each ih =>
      rw [List.flatMap_cons, List.mem_append] at member ⊢
      rcases member with first | later
      · exact .inl (List.mem_cons_of_mem _ (copied.members ▸ first))
      · exact .inr (ih later)

theorem safe_collect_copyEntry (entries : List (AsnEntry α)) {post : AsnList (AsnEntry α) → Heap → Prop}
    (readable : ∀ entry ∈ entries, entry.object ∈ heap.live)
    (next : ∀ (set : AsnList (AsnEntry α)) heap', List.Forall₂ Copied entries set.entries →
      heap'.live = ((ListChoice.list set).shells : Multiset Nat) + heap.live → post set heap') :
    Safe (AsnList.collect copyEntry .empty entries : Mem ε (AsnList (AsnEntry α))) heap post stopped := by
  refine safe_collect copyEntry Copied (fun copy => [copy.object]) (entries.map AsnEntry.object) entries
    (fun entry member heap' post borrowed next => ?_) .empty (zero_add _).symm (fun object member => ?_)
    fun set copies last collected each final => ?_
  · exact safe_copyEntry entry (borrowed _ (List.mem_map_of_mem member)) next
  · obtain ⟨entry, listed, rfl⟩ := List.mem_map.mp member
    exact readable entry listed
  · have all : set.entries = copies := collected
    refine next set last (all ▸ each) ?_
    rw [final, ListChoice.shells, all, ← Multiset.coe_add, List.map_eq_flatMap, add_assoc]

theorem safe_freeCopies (set : AsnList (AsnEntry α)) {rest : Multiset Nat} {post : Unit → Heap → Prop}
    (held : heap.live = ((ListChoice.list set).shells : Multiset Nat) + rest)
    (next : ∀ heap', heap'.live = rest → post () heap') :
    Safe (freeCopies set : Mem ε Unit) heap post stopped := by
  rw [ListChoice.shells, ← Multiset.coe_add, add_assoc] at held
  rw [freeCopies, safe_bind]
  refine safe_accessEach (fun object member => held_left held member) ?_
  · rw [add_left_comm] at held
    rw [safe_bind]
    exact safe_freeEach held fun heap' held' => safe_freeOpt held' next

end

end Ipad.Utils

import Ipad.BufHeap

/-!
# Sequences of buffer calls

What a program may do with the buffers of `utils.h`, and what it should find in them: each buffer holds a
list of bytes of its own.
-/

namespace Ipad.BufCalls
open Lib.Pointers Ipad.BufHeap

inductive Call where
  | alloc (size : Nat)
  | allocData (data : List UInt8)
  | allocAndCpy (data : List UInt8)
  | realloc (p : Pointer) (size : Nat)
  | dup (p : Pointer)
  | copy (p : Pointer)
  | cpy (p : Pointer) (bytes : List UInt8)

abbrev Shelf := Heap Content

namespace Call
section
variable (allocator : Allocator)

/-- The call on the memory. It answers with the buffer that it made or changed. -/
def exec : Call → BufProg Pointer
  | alloc size => ipaBufAlloc allocator size
  | allocData data => ipaBufAllocData allocator data
  | allocAndCpy data => ipaBufAllocAndCpy allocator data
  | realloc p size => ipaBufRealloc allocator p size
  | dup p => ipaBufDup allocator p
  | copy p => ipaBufCopy allocator p
  | cpy p bytes => do
      ipaBufCpy p bytes
      return p

/-- The call on the byte lists. It is not allowed for a pointer that has no buffer, nor is a `cpy` that does not
fit. -/
def meaning : Call → Prog Content Unit Pointer
  | alloc size => new fun p => { bytes := [], rest := allocator.area p size }
  | allocData data => new fun _ => .whole data
  | allocAndCpy data => new fun _ => .whole data
  | realloc p size => do
      let content ← read () p
      resize () (allocator.stays p size) p fun _ => content.resized size
  | dup p => do
      let content ← read () p
      new fun _ => content
  | copy p => do
      let content ← read () p
      new fun _ => .whole content.bytes
  | cpy p bytes => do
      let content ← read () p
      if content.bytes.length + bytes.length ≤ content.capacity then do
        write () p (content.append bytes)
        return p
      else fail ()

end

def size (shelf : Shelf) : Call → Nat
  | alloc size => size
  | allocData data => data.length
  | allocAndCpy data => data.length
  | realloc _ size => size
  | dup p => (shelf.block p).elim 0 Content.capacity
  | copy p => (shelf.block p).elim 0 fun content => content.bytes.length
  | cpy _ _ => 0

def Keeps (shelf : Shelf) : Call → Prop
  | realloc p size => ∀ content, shelf.block p = some content → content.bytes.length ≤ size
  | _ => True

structure Enough (call : Call) (shelf : Shelf) : Prop where
  fits : sizeofIpaBuf + call.size shelf < 2 ^ 64
  keeps : call.Keeps shelf

section
variable (allocator : Allocator) {shelf after : Shelf} {p : Pointer}

private theorem found {q : Pointer} {next : Content → Prog Content Unit Pointer}
    (done : (read () q >>= next) shelf = .ok (p, after)) :
    ∃ content, shelf.block q = some content ∧ (shelf.map Content.buf).block q = some content.buf ∧
      next content shelf = .ok (p, after) := by
  obtain ⟨content, mid, reads, onwards⟩ := bind_cases done
  obtain ⟨live, rfl⟩ := read_cases reads
  exact ⟨content, live, by rw [Heap.map_block, live, Option.map_some], onwards⟩

theorem exec_ok (call : Call) (allowed : call.meaning allocator shelf = .ok (p, after)) (enough : call.Enough shelf) :
    call.exec allocator (shelf.map Content.buf) = .ok (p, after.map Content.buf) := by
  obtain ⟨fits, keeps⟩ := enough
  cases call with
  | alloc size =>
      cases allowed
      rw [Heap.map_grown]
      exact ipaBufAlloc_ok allocator _ fits
  | allocData data =>
      cases allowed
      rw [Heap.map_grown, Content.whole_buf]
      exact newCopy_ok allocator _ fits rfl data.length
  | allocAndCpy data =>
      cases allowed
      rw [Heap.map_grown, Content.whole_buf]
      exact newCopy_ok allocator _ fits rfl data.length
  | realloc q size =>
      obtain ⟨content, live, held, done⟩ := found allowed
      rw [resize_eq () live] at done
      cases done
      rw [Heap.map_resized]
      exact ipaBufRealloc_ok allocator held content.buf_valid fits (content.realloc_eq (keeps content live))
  | dup q =>
      obtain ⟨content, live, held, done⟩ := found allowed
      cases done
      rw [size, live, Option.elim_some] at fits
      rw [exec, ipaBufDup_eq allocator held, Heap.map_grown, Content.buf_dataLen]
      exact newCopy_ok allocator _ fits content.buf_dataLen content.buf.len
  | copy q =>
      obtain ⟨content, live, held, done⟩ := found allowed
      cases done
      rw [size, live, Option.elim_some] at fits
      rw [exec, ipaBufCopy_eq allocator held content.buf_valid, Heap.map_grown, Content.buf_bytes, Content.whole_buf]
      exact newCopy_ok allocator _ fits rfl content.bytes.length
  | cpy q bytes =>
      obtain ⟨content, live, held, done⟩ := found allowed
      by_cases room : content.bytes.length + bytes.length ≤ content.capacity
      · rw [if_pos room, bind_ok (write_eq () live _)] at done
        cases done
        rw [exec, bind_ok (ipaBufCpy_ok held (content.cpy_eq (Nat.le_of_add_le_add_left room))), Heap.map_set]
        rfl
      · rw [if_neg room] at done
        cases done

theorem exec_error (call : Call) (allowed : call.meaning allocator shelf = .ok (p, after))
    (short : ¬ call.Enough shelf) : call.exec allocator (shelf.map Content.buf) = .error .outOfBounds := by
  have wraps (keeps : call.Keeps shelf) : ¬ sizeofIpaBuf + call.size shelf < 2 ^ 64 := fun fits =>
    short ⟨fits, keeps⟩
  cases call with
  | alloc size => exact ipaBufAlloc_error allocator _ (wraps trivial)
  | allocData data => exact newCopy_error allocator _ data data.length (wraps trivial)
  | allocAndCpy data => exact newCopy_error allocator _ data data.length (wraps trivial)
  | realloc q size =>
      obtain ⟨content, live, held, -⟩ := found allowed
      refine ipaBufRealloc_error allocator held content.buf_valid fun ⟨fits, room⟩ => short ⟨fits, ?_⟩
      intro other same
      rw [live] at same
      cases same
      exact room
  | dup q =>
      obtain ⟨content, live, held, -⟩ := found allowed
      have large := wraps trivial
      rw [size, live, Option.elim_some] at large
      rw [exec, ipaBufDup_eq allocator held, Content.buf_dataLen]
      exact newCopy_error allocator _ _ _ large
  | copy q =>
      obtain ⟨content, live, held, -⟩ := found allowed
      have large := wraps trivial
      rw [size, live, Option.elim_some] at large
      rw [exec, ipaBufCopy_eq allocator held content.buf_valid]
      exact newCopy_error allocator _ _ _ large
  | cpy q bytes =>
      have fits : sizeofIpaBuf + 0 < 2 ^ 64 := by decide
      exact absurd ⟨fits, trivial⟩ short

def target : Call → Option Pointer
  | realloc p _ => some p
  | cpy p _ => some p
  | _ => none

/-- Buffers do not share their bytes. -/
theorem meaning_keeps_others (call : Call) (allowed : call.meaning allocator shelf = .ok (p, after)) {q : Pointer}
    {content : Content} (live : shelf.block q = some content) (other : call.target ≠ some q) :
    after.block q = some content := by
  have old : q ≠ shelf.next := Nat.ne_of_lt (Heap.lt_next live)
  have kept (value : Content) : (shelf.grown value).block q = some content := by
    rw [Heap.grown_block_of_ne _ _ old, live]
  cases call with
  | alloc size =>
      cases allowed
      exact kept _
  | allocData data =>
      cases allowed
      exact kept _
  | allocAndCpy data =>
      cases allowed
      exact kept _
  | realloc r size =>
      obtain ⟨before, present, -, done⟩ := found allowed
      rw [resize_eq () present] at done
      cases done
      have apart : q ≠ r := fun same => other (congrArg some same.symm)
      have elsewhere : q ≠ shelf.moved (allocator.stays r size) r := by
        unfold Heap.moved
        split
        · exact apart
        · exact old
      rw [Heap.resized_block_of_ne _ _ _ apart elsewhere, live]
  | dup r =>
      obtain ⟨before, -, -, done⟩ := found allowed
      cases done
      exact kept _
  | copy r =>
      obtain ⟨before, -, -, done⟩ := found allowed
      cases done
      exact kept _
  | cpy r bytes =>
      obtain ⟨before, present, -, done⟩ := found allowed
      split at done
      · rw [bind_ok (write_eq () present _)] at done
        cases done
        rw [Heap.set_block_of_ne _ _ fun same => other (congrArg some same.symm), live]
      · cases done

theorem run_keeps_others {calls : List Call} {pointers : List Pointer}
    (allowed : run (meaning allocator) calls shelf = .ok (pointers, after)) {q : Pointer} {content : Content}
    (live : shelf.block q = some content) (other : ∀ call ∈ calls, call.target ≠ some q) :
    after.block q = some content := by
  induction calls generalizing shelf pointers with
  | nil =>
      cases allowed
      exact live
  | cons call calls ih =>
      obtain ⟨value, mid, rest, first, onwards, rfl⟩ := run_cons_cases _ allowed
      rw [List.forall_mem_cons] at other
      exact ih onwards (meaning_keeps_others allocator call first live other.1) other.2

end

end Call

/-! ## The buffers and the lists -/

/-- Every buffer holds its list: the valid bytes are the list, and they are within the data area. -/
structure Represents (heap : Heap IpaBuf) (shelf : Shelf) : Prop where
  buffers : ∀ p content, shelf.block p = some content → ∃ buf, heap.block p = some buf ∧ buf.Valid ∧
    buf.bytes = content.bytes ∧ buf.data.drop buf.len = content.rest
  nothing : ∀ p, shelf.block p = none → heap.block p = none

theorem represents_map (shelf : Shelf) : Represents (shelf.map Content.buf) shelf where
  buffers p content live := by
    refine ⟨content.buf, ?_, content.buf_valid, content.buf_bytes, content.buf_rest⟩
    rw [Heap.map_block, live, Option.map_some]
  nothing p none := by rw [Heap.map_block, none, Option.map_none]

/-- Any buffers that are valid hold lists. -/
theorem exists_shelf {heap : Heap IpaBuf} (valid : ∀ p buf, heap.block p = some buf → buf.Valid) :
    ∃ shelf : Shelf, shelf.map Content.buf = heap := by
  refine ⟨heap.map Content.ofBuf, Heap.ext rfl ?_⟩
  funext p
  rw [Heap.map_block, Heap.map_block]
  cases live : heap.block p with
  | none => rfl
  | some buf => rw [Option.map_some, Option.map_some, Content.ofBuf_buf (valid p buf live)]

/-- The calls are done without a fault, give the pointers they should and leave buffers that hold their lists. -/
def Right (allocator : Allocator) (calls : List Call) (shelf : Shelf) : Prop :=
  ∃ pointers after heap, run (Call.meaning allocator) calls shelf = .ok (pointers, after) ∧
    run (Call.exec allocator) calls (shelf.map Content.buf) = .ok (pointers, heap) ∧ Represents heap after

section
variable (allocator : Allocator) {calls : List Call} {shelf after : Shelf} {pointers : List Pointer}

theorem right_of_along (allowed : run (Call.meaning allocator) calls shelf = .ok (pointers, after))
    (along : Along (Call.meaning allocator) Call.Enough calls shelf) : Right allocator calls shelf := by
  have followed := run_follows (Heap.map Content.buf) allowed
    (fun call _ _ _ meant enough => Call.exec_ok allocator call meant enough) along
  exact ⟨pointers, after, after.map Content.buf, allowed, followed, represents_map after⟩

theorem along_of_right (right : Right allocator calls shelf) :
    Along (Call.meaning allocator) Call.Enough calls shelf := by
  obtain ⟨pointers, after, heap, allowed, ran, -⟩ := right
  exact along_of_run (Heap.map Content.buf) allowed
    (fun call _ _ _ meant enough => Call.exec_ok allocator call meant enough)
    (fun call _ _ _ meant short => ⟨.outOfBounds, Call.exec_error allocator call meant short⟩) ran

/-- For any buffers at the start, any calls that are allowed and any allocator: the buffers are right after every
one of the calls just if each call asks for a size that fits in memory and no `realloc` cuts valid bytes off. -/
theorem buffers_right_iff (allowed : run (Call.meaning allocator) calls shelf = .ok (pointers, after)) :
    (∀ before later, calls = before ++ later → Right allocator before shelf) ↔
      Along (Call.meaning allocator) Call.Enough calls shelf := by
  constructor
  · intro right
    exact along_of_right allocator (right calls [] (List.append_nil calls).symm)
  · rintro along before later rfl
    obtain ⟨first, mid, ran⟩ := run_append_cases _ allowed
    exact right_of_along allocator ran (along_front along)

end

/-- Three bytes in a buffer that gets two: the fill is taken to have `2 - 3` bytes, which wraps. -/
theorem shorter_overrun :
    (∃ after, run (Call.meaning moving) [.allocData [1, 2, 3], .realloc 0 2] .empty = .ok ([0, 1], after) ∧
      after.block 1 = some { bytes := [1, 2], rest := [] }) ∧
    run (Call.exec moving) [.allocData [1, 2, 3], .realloc 0 2] .empty = .error .outOfBounds ∧
    ¬ Right moving [.allocData [1, 2, 3], .realloc 0 2] .empty := by
  have fault : run (Call.exec moving) [.allocData [1, 2, 3], .realloc 0 2] .empty = .error .outOfBounds := rfl
  refine ⟨⟨_, rfl, rfl⟩, fault, ?_⟩
  rintro ⟨pointers, after, heap, -, ran, -⟩
  rw [show (Heap.empty : Shelf).map Content.buf = .empty from rfl, fault] at ran
  cases ran

theorem buffers_right_iff_longer :
    (∀ before later, [.alloc 4, .cpy 0 [1, 2], .realloc 0 8, .dup 1] = before ++ later →
        Right moving before .empty) ↔
      Along (Call.meaning moving) Call.Enough [.alloc 4, .cpy 0 [1, 2], .realloc 0 8, .dup 1] .empty :=
  buffers_right_iff moving (rfl : run (Call.meaning moving) _ _ = .ok ([0, 0, 1, 2], _))

end Ipad.BufCalls

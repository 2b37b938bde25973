import Ipad.Lib.Memory
import Ipad.Lib.Pointers
import Ipad.Utils.Asn1c

/-!
# Buffers on the heap

The functions of `utils.h` that make, resize and fill an `ipa_buf`, on pointers. Where a resized block
goes and what is in fresh memory is up to the allocator. `malloc` and `realloc` always have memory left.
-/

namespace Ipad.BufHeap
open Lib.Memory Lib.Pointers Ipad.Utils

structure Allocator where
  stays : Pointer → Nat → Bool
  cell : Pointer → Nat → UInt8

def Allocator.area (allocator : Allocator) (p : Pointer) (size : Nat) : List UInt8 :=
  (List.range size).map (allocator.cell p)

theorem Allocator.length_area (allocator : Allocator) (p : Pointer) (size : Nat) :
    (allocator.area p size).length = size := by
  rw [area, List.length_map, List.length_range]

def moving : Allocator where
  stays _ _ := false
  cell _ _ := 0xA5

abbrev BufProg := Prog IpaBuf Fault

def sizeofIpaBuf : Nat := 24

def memcpy (area : List UInt8) (i : Nat) (bytes : List UInt8) : Except Fault (List UInt8) :=
  ((⟨area, rfl⟩ : Region UInt8 area.length).store .outOfBounds i bytes).map Region.cells

def memset (area : List UInt8) (i count : Nat) : Except Fault (List UInt8) :=
  ((⟨area, rfl⟩ : Region UInt8 area.length).fill .outOfBounds i count 0).map Region.cells

section
variable (allocator : Allocator)

def ipaBufAlloc (len : Nat) : BufProg Pointer :=
  -- a sum that wraps makes a block that is shorter than its header
  if sizeofIpaBuf + len < 2 ^ 64 then new fun p => { data := allocator.area p len, len := 0 }
  else fail .outOfBounds

def ipaBufRealloc (p : Pointer) (len : Nat) : BufProg Pointer := do
  let buf ← read .outOfBounds p
  if sizeofIpaBuf + len < 2 ^ 64 then do
    let p ← resize .outOfBounds (allocator.stays p len) p fun p =>
      { data := buf.data.take len ++ allocator.area p (len - buf.dataLen), len := buf.len }
    let buf ← read .outOfBounds p
    let data ← lift (memset buf.data buf.len (sizeT (len + 2 ^ 64 - buf.len)))
    write .outOfBounds p { buf with data }
    return p
  else fail .outOfBounds

/-- A new buffer of `size` bytes that gets `bytes` and the length `len`. -/
def newCopy (size len : Nat) (bytes : List UInt8) : BufProg Pointer := do
  let p ← ipaBufAlloc allocator size
  let buf ← read .outOfBounds p
  let data ← lift (memcpy buf.data 0 bytes)
  write .outOfBounds p { data, len }
  return p

def ipaBufAllocData (data : List UInt8) : BufProg Pointer :=
  newCopy allocator data.length data.length data

def ipaBufAllocAndCpy (data : List UInt8) : BufProg Pointer :=
  newCopy allocator data.length data.length data

def ipaBufDup (p : Pointer) : BufProg Pointer := do
  let buf ← read .outOfBounds p
  let bytes ← lift (loadRun .outOfBounds buf.data 0 buf.dataLen)
  newCopy allocator buf.dataLen buf.len bytes

def ipaBufCopy (p : Pointer) : BufProg Pointer := do
  let buf ← read .outOfBounds p
  let bytes ← lift (loadRun .outOfBounds buf.data 0 buf.len)
  newCopy allocator buf.len buf.len bytes

end

def ipaBufCpy (p : Pointer) (bytes : List UInt8) : BufProg Unit := do
  let buf ← read .outOfBounds p
  let stored ← lift (buf.cpy bytes)
  write .outOfBounds p stored

/-! ## What is in a buffer -/

/-- The valid bytes of a buffer, and what the rest of its data area holds. -/
structure Content where
  bytes : List UInt8
  rest : List UInt8

namespace Content

def buf (content : Content) : IpaBuf :=
  { data := content.bytes ++ content.rest, len := content.bytes.length }

def capacity (content : Content) : Nat := content.bytes.length + content.rest.length

def whole (bytes : List UInt8) : Content := { bytes, rest := [] }

def resized (content : Content) (size : Nat) : Content :=
  { bytes := content.bytes.take size, rest := List.replicate (size - content.bytes.length) 0 }

def append (content : Content) (bytes : List UInt8) : Content :=
  { bytes := content.bytes ++ bytes, rest := content.rest.drop bytes.length }

variable (content : Content)

@[simp] theorem buf_bytes : content.buf.bytes = content.bytes := List.take_left' rfl
@[simp] theorem buf_len : content.buf.len = content.bytes.length := rfl
@[simp] theorem buf_rest : content.buf.data.drop content.buf.len = content.rest := List.drop_left' rfl
@[simp] theorem buf_dataLen : content.buf.dataLen = content.capacity := List.length_append

theorem whole_buf (bytes : List UInt8) : (whole bytes).buf = { data := bytes, len := bytes.length } := by
  rw [buf, whole, List.append_nil]

theorem buf_valid : content.buf.Valid := by
  rw [IpaBuf.Valid, buf_dataLen]
  exact Nat.le_add_right _ _

def ofBuf (buf : IpaBuf) : Content := { bytes := buf.bytes, rest := buf.data.drop buf.len }

theorem ofBuf_buf {buf : IpaBuf} (valid : buf.Valid) : (ofBuf buf).buf = buf := by
  rw [Content.buf, ofBuf, buf.length_bytes valid]
  simp [IpaBuf.bytes]

theorem store_eq {bytes : List UInt8} (room : bytes.length ≤ content.rest.length) :
    content.buf.store bytes = .ok (content.append bytes).buf := by
  have fits : content.buf.len + bytes.length ≤ content.buf.dataLen := by
    rw [buf_len, buf_dataLen, capacity]
    exact Nat.add_le_add_left room _
  rw [IpaBuf.store, if_pos fits, buf_bytes, buf_len, ← List.drop_drop]
  simp [Content.buf, append]

theorem cpy_eq {bytes : List UInt8} (room : bytes.length ≤ content.rest.length) :
    content.buf.cpy bytes = .ok (content.append bytes).buf := by
  have fits : content.buf.len + bytes.length ≤ content.buf.dataLen := by
    rw [buf_len, buf_dataLen, capacity]
    exact Nat.add_le_add_left room _
  rw [IpaBuf.cpy, if_pos fits, content.store_eq room]

theorem realloc_eq {size : Nat} (room : content.bytes.length ≤ size) :
    content.buf.realloc size = .ok (content.resized size).buf := by
  have kept : content.buf.len ≤ size := room
  rw [IpaBuf.realloc, if_pos kept, buf_bytes, resized, List.take_of_length_le room]
  rfl

end Content

/-! ## What the functions do -/

theorem memcpy_all {area bytes : List UInt8} (whole : bytes.length = area.length) :
    memcpy area 0 bytes = .ok bytes := by
  obtain ⟨copied, done, cells⟩ := Region.store_ok Fault.outOfBounds ⟨area, rfl⟩ 0 bytes
    (by rw [Nat.zero_add, whole])
  rw [memcpy, done, Except.map, cells]
  simp [whole]

theorem memset_behind {area : List UInt8} {i count : Nat} (whole : i + count = area.length) :
    memset area i count = .ok (area.take i ++ List.replicate count 0) := by
  obtain ⟨filled, done, cells⟩ := Region.fill_ok Fault.outOfBounds ⟨area, rfl⟩ i count (0 : UInt8)
    (Nat.le_of_eq whole)
  rw [memset, done, Except.map, cells]
  simp [whole]

theorem memset_error {area : List UInt8} {i count : Nat} (beyond : area.length < i + count) :
    memset area i count = .error .outOfBounds := by
  rw [memset, Region.fill_error _ _ _ beyond, Except.map]

section
variable (allocator : Allocator) {heap : Heap IpaBuf} {p : Pointer} {buf : IpaBuf}

theorem ipaBufAlloc_ok (heap : Heap IpaBuf) {len : Nat} (fits : sizeofIpaBuf + len < 2 ^ 64) :
    ipaBufAlloc allocator len heap =
      .ok (heap.next, heap.grown { data := allocator.area heap.next len, len := 0 }) := by
  rw [ipaBufAlloc, if_pos fits]
  rfl

theorem ipaBufAlloc_error (heap : Heap IpaBuf) {len : Nat} (wraps : ¬ sizeofIpaBuf + len < 2 ^ 64) :
    ipaBufAlloc allocator len heap = .error .outOfBounds := by
  rw [ipaBufAlloc, if_neg wraps]
  rfl

theorem newCopy_ok (heap : Heap IpaBuf) {size : Nat} {bytes : List UInt8} (fits : sizeofIpaBuf + size < 2 ^ 64)
    (whole : bytes.length = size) (len : Nat) :
    newCopy allocator size len bytes heap = .ok (heap.next, heap.grown { data := bytes, len }) := by
  have live := heap.grown_block { data := allocator.area heap.next size, len := 0 }
  have copied : memcpy (allocator.area heap.next size) 0 bytes = .ok bytes :=
    memcpy_all (by rw [whole, allocator.length_area])
  rw [newCopy, bind_ok (ipaBufAlloc_ok allocator heap fits), bind_ok (read_eq _ live)]
  simp only [copied, lift, pure_bind]
  rw [bind_ok (write_eq _ live _), Heap.set_grown]
  rfl

theorem newCopy_error (heap : Heap IpaBuf) {size : Nat} (bytes : List UInt8) (len : Nat)
    (wraps : ¬ sizeofIpaBuf + size < 2 ^ 64) :
    newCopy allocator size len bytes heap = .error .outOfBounds := by
  rw [newCopy, bind_error (ipaBufAlloc_error allocator heap wraps)]

/-- A reallocation does to the block what it does to the buffer. -/
theorem ipaBufRealloc_ok (live : heap.block p = some buf) (valid : buf.Valid) {len : Nat} {grown : IpaBuf}
    (fits : sizeofIpaBuf + len < 2 ^ 64) (done : buf.realloc len = .ok grown) :
    ipaBufRealloc allocator p len heap =
      .ok (heap.moved (allocator.stays p len) p, heap.resized (allocator.stays p len) p grown) := by
  have room : buf.len ≤ len := by
    by_contra short
    rw [IpaBuf.realloc, if_neg short] at done
    cases done
  rw [IpaBuf.realloc, if_pos room, Except.ok.injEq] at done
  set q := heap.moved (allocator.stays p len) p
  set area := buf.data.take len ++ allocator.area q (len - buf.dataLen) with resizedArea
  have width : area.length = len := by
    rw [resizedArea, List.length_append, List.length_take, allocator.length_area, IpaBuf.dataLen]
    omega
  have kept : area.take buf.len = buf.bytes := by
    unfold IpaBuf.Valid IpaBuf.dataLen at valid
    rw [resizedArea, List.take_append_of_le_length (by rw [List.length_take]; omega), List.take_take,
      Nat.min_eq_left room]
    rfl
  have count : sizeT (len + 2 ^ 64 - buf.len) = len - buf.len := by
    unfold sizeT
    omega
  have cleared : memset area buf.len (len - buf.len) = .ok grown.data := by
    rw [memset_behind (by rw [width]; exact Nat.add_sub_cancel' room), kept, ← done]
  rw [ipaBufRealloc, bind_ok (read_eq _ live), if_pos fits, bind_ok (resize_eq _ live _ _),
    bind_ok (read_eq _ (Heap.resized_block live _ _))]
  simp only [count]
  rw [cleared]
  simp only [lift, pure_bind]
  rw [bind_ok (write_eq _ (Heap.resized_block live _ _) _), Heap.set_resized, ← done]
  rfl

/-- A shorter size sends the fill past the end of the block. -/
theorem ipaBufRealloc_error (live : heap.block p = some buf) (valid : buf.Valid) {len : Nat}
    (short : ¬ (sizeofIpaBuf + len < 2 ^ 64 ∧ buf.len ≤ len)) :
    ipaBufRealloc allocator p len heap = .error .outOfBounds := by
  rw [ipaBufRealloc, bind_ok (read_eq _ live)]
  by_cases fits : sizeofIpaBuf + len < 2 ^ 64
  · have below : len < buf.len := Nat.lt_of_not_le fun room => short ⟨fits, room⟩
    rw [if_pos fits, bind_ok (resize_eq _ live _ _), bind_ok (read_eq _ (Heap.resized_block live _ _))]
    have width : (buf.data.take len ++
        allocator.area (heap.moved (allocator.stays p len) p) (len - buf.dataLen)).length = len := by
      unfold IpaBuf.Valid at valid
      rw [List.length_append, List.length_take, allocator.length_area]
      unfold IpaBuf.dataLen at valid ⊢
      omega
    rw [memset_error (by rw [width]; exact Nat.lt_add_right _ below)]
    rfl
  · rw [if_neg fits]
    rfl

theorem ipaBufDup_eq (live : heap.block p = some buf) :
    ipaBufDup allocator p heap = newCopy allocator buf.dataLen buf.len buf.data heap := by
  have bytes : loadRun Fault.outOfBounds buf.data 0 buf.dataLen = .ok buf.data := by
    rw [loadRun_ok _ (by rw [Nat.zero_add]; exact Nat.le_refl _), List.drop_zero, IpaBuf.dataLen, List.take_length]
  rw [ipaBufDup, bind_ok (read_eq _ live), bytes]
  rfl

theorem ipaBufCopy_eq (live : heap.block p = some buf) (valid : buf.Valid) :
    ipaBufCopy allocator p heap = newCopy allocator buf.len buf.len buf.bytes heap := by
  have bytes : loadRun Fault.outOfBounds buf.data 0 buf.len = .ok buf.bytes := by
    rw [loadRun_ok _ (by rw [Nat.zero_add]; exact valid), List.drop_zero]
    rfl
  rw [ipaBufCopy, bind_ok (read_eq _ live), bytes]
  rfl

theorem ipaBufCpy_ok (live : heap.block p = some buf) {bytes : List UInt8} {stored : IpaBuf}
    (done : buf.cpy bytes = .ok stored) : ipaBufCpy p bytes heap = .ok ((), heap.set p stored) := by
  rw [ipaBufCpy, bind_ok (read_eq _ live), done]
  exact write_eq _ live stored

end

end Ipad.BufHeap

import Ipad.BufHeap
import Ipad.Euicc.Recv

/-!
# Growing buffers

Three places feed chunks of any size into a buffer that they make larger where it is too small: the ASN.1
encoder, the HTTP client and the reader of eUICC responses. The buffer may move, so each of them has a pointer
of its caller to keep. An empty chunk may come as a null pointer.
-/

namespace Ipad.Accumulators
open Lib.Memory Lib.Pointers Ipad.BufHeap Ipad.Utils

def ipaLenHttpResponseBuf : Nat := 512

structure Chunk where
  size : Nat
  nmemb : Nat
  ptr : Option (List UInt8)
  length : (ptr.getD []).length = size * nmemb

def Chunk.bytes (chunk : Chunk) : List UInt8 := chunk.ptr.getD []

section
variable (allocator : Allocator)

/-- The buffer gets room for `size` more bytes; its new capacity is rounded up to a multiple of `step`. -/
def makeRoom (step : Nat) (p : Pointer) (size : Nat) : BufProg Pointer := do
  let buf ← read .outOfBounds p
  let needed := sizeT (buf.len + size)
  if buf.dataLen < needed then ipaBufRealloc allocator p (sizeT ((needed / step + 1) * step))
  else return p

def accumulate (step : Nat) (put : Pointer → List UInt8 → BufProg Unit) (p : Pointer) (bytes : List UInt8) :
    BufProg Pointer := do
  let p ← makeRoom allocator step p bytes.length
  put p bytes
  return p

def copyBehind (p : Pointer) (bytes : List UInt8) : BufProg Unit := do
  let buf ← read .outOfBounds p
  let stored ← lift (buf.store bytes)
  write .outOfBounds p stored

/-- The callback of the encoder. What it answers is the pointer that it leaves to its caller, as below. -/
def ipaAsn1cConsumeBytesCb (bufEncoded : Option Pointer) (buffer : Option (List UInt8)) : BufProg Pointer :=
  match buffer, bufEncoded with
  | none, _ => fail .assertion
  | some buffer, none => do
      let p ← ipaBufAlloc allocator ipaLenAsn1EncoderBuf
      accumulate allocator ipaLenAsn1EncoderBuf ipaBufCpy p buffer
  | some buffer, some p => accumulate allocator ipaLenAsn1EncoderBuf ipaBufCpy p buffer

/-- A null pointer has no bytes to be copied. -/
def storeResponseCb (ptr : Option (List UInt8)) (size nmemb : Nat) (clientp : Pointer) :
    BufProg (Nat × Pointer) := do
  let bytes ← lift (loadRun .outOfBounds (ptr.getD []) 0 (sizeT (size * nmemb)))
  let p ← accumulate allocator ipaLenHttpResponseBuf copyBehind clientp bytes
  return (bytes.length, p)

/-- What `recv_es10x_block` does with the data of a response. -/
def appendEs10xRes (es10xRes : Pointer) (data : List UInt8) : BufProg Pointer :=
  accumulate allocator Euicc.ipaLenEuiccBuf copyBehind es10xRes data

end

/-! ## A chunk -/

/-- `p` is a new pointer, its buffer has these valid bytes and all other memory is as it was before. -/
structure Holds (before heap : Heap IpaBuf) (p : Pointer) (bytes : List UInt8) : Prop where
  buffer : ∃ buf, heap.block p = some buf ∧ buf.Valid ∧ buf.bytes = bytes
  new : before.block p = none
  others : ∀ q, q ≠ p → heap.block q = before.block q

section
variable {before heap : Heap IpaBuf} {p : Pointer} {bytes : List UInt8}

theorem holds_grown (before : Heap IpaBuf) {buf : IpaBuf} (valid : buf.Valid) :
    Holds before (before.grown buf) before.next buf.bytes where
  buffer := ⟨buf, before.grown_block buf, valid, rfl⟩
  new := before.fresh _ (Nat.le_refl _)
  others _ other := before.grown_block_of_ne buf other

theorem Holds.set (holds : Holds before heap p bytes) {buf : IpaBuf} (valid : buf.Valid) :
    Holds before (heap.set p buf) p buf.bytes := by
  obtain ⟨⟨old, live, -⟩, new, others⟩ := holds
  refine ⟨⟨buf, Heap.set_block live buf, valid, rfl⟩, new, fun q other => ?_⟩
  rw [heap.set_block_of_ne buf other]
  exact others q other

theorem Holds.resized (holds : Holds before heap p bytes) (stays : Bool) {buf : IpaBuf} (valid : buf.Valid) :
    Holds before (heap.resized stays p buf) (heap.moved stays p) buf.bytes := by
  cases stays with
  | true => exact holds.set valid
  | false =>
      obtain ⟨⟨old, live, -⟩, new, others⟩ := holds
      have dead : heap.block heap.next = none := heap.fresh _ (Nat.le_refl _)
      have later : heap.next ≠ p := fun same => by
        rw [same, live] at dead
        cases dead
      refine ⟨⟨buf, Heap.resized_block live false buf, valid, rfl⟩, ?_, fun q other => ?_⟩
      · rw [← dead]
        exact (others _ later).symm
      · by_cases released : q = p
        · subst q
          rw [Heap.resized_block_old false live buf other, new]
        · rw [heap.resized_block_of_ne false buf released other]
          exact others q released

variable (allocator : Allocator)

theorem makeRoom_ok {step : Nat} (positive : 0 < step) (moderate : step ≤ 2 ^ 62)
    (holds : Holds before heap p bytes) {buf : IpaBuf} (live : heap.block p = some buf) (size : Nat)
    (small : bytes.length + size < 2 ^ 63) :
    ∃ q heap' grown, makeRoom allocator step p size heap = .ok (q, heap') ∧ Holds before heap' q bytes ∧
      heap'.block q = some grown ∧ buf.grow step size = .ok grown := by
  obtain ⟨other, same, valid, rfl⟩ := holds.buffer
  rw [live] at same
  cases same
  rw [buf.length_bytes valid] at small
  have needed : sizeT (buf.len + size) = buf.len + size := sizeT_of_lt _ (by omega)
  have rounded : ((buf.len + size) / step + 1) * step ≤ buf.len + size + step := by
    rw [Nat.add_mul, Nat.one_mul]
    exact Nat.add_le_add_right (Nat.div_mul_le_self _ _) _
  have exactSize : sizeT (((buf.len + size) / step + 1) * step) = ((buf.len + size) / step + 1) * step :=
    sizeT_of_lt _ (by omega)
  obtain ⟨grown, growth, kept, -, room⟩ := buf.grow_ok step positive valid size
  have sound : grown.Valid := Nat.le_trans (Nat.le_add_right _ _) room
  rw [makeRoom, bind_ok (read_eq _ live)]
  simp only [needed, exactSize]
  by_cases full : buf.dataLen < buf.len + size
  · have fits : sizeofIpaBuf + ((buf.len + size) / step + 1) * step < 2 ^ 64 := by
      unfold sizeofIpaBuf
      omega
    have reallocated : buf.realloc (((buf.len + size) / step + 1) * step) = .ok grown := by
      rw [← growth, IpaBuf.grow, if_pos full]
    have held := holds.resized (allocator.stays p (((buf.len + size) / step + 1) * step)) sound
    rw [kept] at held
    rw [if_pos full]
    exact ⟨_, _, grown, ipaBufRealloc_ok allocator live valid fits reallocated, held, Heap.resized_block live _ _,
      growth⟩
  · have same : buf = grown := by
      rw [IpaBuf.grow, if_neg full] at growth
      cases growth
      rfl
    subst same
    rw [if_neg full]
    exact ⟨p, heap, buf, rfl, holds, live, growth⟩

/-- The ways to append what there is room for: with the assertion of `ipa_buf_cpy`, and without. -/
def Appends (put : Pointer → List UInt8 → BufProg Unit) : Prop :=
  ∀ (heap : Heap IpaBuf) p buf bytes stored, heap.block p = some buf → buf.len + bytes.length ≤ buf.dataLen →
    buf.store bytes = .ok stored → put p bytes heap = .ok ((), heap.set p stored)

theorem ipaBufCpy_appends : Appends ipaBufCpy := by
  intro heap p buf bytes stored live room done
  apply ipaBufCpy_ok live
  rw [IpaBuf.cpy, if_pos room, done]

theorem copyBehind_appends : Appends copyBehind := by
  intro heap p buf bytes stored live room done
  rw [copyBehind, bind_ok (read_eq _ live), done]
  exact write_eq _ live stored

/-- A chunk is put behind the others, wherever the buffer is afterwards. The block is what the value of the buffer
says. -/
theorem accumulate_ok {step : Nat} (positive : 0 < step) (moderate : step ≤ 2 ^ 62)
    {put : Pointer → List UInt8 → BufProg Unit} (appends : Appends put) (holds : Holds before heap p bytes)
    {buf : IpaBuf} (live : heap.block p = some buf) (chunk : List UInt8)
    (small : bytes.length + chunk.length < 2 ^ 63) :
    ∃ q heap' stored, accumulate allocator step put p chunk heap = .ok (q, heap') ∧
      Holds before heap' q (bytes ++ chunk) ∧ heap'.block q = some stored ∧
      ((buf.grow step chunk.length).bind fun grown => grown.store chunk) = .ok stored := by
  obtain ⟨q, heap', grown, roomy, held, there, growth⟩ :=
    makeRoom_ok allocator positive moderate holds live chunk.length small
  obtain ⟨other, same, valid, content⟩ := holds.buffer
  rw [live] at same
  cases same
  obtain ⟨grown', growth', kept, -, room⟩ := buf.grow_ok step positive valid chunk.length
  rw [growth] at growth'
  cases growth'
  obtain ⟨stored, copied, behind, sound, -⟩ := grown.store_ok chunk room
  have after := held.set sound
  rw [behind, kept, content] at after
  refine ⟨q, heap'.set q stored, stored, ?_, after, Heap.set_block there stored, ?_⟩
  · rw [accumulate, bind_ok roomy, bind_ok (appends _ _ _ _ _ there room copied)]
    rfl
  · rw [growth]
    exact copied

theorem ipaAsn1cConsumeBytesCb_none (heap : Heap IpaBuf) (buffer : List UInt8) (small : buffer.length < 2 ^ 63) :
    ∃ q heap', ipaAsn1cConsumeBytesCb allocator none (some buffer) heap = .ok (q, heap') ∧
      Holds heap heap' q buffer := by
  have allocated := ipaBufAlloc_ok allocator heap (by decide : sizeofIpaBuf + ipaLenAsn1EncoderBuf < 2 ^ 64)
  have empty : ({ data := allocator.area heap.next ipaLenAsn1EncoderBuf, len := 0 } : IpaBuf).Valid := Nat.zero_le _
  obtain ⟨q, heap', stored, consumed, holds, -⟩ := accumulate_ok allocator (by decide : 0 < ipaLenAsn1EncoderBuf)
    (by decide) ipaBufCpy_appends (holds_grown heap empty) (heap.grown_block _) buffer
    (by simpa [IpaBuf.bytes] using small)
  refine ⟨q, heap', ?_, holds⟩
  rw [ipaAsn1cConsumeBytesCb, bind_ok allocated, consumed]

theorem consume_eq {buf : IpaBuf} (valid : buf.Valid) {buffer : List UInt8}
    (small : buf.len + buffer.length < 2 ^ 63) :
    Utils.ipaAsn1cConsumeBytesCb (some buf) (some buffer) =
      (buf.grow ipaLenAsn1EncoderBuf buffer.length).bind fun grown => grown.store buffer := by
  obtain ⟨grown, growth, -, kept, room⟩ := buf.grow_ok ipaLenAsn1EncoderBuf (by decide) valid buffer.length
  have needed : sizeT (buf.len + buffer.length) = buf.len + buffer.length := sizeT_of_lt _ (by omega)
  have rounded := Nat.div_mul_le_self (buf.len + buffer.length) ipaLenAsn1EncoderBuf
  have exactSize : sizeT (((buf.len + buffer.length) / ipaLenAsn1EncoderBuf + 1) * ipaLenAsn1EncoderBuf) =
      ((buf.len + buffer.length) / ipaLenAsn1EncoderBuf + 1) * ipaLenAsn1EncoderBuf := by
    apply sizeT_of_lt
    rw [Nat.add_mul, Nat.one_mul]
    unfold ipaLenAsn1EncoderBuf at rounded ⊢
    omega
  have same : (if buf.dataLen < buf.len + buffer.length then
      buf.realloc (((buf.len + buffer.length) / ipaLenAsn1EncoderBuf + 1) * ipaLenAsn1EncoderBuf) else .ok buf) =
      buf.grow ipaLenAsn1EncoderBuf buffer.length := rfl
  simp only [Utils.ipaAsn1cConsumeBytesCb, Option.getD_some, needed, exactSize, same, growth, Except.bind]
  rw [kept] at room
  rw [kept, needed, if_pos room]

/-- The block is what the callback makes of the value of the buffer. -/
theorem ipaAsn1cConsumeBytesCb_some (holds : Holds before heap p bytes) {buf : IpaBuf}
    (live : heap.block p = some buf) (buffer : List UInt8) (small : bytes.length + buffer.length < 2 ^ 63) :
    ∃ q heap' stored, ipaAsn1cConsumeBytesCb allocator (some p) (some buffer) heap = .ok (q, heap') ∧
      Holds before heap' q (bytes ++ buffer) ∧ heap'.block q = some stored ∧
      Utils.ipaAsn1cConsumeBytesCb (some buf) (some buffer) = .ok stored := by
  obtain ⟨q, heap', stored, consumed, after, there, value⟩ := accumulate_ok allocator
    (by decide : 0 < ipaLenAsn1EncoderBuf) (by decide) ipaBufCpy_appends holds live buffer small
  obtain ⟨other, same, valid, rfl⟩ := holds.buffer
  rw [live] at same
  cases same
  rw [buf.length_bytes valid] at small
  exact ⟨q, heap', stored, consumed, after, there, (consume_eq valid small).trans value⟩

theorem storeResponseCb_some (holds : Holds before heap p bytes) (chunk : Chunk)
    (small : bytes.length + chunk.bytes.length < 2 ^ 63) :
    ∃ q heap', storeResponseCb allocator chunk.ptr chunk.size chunk.nmemb p heap =
        .ok ((chunk.size * chunk.nmemb, q), heap') ∧
      Holds before heap' q (bytes ++ chunk.bytes) := by
  obtain ⟨buf, live, -⟩ := holds.buffer
  obtain ⟨q, heap', stored, taken, after, -⟩ := accumulate_ok allocator (by decide : 0 < ipaLenHttpResponseBuf)
    (by decide) copyBehind_appends holds live chunk.bytes small
  have length : chunk.bytes.length = chunk.size * chunk.nmemb := chunk.length
  have whole : loadRun Fault.outOfBounds (chunk.ptr.getD []) 0 (sizeT (chunk.size * chunk.nmemb)) =
      .ok chunk.bytes := by
    rw [← length, sizeT_of_lt _ (by omega), ← Chunk.bytes, loadRun_ok _ (Nat.le_of_eq (Nat.zero_add _)),
      List.drop_zero, List.take_length]
  refine ⟨q, heap', ?_, after⟩
  rw [storeResponseCb, whole]
  simp only [lift, pure_bind]
  rw [bind_ok taken, length]
  rfl

theorem appendEs10xRes_some (holds : Holds before heap p bytes) {buf : IpaBuf} (live : heap.block p = some buf)
    (data : List UInt8) (small : bytes.length + data.length < 2 ^ 63) :
    ∃ q heap' stored, appendEs10xRes allocator p data heap = .ok (q, heap') ∧
      Holds before heap' q (bytes ++ data) ∧ heap'.block q = some stored ∧
      Euicc.appendEs10xRes buf data = .ok stored :=
  accumulate_ok allocator (by decide : 0 < Euicc.ipaLenEuiccBuf) (by decide) copyBehind_appends holds live data small

end

/-! ## Chunk after chunk -/

inductive Accumulator where
  | asn1Encoder
  | httpResponse
  | es10xResponse

section
variable (allocator : Allocator)

/-- Without a buffer of its own each of them begins as in the source: the encoder with none, `ipa_http_req` and
`ipa_euicc_transceive_es10x` with a new one. -/
def Accumulator.opened : Accumulator → BufProg (Option Pointer)
  | asn1Encoder => pure none
  | httpResponse => do
      let p ← ipaBufAlloc allocator ipaLenHttpResponseBuf
      return some p
  | es10xResponse => do
      let p ← ipaBufAlloc allocator Euicc.ipaLenEuiccBuf
      return some p

def Accumulator.begun (accumulator : Accumulator) : Option Nat → BufProg (Option Pointer)
  | none => accumulator.opened allocator
  | some capacity => do
      let p ← ipaBufAlloc allocator capacity
      return some p

def Accumulator.feed : Accumulator → Option Pointer → Chunk → BufProg (Option Pointer)
  | asn1Encoder, cell, chunk => do
      let p ← ipaAsn1cConsumeBytesCb allocator cell chunk.ptr
      return some p
  | httpResponse, some p, chunk => do
      let (_, p) ← storeResponseCb allocator chunk.ptr chunk.size chunk.nmemb p
      return some p
  | es10xResponse, some p, chunk => do
      let p ← appendEs10xRes allocator p chunk.bytes
      return some p
  | _, none, _ => fail .nullDeref

def Accumulator.fed (accumulator : Accumulator) (start : Option Nat) (chunks : List Chunk) :
    BufProg (Option Pointer) := do
  let cell ← accumulator.begun allocator start
  chunks.foldlM (accumulator.feed allocator) cell

/-- What the caller's pointer leads to. There is nothing under it only before the first chunk of the encoder. -/
def Accumulator.Ready (accumulator : Accumulator) (before heap : Heap IpaBuf) :
    Option Pointer → List UInt8 → Prop
  | none, bytes => accumulator = asn1Encoder ∧ bytes = [] ∧ heap = before
  | some p, bytes => Holds before heap p bytes

variable (accumulator : Accumulator) {before heap : Heap IpaBuf}

theorem allocated_ready {capacity : Nat} (small : capacity < 2 ^ 63) (before : Heap IpaBuf) :
    ∃ cell heap, (do
        let p ← ipaBufAlloc allocator capacity
        return some p : BufProg (Option Pointer)) before = .ok (cell, heap) ∧
      accumulator.Ready before heap cell [] := by
  have fits : sizeofIpaBuf + capacity < 2 ^ 64 := by
    unfold sizeofIpaBuf
    omega
  have empty : ({ data := allocator.area before.next capacity, len := 0 } : IpaBuf).Valid := Nat.zero_le _
  have holds := holds_grown before empty
  refine ⟨some before.next, _, ?_, holds⟩
  rw [bind_ok (ipaBufAlloc_ok allocator before fits)]
  rfl

theorem Accumulator.begun_ready {start : Option Nat}
    (small : ∀ capacity, start = some capacity → capacity < 2 ^ 63) (before : Heap IpaBuf) :
    ∃ cell heap, accumulator.begun allocator start before = .ok (cell, heap) ∧
      accumulator.Ready before heap cell [] := by
  cases start with
  | some capacity => exact allocated_ready allocator accumulator (small capacity rfl) before
  | none =>
      cases accumulator with
      | asn1Encoder => exact ⟨none, before, rfl, rfl, rfl, rfl⟩
      | httpResponse => exact allocated_ready allocator .httpResponse (by decide) before
      | es10xResponse => exact allocated_ready allocator .es10xResponse (by decide) before

/-- Only the callback of the encoder looks at the pointer of its chunk. -/
def Accumulator.Takes (accumulator : Accumulator) (chunk : Chunk) : Prop :=
  accumulator = asn1Encoder → chunk.ptr ≠ none

theorem Accumulator.feed_ready {cell : Option Pointer} {bytes : List UInt8}
    (ready : accumulator.Ready before heap cell bytes) (chunk : Chunk) (takes : accumulator.Takes chunk)
    (small : bytes.length + chunk.bytes.length < 2 ^ 63) :
    ∃ p heap', accumulator.feed allocator cell chunk heap = .ok (some p, heap') ∧
      accumulator.Ready before heap' (some p) (bytes ++ chunk.bytes) := by
  cases accumulator with
  | asn1Encoder =>
      obtain ⟨buffer, given⟩ := Option.ne_none_iff_exists'.mp (takes rfl)
      have content : chunk.bytes = buffer := by rw [Chunk.bytes, given, Option.getD_some]
      rw [content] at small ⊢
      cases cell with
      | none =>
          obtain ⟨-, rfl, rfl⟩ := ready
          obtain ⟨p, heap', consumed, holds⟩ := ipaAsn1cConsumeBytesCb_none allocator heap buffer
            (Nat.lt_of_le_of_lt (Nat.le_add_left _ _) small)
          exact ⟨p, heap', by rw [feed, given, bind_ok consumed]; rfl, holds⟩
      | some p =>
          obtain ⟨buf, live, -⟩ := Holds.buffer ready
          obtain ⟨q, heap', stored, consumed, holds, -⟩ :=
            ipaAsn1cConsumeBytesCb_some allocator ready live buffer small
          exact ⟨q, heap', by rw [feed, given, bind_ok consumed]; rfl, holds⟩
  | httpResponse =>
      cases cell with
      | none => cases ready.1
      | some p =>
          obtain ⟨q, heap', taken, holds⟩ := storeResponseCb_some allocator ready chunk small
          exact ⟨q, heap', by rw [feed, bind_ok taken]; rfl, holds⟩
  | es10xResponse =>
      cases cell with
      | none => cases ready.1
      | some p =>
          obtain ⟨buf, live, -⟩ := Holds.buffer ready
          obtain ⟨q, heap', stored, appended, holds, -⟩ :=
            appendEs10xRes_some allocator ready live chunk.bytes small
          exact ⟨q, heap', by rw [feed, bind_ok appended]; rfl, holds⟩

theorem Accumulator.feeds_ready {cell : Option Pointer} {bytes : List UInt8}
    (ready : accumulator.Ready before heap cell bytes) (chunks : List Chunk)
    (takes : ∀ chunk ∈ chunks, accumulator.Takes chunk)
    (small : bytes.length + (chunks.flatMap Chunk.bytes).length < 2 ^ 63) :
    ∃ cell' heap', chunks.foldlM (accumulator.feed allocator) cell heap = .ok (cell', heap') ∧
      accumulator.Ready before heap' cell' (bytes ++ chunks.flatMap Chunk.bytes) ∧
      (cell' = none → cell = none ∧ chunks = []) := by
  induction chunks generalizing heap cell bytes with
  | nil => exact ⟨cell, heap, rfl, by simpa using ready, fun none => ⟨none, rfl⟩⟩
  | cons chunk chunks ih =>
      rw [List.flatMap_cons, List.length_append] at small
      obtain ⟨first, rest⟩ := List.forall_mem_cons.mp takes
      obtain ⟨p, mid, fed, next⟩ := accumulator.feed_ready allocator ready chunk first (by omega)
      obtain ⟨cell', heap', others, done, given⟩ := ih next rest (by rw [List.length_append]; omega)
      refine ⟨cell', heap', ?_, ?_, fun none => ?_⟩
      · rw [List.foldlM_cons, bind_ok fed, others]
      · rw [List.flatMap_cons, ← List.append_assoc]
        exact done
      · cases (given none).1

theorem Accumulator.feed_fails {chunk : Chunk} (refuses : ¬ accumulator.Takes chunk) (cell : Option Pointer)
    (heap : Heap IpaBuf) : accumulator.feed allocator cell chunk heap = .error .assertion := by
  obtain ⟨rfl, null⟩ := Classical.not_imp.mp refuses
  have consumed : ipaAsn1cConsumeBytesCb allocator cell none heap = .error .assertion := rfl
  rw [feed, not_not.mp null, bind_error consumed]

theorem Accumulator.feeds_fail {chunks : List Chunk} {chunk : Chunk} (member : chunk ∈ chunks)
    (refuses : ¬ accumulator.Takes chunk) (cell : Option Pointer) (heap : Heap IpaBuf) :
    ∃ f, chunks.foldlM (accumulator.feed allocator) cell heap = .error f := by
  induction chunks generalizing cell heap with
  | nil => cases member
  | cons first chunks ih =>
      rw [List.foldlM_cons]
      cases fed : accumulator.feed allocator cell first heap with
      | error f => exact ⟨f, bind_error fed _⟩
      | ok out =>
          rw [bind_ok fed]
          rcases List.mem_cons.mp member with rfl | later
          · rw [accumulator.feed_fails allocator refuses] at fed
            cases fed
          · exact ih later out.1 out.2

/-- After the chunks the caller's pointer leads to a buffer of its own whose valid bytes are all of them, one after
the other; there is no pointer only if there was no chunk. Nothing else in memory has changed. -/
def Accumulator.Exact (start : Option Nat) (chunks : List Chunk) (before : Heap IpaBuf) : Prop :=
  ∃ cell after, accumulator.fed allocator start chunks before = .ok (cell, after) ∧
    accumulator.Ready before after cell (chunks.flatMap Chunk.bytes) ∧ (cell = none → chunks = [])

theorem Accumulator.fed_exact_iff (start : Option Nat)
    (fresh : ∀ capacity, start = some capacity → capacity < 2 ^ 63) (chunks : List Chunk)
    (total : (chunks.flatMap Chunk.bytes).length < 2 ^ 63) (before : Heap IpaBuf) :
    accumulator.Exact allocator start chunks before ↔ ∀ chunk ∈ chunks, accumulator.Takes chunk := by
  obtain ⟨cell, heap, begins, ready⟩ := accumulator.begun_ready allocator fresh before
  constructor
  · rintro ⟨cell', after, done, -⟩ chunk member
    by_contra refuses
    obtain ⟨f, fault⟩ := accumulator.feeds_fail allocator member refuses cell heap
    rw [fed, bind_ok begins, fault] at done
    cases done
  · intro takes
    obtain ⟨cell', after, feeds, done, given⟩ := accumulator.feeds_ready allocator ready chunks takes
      (by rw [List.length_nil, Nat.zero_add]; exact total)
    exact ⟨cell', after, by rw [fed, bind_ok begins, feeds], done, fun none => (given none).2⟩

def octets (ptr : List UInt8) : Chunk where
  size := 1
  nmemb := ptr.length
  ptr := some ptr
  length := (Nat.one_mul _).symm

@[simp] theorem octets_bytes (ptr : List UInt8) : (octets ptr).bytes = ptr := rfl

/-- What the encoder hands out for a string without a buffer. -/
def nullChunk : Chunk where
  size := 0
  nmemb := 1
  ptr := none
  length := rfl

/-- One chunk fills the buffer of the client, the next is empty and the last one makes it move. -/
def movingChunks : List Chunk := [octets (List.replicate 512 0x41), nullChunk, octets [0x42]]

theorem fed_exact_moved :
    Accumulator.httpResponse.Exact moving none movingChunks .empty ↔
      ∀ chunk ∈ movingChunks, Accumulator.httpResponse.Takes chunk := by
  have total : (movingChunks.flatMap Chunk.bytes).length < 2 ^ 63 := by
    rw [movingChunks, List.flatMap_cons, List.length_append, octets_bytes, List.length_replicate]
    decide
  exact Accumulator.httpResponse.fed_exact_iff moving none (by simp) movingChunks total .empty

/-- The tag and the length of an empty string, and then its missing buffer. -/
theorem fed_nullChunk :
    ¬ Accumulator.asn1Encoder.Exact moving none [octets [0x81, 0x00], nullChunk] .empty := by
  rintro ⟨cell, after, done, -⟩
  have refuses : ¬ Accumulator.asn1Encoder.Takes nullChunk := fun takes => takes rfl rfl
  obtain ⟨f, fault⟩ := Accumulator.feeds_fail moving .asn1Encoder
    (List.mem_cons_of_mem (octets [0x81, 0x00]) (List.mem_singleton_self nullChunk)) refuses none .empty
  have begins : Accumulator.asn1Encoder.begun moving none .empty = .ok (none, .empty) := rfl
  rw [Accumulator.fed, bind_ok begins, fault] at done
  cases done

end

end Ipad.Accumulators

import Ipad.Libasn.OctetString
import Ipad.Utils.Btlv

/-!
# The output side of the ASN.1 encoder

asn1c hands an encoding out in chunks; `ipa_asn1c_consume_bytes_cb` puts them into a growing buffer. The chunk of a
string without a buffer is the null pointer.
-/

namespace Ipad.Utils
open Libasn

def ipaLenAsn1EncoderBuf : Nat := 5120

def sizeT (n : Nat) : Nat := n % 2 ^ 64

theorem sizeT_of_lt (n : Nat) (small : n < 2 ^ 64) : sizeT n = n := Nat.mod_eq_of_lt small

/-- The callback that stores a chunk. It takes its own sums in `size_t`, which wrap when `len` was set
to a negative error code. -/
def ipaAsn1cConsumeBytesCb (bufEncoded : Option IpaBuf) : (buffer : Option (List UInt8)) → Except Fault IpaBuf
  | none => .error .assertion
  | some buffer =>
      let buf := bufEncoded.getD (.alloc ipaLenAsn1EncoderBuf)
      let needed := sizeT (buf.len + buffer.length)
      let reallocSize := sizeT ((needed / ipaLenAsn1EncoderBuf + 1) * ipaLenAsn1EncoderBuf)
      (if buf.dataLen < needed then buf.realloc reallocSize else .ok buf).bind fun buf =>
        -- the assertion of `ipa_buf_cpy`
        if sizeT (buf.len + buffer.length) ≤ buf.dataLen then buf.store buffer else .error .assertion

/-- The coder, which hands an encoding out chunk by chunk. `buffered`: all strings in it have a buffer. -/
structure Asn1c where
  chunks : (encoding : List UInt8) → (buffered : Bool) → List (Option (List UInt8))
  handsOut : ∀ encoding buffered, HandsOut encoding buffered (chunks encoding buffered)

def derEncode (asn1c : Asn1c) (encoding : List UInt8) (buffered : Bool) (bufEncoded : Option IpaBuf) :
    Except Fault (Option IpaBuf) :=
  ((asn1c.chunks encoding buffered).foldlM (fun buf chunk => (ipaAsn1cConsumeBytesCb buf chunk).map some)
    bufEncoded).map fun buf => if encoding.length = 0 then none else buf

structure Ordinary (buf : IpaBuf) (size : Nat) : Prop where
  valid : buf.Valid
  len : buf.len + size < 2 ^ 63
  dataLen : buf.dataLen < 2 ^ 63 + ipaLenAsn1EncoderBuf

theorem alloc_ordinary (size : Nat) (small : size < 2 ^ 63) :
    Ordinary (.alloc ipaLenAsn1EncoderBuf) size :=
  ⟨IpaBuf.alloc_valid _, by simpa using small, by simp only [IpaBuf.alloc_dataLen]; omega⟩

theorem ipaAsn1cConsumeBytesCb_ok (bufEncoded : Option IpaBuf) (buffer : List UInt8) (size : Nat)
    (ordinary : Ordinary (bufEncoded.getD (.alloc ipaLenAsn1EncoderBuf)) (buffer.length + size)) :
    ∃ stored, ipaAsn1cConsumeBytesCb bufEncoded (some buffer) = .ok stored ∧
      stored.bytes = (bufEncoded.getD (.alloc ipaLenAsn1EncoderBuf)).bytes ++ buffer ∧
      Ordinary stored size := by
  generalize entry : bufEncoded.getD (.alloc ipaLenAsn1EncoderBuf) = buf at ordinary
  obtain ⟨valid, len, dataLen⟩ := ordinary
  have needed : sizeT (buf.len + buffer.length) = buf.len + buffer.length := sizeT_of_lt _ (by omega)
  have rounded := Nat.div_add_mod (buf.len + buffer.length) ipaLenAsn1EncoderBuf
  have below := Nat.mod_lt (buf.len + buffer.length) (by decide : 0 < ipaLenAsn1EncoderBuf)
  simp only [ipaLenAsn1EncoderBuf] at rounded below dataLen
  have exactSize : sizeT (((buf.len + buffer.length) / 5120 + 1) * 5120) =
      ((buf.len + buffer.length) / 5120 + 1) * 5120 := sizeT_of_lt _ (by omega)
  -- both ways there is room for the chunk, and the buffer is no larger than it should be
  have grown : ∃ grown, (if buf.dataLen < buf.len + buffer.length then
        buf.realloc (((buf.len + buffer.length) / 5120 + 1) * 5120) else .ok buf) = .ok grown ∧
      grown.bytes = buf.bytes ∧ grown.len = buf.len ∧ buf.len + buffer.length ≤ grown.dataLen ∧
      grown.dataLen < 2 ^ 63 + 5120 := by
    split
    · obtain ⟨grown, done, bytes, same, size⟩ := buf.realloc_ok
        (((buf.len + buffer.length) / 5120 + 1) * 5120) valid (by omega)
      exact ⟨grown, done, bytes, same, by omega, by omega⟩
    · exact ⟨buf, rfl, rfl, rfl, by omega, by omega⟩
  obtain ⟨grown, done, bytes, same, room, small⟩ := grown
  obtain ⟨stored, copied, content, sound, kept⟩ := grown.store_ok buffer (by omega)
  refine ⟨stored, ?_, by rw [content, bytes], sound, ?_, by rw [kept]; exact small⟩
  · rw [ipaAsn1cConsumeBytesCb, entry]
    simp only [ipaLenAsn1EncoderBuf, needed, exactSize, done, Except.bind, same, room, if_true, copied]
  · have width := stored.length_bytes sound
    rw [content, List.length_append, grown.length_bytes (by unfold IpaBuf.Valid; omega)] at width
    omega

/-- With a negative error code as its length the buffer is left through its front or its end. -/
theorem ipaAsn1cConsumeBytesCb_einval (buf : IpaBuf) (buffer : List UInt8) (len : buf.len = einvalSize)
    (dataLen : buf.dataLen < 2 ^ 63 + ipaLenAsn1EncoderBuf) (small : buffer.length < 2 ^ 63) :
    ∃ f, ipaAsn1cConsumeBytesCb (some buf) (some buffer) = .error f := by
  simp only [ipaLenAsn1EncoderBuf] at dataLen
  have outside : ∀ reallocSize, reallocSize < einvalSize →
      buf.realloc reallocSize = .error .outOfBounds := by
    intro reallocSize less
    rw [IpaBuf.realloc, if_neg (by omega)]
  unfold einvalSize at len outside
  simp only [ipaAsn1cConsumeBytesCb, Option.getD_some, len, ipaLenAsn1EncoderBuf]
  by_cases few : buffer.length < 22
  · -- the sum does not wrap, the rounded size does
    have needed : sizeT (2 ^ 64 - 22 + buffer.length) = 2 ^ 64 - 22 + buffer.length :=
      sizeT_of_lt _ (by omega)
    have wrapped : sizeT (((2 ^ 64 - 22 + buffer.length) / 5120 + 1) * 5120) < 2 ^ 64 - 22 := by
      unfold sizeT
      omega
    rw [needed, if_pos (by omega), outside _ wrapped]
    exact ⟨_, rfl⟩
  · have needed : sizeT (2 ^ 64 - 22 + buffer.length) = buffer.length - 22 := by
      unfold sizeT
      omega
    have exactSize : sizeT (((buffer.length - 22) / 5120 + 1) * 5120) < 2 ^ 64 - 22 := by
      unfold sizeT
      omega
    rw [needed]
    split
    · rw [outside _ exactSize]
      exact ⟨_, rfl⟩
    · simp only [Except.bind, len, needed]
      split
      · rw [IpaBuf.store, if_neg (by omega)]
        exact ⟨_, rfl⟩
      · exact ⟨_, rfl⟩

section
variable (asn1c : Asn1c)

private theorem foldlM_consume_ok (chunks : List (List UInt8)) (bufEncoded : Option IpaBuf)
    (ordinary : Ordinary (bufEncoded.getD (.alloc ipaLenAsn1EncoderBuf)) chunks.flatten.length) :
    ∃ out, (chunks.map some).foldlM (fun buf chunk => (ipaAsn1cConsumeBytesCb buf chunk).map some) bufEncoded =
        .ok out ∧
      (out.getD (.alloc ipaLenAsn1EncoderBuf)).bytes =
        (bufEncoded.getD (.alloc ipaLenAsn1EncoderBuf)).bytes ++ chunks.flatten ∧
      Ordinary (out.getD (.alloc ipaLenAsn1EncoderBuf)) 0 ∧ (chunks ≠ [] → out.isSome) := by
  induction chunks generalizing bufEncoded with
  | nil => exact ⟨bufEncoded, rfl, by simp, by simpa using ordinary, by simp⟩
  | cons chunk chunks ih =>
      rw [List.flatten_cons, List.length_append] at ordinary
      obtain ⟨stored, consumed, bytes, ready⟩ :=
        ipaAsn1cConsumeBytesCb_ok bufEncoded chunk _ ordinary
      obtain ⟨out, run, content, done, present⟩ := ih (some stored) ready
      refine ⟨out, ?_, ?_, done, fun _ => ?_⟩
      · rw [List.map_cons, List.foldlM_cons, consumed]
        exact run
      · rw [content, Option.getD_some, bytes, List.flatten_cons, List.append_assoc]
      · cases chunks with
        | nil =>
            cases run
            rfl
        | cons next rest => exact present (List.cons_ne_nil _ _)

/-- Where every string has a buffer, the chunks are the pieces of the encoding. -/
theorem pieces_of_handsOut {encoding : List UInt8} {chunks : List (Option (List UInt8))}
    (handed : HandsOut encoding true chunks) :
    ∃ pieces : List (List UInt8), chunks = pieces.map some ∧ pieces.flatten = encoding := by
  have noneLacks : none ∉ chunks := by simp [handed.none_mem]
  have pieces : chunks.map (fun chunk => some (chunk.getD [])) = chunks := by
    conv => rhs; rw [← List.map_id chunks]
    refine List.map_congr_left fun chunk member => ?_
    cases chunk with
    | none => exact absurd member noneLacks
    | some piece => rfl
  refine ⟨chunks.map fun chunk => chunk.getD [], ?_, handed.flatten⟩
  rw [List.map_map]
  exact pieces.symm

theorem derEncode_ok (encoding : List UInt8) (nonempty : encoding ≠ []) (bufEncoded : Option IpaBuf)
    (ordinary : Ordinary (bufEncoded.getD (.alloc ipaLenAsn1EncoderBuf)) encoding.length) :
    ∃ out, derEncode asn1c encoding true bufEncoded = .ok (some out) ∧
      out.bytes = (bufEncoded.getD (.alloc ipaLenAsn1EncoderBuf)).bytes ++ encoding ∧
      Ordinary out 0 := by
  obtain ⟨pieces, chunked, rfl⟩ := pieces_of_handsOut (asn1c.handsOut encoding true)
  have some_chunk : pieces ≠ [] := fun none => nonempty (by rw [none]; rfl)
  obtain ⟨out, run, content, done, present⟩ := foldlM_consume_ok pieces bufEncoded ordinary
  obtain ⟨buf, rfl⟩ := Option.isSome_iff_exists.mp (present some_chunk)
  refine ⟨buf, ?_, content, done⟩
  have positive : pieces.flatten.length ≠ 0 := fun zero => nonempty (List.length_eq_zero_iff.mp zero)
  rw [derEncode, chunked, run]
  simp only [Except.map, positive, if_false]

theorem derEncode_einval (encoding : List UInt8) (nonempty : encoding ≠ []) (buf : IpaBuf)
    (len : buf.len = einvalSize) (dataLen : buf.dataLen < 2 ^ 63 + ipaLenAsn1EncoderBuf)
    (small : encoding.length < 2 ^ 63) : ∃ f, derEncode asn1c encoding true (some buf) = .error f := by
  obtain ⟨pieces, chunked, rfl⟩ := pieces_of_handsOut (asn1c.handsOut encoding true)
  cases pieces with
  | nil => exact absurd rfl nonempty
  | cons chunk rest =>
      have fits : chunk.length < 2 ^ 63 := by
        rw [List.flatten_cons, List.length_append] at small
        omega
      obtain ⟨f, fault⟩ := ipaAsn1cConsumeBytesCb_einval buf chunk len dataLen fits
      exact ⟨f, by rw [derEncode, chunked, List.map_cons, List.foldlM_cons, fault]; rfl⟩

/-- The assertion on the chunk fails, if nothing did before. -/
theorem foldlM_consume_unbuffered (chunks : List (Option (List UInt8))) (lacks : none ∈ chunks)
    (bufEncoded : Option IpaBuf) :
    ∃ f, chunks.foldlM (fun buf chunk => (ipaAsn1cConsumeBytesCb buf chunk).map some) bufEncoded = .error f := by
  induction chunks generalizing bufEncoded with
  | nil => cases lacks
  | cons chunk chunks ih =>
      rw [List.foldlM_cons]
      cases consumed : ipaAsn1cConsumeBytesCb bufEncoded chunk with
      | error f => exact ⟨f, rfl⟩
      | ok stored =>
          rcases List.mem_cons.mp lacks with rfl | later
          · cases consumed
          · exact ih later (some stored)

theorem derEncode_unbuffered (encoding : List UInt8) (bufEncoded : Option IpaBuf) :
    ∃ f, derEncode asn1c encoding false bufEncoded = .error f := by
  obtain ⟨f, fault⟩ := foldlM_consume_unbuffered (asn1c.chunks encoding false)
    ((asn1c.handsOut encoding false).none_mem.mpr rfl) bufEncoded
  exact ⟨f, by rw [derEncode, fault]; rfl⟩

end

/-! ## Whether a value can be encoded -/

/-- What comes of a value with which the encoder is called. It takes all sizes first, so that a value which it
refuses never gets as far as the callback. -/
inductive Encoding where
  | encoded
  | refused
  | aborted
  deriving DecidableEq, Repr

namespace Encoding

/-- Of a value with two parts. -/
def both : Encoding → Encoding → Encoding
  | refused, _ => refused
  | _, refused => refused
  | aborted, _ => aborted
  | encoded, second => second

def ofBuffered (buffered : Bool) : Encoding := if buffered then encoded else aborted

def ofList {α : Type} (encoding : α → Encoding) (list : List α) : Encoding :=
  list.foldr (fun value rest => (encoding value).both rest) encoded

@[simp] theorem both_eq_encoded (first second : Encoding) :
    first.both second = encoded ↔ first = encoded ∧ second = encoded := by
  cases first <;> cases second <;> simp [both]

@[simp] theorem ofBuffered_eq_encoded (buffered : Bool) : ofBuffered buffered = encoded ↔ buffered = true := by
  cases buffered <;> simp [ofBuffered]

@[simp] theorem ofList_eq_encoded {α : Type} (encoding : α → Encoding) (list : List α) :
    ofList encoding list = encoded ↔ ∀ value ∈ list, encoding value = encoded := by
  induction list with
  | nil => simp [ofList]
  | cons value list ih => simpa [ofList] using fun _ => ih

end Encoding

end Ipad.Utils

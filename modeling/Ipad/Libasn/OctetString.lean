import Ipad.Libasn.Tags

/-!
# Octet strings

`OCTET_STRING.c`, which UTF8String, BIT STRING and the other strings share. A decoded string may have no buffer
at all, and the encoder hands out what there is.
-/

namespace Ipad

/-- `OCTET_STRING_t`, `buf` with `size`. -/
inductive OctetString where
  | octets (bytes : List UInt8)
  | unbuffered
  deriving DecidableEq, Repr

namespace OctetString

def buf : OctetString → Option (List UInt8)
  | octets bytes => some bytes
  | unbuffered => none

def bytes (st : OctetString) : List UInt8 := st.buf.getD []

def buffered (st : OctetString) : Bool := st.buf.isSome

@[simp] theorem bytes_octets (bytes : List UInt8) : (octets bytes).bytes = bytes := rfl

@[simp] theorem bytes_unbuffered : unbuffered.bytes = [] := rfl

@[simp] theorem buffered_octets (bytes : List UInt8) : (octets bytes).buffered = true := rfl

@[simp] theorem buffered_unbuffered : unbuffered.buffered = false := rfl

theorem buffered_iff (st : OctetString) : st.buffered = true ↔ st = octets st.bytes := by
  cases st <;> simp

end OctetString

namespace Libasn

/-! ## Decoding -/

/-- The two ways to write a string. In constructed form its octets come in pieces, here in their order and
whatever their nesting. -/
inductive StringForm where
  | primitive (octets : List UInt8)
  | constructed (pieces : List (List UInt8))

def appendPiece (st : OctetString) : List UInt8 → OctetString
  | [] => st
  | octets => .octets (st.bytes ++ octets)

def octetStringDecodeBer : StringForm → OctetString
  | .primitive octets => .octets octets
  | .constructed pieces => pieces.foldl appendPiece .unbuffered

def StringForm.contents : StringForm → List UInt8
  | primitive octets => octets
  | constructed pieces => pieces.flatten

theorem bytes_appendPiece (st : OctetString) (octets : List UInt8) :
    (appendPiece st octets).bytes = st.bytes ++ octets := by
  cases octets <;> simp [appendPiece]

theorem buffered_appendPiece (st : OctetString) (octets : List UInt8) :
    (appendPiece st octets).buffered = true ↔ st.buffered = true ∨ octets ≠ [] := by
  cases octets <;> simp [appendPiece]

theorem foldl_appendPiece (pieces : List (List UInt8)) (st : OctetString) :
    (pieces.foldl appendPiece st).bytes = st.bytes ++ pieces.flatten ∧
      ((pieces.foldl appendPiece st).buffered = true ↔ st.buffered = true ∨ pieces.flatten ≠ []) := by
  induction pieces generalizing st with
  | nil => simp
  | cons octets pieces ih =>
      obtain ⟨bytes, buffered⟩ := ih (appendPiece st octets)
      constructor
      · rw [List.foldl_cons, bytes, bytes_appendPiece, List.flatten_cons, List.append_assoc]
      · rw [List.foldl_cons, buffered, buffered_appendPiece, List.flatten_cons, or_assoc]
        simp only [ne_eq, List.append_eq_nil_iff, not_and_or]

/-- A string has no buffer exactly where it came in constructed form and without octets. -/
theorem octetStringDecodeBer_decodes (form : StringForm) :
    (octetStringDecodeBer form).bytes = form.contents ∧
      (octetStringDecodeBer form = .unbuffered ↔ ∃ pieces, form = .constructed pieces ∧ pieces.flatten = []) := by
  cases form with
  | primitive octets => simp [octetStringDecodeBer, StringForm.contents]
  | constructed pieces =>
      obtain ⟨bytes, buffered⟩ := foldl_appendPiece pieces .unbuffered
      refine ⟨bytes, ?_⟩
      have none : pieces.foldl appendPiece .unbuffered = .unbuffered ↔
          ¬ (pieces.foldl appendPiece .unbuffered).buffered = true := by
        cases pieces.foldl appendPiece .unbuffered <;> simp
      rw [octetStringDecodeBer, none, buffered]
      simp [StringForm.constructed.injEq]

/-! ## Encoding -/

/-- The chunks for the callback: the tags with their lengths, and then the buffer as it is. -/
def octetStringEncodeDer (tdTags : List Nat) (st : OctetString) (tagMode : TagMode) (tag : Nat) :
    Option (List (Option (List UInt8))) :=
  (derWriteTags tdTags st.bytes.length tagMode false tag).map fun written => [some written.1, st.buf]

/-- The chunks are the encoding piece by piece. One of them is the null pointer exactly where a string has no
buffer. -/
structure HandsOut (encoding : List UInt8) (buffered : Bool) (chunks : List (Option (List UInt8))) : Prop where
  flatten : (chunks.map fun chunk => chunk.getD []).flatten = encoding
  none_mem : none ∈ chunks ↔ buffered = false

theorem handsOut_octets (octets : List UInt8) : HandsOut octets true [some octets] where
  flatten := by simp
  none_mem := by simp

theorem handsOut_buf (st : OctetString) : HandsOut st.bytes st.buffered [st.buf] where
  flatten := by simp [OctetString.bytes]
  none_mem := by cases st <;> simp [OctetString.buf]

theorem HandsOut.append {encoding encoding' : List UInt8} {buffered buffered' : Bool}
    {chunks chunks' : List (Option (List UInt8))} (first : HandsOut encoding buffered chunks)
    (second : HandsOut encoding' buffered' chunks') :
    HandsOut (encoding ++ encoding') (buffered && buffered') (chunks ++ chunks') where
  flatten := by rw [List.map_append, List.flatten_append, first.flatten, second.flatten]
  none_mem := by rw [List.mem_append, first.none_mem, second.none_mem, Bool.and_eq_false_iff]

theorem octetStringEncodeDer_handsOut {tdTags : List Nat} {st : OctetString} {tagMode : TagMode} {tag : Nat}
    {chunks : List (Option (List UInt8))} (encoded : octetStringEncodeDer tdTags st tagMode tag = some chunks) :
    ∃ front, HandsOut (front ++ st.bytes) st.buffered chunks := by
  obtain ⟨written, -, rfl⟩ := Option.map_eq_some_iff.mp encoded
  exact ⟨written.1, (handsOut_octets written.1).append (handsOut_buf st)⟩

/-- One string after the other, as the members of a sequence are handed out. -/
theorem octetStringEncodeDer_handsOutAll {tdTags : List Nat} {tagMode : TagMode} {tag : Nat}
    {strings : List OctetString} {chunks : List (List (Option (List UInt8)))}
    (encoded : strings.mapM (octetStringEncodeDer tdTags · tagMode tag) = some chunks) :
    ∃ encoding, HandsOut encoding (strings.all OctetString.buffered) chunks.flatten := by
  induction strings generalizing chunks with
  | nil =>
      cases encoded
      exact ⟨[], by simp, by simp⟩
  | cons st strings ih =>
      rw [List.mapM_cons] at encoded
      obtain ⟨head, encoded_head, encoded⟩ := Option.bind_eq_some_iff.mp encoded
      obtain ⟨tail, encoded_tail, same⟩ := Option.bind_eq_some_iff.mp encoded
      cases same
      obtain ⟨front, handed⟩ := octetStringEncodeDer_handsOut encoded_head
      obtain ⟨encoding, others⟩ := ih encoded_tail
      exact ⟨_, handed.append others⟩

end Libasn

end Ipad

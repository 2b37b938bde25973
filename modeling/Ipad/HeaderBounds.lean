import Ipad.BppSegments
import Ipad.Utils.Headers

/-!
# The bounds of the header parser

What `parse_btlv_hdr` reads of any bytes, and what its callers make of its errors.
-/

namespace Ipad.HeaderBounds
open Lib.Tlv Ipad.Utils Ipad.BppSegments

/-- With the reads that the parser does not guard. The test for a negative size is never true. -/
def ipaStripTlvEnvelope (data : List UInt8) (envelopeTag : UInt16) : Except Fault (List UInt8) :=
  match parseBtlvHdr data with
  | .error f => .error f
  | .ok hdr =>
      match hdr.tag with
      | none => .error .uninitialised
      | some tlvTag =>
          if tlvTag ≠ envelopeTag then .ok data
          else if data.length < hdr.rc then .ok data
          else .ok (data.drop hdr.rc)

theorem ipaStripTlvEnvelope_eq {data stripped : List UInt8} {envelopeTag : UInt16}
    (done : ipaStripTlvEnvelope data envelopeTag = .ok stripped) :
    Utils.ipaStripTlvEnvelope data envelopeTag = stripped := by
  unfold ipaStripTlvEnvelope at done
  unfold Utils.ipaStripTlvEnvelope
  cases parsed : parseBtlvHdr data with
  | error f =>
      rw [parsed] at done
      cases done
  | ok hdr =>
      rw [parsed] at done
      cases known : hdr.tag with
      | none => simp [known] at done
      | some tlvTag =>
          simp only [known, ne_eq, Option.some.injEq] at done ⊢
          split at done
          · cases done
            rw [if_pos (by assumption)]
          · split at done
            · cases done
              rw [if_neg (by assumption), if_pos (by assumption)]
            · cases done
              rw [if_neg (by assumption), if_neg (by assumption)]

/-! ## The parser -/

def Begun (data : List UInt8) : Prop :=
  ∃ (tag : Tag) (first : UInt8) (rest : List UInt8), data = tag.bytes ++ first :: rest

theorem parseBtlvLen_cons (tag : UInt16) (skipLen : Nat) (first : UInt8) (data : List UInt8) :
    ∃ hdr, parseBtlvLen tag skipLen (first :: data) = .ok hdr ∧ hdr.tag = some tag ∧
      (hdr.rc ≤ skipLen + (first :: data).length ∨ hdr.rc = einvalSize) := by
  rw [parseBtlvLen, List.length_cons]
  split
  · exact ⟨_, rfl, rfl, .inl (by show skipLen + 1 ≤ _; omega)⟩
  · simp only
    split
    · exact ⟨_, rfl, rfl, .inr rfl⟩
    · cases read : readLenBytes (first &&& 0x7f).toNat data 0 with
      | none => exact ⟨_, rfl, rfl, .inr rfl⟩
      | some valueLen =>
          have enough := readLenBytes_le _ _ _ _ read
          exact ⟨_, rfl, rfl, .inl (by show skipLen + 1 + (first &&& 0x7f).toNat ≤ _; omega)⟩

theorem parseBtlvHdr_begun {data : List UInt8} (begun : Begun data) :
    ∃ hdr tag, parseBtlvHdr data = .ok hdr ∧ hdr.tag = some tag ∧
      (hdr.rc ≤ data.length ∨ hdr.rc = einvalSize) := by
  obtain ⟨tag, first, rest, rfl⟩ := begun
  obtain ⟨hdr, parsed, known, size⟩ := parseBtlvLen_cons tag.value tag.bytes.length first rest
  exact ⟨hdr, tag.value, by rw [parseBtlvHdr_tag, parsed], known, by rw [List.length_append]; exact size⟩

theorem begun_of_parsed {data : List UInt8} {hdr : BtlvHdr} {value : UInt16} (parsed : parseBtlvHdr data = .ok hdr)
    (known : hdr.tag = some value) : Begun data := by
  cases data with
  | nil => cases parsed
  | cons first data =>
      rcases Tag.exists_append first data with ⟨rfl, long⟩ | ⟨tag, rest, split⟩
      · simp [parseBtlvHdr, long] at parsed
        rw [← parsed] at known
        cases known
      · rw [split, parseBtlvHdr_tag] at parsed
        cases rest with
        | nil => cases parsed
        | cons length rest => exact ⟨tag, length, rest, split⟩

/-! ## The callers -/

/-- The elements whose headers make segments. -/
inductive Element where
  | package (bpp : BoundProfilePackage)
  | firstSequenceOf87 (list : List OctetString)
  | sequenceOf88 (list : List OctetString)
  | secondSequenceOf87 (list : List OctetString)
  | sequenceOf86 (list : List OctetString)

namespace Element

def tag : Element → List UInt8
  | package _ => [0xBF, 0x36]
  | firstSequenceOf87 _ => [0xA0]
  | sequenceOf88 _ => [0xA1]
  | secondSequenceOf87 _ => [0xA2]
  | sequenceOf86 _ => [0xA3]

def content : Element → List UInt8
  | package bpp => bppContent bpp
  | firstSequenceOf87 list => list.flatMap der87tlv
  | sequenceOf88 list => list.flatMap der88tlv
  | secondSequenceOf87 list => list.flatMap der87tlv
  | sequenceOf86 list => list.flatMap der86tlv

def encoding (element : Element) : List UInt8 := tlv element.tag element.content

def segment (asn1c : Asn1c) : Element → Except Fault (Option IpaBuf)
  | package bpp => encInitSecChanReq asn1c bpp
  | firstSequenceOf87 list => encFirstSeqOf87 asn1c list
  | sequenceOf88 list => encTagAndLenOfSequenceOf88 asn1c list
  | secondSequenceOf87 list => encSecondSeqOf87 asn1c list
  | sequenceOf86 list => encTagAndLenOfSequenceOf86 asn1c list

theorem shortTag (element : Element) : ShortTag element.tag := by
  cases element with
  | package bpp => exact .two _ _ (by decide)
  | firstSequenceOf87 list => exact .one _ (by decide)
  | sequenceOf88 list => exact .one _ (by decide)
  | secondSequenceOf87 list => exact .one _ (by decide)
  | sequenceOf86 list => exact .one _ (by decide)

end Element

/-- No byte behind the data is read and no tag is compared that was not there; the size of the header is in the
data or it is an error, for which the envelope stays on and no segment is made. -/
structure Inside (asn1c : Asn1c) (data : List UInt8) : Prop where
  header : ∃ hdr, parseBtlvHdr data = .ok hdr ∧ (hdr.rc ≤ data.length ∨ hdr.rc = einvalSize)
  envelope : ∀ envelopeTag, ∃ stripped, ipaStripTlvEnvelope data envelopeTag = .ok stripped ∧
    stripped <:+ data ∧ ∀ hdr, parseBtlvHdr data = .ok hdr → hdr.rc = einvalSize → stripped = data
  segment : ∀ element : Element, element.encoding = data →
    ∀ hdr, parseBtlvHdr data = .ok hdr → hdr.rc = einvalSize → element.segment asn1c = .ok none

section
variable (asn1c : Asn1c)

theorem encHdrPlus_einval {tag content following : List UInt8} (known : ShortTag tag)
    (small : (tlv tag content).length < 2 ^ 63) (nonempty : following ≠ [])
    (part : following.length ≤ content.length) (large : ¬ Parseable content.length) (followingBuffered : Bool) :
    ∃ f, encHdrPlus asn1c (tlv tag content) true following followingBuffered = .error f := by
  obtain ⟨buf, run, dataLen, -, result⟩ := encHdr_result asn1c tag content known small
  rw [if_neg large] at result
  have inside := length_content_lt tag content
  cases followingBuffered with
  | false =>
      obtain ⟨f, fault⟩ := derEncode_unbuffered asn1c following (some buf)
      exact ⟨f, by rw [encHdrPlus, run]; exact fault⟩
  | true =>
      obtain ⟨f, fault⟩ := derEncode_einval asn1c following nonempty buf result dataLen (by omega)
      exact ⟨f, by rw [encHdrPlus, run]; exact fault⟩

theorem encHdr_ne_none {tag content : List UInt8} (known : ShortTag tag)
    (small : (tlv tag content).length < 2 ^ 63) (buffered : Bool) :
    encHdr asn1c (tlv tag content) buffered ≠ .ok none := by
  intro failed
  cases buffered with
  | false =>
      obtain ⟨f, fault⟩ := encHdr_unbuffered asn1c (tlv tag content)
      cases fault.symm.trans failed
  | true =>
      obtain ⟨buf, run, -⟩ := encHdr_result asn1c tag content known small
      cases run.symm.trans failed

theorem encHdrPlus_large {tag content following : List UInt8} (known : ShortTag tag)
    (small : (tlv tag content).length < 2 ^ 63) (nonempty : following ≠ [])
    (part : following.length ≤ content.length) (large : ¬ Parseable content.length)
    (buffered followingBuffered : Bool) :
    ∃ f, encHdrPlus asn1c (tlv tag content) buffered following followingBuffered = .error f := by
  cases buffered with
  | false =>
      obtain ⟨f, fault⟩ := encHdr_unbuffered asn1c (tlv tag content)
      exact ⟨f, by rw [encHdrPlus, fault]⟩
  | true => exact encHdrPlus_einval asn1c known small nonempty part large followingBuffered

theorem encSeqOf87_einval {tag : List UInt8} {list : List OctetString} (known : ShortTag tag)
    (small : (tlv tag (list.flatMap der87tlv)).length < 2 ^ 63)
    (large : ¬ Parseable (list.flatMap der87tlv).length) :
    ∃ f, encSeqOf87 asn1c (tlv tag (list.flatMap der87tlv)) list = .error f := by
  cases list with
  | nil => exact absurd (by decide) large
  | cons first list =>
      have nonempty : der87tlv first ≠ [] :=
        List.ne_nil_of_length_pos (Nat.zero_lt_of_lt (length_content_lt [0x87] first.bytes))
      exact encHdrPlus_large asn1c known small nonempty
        (length_le_flatMap der87tlv _ first (List.mem_cons_self ..)) large _ _

theorem segment_einval {element : Element} (small : element.encoding.length < 2 ^ 63)
    (large : ¬ Parseable element.content.length) : element.segment asn1c ≠ .ok none := by
  intro failed
  have known := element.shortTag
  cases element with
  | package bpp =>
      have nonempty : derInitialiseSecureChannelRequest bpp.initialiseSecureChannelRequest ≠ [] :=
        List.ne_nil_of_length_pos (Nat.zero_lt_of_lt (length_content_lt [0xBF, 0x23] _))
      have part : (derInitialiseSecureChannelRequest bpp.initialiseSecureChannelRequest).length ≤
          (bppContent bpp).length := by
        simp only [bppContent, List.length_append]
        omega
      obtain ⟨f, fault⟩ := encHdrPlus_large asn1c known small nonempty part large bpp.buffered
        bpp.initialiseSecureChannelRequest.buffered
      cases fault.symm.trans failed
  | firstSequenceOf87 list =>
      obtain ⟨f, fault⟩ := encSeqOf87_einval asn1c known small large
      cases fault.symm.trans failed
  | sequenceOf88 list => exact encHdr_ne_none asn1c known small _ failed
  | secondSequenceOf87 list =>
      obtain ⟨f, fault⟩ := encSeqOf87_einval asn1c known small large
      cases fault.symm.trans failed
  | sequenceOf86 list => exact encHdr_ne_none asn1c known small _ failed

theorem Element.parsed (element : Element) (small : element.encoding.length < 2 ^ 63) :
    ∃ hdr, parseBtlvHdr element.encoding = .ok hdr ∧
      (hdr.rc = einvalSize ↔ ¬ Parseable element.content.length) := by
  have inside := length_content_lt element.tag element.content
  have size : element.encoding.length = (tlv element.tag element.content).length := rfl
  obtain ⟨hdr, parsed, rc⟩ := parseBtlvHdr_header element.tag element.shortTag element.content.length
    element.content (by omega)
  refine ⟨hdr, parsed, ?_⟩
  rw [rc]
  split
  · have header := length_tlv element.tag element.content
    unfold einvalSize
    exact iff_of_false (by omega) (by simpa)
  · exact iff_of_true rfl (by assumption)

theorem inside_of_begun {data : List UInt8} (object : data.length < 2 ^ 63) (begun : Begun data)
    (parseable : ∀ element : Element, element.encoding = data → Parseable element.content.length) :
    Inside asn1c data := by
  obtain ⟨hdr, tag, parsed, known, size⟩ := parseBtlvHdr_begun begun
  refine ⟨⟨hdr, parsed, size⟩, fun envelopeTag => ?_, ?_⟩
  · rw [ipaStripTlvEnvelope, parsed]
    simp only [known]
    by_cases other : tag ≠ envelopeTag
    · exact ⟨data, if_pos other, List.suffix_rfl, fun _ _ _ => rfl⟩
    · by_cases long : data.length < hdr.rc
      · exact ⟨data, by rw [if_neg other, if_pos long], List.suffix_rfl, fun _ _ _ => rfl⟩
      · refine ⟨data.drop hdr.rc, by rw [if_neg other, if_neg long], List.drop_suffix _ _, ?_⟩
        rintro _ ⟨⟩ refused
        unfold einvalSize at refused
        omega
  · rintro element rfl hdr' parsed' refused
    obtain ⟨hdr'', parsed'', large⟩ := element.parsed object
    rw [parsed'] at parsed''
    cases parsed''
    exact absurd (parseable element rfl) (large.mp refused)

/-- The bytes are as the header parser and its callers want them just if a tag and a first length byte are there, and
they are not an element of a package with 127 bytes of content or with 2 ^ 32 or more. -/
theorem headers_inside_iff (data : List UInt8) (object : data.length < 2 ^ 63) :
    Inside asn1c data ↔
      Begun data ∧ ∀ element : Element, element.encoding = data → Parseable element.content.length := by
  constructor
  · rintro ⟨⟨hdr, parsed, -⟩, envelope, segment⟩
    constructor
    · -- an undecoded tag would be compared
      obtain ⟨stripped, done, -⟩ := envelope 0
      rw [ipaStripTlvEnvelope, parsed] at done
      cases known : hdr.tag with
      | none => simp [known] at done
      | some tag => exact begun_of_parsed parsed known
    · rintro element rfl
      by_contra large
      obtain ⟨hdr', parsed', refused⟩ := element.parsed object
      exact segment_einval asn1c object large (segment element rfl hdr' parsed' (refused.mpr large))
  · rintro ⟨begun, parseable⟩
    exact inside_of_begun asn1c object begun parseable

end

theorem headers_inside_iff_short :
    Inside oneChunk [0x04, 0x01, 0xAA] ↔ Begun [0x04, 0x01, 0xAA] ∧
      ∀ element : Element, element.encoding = [0x04, 0x01, 0xAA] → Parseable element.content.length :=
  headers_inside_iff oneChunk [0x04, 0x01, 0xAA] (by decide)

set_option maxRecDepth 2000 in
/-- No byte at all, a tag with no length, half a tag, and a sequence of 127 bytes. -/
theorem headers_not_inside :
    ¬ Inside oneChunk [] ∧ ¬ Inside oneChunk [0x04] ∧ ¬ Inside oneChunk [0x5F] ∧
      ¬ Inside oneChunk (Element.sequenceOf88 [.octets (List.replicate 125 0x01)]).encoding := by
  refine ⟨?_, ?_, ?_, ?_⟩
  · rintro ⟨⟨hdr, parsed, -⟩, -, -⟩
    cases parsed
  · rintro ⟨⟨hdr, parsed, -⟩, -, -⟩
    cases parsed
  · rintro ⟨-, envelope, -⟩
    obtain ⟨stripped, done, -⟩ := envelope 0x5F37
    cases done
  · rintro ⟨-, -, segment⟩
    have small : (Element.sequenceOf88 [.octets (List.replicate 125 0x01)]).encoding.length < 2 ^ 63 := by decide
    have large : ¬ Parseable (Element.sequenceOf88 [.octets (List.replicate 125 0x01)]).content.length := by decide
    obtain ⟨hdr, parsed, refused⟩ := Element.parsed _ small
    exact segment_einval oneChunk small large (segment _ rfl hdr parsed (refused.mpr large))

end Ipad.HeaderBounds

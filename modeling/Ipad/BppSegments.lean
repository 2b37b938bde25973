import Mathlib.Data.List.Forall2
import Ipad.Utils.Asn1c

/-!
# Segments of a bound profile package

`bpp_segments.c`. An element is the list of the contents below its tag; the content of the
InitialiseSecureChannelRequest is not looked into.
-/

namespace Ipad.BppSegments
open Lib.Tlv Ipad.Utils

/-- `buffered` says whether all strings in the request have a buffer. -/
structure InitialiseSecureChannelRequest where
  content : List UInt8
  buffered : Bool
  deriving DecidableEq, Repr

structure BoundProfilePackage where
  initialiseSecureChannelRequest : InitialiseSecureChannelRequest
  firstSequenceOf87 : List OctetString
  sequenceOf88 : List OctetString
  secondSequenceOf87 : Option (List OctetString)
  sequenceOf86 : List OctetString
  deriving DecidableEq, Repr

def allBuffered (list : List OctetString) : Bool := list.all OctetString.buffered

def BoundProfilePackage.buffered (bpp : BoundProfilePackage) : Bool :=
  bpp.initialiseSecureChannelRequest.buffered && allBuffered bpp.firstSequenceOf87 && allBuffered bpp.sequenceOf88 &&
    bpp.secondSequenceOf87.all allBuffered && allBuffered bpp.sequenceOf86

/-! ## DER encodings -/

def der87tlv (st : OctetString) : List UInt8 := tlv [0x87] st.bytes
def der88tlv (st : OctetString) : List UInt8 := tlv [0x88] st.bytes
def der86tlv (st : OctetString) : List UInt8 := tlv [0x86] st.bytes

def derInitialiseSecureChannelRequest (req : InitialiseSecureChannelRequest) : List UInt8 :=
  tlv [0xBF, 0x23] req.content

def derFirstSequenceOf87 (list : List OctetString) : List UInt8 := tlv [0xA0] (list.flatMap der87tlv)
def derSequenceOf88 (list : List OctetString) : List UInt8 := tlv [0xA1] (list.flatMap der88tlv)
def derSecondSequenceOf87 (list : List OctetString) : List UInt8 := tlv [0xA2] (list.flatMap der87tlv)
def derSequenceOf86 (list : List OctetString) : List UInt8 := tlv [0xA3] (list.flatMap der86tlv)

def bppContent (bpp : BoundProfilePackage) : List UInt8 :=
  derInitialiseSecureChannelRequest bpp.initialiseSecureChannelRequest ++
    derFirstSequenceOf87 bpp.firstSequenceOf87 ++ derSequenceOf88 bpp.sequenceOf88 ++
    (bpp.secondSequenceOf87.map derSecondSequenceOf87).getD [] ++ derSequenceOf86 bpp.sequenceOf86

def derBoundProfilePackage (bpp : BoundProfilePackage) : List UInt8 := tlv [0xBF, 0x36] (bppContent bpp)

structure StoredBpp extends BoundProfilePackage where
  stored : (derBoundProfilePackage toBoundProfilePackage).length < 2 ^ 63

/-! ## The code -/

/-- The full element is encoded and its value part pinched off. An error of the header parser becomes
the length of the buffer. -/
def encHdr (asn1c : Asn1c) (encoding : List UInt8) (buffered : Bool) : Except Fault (Option IpaBuf) :=
  match derEncode asn1c encoding buffered none with
  | .error f => .error f
  | .ok none => .ok none
  | .ok (some encoded) => (ipaParseBtlvHdr encoded).map fun hdr => some { encoded with len := hdr.rc }

/-- Everything in the element that follows is in the first one, too. -/
def encHdrPlus (asn1c : Asn1c) (encoding : List UInt8) (buffered : Bool) (following : List UInt8)
    (followingBuffered : Bool) : Except Fault (Option IpaBuf) :=
  match encHdr asn1c encoding buffered with
  | .ok (some encoded) => derEncode asn1c following followingBuffered (some encoded)
  | failed => failed

def encSeqOf87 (asn1c : Asn1c) (encoding : List UInt8) (list : List OctetString) : Except Fault (Option IpaBuf) :=
  match list with
  | [] => (encHdr asn1c encoding (allBuffered [])).map fun _ => none
  | first :: rest => encHdrPlus asn1c encoding (allBuffered (first :: rest)) (der87tlv first) first.buffered

def encInitSecChanReq (asn1c : Asn1c) (bpp : BoundProfilePackage) : Except Fault (Option IpaBuf) :=
  encHdrPlus asn1c (derBoundProfilePackage bpp) bpp.buffered
    (derInitialiseSecureChannelRequest bpp.initialiseSecureChannelRequest) bpp.initialiseSecureChannelRequest.buffered

def encFirstSeqOf87 (asn1c : Asn1c) (list : List OctetString) : Except Fault (Option IpaBuf) :=
  encSeqOf87 asn1c (derFirstSequenceOf87 list) list

def encTagAndLenOfSequenceOf88 (asn1c : Asn1c) (list : List OctetString) : Except Fault (Option IpaBuf) :=
  encHdr asn1c (derSequenceOf88 list) (allBuffered list)

def encEachOfSequenceOf88 (asn1c : Asn1c) (st : OctetString) : Except Fault (Option IpaBuf) :=
  derEncode asn1c (der88tlv st) st.buffered none

def encSecondSeqOf87 (asn1c : Asn1c) (list : List OctetString) : Except Fault (Option IpaBuf) :=
  encSeqOf87 asn1c (derSecondSequenceOf87 list) list

def encTagAndLenOfSequenceOf86 (asn1c : Asn1c) (list : List OctetString) : Except Fault (Option IpaBuf) :=
  encHdr asn1c (derSequenceOf86 list) (allBuffered list)

def encEachOfSequenceOf86 (asn1c : Asn1c) (st : OctetString) : Except Fault (Option IpaBuf) :=
  derEncode asn1c (der86tlv st) st.buffered none

def addSegments : List (Except Fault (Option IpaBuf)) → Except Fault (Option (List IpaBuf))
  | [] => .ok (some [])
  | .error f :: _ => .error f
  | .ok none :: _ => .ok none
  | .ok (some segment) :: rest => (addSegments rest).map fun segments => segments.map (segment :: ·)

def ipaBppSegmentsEncode (asn1c : Asn1c) (bpp : BoundProfilePackage) :
    Except Fault (Option (List IpaBuf)) :=
  addSegments <|
    [encInitSecChanReq asn1c bpp, encFirstSeqOf87 asn1c bpp.firstSequenceOf87,
      encTagAndLenOfSequenceOf88 asn1c bpp.sequenceOf88] ++
    bpp.sequenceOf88.map (encEachOfSequenceOf88 asn1c) ++
    (bpp.secondSequenceOf87.map (encSecondSeqOf87 asn1c)).toList ++
    [encTagAndLenOfSequenceOf86 asn1c bpp.sequenceOf86] ++
    bpp.sequenceOf86.map (encEachOfSequenceOf86 asn1c)

/-! ## The segments of SGP.22, section 2.5.5 -/

def headerOf (tag : List UInt8) (content : List UInt8) : List UInt8 := header tag content.length

def bppSegments (bpp : BoundProfilePackage) : List (List UInt8) :=
  [headerOf [0xBF, 0x36] (bppContent bpp) ++
      derInitialiseSecureChannelRequest bpp.initialiseSecureChannelRequest,
    headerOf [0xA0] (bpp.firstSequenceOf87.flatMap der87tlv) ++ bpp.firstSequenceOf87.flatMap der87tlv,
    headerOf [0xA1] (bpp.sequenceOf88.flatMap der88tlv)] ++
  bpp.sequenceOf88.map der88tlv ++
  (bpp.secondSequenceOf87.map fun list =>
    headerOf [0xA2] (list.flatMap der87tlv) ++ list.flatMap der87tlv).toList ++
  [headerOf [0xA3] (bpp.sequenceOf86.flatMap der86tlv)] ++
  bpp.sequenceOf86.map der86tlv

theorem flatten_bppSegments (bpp : BoundProfilePackage) :
    (bppSegments bpp).flatten = derBoundProfilePackage bpp := by
  cases second : bpp.secondSequenceOf87 <;>
    simp [bppSegments, derBoundProfilePackage, bppContent, second, tlv, headerOf, derFirstSequenceOf87,
      derSequenceOf88, derSecondSequenceOf87, derSequenceOf86, List.flatMap_def]

def Segmentation (bpp : BoundProfilePackage) (result : Except Fault (Option (List IpaBuf))) : Prop :=
  ∃ segments, result = .ok (some segments) ∧ segments.map IpaBuf.bytes = bppSegments bpp ∧
    (segments.map IpaBuf.bytes).flatten = derBoundProfilePackage bpp

def cutLengths (bpp : BoundProfilePackage) : List Nat :=
  [(bppContent bpp).length, (bpp.firstSequenceOf87.flatMap der87tlv).length,
    (bpp.sequenceOf88.flatMap der88tlv).length] ++
  (bpp.secondSequenceOf87.map fun list => (list.flatMap der87tlv).length).toList ++
  [(bpp.sequenceOf86.flatMap der86tlv).length]

/-! ## What each segment encoder yields -/

def Yields (result : Except Fault (Option IpaBuf)) (segment : List UInt8) : Prop :=
  ∃ buf, result = .ok (some buf) ∧ buf.bytes = segment

theorem addSegments_ok_iff (encoders : List (Except Fault (Option IpaBuf))) (expected : List (List UInt8)) :
    (∃ segments, addSegments encoders = .ok (some segments) ∧ segments.map IpaBuf.bytes = expected) ↔
      List.Forall₂ Yields encoders expected := by
  induction encoders generalizing expected with
  | nil => cases expected <;> simp [addSegments]
  | cons encoder encoders ih =>
      have split : (∃ segments, addSegments (encoder :: encoders) = .ok (some segments) ∧
          segments.map IpaBuf.bytes = expected) ↔
          ∃ buf rest, encoder = .ok (some buf) ∧ addSegments encoders = .ok (some rest) ∧
            buf.bytes :: rest.map IpaBuf.bytes = expected := by
        rcases encoder with f | _ | segment
        · simp [addSegments]
        · simp [addSegments]
        · rcases run : addSegments encoders with f | _ | rest <;> simp [addSegments, run, Except.map]
      rw [split]
      cases expected with
      | nil => simp
      | cons first expected =>
          rw [List.forall₂_cons, ← ih expected]
          constructor
          · rintro ⟨buf, rest, encoded, run, match_bytes⟩
            obtain ⟨same, tail⟩ := List.cons.inj match_bytes
            exact ⟨⟨buf, encoded, same⟩, rest, run, tail⟩
          · rintro ⟨⟨buf, encoded, same⟩, rest, run, tail⟩
            exact ⟨buf, rest, encoded, run, by rw [same, tail]⟩

theorem forall₂_map_append {α β γ : Type} {R : β → γ → Prop} (list : List α) (f : α → β) (g : α → γ)
    (left : List β) (right : List γ) :
    List.Forall₂ R (list.map f ++ left) (list.map g ++ right) ↔
      (∀ x ∈ list, R (f x) (g x)) ∧ List.Forall₂ R left right := by
  induction list with
  | nil => simp
  | cons x list ih => simp [ih, and_assoc]

section
variable (asn1c : Asn1c)

theorem derEncode_yields (tag content : List UInt8) (small : (tlv tag content).length < 2 ^ 63) :
    Yields (derEncode asn1c (tlv tag content) true none) (tlv tag content) := by
  obtain ⟨out, run, bytes, -⟩ := derEncode_ok asn1c (tlv tag content)
    (List.ne_nil_of_length_pos (Nat.zero_lt_of_lt (length_content_lt tag content))) none
    (alloc_ordinary _ small)
  exact ⟨out, run, by simpa using bytes⟩

theorem encHdr_result (tag content : List UInt8) (known : ShortTag tag)
    (small : (tlv tag content).length < 2 ^ 63) :
    ∃ buf, encHdr asn1c (tlv tag content) true = .ok (some buf) ∧
      buf.dataLen < 2 ^ 63 + ipaLenAsn1EncoderBuf ∧ (tlv tag content).length ≤ buf.dataLen ∧
      if Parseable content.length then buf.len ≤ (tlv tag content).length ∧ buf.bytes = headerOf tag content
      else buf.len = einvalSize := by
  have positive : tlv tag content ≠ [] :=
    List.ne_nil_of_length_pos (Nat.zero_lt_of_lt (length_content_lt tag content))
  obtain ⟨out, run, bytes, ordinary⟩ := derEncode_ok asn1c (tlv tag content) positive none
    (alloc_ordinary _ small)
  simp only [Option.getD_none, IpaBuf.alloc_bytes, List.nil_append] at bytes
  have width := out.length_bytes ordinary.valid
  have inside := length_content_lt tag content
  have size := ordinary.valid
  unfold IpaBuf.Valid at size
  rw [bytes] at width
  obtain ⟨hdr, parsed, rc⟩ := parseBtlvHdr_header tag known content.length content (by omega)
  have parsed : parseBtlvHdr (tlv tag content) = .ok hdr := parsed
  refine ⟨{ out with len := hdr.rc }, ?_, ordinary.dataLen, by rw [width]; exact size, ?_⟩
  · simp only [encHdr, run, ipaParseBtlvHdr, bytes, parsed, Except.map]
  · rw [rc]
    split
    · have cut : (headerOf tag content).length ≤ out.len := by
        rw [← width, length_tlv]
        exact Nat.le_add_right _ _
      refine ⟨by rw [width]; exact cut, ?_⟩
      have whole : out.data.take out.len = headerOf tag content ++ content := bytes
      calc out.data.take (headerOf tag content).length
          = (out.data.take out.len).take (headerOf tag content).length := by
            rw [List.take_take, Nat.min_eq_left cut]
        _ = headerOf tag content := by rw [whole, List.take_left]
    · rfl

theorem encHdr_yields_iff (tag content : List UInt8) (known : ShortTag tag)
    (small : (tlv tag content).length < 2 ^ 63) :
    Yields (encHdr asn1c (tlv tag content) true) (headerOf tag content) ↔ Parseable content.length := by
  obtain ⟨buf, run, dataLen, stored, result⟩ := encHdr_result asn1c tag content known small
  by_cases parseable : Parseable content.length
  · rw [if_pos parseable] at result
    simp only [parseable, iff_true]
    exact ⟨buf, run, result.2⟩
  · rw [if_neg parseable] at result
    simp only [parseable, iff_false]
    rintro ⟨other, again, bytes⟩
    obtain rfl : buf = other := by simpa using run.symm.trans again
    -- all memory of the buffer is longer than the header of an element with a value
    have long := congrArg List.length bytes
    rw [IpaBuf.bytes, List.length_take, result, ← IpaBuf.dataLen] at long
    rw [length_tlv] at stored
    simp only [headerOf, Parseable, ipaLenAsn1EncoderBuf, einvalSize] at *
    omega

theorem encHdrPlus_yields_iff (tag content following : List UInt8) (known : ShortTag tag)
    (small : (tlv tag content).length < 2 ^ 63) (nonempty : following ≠ [])
    (part : following.length ≤ content.length) :
    Yields (encHdrPlus asn1c (tlv tag content) true following true) (headerOf tag content ++ following) ↔
      Parseable content.length := by
  obtain ⟨buf, run, dataLen, stored, result⟩ := encHdr_result asn1c tag content known small
  have whole := length_tlv tag content
  unfold encHdrPlus
  rw [run]
  by_cases parseable : Parseable content.length
  · rw [if_pos parseable] at result
    obtain ⟨len, bytes⟩ := result
    have valid : buf.Valid := Nat.le_trans len stored
    have width := buf.length_bytes valid
    rw [bytes, headerOf] at width
    obtain ⟨out, appended, content, -⟩ := derEncode_ok asn1c following nonempty (some buf)
      ⟨valid, by simp only [Option.getD_some]; omega, dataLen⟩
    simp only [parseable, iff_true]
    exact ⟨out, appended, by rw [content, Option.getD_some, bytes]⟩
  · rw [if_neg parseable] at result
    obtain ⟨f, fault⟩ := derEncode_einval asn1c following nonempty buf result dataLen (by omega)
    simp [Yields, fault, parseable]

theorem encHdr_unbuffered (encoding : List UInt8) : ∃ f, encHdr asn1c encoding false = .error f := by
  obtain ⟨f, fault⟩ := derEncode_unbuffered asn1c encoding none
  exact ⟨f, by rw [encHdr, fault]⟩

theorem length_le_flatMap (enc : OctetString → List UInt8) (list : List OctetString)
    (content : OctetString) (member : content ∈ list) :
    (enc content).length ≤ (list.flatMap enc).length := by
  obtain ⟨before, after, rfl⟩ := List.append_of_mem member
  simp only [List.flatMap_append, List.flatMap_cons, List.length_append]
  omega

/-- The segments that are whole elements are always right. -/
theorem derEncode_yields_each (outer inner : List UInt8) {list : List OctetString} (buffered : allBuffered list = true)
    (small : (tlv outer (list.flatMap fun st => tlv inner st.bytes)).length < 2 ^ 63) (st : OctetString)
    (member : st ∈ list) :
    Yields (derEncode asn1c (tlv inner st.bytes) st.buffered none) (tlv inner st.bytes) := by
  rw [List.all_eq_true.mp buffered st member]
  have inside := length_content_lt outer (list.flatMap fun st => tlv inner st.bytes)
  have part := length_le_flatMap (fun st => tlv inner st.bytes) list st member
  exact derEncode_yields asn1c inner st.bytes (by omega)

theorem encSeqOf87_yields_iff (tag : List UInt8) (list : List OctetString) (known : ShortTag tag)
    (small : (tlv tag (list.flatMap der87tlv)).length < 2 ^ 63) (single : list.length = 1)
    (buffered : allBuffered list = true) :
    Yields (encSeqOf87 asn1c (tlv tag (list.flatMap der87tlv)) list)
        (headerOf tag (list.flatMap der87tlv) ++ list.flatMap der87tlv) ↔
      Parseable (list.flatMap der87tlv).length := by
  obtain ⟨one, rfl⟩ := List.length_eq_one_iff.mp single
  have here : one.buffered = true := by simpa [allBuffered] using buffered
  simp only [List.flatMap_singleton] at small ⊢
  rw [encSeqOf87, buffered, here]
  exact encHdrPlus_yields_iff asn1c tag (der87tlv one) (der87tlv one) known small
    (List.ne_nil_of_length_pos (Nat.zero_lt_of_lt (length_content_lt [0x87] one.bytes))) (Nat.le_refl _)

theorem segmentation_iff_yields (bpp : BoundProfilePackage) :
    Segmentation bpp (ipaBppSegmentsEncode asn1c bpp) ↔
      List.Forall₂ Yields
        ([encInitSecChanReq asn1c bpp, encFirstSeqOf87 asn1c bpp.firstSequenceOf87,
            encTagAndLenOfSequenceOf88 asn1c bpp.sequenceOf88] ++
          bpp.sequenceOf88.map (encEachOfSequenceOf88 asn1c) ++
          (bpp.secondSequenceOf87.map (encSecondSeqOf87 asn1c)).toList ++
          [encTagAndLenOfSequenceOf86 asn1c bpp.sequenceOf86] ++
          bpp.sequenceOf86.map (encEachOfSequenceOf86 asn1c))
        (bppSegments bpp) := by
  rw [← addSegments_ok_iff]
  constructor
  · rintro ⟨segments, run, bytes, -⟩
    exact ⟨segments, run, bytes⟩
  · rintro ⟨segments, run, bytes⟩
    exact ⟨segments, run, bytes, by rw [bytes, flatten_bppSegments]⟩

theorem not_segmentation_unbuffered (bpp : BoundProfilePackage) (lacks : bpp.buffered = false) :
    ¬ Segmentation bpp (ipaBppSegmentsEncode asn1c bpp) := by
  rintro ⟨segments, run, -⟩
  obtain ⟨f, fault⟩ := encHdr_unbuffered asn1c (derBoundProfilePackage bpp)
  have first : encInitSecChanReq asn1c bpp = .error f := by rw [encInitSecChanReq, encHdrPlus, lacks, fault]
  simp [ipaBppSegmentsEncode, addSegments, first] at run

theorem segmentation_buffered_iff (bpp : StoredBpp) (buffered : bpp.buffered = true)
    (first : bpp.firstSequenceOf87.length = 1) (second : ∀ list ∈ bpp.secondSequenceOf87, list.length = 1) :
    Segmentation bpp.toBoundProfilePackage (ipaBppSegmentsEncode asn1c bpp.toBoundProfilePackage) ↔
      ∀ n ∈ cutLengths bpp.toBoundProfilePackage, Parseable n := by
  obtain ⟨bpp, stored⟩ := bpp
  simp only at buffered first second ⊢
  have whole' := buffered
  simp only [BoundProfilePackage.buffered, Bool.and_eq_true] at whole'
  obtain ⟨⟨⟨⟨bufferedReq, buffered87⟩, buffered88⟩, bufferedSecond⟩, buffered86⟩ := whole'
  have whole : (bppContent bpp).length < 2 ^ 63 :=
    Nat.lt_trans (length_content_lt [0xBF, 0x36] (bppContent bpp)) stored
  have parts : (bppContent bpp).length =
      (derInitialiseSecureChannelRequest bpp.initialiseSecureChannelRequest).length +
      (derFirstSequenceOf87 bpp.firstSequenceOf87).length + (derSequenceOf88 bpp.sequenceOf88).length +
      ((bpp.secondSequenceOf87.map derSecondSequenceOf87).getD []).length +
      (derSequenceOf86 bpp.sequenceOf86).length := by
    simp only [bppContent, List.length_append]
  have each88 : ∀ st ∈ bpp.sequenceOf88, Yields (encEachOfSequenceOf88 asn1c st) (der88tlv st) :=
    derEncode_yields_each asn1c [0xA1] [0x88] buffered88
      (show (derSequenceOf88 bpp.sequenceOf88).length < 2 ^ 63 by omega)
  have each86 : ∀ st ∈ bpp.sequenceOf86, Yields (encEachOfSequenceOf86 asn1c st) (der86tlv st) :=
    derEncode_yields_each asn1c [0xA3] [0x86] buffered86
      (show (derSequenceOf86 bpp.sequenceOf86).length < 2 ^ 63 by omega)
  -- the segments with a cut header are right when the length of their element can be read back
  have init : Yields (encInitSecChanReq asn1c bpp) (headerOf [0xBF, 0x36] (bppContent bpp) ++
      derInitialiseSecureChannelRequest bpp.initialiseSecureChannelRequest) ↔
      Parseable (bppContent bpp).length := by
    rw [encInitSecChanReq, buffered, bufferedReq]
    exact encHdrPlus_yields_iff asn1c _ _ _ (.two _ _ (by decide)) stored
      (List.ne_nil_of_length_pos (Nat.zero_lt_of_lt (length_content_lt _ _))) (by omega)
  have firstSeq : Yields (encFirstSeqOf87 asn1c bpp.firstSequenceOf87)
      (headerOf [0xA0] (bpp.firstSequenceOf87.flatMap der87tlv) ++ bpp.firstSequenceOf87.flatMap der87tlv) ↔
      Parseable (bpp.firstSequenceOf87.flatMap der87tlv).length :=
    encSeqOf87_yields_iff asn1c [0xA0] _ (.one _ (by decide))
      (by simp only [derFirstSequenceOf87] at parts; omega) first buffered87
  have header88 : Yields (encTagAndLenOfSequenceOf88 asn1c bpp.sequenceOf88)
      (headerOf [0xA1] (bpp.sequenceOf88.flatMap der88tlv)) ↔
      Parseable (bpp.sequenceOf88.flatMap der88tlv).length := by
    rw [encTagAndLenOfSequenceOf88, buffered88]
    exact encHdr_yields_iff asn1c [0xA1] _ (.one _ (by decide))
      (by simp only [derSequenceOf88] at parts; omega)
  have header86 : Yields (encTagAndLenOfSequenceOf86 asn1c bpp.sequenceOf86)
      (headerOf [0xA3] (bpp.sequenceOf86.flatMap der86tlv)) ↔
      Parseable (bpp.sequenceOf86.flatMap der86tlv).length := by
    rw [encTagAndLenOfSequenceOf86, buffered86]
    exact encHdr_yields_iff asn1c [0xA3] _ (.one _ (by decide))
      (by simp only [derSequenceOf86] at parts; omega)
  have last86 := forall₂_map_append (R := Yields) bpp.sequenceOf86 (encEachOfSequenceOf86 asn1c) der86tlv [] []
  rw [List.append_nil, List.append_nil] at last86
  rw [segmentation_iff_yields, bppSegments, cutLengths]
  cases found : bpp.secondSequenceOf87 with
  | none =>
      simp only [Option.map_none, Option.toList_none, List.append_nil, List.append_assoc, List.cons_append,
        List.nil_append, List.forall₂_cons, forall₂_map_append, last86, init, firstSeq, header88, header86,
        List.forall₂_nil_left_iff, List.mem_cons, forall_eq_or_imp]
      simp [iff_true_intro each88, iff_true_intro each86]
  | some list =>
      rw [found] at parts second bufferedSecond
      have secondSeq : Yields (encSecondSeqOf87 asn1c list)
          (headerOf [0xA2] (list.flatMap der87tlv) ++ list.flatMap der87tlv) ↔
          Parseable (list.flatMap der87tlv).length :=
        encSeqOf87_yields_iff asn1c [0xA2] list (.one _ (by decide))
          (by simp only [derSecondSequenceOf87, Option.map_some, Option.getD_some] at parts; omega)
          (second list rfl) bufferedSecond
      simp only [Option.map_some, Option.toList_some, List.append_assoc, List.cons_append, List.nil_append,
        List.forall₂_cons, forall₂_map_append, last86, init, firstSeq, header88, secondSeq, header86,
        List.forall₂_nil_left_iff, List.mem_cons, forall_eq_or_imp]
      simp [iff_true_intro each88, iff_true_intro each86]

/-- The encoder yields the segments of the package exactly when every string in it has a buffer and its header
parser can read the lengths of all elements it cuts: none is 127 and none is 2^32 or more. -/
theorem ipaBppSegmentsEncode_segmentation_iff (bpp : StoredBpp)
    (first : bpp.firstSequenceOf87.length = 1)
    (second : ∀ list ∈ bpp.secondSequenceOf87, list.length = 1) :
    Segmentation bpp.toBoundProfilePackage (ipaBppSegmentsEncode asn1c bpp.toBoundProfilePackage) ↔
      bpp.buffered = true ∧ ∀ n ∈ cutLengths bpp.toBoundProfilePackage, Parseable n := by
  cases buffered : bpp.buffered with
  | false =>
      exact iff_of_false (not_segmentation_unbuffered asn1c _ buffered) fun sound => Bool.false_ne_true sound.1
  | true =>
      rw [segmentation_buffered_iff asn1c bpp buffered first second]
      exact (and_iff_right rfl).symm

end

/-- One chunk for the encoding, and one more for the strings without a buffer. -/
def oneChunk : Asn1c where
  chunks encoding buffered := some encoding :: if buffered then [] else [none]
  handsOut encoding buffered :=
    { flatten := by cases buffered <;> simp
      none_mem := by cases buffered <;> simp }

def smallBpp : StoredBpp :=
  ⟨⟨⟨[0x82, 0x01, 0x01], true⟩, [.octets [0x01, 0x02]], [.octets [0x03], .octets []], some [.octets [0x04]],
    [.octets [0x05, 0x06]]⟩, by decide⟩

theorem smallBpp_segmentation :
    Segmentation smallBpp.toBoundProfilePackage
      (ipaBppSegmentsEncode oneChunk smallBpp.toBoundProfilePackage) :=
  (ipaBppSegmentsEncode_segmentation_iff oneChunk smallBpp (by decide) (by decide)).mpr (by decide)

def shortFormBpp : BoundProfilePackage :=
  ⟨⟨[0x82, 0x01, 0x01], true⟩, [.octets (List.replicate 125 0x01)], [], none, []⟩

set_option maxRecDepth 2000 in
theorem shortFormBpp_not_segmentation :
    ¬ Segmentation shortFormBpp (ipaBppSegmentsEncode oneChunk shortFormBpp) := by
  intro segmentation
  have yields := (segmentation_iff_yields oneChunk shortFormBpp).mp segmentation
  have second := (List.forall₂_cons.mp (List.forall₂_cons.mp yields).2).1
  have parseable := (encSeqOf87_yields_iff oneChunk [0xA0] shortFormBpp.firstSequenceOf87 (.one _ (by decide))
    (by decide) rfl rfl).mp second
  exact absurd parseable (by decide)

end Ipad.BppSegments

import Mathlib.Algebra.Group.Nat.Defs
import Ipad.Utils.Strings

/-!
# Headers and envelopes

What the header parser reads back of a DER header, and what `ipa_strip_tlv_envelope` takes for an
envelope.
-/

namespace Ipad.Utils
open Lib.Tlv

/-! ## Headers -/

/-- The parser returns the size of the header and reads the tag and the length back. -/
def ReadsBack (tag : Tag) (n : Nat) (rest : List UInt8) : Prop :=
  ∃ hdr, parseBtlvHdr (header tag.bytes n ++ rest) = .ok hdr ∧ hdr.rc = (header tag.bytes n).length ∧
    hdr.tag = some tag.value ∧ hdr.len.map UInt16.toNat = some n

theorem parseBtlvHdr_tag (tag : Tag) (data : List UInt8) :
    parseBtlvHdr (tag.bytes ++ data) = parseBtlvLen tag.value tag.bytes.length data := by
  cases tag with
  | one first short => simp [parseBtlvHdr, Tag.bytes, Tag.value, short]
  | two first second long => simp [parseBtlvHdr, Tag.bytes, Tag.value, long]

theorem parseBtlvHdr_headerOf (tag : Tag) (n : Nat) (bounded : n < 2 ^ 64) (rest : List UInt8) :
    parseBtlvHdr (header tag.bytes n ++ rest) = .ok (headerOf tag.value tag.bytes.length n) := by
  rw [header, List.append_assoc, parseBtlvHdr_tag]
  exact parseBtlvLen_derLength _ _ n rest bounded

theorem readsBack_iff (tag : Tag) (n : Nat) (bounded : n < 2 ^ 32) (rest : List UInt8) :
    ReadsBack tag n rest ↔ n ≠ 127 ∧ n < 65536 := by
  have known : Parseable n ↔ n ≠ 127 := and_iff_left bounded
  rw [ReadsBack, parseBtlvHdr_headerOf tag n (by omega), headerOf]
  by_cases apart : n = 127
  · -- the length byte 7f is taken for the long form of 127 length bytes
    rw [if_neg fun parseable => known.mp parseable apart]
    refine iff_of_false ?_ fun small => small.1 apart
    rintro ⟨_, ⟨⟩, -, -, len⟩
    cases len
  · rw [if_pos (known.mpr apart)]
    constructor
    · rintro ⟨_, ⟨⟩, -, -, len⟩
      have same := Option.some_inj.mp len
      exact ⟨apart, same ▸ (UInt16.ofNat n).toNat_lt⟩
    · rintro ⟨-, small⟩
      refine ⟨_, rfl, by rw [header, List.length_append], rfl, ?_⟩
      exact congrArg some (UInt16.toNat_ofNat_of_lt' small)

theorem readsBack_65535 : ReadsBack (.two 0xBF 0x36 (by decide)) 65535 [0xFF] :=
  (readsBack_iff _ 65535 (by decide) [0xFF]).mpr ⟨by decide, by decide⟩

theorem not_readsBack :
    ¬ ReadsBack (.one 0x04 (by decide)) 127 [] ∧ ¬ ReadsBack (.one 0x04 (by decide)) 65536 [] := by
  constructor
  · rintro ⟨hdr, parsed, -, -, len⟩
    cases parsed
    cases len
  · rintro ⟨hdr, parsed, -, -, len⟩
    rw [parseBtlvHdr_headerOf _ 65536 (by decide)] at parsed
    cases parsed
    exact absurd len (by decide)

theorem Tag.exists_append (first : UInt8) (data : List UInt8) :
    (data = [] ∧ first &&& 0x1f = 0x1f) ∨ ∃ tag rest, first :: data = Tag.bytes tag ++ rest := by
  by_cases long : first &&& 0x1f = 0x1f
  · cases data with
    | nil => exact .inl ⟨rfl, long⟩
    | cons second data => exact .inr ⟨.two first second long, data, rfl⟩
  · exact .inr ⟨.one first long, data, rfl⟩

/-! ## Envelopes -/

/-- The tag, a length field and as many bytes as it says. -/
def Envelope (tag : Tag) (data content : List UInt8) : Prop :=
  ∃ field, BerLength field content.length ∧ data = tag.bytes ++ (field ++ content)

/-- The length fields that the parser takes. -/
structure Taken (field : List UInt8) : Prop where
  known : ∃ n, BerLength field n
  apart : field ≠ [0x7f]
  few : field.length ≤ 5

/-- The tag and a length field, whatever it says. -/
def LooksWrapped (tag : Tag) (data rest : List UInt8) : Prop :=
  ∃ field, Taken field ∧ data = tag.bytes ++ (field ++ rest)

theorem readLenBytes_le (lenBytes : Nat) (data : List UInt8) (valueLen read : UInt16)
    (enough : readLenBytes lenBytes data valueLen = some read) : lenBytes ≤ data.length := by
  induction lenBytes generalizing data valueLen with
  | zero => exact Nat.zero_le _
  | succ lenBytes ih =>
      cases data with
      | nil => cases enough
      | cons byte data => exact Nat.succ_le_succ (ih data _ enough)

theorem longForm_iff (first : UInt8) (count : Nat) (few : 0 < count ∧ count ≤ 4) :
    ¬ first < 0x7f ∧ (first &&& 0x7f).toNat = count ↔ first.toNat = 128 + count := by
  have byte := first.toNat_lt
  have mask : (first &&& 0x7f).toNat = first.toNat % 2 ^ 7 := by
    rw [UInt8.toNat_and]
    exact Nat.and_two_pow_sub_one_eq_mod first.toNat 7
  have low : first < 0x7f ↔ first.toNat < 127 := UInt8.lt_iff_toNat_lt
  rw [mask, low]
  omega

theorem parseBtlvLen_taken (tag : UInt16) (skipLen : Nat) (field rest : List UInt8) (taken : Taken field) :
    ∃ hdr, parseBtlvLen tag skipLen (field ++ rest) = .ok hdr ∧ hdr.tag = some tag ∧
      hdr.rc = skipLen + field.length := by
  obtain ⟨⟨n, known⟩, apart, few⟩ := taken
  cases known with
  | short first low =>
      have below : first < 0x7f := by
        rw [UInt8.lt_iff_toNat_lt]
        apply Nat.lt_of_le_of_ne (Nat.le_of_lt_succ low)
        exact fun same => apart (by rw [UInt8.toNat_inj.mp (show first.toNat = (0x7f : UInt8).toNat from same)])
      rw [List.singleton_append, parseBtlvLen, if_pos below]
      exact ⟨_, rfl, rfl, rfl⟩
  | long first digits count some =>
      rw [List.length_cons] at few
      have positive := List.length_pos_iff.mpr some
      obtain ⟨high, masked⟩ := (longForm_iff first digits.length ⟨positive, by omega⟩).mpr count
      have read := readLenBytes_eq digits rest 0
      simp only [List.cons_append, parseBtlvLen, high, if_false, masked]
      rw [if_neg (by omega), show (0 : UInt16) = UInt16.ofNat 0 from rfl, read]
      exact ⟨_, rfl, rfl, by rw [List.length_cons, Nat.add_assoc, Nat.add_comm 1]⟩

theorem parseBtlvLen_ok (tag : UInt16) (skipLen : Nat) (data : List UInt8) (hdr : BtlvHdr)
    (parsed : parseBtlvLen tag skipLen data = .ok hdr) :
    hdr.tag = some tag ∧ (hdr.rc = einvalSize ∨ ∃ field rest, Taken field ∧ data = field ++ rest) := by
  cases data with
  | nil => cases parsed
  | cons first data =>
      rw [parseBtlvLen] at parsed
      split at parsed
      next below =>
        cases parsed
        have low := UInt8.lt_iff_toNat_lt.mp below
        refine ⟨rfl, .inr ⟨[first], data, ⟨⟨_, .short first (Nat.lt_succ_of_lt low)⟩, ?_, ?_⟩, rfl⟩⟩
        · rintro ⟨⟩
          exact absurd below (by decide)
        · exact Nat.succ_le_succ (Nat.zero_le 4)
      next high =>
        simp only at parsed
        split at parsed
        · cases parsed
          exact ⟨rfl, .inl rfl⟩
        next some =>
          split at parsed
          · cases parsed
            exact ⟨rfl, .inl rfl⟩
          next valueLen read =>
            cases parsed
            have enough := readLenBytes_le _ _ _ _ read
            generalize count : (first &&& 0x7f).toNat = lenBytes at some enough
            have long := (longForm_iff first lenBytes (by omega)).mp ⟨high, count⟩
            have size : (data.take lenBytes).length = lenBytes := by rw [List.length_take, Nat.min_eq_left enough]
            have digits : data.take lenBytes ≠ [] := List.ne_nil_of_length_pos (by omega)
            have known := BerLength.long first (data.take lenBytes) (by omega) digits (by omega)
            refine ⟨rfl, .inr ⟨first :: data.take lenBytes, data.drop lenBytes, ⟨⟨_, known⟩, ?_, ?_⟩, ?_⟩⟩
            · exact fun same => digits (List.cons_eq_cons.mp same).2
            · rw [List.length_cons]
              omega
            · rw [List.cons_append, List.take_append_drop]

theorem ipaStripTlvEnvelope_wrapped {tag : Tag} {data rest : List UInt8} (wrapped : LooksWrapped tag data rest) :
    ipaStripTlvEnvelope data tag.value = rest := by
  obtain ⟨field, taken, rfl⟩ := wrapped
  obtain ⟨hdr, parsed, known, rc⟩ := parseBtlvLen_taken tag.value tag.bytes.length field rest taken
  have size : hdr.rc = (tag.bytes ++ field).length := by rw [rc, List.length_append]
  have fits : ¬ (tag.bytes ++ (field ++ rest)).length < hdr.rc := by
    rw [size, ← List.append_assoc, List.length_append, List.length_append]
    omega
  rw [ipaStripTlvEnvelope, parseBtlvHdr_tag, parsed]
  simp only [known, ne_eq, not_true_eq_false, if_false]
  rw [if_neg fits, size, ← List.append_assoc, List.drop_left]

theorem ipaStripTlvEnvelope_unwrapped {tag : Tag} {data : List UInt8} (fits : data.length < einvalSize)
    (unwrapped : ∀ rest, ¬ LooksWrapped tag data rest) : ipaStripTlvEnvelope data tag.value = data := by
  cases data with
  | nil => rfl
  | cons first data =>
      rcases Tag.exists_append first data with ⟨rfl, long⟩ | ⟨tag', rest, split⟩
      · simp [ipaStripTlvEnvelope, parseBtlvHdr, long]
      · rw [split] at fits unwrapped ⊢
        rw [ipaStripTlvEnvelope, parseBtlvHdr_tag]
        cases parsed : parseBtlvLen tag'.value tag'.bytes.length rest with
        | error f => rfl
        | ok hdr =>
            obtain ⟨known, refused | ⟨field, behind, taken, rfl⟩⟩ := parseBtlvLen_ok _ _ _ hdr parsed
            · simp only [refused, fits, if_true, ite_self]
            · have other : hdr.tag ≠ some tag.value := by
                intro same
                obtain rfl : tag' = tag := Tag.value_injective (Option.some_inj.mp (known.symm.trans same))
                exact unwrapped behind ⟨field, taken, rfl⟩
              simp only [other, ne_eq, not_false_eq_true, if_true]

theorem Envelope.rest {tag : Tag} {data content rest : List UInt8} (envelope : Envelope tag data content)
    (wrapped : LooksWrapped tag data rest) : rest = content := by
  obtain ⟨field, known, rfl⟩ := envelope
  obtain ⟨field', ⟨⟨n', known'⟩, -, -⟩, same⟩ := wrapped
  exact (known.unique known' (List.append_cancel_left same)).2.2.symm

theorem taken_derLength (n : Nat) (small : n < 2 ^ 32) (apart : n ≠ 127) : Taken (derLength n) := by
  have few : byteWidth n ≤ 4 := (byteWidth_le_iff n 4 (by decide)).mpr small
  refine ⟨⟨n, berLength_derLength n (by omega)⟩, ?_, ?_⟩
  · intro same
    by_cases short : n < 128
    · rw [derLength_short n short] at same
      have value := congrArg UInt8.toNat (List.cons_eq_cons.mp same).1
      rw [UInt8.toNat_ofNat'] at value
      have byte : (0x7f : UInt8).toNat = 127 := rfl
      omega
    · rw [derLength_long n short (by omega)] at same
      have digits := congrArg List.length (List.cons_eq_cons.mp same).2
      have positive := byteWidth_pos n
      rw [length_bigEndian] at digits
      exact Nat.ne_of_gt positive digits
  · by_cases short : n < 128
    · rw [derLength_short n short]
      exact Nat.succ_le_succ (Nat.zero_le 4)
    · rw [derLength_long n short (by omega), List.length_cons, length_bigEndian]
      omega

theorem envelope_tlv (tag : Tag) (content : List UInt8) (small : content.length < 2 ^ 32) :
    Envelope tag (tlv tag.bytes content) content := by
  have few : byteWidth content.length ≤ 4 := (byteWidth_le_iff _ 4 (by decide)).mpr small
  exact ⟨_, berLength_derLength content.length (by omega), by rw [tlv, header, List.append_assoc]⟩

theorem looksWrapped_tlv (tag : Tag) (content : List UInt8) (small : content.length < 2 ^ 32)
    (apart : content.length ≠ 127) : LooksWrapped tag (tlv tag.bytes content) content :=
  ⟨_, taken_derLength content.length small apart, by rw [tlv, header, List.append_assoc]⟩

/-- What looks wrapped is an envelope. -/
def Plain (tag : Tag) (data : List UInt8) : Prop := ∀ rest, LooksWrapped tag data rest → Envelope tag data rest

theorem keeps_iff_plain (tag : Tag) (data : List UInt8) (fits : data.length < einvalSize) :
    ((∀ content, ¬ Envelope tag data content) → ipaStripTlvEnvelope data tag.value = data) ↔ Plain tag data := by
  constructor
  · intro keeps rest wrapped
    by_contra raw
    have none : ∀ content, ¬ Envelope tag data content :=
      fun content envelope => raw (envelope.rest wrapped ▸ envelope)
    have same : rest = data := (ipaStripTlvEnvelope_wrapped wrapped).symm.trans (keeps none)
    obtain ⟨field, taken, split⟩ := wrapped
    have sizes := congrArg List.length split
    rw [List.length_append, List.length_append, same] at sizes
    have tagged : 0 < tag.bytes.length := by cases tag <;> exact Nat.succ_pos _
    omega
  · intro plain none
    exact ipaStripTlvEnvelope_unwrapped fits fun rest wrapped => none rest (plain rest wrapped)

end Ipad.Utils

import Ipad.Utils.Headers
import Ipad.Proc.IndirectDwnld

/-!
# Envelopes of signatures and key identifiers

The eIM may send them wrapped; the eUICC gets them stripped.
-/

namespace Ipad.Proc
open Lib.Tlv Ipad.Utils

def signatureTag : Tag := .two 0x5F 0x37 (by decide)

def keyIdTag : Tag := .one 0x04 (by decide)

structure StripsOnly (tag : Tag) (data : List UInt8) : Prop where
  strips : ∀ value, value.length < 65536 → data = tlv tag.bytes value →
    ipaStripTlvEnvelope data tag.value = value
  keeps : (∀ value, ¬ Envelope tag data value) → ipaStripTlvEnvelope data tag.value = data
  again : (∀ value, ¬ Envelope tag (ipaStripTlvEnvelope data tag.value) value) →
    ipaStripTlvEnvelope (ipaStripTlvEnvelope data tag.value) tag.value = ipaStripTlvEnvelope data tag.value
  serverSignature1 : tag = signatureTag → (∀ value, ¬ Envelope tag data value) →
    ∀ pars ok, ok.serverSignature1.bytes = data → (authServReq pars ok).serverSignature1 = data
  euiccCiPKIdToBeUsed : tag = keyIdTag → (∀ value, ¬ Envelope tag data value) →
    ∀ pars ok, ok.euiccCiPKIdToBeUsed.bytes = data → (authServReq pars ok).euiccCiPKIdToBeUsed = data
  smdpSignature2 : tag = signatureTag → (∀ value, ¬ Envelope tag data value) →
    ∀ ok, ok.smdpSignature2.bytes = data → (prepDwnldReq ok).smdpSignature2 = data

structure Unambiguous (tag : Tag) (data : List UInt8) : Prop where
  short : ∀ value, data = tlv tag.bytes value → value.length ≠ 127
  plain : Plain tag data
  inner : ∀ rest, LooksWrapped tag data rest → Plain tag rest

theorem not_looksWrapped_tlv (tag : Tag) (value : List UInt8) (long : value.length = 127) (rest : List UInt8) :
    ¬ LooksWrapped tag (tlv tag.bytes value) rest := by
  rintro ⟨field, ⟨⟨n, known⟩, apart, -⟩, same⟩
  rw [tlv, header, List.append_assoc, long] at same
  have byte : BerLength [0x7F] 127 := .short 0x7F (by decide)
  exact apart (byte.unique known (List.append_cancel_left same)).1.symm

theorem stripsOnly_iff (tag : Tag) (data : List UInt8) (fits : data.length < einvalSize) :
    StripsOnly tag data ↔ Unambiguous tag data := by
  constructor
  · intro only
    refine ⟨?_, (keeps_iff_plain tag data fits).mp only.keeps, ?_⟩
    · rintro value rfl long
      have stripped := only.strips value (by omega) rfl
      rw [ipaStripTlvEnvelope_unwrapped fits (not_looksWrapped_tlv tag value long)] at stripped
      have longer := length_content_lt tag.bytes value
      rw [stripped] at longer
      exact Nat.lt_irrefl _ longer
    · intro rest wrapped
      have again := only.again
      rw [ipaStripTlvEnvelope_wrapped wrapped] at again
      refine (keeps_iff_plain tag rest ?_).mp again
      obtain ⟨field, -, rfl⟩ := wrapped
      rw [List.length_append, List.length_append] at fits
      omega
  · intro clear
    have keeps := (keeps_iff_plain tag data fits).mpr clear.plain
    refine ⟨?_, keeps, ?_, ?_, ?_, ?_⟩
    · rintro value small rfl
      exact ipaStripTlvEnvelope_wrapped (looksWrapped_tlv tag value (by omega) (clear.short value rfl))
    · intro none
      by_cases wrapped : ∃ rest, LooksWrapped tag data rest
      · obtain ⟨rest, wrapped⟩ := wrapped
        rw [ipaStripTlvEnvelope_wrapped wrapped] at none ⊢
        refine (keeps_iff_plain tag rest ?_).mpr (clear.inner rest wrapped) none
        obtain ⟨field, -, rfl⟩ := wrapped
        rw [List.length_append, List.length_append] at fits
        omega
      · have same := ipaStripTlvEnvelope_unwrapped fits (not_exists.mp wrapped)
        rw [same, same]
    · rintro rfl none pars ok rfl
      exact keeps none
    · rintro rfl none pars ok rfl
      exact keeps none
    · rintro rfl none ok rfl
      exact keeps none

theorem stripsOnly_signature : StripsOnly signatureTag (tlv signatureTag.bytes [0x30, 0x45]) := by
  have envelope := envelope_tlv signatureTag [0x30, 0x45] (by decide)
  refine (stripsOnly_iff _ _ (by decide)).mpr ⟨?_, ?_, ?_⟩
  · intro value same long
    have shorter := length_content_lt signatureTag.bytes value
    rw [← same, long] at shorter
    exact absurd shorter (by decide)
  · intro rest wrapped
    exact envelope.rest wrapped ▸ envelope
  · rintro rest wrapped behind ⟨field, -, same⟩
    rw [envelope.rest wrapped] at same
    cases same

/-- A raw key identifier that begins with the tag and a length byte. -/
theorem not_stripsOnly : ¬ StripsOnly keyIdTag [0x04, 0x01, 0xAA, 0xBB] := by
  intro only
  have raw : ∀ value, ¬ Envelope keyIdTag [0x04, 0x01, 0xAA, 0xBB] value := by
    rintro value ⟨field, known, same⟩
    have byte : BerLength [0x01] 1 := .short 0x01 (by decide)
    have rest : [0x01] ++ [0xAA, 0xBB] = field ++ value := (List.cons_eq_cons.mp same).2
    obtain ⟨-, length, rfl⟩ := byte.unique known rest
    cases length
  exact absurd (only.keeps raw) (by decide)

end Ipad.Proc

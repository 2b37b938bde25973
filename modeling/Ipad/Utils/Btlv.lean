import Mathlib.Tactic.Common
import Ipad.Lib.Tlv
import Ipad.Buf

namespace Ipad.Utils
open Lib.Tlv

/-- `-EINVAL` in the unsigned return type. -/
def einvalSize : Nat := 2 ^ 64 - 22

structure BtlvHdr where
  rc : Nat
  tag : Option UInt16
  len : Option UInt16
  deriving DecidableEq, Repr

def readLenBytes : (lenBytes : Nat) → List UInt8 → (valueLen : UInt16) → Option UInt16
  | 0, _, valueLen => some valueLen
  | _ + 1, [], _ => none
  | lenBytes + 1, byte :: data, valueLen => readLenBytes lenBytes data (valueLen <<< 8 ||| byte.toUInt16)

/-- The length field, behind a tag of `skipLen` bytes. Its first byte is read before `data_len` is
looked at. -/
def parseBtlvLen (tag : UInt16) (skipLen : Nat) : List UInt8 → Except Fault BtlvHdr
  | [] => .error .outOfBounds
  | first :: data =>
      if first < 0x7f then .ok { rc := skipLen + 1, tag := some tag, len := some first.toUInt16 }
      else
        let lenBytes := (first &&& 0x7f).toNat
        if lenBytes = 0 ∨ lenBytes > 4 then .ok { rc := einvalSize, tag := some tag, len := none }
        else
          match readLenBytes lenBytes data 0 with
          | none => .ok { rc := einvalSize, tag := some tag, len := none }
          | some valueLen => .ok { rc := skipLen + 1 + lenBytes, tag := some tag, len := some valueLen }

def parseBtlvHdr : List UInt8 → Except Fault BtlvHdr
  | [] => .error .outOfBounds
  | first :: data =>
      if first &&& 0x1f == 0x1f then
        match data with
        | [] => .ok { rc := einvalSize, tag := none, len := none }
        | second :: data => parseBtlvLen (first.toUInt16 <<< 8 ||| second.toUInt16) 2 data
      else parseBtlvLen first.toUInt16 1 data

def ipaParseBtlvHdr (buf : IpaBuf) : Except Fault BtlvHdr := parseBtlvHdr buf.bytes

/-! ## Headers of DER elements -/

/-- The lengths that the parser reads back. It takes the length byte 7f for the long form. -/
def Parseable (n : Nat) : Prop := n ≠ 127 ∧ n < 2 ^ 32

instance (n : Nat) : Decidable (Parseable n) := inferInstanceAs (Decidable (_ ∧ _))

theorem shift_or_byte (value : Nat) (byte : UInt8) :
    UInt16.ofNat value <<< 8 ||| byte.toUInt16 = UInt16.ofNat (value * 256 + byte.toNat) := by
  have small := byte.toNat_lt
  apply UInt16.toNat_inj.mp
  have shifted : (UInt16.ofNat value <<< 8).toNat = 2 ^ 8 * (value % 2 ^ 8) := by
    rw [UInt16.toNat_shiftLeft, UInt16.toNat_ofNat', Nat.shiftLeft_eq]
    show value % 2 ^ 16 * 2 ^ 8 % 2 ^ 16 = _
    omega
  rw [UInt16.toNat_or, shifted, UInt8.toNat_toUInt16, ← Nat.two_pow_add_eq_or_of_lt (by omega),
    UInt16.toNat_ofNat']
  omega

theorem toNat_shift_or (first second : UInt8) :
    (first.toUInt16 <<< 8 ||| second.toUInt16).toNat = first.toNat * 256 + second.toNat := by
  have joined := shift_or_byte first.toNat second
  have small := first.toNat_lt
  have small' := second.toNat_lt
  rw [UInt16.ofNat_uInt8ToNat] at joined
  rw [joined, UInt16.toNat_ofNat', Nat.mod_eq_of_lt]
  omega

theorem readLenBytes_eq (bytes rest : List UInt8) (value : Nat) :
    readLenBytes bytes.length (bytes ++ rest) (UInt16.ofNat value) =
      some (UInt16.ofNat (bytes.foldl (fun value byte => value * 256 + byte.toNat) value)) := by
  induction bytes generalizing value with
  | nil => rfl
  | cons byte bytes ih =>
      rw [List.length_cons, List.cons_append, readLenBytes, shift_or_byte, ih, List.foldl_cons]

theorem readLenBytes_bigEndian (n : Nat) (rest : List UInt8) :
    readLenBytes (byteWidth n) (bigEndian (byteWidth n) n ++ rest) 0 = some (UInt16.ofNat n) := by
  have read := readLenBytes_eq (bigEndian (byteWidth n) n) rest 0
  rw [length_bigEndian] at read
  exact read.trans (congrArg (fun value => some (UInt16.ofNat value)) (bigEndianValue_byteWidth n))

private theorem long_form (width : Nat) (small : width < 128) :
    ¬ UInt8.ofNat (128 + width) < 0x7f ∧ (UInt8.ofNat (128 + width) &&& 0x7f).toNat = width := by
  have value := toNat_longForm width small
  constructor
  · rw [UInt8.lt_iff_toNat_lt, value, Nat.not_lt]
    exact Nat.le_trans (by decide : 127 ≤ 128) (Nat.le_add_right 128 width)
  · have mask : (0x7f : UInt8).toNat = 2 ^ 7 - 1 := rfl
    rw [UInt8.toNat_and, value, mask, Nat.and_two_pow_sub_one_eq_mod]
    omega

/-- Of a header behind a tag of `skipLen` bytes. The length is kept in 16 bits. -/
def headerOf (tag : UInt16) (skipLen n : Nat) : BtlvHdr :=
  if Parseable n then { rc := skipLen + (derLength n).length, tag := some tag, len := some (UInt16.ofNat n) }
  else { rc := einvalSize, tag := some tag, len := none }

theorem parseBtlvLen_derLength (tag : UInt16) (skipLen n : Nat) (rest : List UInt8) (bounded : n < 2 ^ 64) :
    parseBtlvLen tag skipLen (derLength n ++ rest) = .ok (headerOf tag skipLen n) := by
  by_cases short : n < 128
  · rw [derLength_short n short]
    have value : (UInt8.ofNat n).toNat = n := by
      rw [UInt8.toNat_ofNat']
      omega
    by_cases below : n < 127
    · have read : UInt8.ofNat n < 0x7f := by
        rw [UInt8.lt_iff_toNat_lt, value]
        simpa using below
      have parseable : Parseable n := ⟨by omega, by omega⟩
      have len : (UInt8.ofNat n).toUInt16 = UInt16.ofNat n :=
        UInt8.toUInt16_ofNat' (Nat.lt_of_lt_of_le short (by decide))
      rw [headerOf, if_pos parseable, derLength_short n short, List.singleton_append, parseBtlvLen, if_pos read, len]
      rfl
    · obtain rfl : n = 127 := by omega
      rfl
  · have width : byteWidth n ≤ 8 := (byteWidth_le_iff n 8 (by decide)).mpr (by omega)
    have positive := byteWidth_pos n
    obtain ⟨notShort, count⟩ := long_form (byteWidth n) (by omega)
    rw [headerOf, derLength_long n short (by omega)]
    simp only [List.cons_append, parseBtlvLen, notShort, if_false, count, List.length_cons, length_bigEndian]
    by_cases parseable : Parseable n
    · have few : byteWidth n ≤ 4 := (byteWidth_le_iff n 4 (by decide)).mpr (by have := parseable.2; omega)
      rw [if_neg (by omega), readLenBytes_bigEndian, if_pos parseable, Nat.add_assoc, Nat.add_comm 1]
    · have many : ¬ byteWidth n ≤ 4 := by
        rw [byteWidth_le_iff n 4 (by decide)]
        unfold Parseable at parseable
        omega
      rw [if_pos (by omega), if_neg parseable]

theorem parseBtlvHdr_header (tag : List UInt8) (known : ShortTag tag) (n : Nat) (rest : List UInt8)
    (bounded : n < 2 ^ 64) :
    ∃ hdr, parseBtlvHdr (header tag n ++ rest) = .ok hdr ∧
      hdr.rc = if Parseable n then (header tag n).length else einvalSize := by
  have size (value : UInt16) (skipLen : Nat) : (headerOf value skipLen n).rc =
      if Parseable n then skipLen + (derLength n).length else einvalSize := by
    unfold headerOf
    split <;> rfl
  rw [header, List.append_assoc, List.length_append]
  cases known with
  | one first low =>
      simp only [List.singleton_append, parseBtlvHdr, beq_iff_eq, low, if_false]
      exact ⟨_, parseBtlvLen_derLength _ 1 n rest bounded, size _ 1⟩
  | two first second high =>
      simp only [List.cons_append, List.nil_append, parseBtlvHdr, high, beq_self_eq_true, if_true]
      exact ⟨_, parseBtlvLen_derLength _ 2 n rest bounded, size _ 2⟩

end Ipad.Utils

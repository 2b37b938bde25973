import Mathlib.Data.List.Basic

/-!
# Buffers

`struct ipa_buf` and the functions of `utils.h` on it. The data area is a list whose length is
`data_len`; memory that C leaves indeterminate is zero here. A step that C leaves undefined, and
an assertion that fails, is a `Fault`.
-/

namespace Ipad

inductive Fault where
  | assertion
  | outOfBounds
  | nullDeref
  | invalidFree
  | uninitialised
  | signedOverflow
  deriving DecidableEq, Repr

inductive Errno where
  | eio
  | einval
  deriving DecidableEq, Repr

def Errno.code : Errno → Int
  | .eio => -5
  | .einval => -22

structure IpaBuf where
  data : List UInt8
  len : Nat
  deriving DecidableEq, Repr

namespace IpaBuf

def dataLen (buf : IpaBuf) : Nat := buf.data.length

def Valid (buf : IpaBuf) : Prop := buf.len ≤ buf.dataLen

instance (buf : IpaBuf) : Decidable buf.Valid := inferInstanceAs (Decidable (_ ≤ _))

def bytes (buf : IpaBuf) : List UInt8 := buf.data.take buf.len

theorem length_bytes (buf : IpaBuf) (valid : buf.Valid) : buf.bytes.length = buf.len := by
  rw [bytes, List.length_take]
  exact Nat.min_eq_left valid

def alloc (len : Nat) : IpaBuf :=
  { data := List.replicate len 0, len := 0 }

@[simp] theorem alloc_len (len : Nat) : (alloc len).len = 0 := rfl
@[simp] theorem alloc_dataLen (len : Nat) : (alloc len).dataLen = len := by simp [alloc, dataLen]
@[simp] theorem alloc_bytes (len : Nat) : (alloc len).bytes = [] := rfl
theorem alloc_valid (len : Nat) : (alloc len).Valid := Nat.zero_le _

/-- `ipa_buf_alloc_data`, `ipa_buf_alloc_and_cpy` and `ipa_buf_assign`: the bytes and nothing else. -/
def ofBytes (bytes : List UInt8) : IpaBuf :=
  { data := bytes, len := bytes.length }

@[simp] theorem ofBytes_bytes (bytes : List UInt8) : (ofBytes bytes).bytes = bytes := by
  simp [ofBytes, IpaBuf.bytes]
@[simp] theorem ofBytes_len (bytes : List UInt8) : (ofBytes bytes).len = bytes.length := rfl
@[simp] theorem ofBytes_dataLen (bytes : List UInt8) : (ofBytes bytes).dataLen = bytes.length := rfl
theorem ofBytes_valid (bytes : List UInt8) : (ofBytes bytes).Valid := Nat.le_refl _

theorem eq_ofBytes (buf : IpaBuf) (full : buf.len = buf.dataLen) : buf = ofBytes buf.bytes := by
  have whole : buf.bytes = buf.data := List.take_of_length_le (Nat.le_of_eq full.symm)
  rw [whole, ofBytes, ← dataLen, ← full]

/-- `ipa_buf_realloc`. The `memset` behind the valid bytes runs over `len - buf->len` bytes, so a
size below the valid length is out of bounds. -/
def realloc (buf : IpaBuf) (len : Nat) : Except Fault IpaBuf :=
  if buf.len ≤ len then
    .ok { data := buf.bytes ++ List.replicate (len - buf.len) 0, len := buf.len }
  else .error .outOfBounds

theorem realloc_ok (buf : IpaBuf) (len : Nat) (valid : buf.Valid) (room : buf.len ≤ len) :
    ∃ grown, buf.realloc len = .ok grown ∧ grown.bytes = buf.bytes ∧ grown.len = buf.len ∧
      grown.dataLen = len := by
  have width := buf.length_bytes valid
  refine ⟨_, if_pos room, ?_, rfl, ?_⟩
  · exact List.take_left' width
  · rw [dataLen, List.length_append, width, List.length_replicate]
    exact Nat.add_sub_cancel' room

def store (buf : IpaBuf) (bytes : List UInt8) : Except Fault IpaBuf :=
  if buf.len + bytes.length ≤ buf.dataLen then
    .ok { data := buf.bytes ++ bytes ++ buf.data.drop (buf.len + bytes.length)
          len := buf.len + bytes.length }
  else .error .outOfBounds

theorem store_ok (buf : IpaBuf) (bytes : List UInt8) (room : buf.len + bytes.length ≤ buf.dataLen) :
    ∃ stored, buf.store bytes = .ok stored ∧ stored.bytes = buf.bytes ++ bytes ∧ stored.Valid ∧
      stored.dataLen = buf.dataLen := by
  have valid : buf.Valid := Nat.le_trans (Nat.le_add_right _ _) room
  have width : (buf.bytes ++ bytes).length = buf.len + bytes.length := by
    rw [List.length_append, buf.length_bytes valid]
  have size : ((buf.bytes ++ bytes) ++ buf.data.drop (buf.len + bytes.length)).length = buf.dataLen := by
    rw [List.length_append, width, List.length_drop]
    exact Nat.add_sub_cancel' room
  refine ⟨_, if_pos room, ?_, ?_, size⟩
  · exact List.take_left' width
  · rw [Valid, dataLen, size]
    exact room

/-- How the growing buffers make room for `size` more bytes: the capacity is rounded up to the next
multiple of `step` above what is needed. -/
def grow (step : Nat) (buf : IpaBuf) (size : Nat) : Except Fault IpaBuf :=
  if buf.len + size > buf.dataLen then buf.realloc (((buf.len + size) / step + 1) * step) else .ok buf

theorem grow_ok (step : Nat) (positive : 0 < step) (buf : IpaBuf) (valid : buf.Valid) (size : Nat) :
    ∃ grown, buf.grow step size = .ok grown ∧ grown.bytes = buf.bytes ∧ grown.len = buf.len ∧
      grown.len + size ≤ grown.dataLen := by
  unfold grow
  split
  · have needed : buf.len + size < ((buf.len + size) / step + 1) * step :=
      Nat.lt_mul_of_div_lt (Nat.lt_succ_self _) positive
    obtain ⟨grown, done, bytes, len, size⟩ := buf.realloc_ok _ valid
      (Nat.le_trans (Nat.le_add_right _ size) (Nat.le_of_lt needed))
    exact ⟨grown, done, bytes, len, by rw [len, size]; exact Nat.le_of_lt needed⟩
  · exact ⟨buf, rfl, rfl, rfl, by omega⟩

def cpy (buf : IpaBuf) (bytes : List UInt8) : Except Fault IpaBuf :=
  if buf.len + bytes.length ≤ buf.dataLen then buf.store bytes else .error .assertion

end IpaBuf

structure ValidBuf extends IpaBuf where
  valid : toIpaBuf.Valid

end Ipad

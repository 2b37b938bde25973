import Ipad.Lib.LittleEndian
import Ipad.Nvstate.State

/-!
# The image of the non-volatile state

`struct ipa_nvstate` as it lies in memory, addresses included, and behind it each of the three buffers
with its header. Addresses and sizes have eight bytes; the inner structures are not packed.
-/

namespace Ipad.Nvstate
open Lib.LittleEndian

def sizeofNvstate : Nat := 44
def sizeofIpaBuf : Nat := 24

structure RawNvstate where
  version : UInt32
  associationTokenCounter : Int32
  eimCfgBer : UInt64
  flag : Bool
  smdpOid : UInt64
  smdpAddress : UInt64

def nvstateBytes (raw : RawNvstate) : List UInt8 :=
  littleEndian 4 raw.version.toNat ++ littleEndian 4 raw.associationTokenCounter.toUInt32.toNat ++
    List.replicate 4 0 ++ littleEndian 8 raw.eimCfgBer.toNat ++
    [if raw.flag then 1 else 0] ++ List.replicate 7 0 ++
    littleEndian 8 raw.smdpOid.toNat ++ littleEndian 8 raw.smdpAddress.toNat

def field (offset width : Nat) (bytes : List UInt8) : Nat :=
  ofLittleEndian ((bytes.drop offset).take width)

def readNvstate (bytes : List UInt8) : RawNvstate where
  version := UInt32.ofNat (field 0 4 bytes)
  associationTokenCounter := (UInt32.ofNat (field 4 4 bytes)).toInt32
  eimCfgBer := UInt64.ofNat (field 12 8 bytes)
  flag := field 20 1 bytes ≠ 0
  smdpOid := UInt64.ofNat (field 28 8 bytes)
  smdpAddress := UInt64.ofNat (field 36 8 bytes)

/-- A buffer at an address: its header points right behind itself. -/
def ipaBufBytes (address : UInt64) (buf : IpaBuf) : List UInt8 :=
  littleEndian 8 address.toNat ++ littleEndian 8 buf.dataLen ++ littleEndian 8 buf.len ++ buf.data

/-! ## Serialization -/

structure Addresses where
  eimCfgBer : UInt64
  smdpOid : UInt64
  smdpAddress : UInt64

def addressOf (address : UInt64) : Option IpaBuf → UInt64
  | none => 0
  | some _ => address

def IpaNvstate.raw (nv : IpaNvstate) (addresses : Addresses) : RawNvstate where
  version := nv.version
  associationTokenCounter := nv.iotEuiccEmu.associationTokenCounter
  eimCfgBer := addressOf addresses.eimCfgBer nv.iotEuiccEmu.eimCfgBer
  flag := nv.iotEuiccEmu.autoEnable.flag
  smdpOid := addressOf addresses.smdpOid nv.iotEuiccEmu.autoEnable.smdpOid
  smdpAddress := addressOf addresses.smdpAddress nv.iotEuiccEmu.autoEnable.smdpAddress

/-- A missing buffer is written as an empty one. -/
def nvstateSerializeIpaBuf (address : UInt64) (nvstateBin : IpaBuf) (buf : Option IpaBuf) :
    Except Fault IpaBuf := do
  let bufSer := buf.getD (.alloc 0)
  let nvstateBin ← nvstateBin.realloc (nvstateBin.len + bufSer.dataLen + sizeofIpaBuf)
  nvstateBin.store (ipaBufBytes (address + 24) bufSer)

def nvstateSerialize (addresses : Addresses) (nv : IpaNvstate) : Except Fault IpaBuf := do
  let nvstateBin := IpaBuf.ofBytes (nvstateBytes (nv.raw addresses))
  let nvstateBin ← nvstateSerializeIpaBuf addresses.eimCfgBer nvstateBin nv.iotEuiccEmu.eimCfgBer
  let nvstateBin ← nvstateSerializeIpaBuf addresses.smdpOid nvstateBin nv.iotEuiccEmu.autoEnable.smdpOid
  nvstateSerializeIpaBuf addresses.smdpAddress nvstateBin nv.iotEuiccEmu.autoEnable.smdpAddress

/-! ## Deserialization -/

def readBytes (n : Nat) (bytes : List UInt8) : Except Fault (List UInt8) :=
  if n ≤ bytes.length then .ok (bytes.take n) else .error .outOfBounds

/-- What lies between the position in the image and its end, and the length that is counted down, as the
integer it stands for: below zero it has wrapped. -/
structure Cursor where
  data : List UInt8
  len : Int

def ipaBufDeserialize (data : List UInt8) : Except Fault IpaBuf := do
  let header ← readBytes sizeofIpaBuf data
  -- a length that cannot be allocated reaches beyond the image as well
  let area ← readBytes (field 8 8 header) (data.drop sizeofIpaBuf)
  return { data := area, len := field 16 8 header }

def restored (buf : IpaBuf) : Option IpaBuf :=
  if buf.len = 0 ∧ buf.dataLen = 0 then none else some buf

def nvstateDeserializeIpaBuf (nvstateData : Cursor) : Except Fault (Option IpaBuf × Cursor) := do
  let buf ← ipaBufDeserialize nvstateData.data
  let size := buf.dataLen + sizeofIpaBuf
  return (restored buf, { data := nvstateData.data.drop size, len := nvstateData.len - size })

/-- `free` of addresses that were read and not allocated. -/
def nvstateFreeContents (raw : RawNvstate) : Except Fault Unit :=
  if raw.eimCfgBer = 0 ∧ raw.smdpOid = 0 ∧ raw.smdpAddress = 0 then .ok () else .error .invalidFree

structure Loaded where
  nvstate : IpaNvstate
  lens : List Int

def nvstateDeserialize : Option IpaBuf → Except Fault Loaded
  | none => .ok { nvstate := .fresh, lens := [] }
  | some nvstateBin => do
      let bytes ← readBytes sizeofNvstate nvstateBin.data
      let raw := readNvstate bytes
      let start : Cursor := { data := nvstateBin.data.drop sizeofNvstate, len := nvstateBin.len - sizeofNvstate }
      if raw.version ≠ ipaNvstateVersion then
        nvstateFreeContents raw
        return { nvstate := .fresh, lens := [start.len] }
      else
        let (eimCfgBer, first) ← nvstateDeserializeIpaBuf start
        let (smdpOid, second) ← nvstateDeserializeIpaBuf first
        let (smdpAddress, third) ← nvstateDeserializeIpaBuf second
        -- the three addresses that were read are gone
        return {
          nvstate := {
            version := raw.version
            iotEuiccEmu := {
              associationTokenCounter := raw.associationTokenCounter
              eimCfgBer
              autoEnable := { flag := raw.flag, smdpOid, smdpAddress } } }
          lens := [start.len, first.len, second.len, third.len] }

end Ipad.Nvstate

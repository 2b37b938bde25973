import Ipad.Lib.Except
import Ipad.Lib.Memory
import Ipad.Euicc.Send
import Ipad.Euicc.Recv
import Ipad.Utils.Btlv

/-!
# The array behind a response

`parse_res_apdu` with the array it copies into, and what its callers do with the result.
-/

namespace Ipad.Euicc.Bounds
open Lib.Except Lib.Memory

def resApduDataLen : Nat := 255

structure ResApduData where
  le : Nat
  data : Region UInt8 resApduDataLen
  sw : UInt16

def parseResApdu (resEncoded : IpaBuf) : Except Fault (Except Errno ResApduData) :=
  if resEncoded.len < 2 then .ok (.error .einval)
  else do
    let le := resEncoded.len - 2
    let copied ← loadRun .outOfBounds resEncoded.data 0 le
    let data ← (Region.filled resApduDataLen 0).store .outOfBounds 0 copied
    let first ← load .outOfBounds resEncoded.data le
    let second ← load .outOfBounds resEncoded.data (le + 1)
    return .ok { le, data, sw := first.toUInt16 <<< 8 ||| second.toUInt16 }

/-! ## The callers -/

def sendEs10xBlock (lc : Nat) (bufRes : IpaBuf) : Except Fault (Except Errno (Nat × UInt16)) := do
  match ← parseResApdu bufRes with
  | .error e => return .error e
  | .ok resApdu => return .ok (lc, resApdu.sw)

/-- The copy reads as many bytes of the array as the response had. -/
def appendResApdu (es10xRes : IpaBuf) (resApdu : ResApduData) : Except Fault IpaBuf := do
  let es10xRes ← es10xRes.grow ipaLenEuiccBuf resApdu.le
  let bytes ← loadRun .outOfBounds resApdu.data.cells 0 resApdu.le
  es10xRes.store bytes

def recvEs10xBlock (es10xRes : IpaBuf) (blockLen : Nat) (bufRes : IpaBuf) :
    Except Fault (IpaBuf × Except Errno UInt16) := do
  match ← parseResApdu bufRes with
  | .error _ => return (es10xRes, .error .einval)
  | .ok resApdu =>
      if resApdu.le ≠ blockLen then return (es10xRes, .error .einval)
      else
        let es10xRes ← appendResApdu es10xRes resApdu
        return (es10xRes, .ok resApdu.sw)

def checkStatus (accepted : UInt16 → Bool) (bufRes : IpaBuf) : Except Fault (Except Errno Unit) := do
  match ← parseResApdu bufRes with
  | .error _ => return .error .einval
  | .ok resApdu => return if accepted resApdu.sw then .ok () else .error .einval

def sendTermcap : IpaBuf → Except Fault (Except Errno Unit) := checkStatus fun sw => sw &&& 0xff00 == 0x9000

def selectIsdR : IpaBuf → Except Fault (Except Errno Unit) := checkStatus swMore

def manageChannel : IpaBuf → Except Fault (Except Errno Unit) := checkStatus swOk

inductive Caller where
  | sendEs10xBlock (lc : Nat)
  | recvEs10xBlock (es10xRes : ValidBuf) (blockLen : Nat)
  | sendTermcap
  | selectIsdR
  | manageChannel

def Caller.room : Caller → Nat
  | .sendEs10xBlock _ => maxBlocksizeTx + 2
  | _ => maxBlocksizeRx + 2

def Caller.run (bufRes : IpaBuf) : Caller → Except Fault Unit
  | .sendEs10xBlock lc => (Bounds.sendEs10xBlock lc bufRes).map fun _ => ()
  | .recvEs10xBlock es10xRes blockLen => (Bounds.recvEs10xBlock es10xRes.toIpaBuf blockLen bufRes).map fun _ => ()
  | .sendTermcap => (Bounds.sendTermcap bufRes).map fun _ => ()
  | .selectIsdR => (Bounds.selectIsdR bufRes).map fun _ => ()
  | .manageChannel => (Bounds.manageChannel bufRes).map fun _ => ()

/-- A response that fits the buffer of its caller. -/
structure Response (caller : Caller) where
  bytes : List UInt8
  fits : bytes.length ≤ caller.room

def Response.buf {caller : Caller} (response : Response caller) : IpaBuf where
  data := response.bytes ++ List.replicate (caller.room - response.bytes.length) 0
  len := response.bytes.length

/-! ## One response -/

theorem split_status {bytes : List UInt8} (long : 2 ≤ bytes.length) :
    ∃ data first second, bytes = data ++ [first, second] := by
  have two : (bytes.drop (bytes.length - 2)).length = 2 := by
    rw [List.length_drop]
    omega
  obtain ⟨first, second, status⟩ := List.length_eq_two.mp two
  refine ⟨bytes.take (bytes.length - 2), first, second, ?_⟩
  rw [← status, List.take_append_drop]

section
variable {data rest : List UInt8} {first second : UInt8}

def encoded (data : List UInt8) (first second : UInt8) (rest : List UInt8) : IpaBuf where
  data := data ++ first :: second :: rest
  len := data.length + 2

theorem copied_ok :
    loadRun Fault.outOfBounds (encoded data first second rest).data 0 data.length = .ok data := by
  have inside : 0 + data.length ≤ (data ++ first :: second :: rest).length := by
    rw [List.length_append]
    omega
  rw [encoded, loadRun_ok _ inside, List.drop_zero, List.take_left]

theorem parseResApdu_encoded :
    parseResApdu (encoded data first second rest) =
      ((Region.filled resApduDataLen 0).store .outOfBounds 0 data).map fun array =>
        .ok { le := data.length, data := array, sw := first.toUInt16 <<< 8 ||| second.toUInt16 } := by
  have high : load Fault.outOfBounds (encoded data first second rest).data data.length = .ok first :=
    load_append_cons _ data (second :: rest) first
  have low : load Fault.outOfBounds (encoded data first second rest).data (data.length + 1) = .ok second := by
    have behind := load_append_cons Fault.outOfBounds (data ++ [first]) rest second
    rw [List.length_append, List.append_assoc] at behind
    exact behind
  have length : (encoded data first second rest).len - 2 = data.length := rfl
  rw [parseResApdu, if_neg (by simp [encoded])]
  simp only [length, copied_ok, high, low, bind, Except.bind]
  cases (Region.filled resApduDataLen (0 : UInt8)).store Fault.outOfBounds 0 data <;> rfl

theorem parseResApdu_fault (beyond : resApduDataLen < data.length) :
    parseResApdu (encoded data first second rest) = .error .outOfBounds := by
  rw [parseResApdu_encoded, Region.store_error _ _ (by rw [Nat.zero_add]; exact beyond)]
  rfl

theorem parseResApdu_stored (first second : UInt8) (rest : List UInt8) (room : data.length ≤ resApduDataLen) :
    ∃ array : Region UInt8 resApduDataLen, array.cells.take data.length = data ∧
      parseResApdu (encoded data first second rest) =
        .ok (.ok { le := data.length, data := array, sw := first.toUInt16 <<< 8 ||| second.toUInt16 }) := by
  obtain ⟨array, stored, cells⟩ := (Region.filled resApduDataLen (0 : UInt8)).store_front Fault.outOfBounds 0 data
    (by rw [Nat.zero_add]; exact room)
  rw [Nat.zero_add, List.take_zero, List.nil_append] at cells
  refine ⟨array, cells, ?_⟩
  rw [parseResApdu_encoded, stored]
  rfl

theorem parseResApdu_ok (first second : UInt8) (rest : List UInt8) (room : data.length ≤ resApduDataLen) :
    ∃ resApdu, parseResApdu (encoded data first second rest) = .ok (.ok resApdu) ∧ resApdu.le = data.length ∧
      resApdu.data.cells.take resApdu.le = data ∧ resApdu.sw.toNat = first.toNat * 256 + second.toNat := by
  obtain ⟨array, cells, parses⟩ := parseResApdu_stored first second rest room
  exact ⟨_, parses, rfl, cells, Utils.toNat_shift_or first second⟩

theorem appendResApdu_ok (es10xRes : ValidBuf) {resApdu : ResApduData} (room : resApdu.le ≤ resApduDataLen) :
    ∃ appended, appendResApdu es10xRes.toIpaBuf resApdu = .ok appended ∧
      appended.bytes = es10xRes.bytes ++ resApdu.data.cells.take resApdu.le := by
  have inside : 0 + resApdu.le ≤ resApdu.data.cells.length := by
    rw [Nat.zero_add, resApdu.data.length_cells]
    exact room
  have width : (resApdu.data.cells.take resApdu.le).length = resApdu.le := by
    rw [List.length_take]
    omega
  obtain ⟨grown, growth, bytes, -, capacity⟩ :=
    IpaBuf.grow_ok ipaLenEuiccBuf (by decide) es10xRes.toIpaBuf es10xRes.valid resApdu.le
  obtain ⟨stored, done, content, -, -⟩ :=
    grown.store_ok (resApdu.data.cells.take resApdu.le) (by rw [width]; exact capacity)
  refine ⟨stored, ?_, by rw [content, bytes]⟩
  rw [appendResApdu, growth]
  simp only [bind, Except.bind, loadRun_ok _ inside, List.drop_zero, done]

end

def ResApduData.toResApdu (resApdu : ResApduData) : ResApdu where
  le := resApdu.le
  data := resApdu.data.cells.take resApdu.le
  sw := resApdu.sw

/-- While the array is large enough this is what `Euicc.parseResApdu` reads. -/
theorem parseResApdu_refines {data rest : List UInt8} {first second : UInt8} (room : data.length ≤ resApduDataLen) :
    ∃ resApdu, parseResApdu (encoded data first second rest) = .ok (.ok resApdu) ∧
      Euicc.parseResApdu (encoded data first second rest) = .ok resApdu.toResApdu := by
  obtain ⟨array, cells, parses⟩ := parseResApdu_stored first second rest room
  refine ⟨_, parses, ?_⟩
  rw [Euicc.parseResApdu, if_neg (by simp [encoded])]
  simp [ResApduData.toResApdu, encoded, cells]

/-! ## Every response that fits -/

/-- What is copied stays inside of the array, the status word is the end of the response, and the later copy
takes what was stored. -/
structure Inside {caller : Caller} (response : Response caller) : Prop where
  parses : ∃ parsed, parseResApdu response.buf = .ok parsed
  stored : ∀ resApdu, parseResApdu response.buf = .ok (.ok resApdu) →
    resApdu.le ≤ resApduDataLen ∧ ∃ data first second, response.bytes = data ++ [first, second] ∧
      resApdu.data.cells.take resApdu.le = data ∧ resApdu.sw.toNat = first.toNat * 256 + second.toNat ∧
        ∀ es10xRes : ValidBuf, ∃ appended, appendResApdu es10xRes.toIpaBuf resApdu = .ok appended ∧
          appended.bytes = es10xRes.bytes ++ data
  runs : ∃ done, caller.run response.buf = .ok done

theorem Caller.run_ok (caller : Caller) {bufRes : IpaBuf} {parsed : Except Errno ResApduData}
    (parses : parseResApdu bufRes = .ok parsed)
    (small : ∀ resApdu, parsed = .ok resApdu → resApdu.le ≤ resApduDataLen) :
    ∃ done, caller.run bufRes = .ok done := by
  refine ⟨(), ?_⟩
  cases caller with
  | sendEs10xBlock lc =>
      rw [run, Bounds.sendEs10xBlock, parses]
      cases parsed <;> rfl
  | recvEs10xBlock es10xRes blockLen =>
      rw [run, Bounds.recvEs10xBlock, parses]
      cases parsed with
      | error e => rfl
      | ok resApdu =>
          obtain ⟨appended, done, -⟩ := appendResApdu_ok es10xRes (small resApdu rfl)
          simp only [bind, Except.bind, done]
          split <;> rfl
  | sendTermcap =>
      rw [run, Bounds.sendTermcap, checkStatus, parses]
      cases parsed <;> rfl
  | selectIsdR =>
      rw [run, Bounds.selectIsdR, checkStatus, parses]
      cases parsed <;> rfl
  | manageChannel =>
      rw [run, Bounds.manageChannel, checkStatus, parses]
      cases parsed <;> rfl

section
variable {caller : Caller} (response : Response caller)

theorem Response.buf_encoded {data : List UInt8} {first second : UInt8}
    (split : response.bytes = data ++ [first, second]) : ∃ rest, response.buf = encoded data first second rest := by
  refine ⟨List.replicate (caller.room - response.bytes.length) 0, ?_⟩
  rw [buf, encoded, split]
  simp

theorem Response.inside_short (short : response.bytes.length < 2) : Inside response := by
  have parses : parseResApdu response.buf = .ok (.error .einval) := if_pos short
  refine ⟨⟨_, parses⟩, ?_, caller.run_ok parses nofun⟩
  rintro resApdu stored
  rw [parses] at stored
  cases stored

theorem Response.inside_data {data : List UInt8} {first second : UInt8}
    (split : response.bytes = data ++ [first, second]) (room : data.length ≤ resApduDataLen) : Inside response := by
  obtain ⟨rest, same⟩ := response.buf_encoded split
  obtain ⟨resApdu, parses, le, stored, sw⟩ := parseResApdu_ok first second rest room
  rw [← same] at parses
  have small : resApdu.le ≤ resApduDataLen := le ▸ room
  refine ⟨⟨_, parses⟩, ?_, caller.run_ok parses ?_⟩
  · rintro resApdu' parses'
    rw [parses] at parses'
    cases parses'
    refine ⟨small, data, first, second, split, stored, sw, fun es10xRes => ?_⟩
    rw [← stored]
    exact appendResApdu_ok es10xRes small
  · rintro resApdu' ⟨⟩
    exact small

theorem inside_iff : Inside response ↔ response.bytes.length ≤ resApduDataLen + 2 := by
  by_cases short : response.bytes.length < 2
  · exact iff_of_true (response.inside_short short) (Nat.le_trans (Nat.le_of_lt short) (Nat.le_add_left _ _))
  · obtain ⟨data, first, second, split⟩ := split_status (Nat.not_lt.mp short)
    have length : response.bytes.length = data.length + 2 := by
      rw [split]
      simp
    rw [length, Nat.add_le_add_iff_right]
    constructor
    · intro inside
      by_contra beyond
      obtain ⟨parsed, parses⟩ := inside.parses
      obtain ⟨rest, same⟩ := response.buf_encoded split
      rw [same, parseResApdu_fault (Nat.not_le.mp beyond)] at parses
      cases parses
    · exact response.inside_data split

end

/-- The answer of 256 bytes that the status word 6100 announces. -/
def fullBlock : Response (.recvEs10xBlock ⟨.alloc ipaLenEuiccBuf, IpaBuf.alloc_valid _⟩ (announced 0x6100)) where
  bytes := List.replicate 256 0 ++ [0x90, 0x00]
  fits := by
    rw [List.length_append, List.length_replicate]
    exact Nat.le_refl _

theorem fullBlock_not_inside : ¬ Inside fullBlock := by
  intro inside
  obtain ⟨parsed, parses⟩ := inside.parses
  obtain ⟨rest, same⟩ := fullBlock.buf_encoded rfl
  rw [same, parseResApdu_fault (by rw [List.length_replicate]; decide)] at parses
  cases parses

end Ipad.Euicc.Bounds

import Mathlib.Data.List.GetD
import Ipad.Buf

namespace Ipad.Euicc

/-- `struct req_apdu`. `data` holds the first `lc` bytes of the C array; under T=0 a command either
sends data or expects data, which `format_req_apdu` asserts and `t0` records. -/
structure ReqApdu where
  cla : UInt8
  ins : UInt8
  p1 : UInt8
  p2 : UInt8
  le : Nat
  data : List UInt8
  lc_le : data.length ≤ 255
  t0 : data = [] ∨ le = 0
  deriving DecidableEq, Repr

def ReqApdu.lc (req : ReqApdu) : Nat := req.data.length

def ReqApdu.p3 (req : ReqApdu) : UInt8 :=
  if req.lc > 0 then UInt8.ofNat req.lc
  else if req.le > 0 then (if req.le < 256 then UInt8.ofNat req.le else 0)
  else 0

def formatReqApdu (req : ReqApdu) : IpaBuf :=
  .ofBytes ([req.cla, req.ins, req.p1, req.p2, req.p3] ++ req.data)

/-- `struct res_apdu`. A data area of 256 bytes fills the C array and the padding byte behind it. -/
structure ResApdu where
  le : Nat
  data : List UInt8
  sw : UInt16
  deriving DecidableEq, Repr

/-- Without the array of the C struct: `Bounds.parseResApdu` copies into it and faults where the data is longer,
and `Bounds.parseResApdu_refines` says that the two agree where it is not. -/
def parseResApdu (resEncoded : IpaBuf) : Except Errno ResApdu :=
  if resEncoded.len < 2 then .error .einval
  else
    let le := resEncoded.len - 2
    .ok
      { le := le
        data := resEncoded.data.take le
        sw := (resEncoded.data.getD le 0).toUInt16 <<< 8 ||| (resEncoded.data.getD (le + 1) 0).toUInt16 }

theorem parseResApdu_append (bytes rest : List UInt8) :
    parseResApdu { data := bytes ++ rest, len := bytes.length } = parseResApdu (.ofBytes bytes) := by
  by_cases short : bytes.length < 2
  · simp [parseResApdu, short]
  · have first : bytes.length - 2 < bytes.length := by omega
    have second : bytes.length - 2 + 1 < bytes.length := by omega
    unfold parseResApdu IpaBuf.ofBytes
    simp only [List.take_append_of_le_length (Nat.le_of_lt first), List.getD_append _ _ _ _ first,
      List.getD_append _ _ _ _ second]

def readAnswer (answer : Option (List UInt8)) : Option ResApdu :=
  answer.bind fun bytes => (parseResApdu (.ofBytes bytes)).toOption

structure Exchange where
  req : ReqApdu
  res : Option (List UInt8)
  deriving DecidableEq, Repr

abbrev Card := List (List UInt8) → Option (List UInt8)

structure EuiccCtx where
  euiccChannel : UInt8
  checkScard : Bool
  log : List Exchange
  deriving DecidableEq, Repr

namespace EuiccCtx

def history (ctx : EuiccCtx) : List (List UInt8) :=
  ctx.log.map fun exchange => (formatReqApdu exchange.req).bytes

/-- What the card answers to `req` next. An answer that does not fit into the buffer of `room` bytes
fails like a broken transport. -/
def answer (card : Card) (ctx : EuiccCtx) (room : Nat) (req : ReqApdu) : Option (List UInt8) :=
  (card (ctx.history ++ [(formatReqApdu req).bytes])).filter fun bytes => bytes.length ≤ room

def record (ctx : EuiccCtx) (req : ReqApdu) (res : Option (List UInt8)) : EuiccCtx :=
  { ctx with log := ctx.log ++ [⟨req, res⟩] }

def exchange (card : Card) (ctx : EuiccCtx) (room : Nat) (req : ReqApdu) : EuiccCtx :=
  ctx.record req (ctx.answer card room req)

@[simp] theorem record_log (ctx : EuiccCtx) (req : ReqApdu) (res : Option (List UInt8)) :
    (ctx.record req res).log = ctx.log ++ [⟨req, res⟩] := rfl

end EuiccCtx

def ipaScardTransceive (card : Card) (ctx : EuiccCtx) (resLen : Nat) (req : ReqApdu) :
    EuiccCtx × Except Errno IpaBuf :=
  match ctx.answer card resLen req with
  | none => (ctx.exchange card resLen req, .error .eio)
  | some bytes =>
      (ctx.exchange card resLen req,
        .ok { data := bytes ++ List.replicate (resLen - bytes.length) 0, len := bytes.length })

theorem ipaScardTransceive_answered (card : Card) (ctx : EuiccCtx) (resLen : Nat) (req : ReqApdu)
    (res : ResApdu) (read : readAnswer (ctx.answer card resLen req) = some res) :
    ∃ bufRes, ipaScardTransceive card ctx resLen req =
        (ctx.exchange card resLen req, .ok bufRes) ∧ parseResApdu bufRes = .ok res := by
  unfold ipaScardTransceive
  cases answered : ctx.answer card resLen req with
  | none => simp [answered, readAnswer] at read
  | some bytes =>
      refine ⟨_, rfl, ?_⟩
      rw [parseResApdu_append]
      simp only [answered, readAnswer, Option.bind_some] at read
      cases parsed : parseResApdu (.ofBytes bytes) with
      | error e => simp [parsed, Except.toOption] at read
      | ok found => simpa [parsed, Except.toOption] using read

theorem ipaScardTransceive_unanswered (card : Card) (ctx : EuiccCtx) (resLen : Nat) (req : ReqApdu)
    (unread : readAnswer (ctx.answer card resLen req) = none) :
    (ipaScardTransceive card ctx resLen req).1 = ctx.exchange card resLen req ∧
      ∀ bufRes, (ipaScardTransceive card ctx resLen req).2 = .ok bufRes →
        ∃ e, parseResApdu bufRes = .error e := by
  unfold ipaScardTransceive
  cases answered : ctx.answer card resLen req with
  | none => exact ⟨rfl, fun _ stored => by cases stored⟩
  | some bytes =>
      refine ⟨rfl, fun bufRes stored => ?_⟩
      cases stored
      rw [parseResApdu_append]
      simp only [answered, readAnswer, Option.bind_some] at unread
      cases parsed : parseResApdu (.ofBytes bytes) with
      | error e => exact ⟨e, rfl⟩
      | ok found => simp [parsed, Except.toOption] at unread

def swOk (sw : UInt16) : Bool := sw == 0x9000

def swMore (sw : UInt16) : Bool := sw &&& 0xff00 == 0x6100

theorem not_swMore_of_swOk (sw : UInt16) (ok : swOk sw = true) : swMore sw = false := by
  rw [swOk, beq_iff_eq] at ok
  subst ok
  decide

def announced (sw : UInt16) : Nat :=
  if sw &&& 0xff = 0 then 256 else (sw &&& 0xff).toNat

theorem announced_le (sw : UInt16) : announced sw ≤ 256 := by
  unfold announced
  split
  · exact Nat.le_refl _
  · have small : (sw &&& 0xff).toNat ≤ 255 := by
      rw [UInt16.toNat_and]
      exact Nat.and_le_right
    exact Nat.le_succ_of_le small

end Ipad.Euicc

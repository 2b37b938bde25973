import Ipad.Lib.Server
import Ipad.Euicc.Card
import Ipad.Proc.Messages

/-!
# Procedures over a card

The requests of the procedures go through the channel to the card, or elsewhere. Over a card that keeps to the
transport, the procedures cannot tell it from an ISD-R that executes their requests at once.
-/

namespace Ipad.Proc
open Lib.Dialogue Ipad.Nvstate Ipad.Euicc

/-- The ES10 functions. -/
def Req.isEs10x : Req → Bool
  | .getProfilesInfo _ => true
  | .enableProfile _ _ => true
  | .disableProfile _ => true
  | .deleteProfile _ => true
  | .getRat => true
  | .loadEuiccPackage _ => true
  | .profileRollback => true
  | .retrieveNotificationsList _ => true
  | .retrieveNotifications _ => true
  | .removeNotificationFromList _ => true
  | .loadBoundProfilePackage _ => true
  | .enableUsingDd => true
  | .getEuiccInfo1 => true
  | .getEuiccInfo2 => true
  | .getEuiccInfo2Sgp32 => true
  | .getEuiccChallenge => true
  | .getEuiccConfiguredAddresses => true
  | .getEimConfigurationData => true
  | .getCerts _ => true
  | .authenticateServer _ => true
  | .prepareDownload _ => true
  | .cancelSession _ _ => true
  | _ => false

/-- What asn1c makes of the requests and of the responses. -/
structure Es10xCodec where
  reqEnc : Req → Option ValidBuf
  resDec : (req : Req) → List UInt8 → Ans req
  prfleInstResDec : List UInt8 → Option PrfleInstRslt

namespace Es10xCodec

variable (es10x : Es10xCodec)

/-- A segment goes out as it is. -/
def request : Req → Option ValidBuf
  | .loadBoundProfilePackage segment => some ⟨.ofBytes segment, IpaBuf.ofBytes_valid segment⟩
  | req => es10x.reqEnc req

def response : (req : Req) → List UInt8 → Ans req
  | .loadBoundProfilePackage _, res =>
      if res = [] then .empty
      else
        match es10x.prfleInstResDec res with
        | none => .undecodable
        | some result => .installed result
  | req, res => es10x.resDec req res

def answer (req : Req) : Option (List UInt8) → Ans req
  | none => req.silence
  | some res => es10x.response req res

end Es10xCodec

section
variable {η : Type} (es10x : Es10xCodec) (others : η → (req : Req) → η × Ans req)

/-- The requests that do not go to the eUICC. What the canaries say of the reader is known here. -/
def elsewhere (checkScard : Bool) (rest : η) : (req : Req) → η × Ans req
  | .canaries =>
      let (rest, checkHttp, _) := others rest .canaries
      (rest, checkHttp, checkScard)
  | req => others rest req

def reset (euicc : EuiccCtx) : Req → EuiccCtx
  | .mark .resetCanaries => { euicc with checkScard := false }
  | _ => euicc

def transport (card : Card) (fuel : Nat) : Server (EuiccCtx × η) Req Ans
  | (euicc, rest), req =>
      if req.isEs10x then
        match es10x.request req with
        | none => some ((euicc, rest), req.silence)
        | some es10xReq =>
            match ipaEuiccTransceiveEs10x card fuel euicc es10xReq with
            | (euicc, .returned es10xRes) =>
                some ((euicc, rest), es10x.answer req (es10xRes.map IpaBuf.bytes))
            | _ => none
      else
        let (rest, ans) := elsewhere others euicc.checkScard rest req
        some ((reset euicc req, rest), ans)

/-- The same with the ISD-R at hand. -/
def direct {σ : Type} (execute : σ → List UInt8 → σ × List UInt8) : Server (σ × η) Req Ans
  | (isdR, rest), req =>
      if req.isEs10x then
        match es10x.request req with
        | none => some ((isdR, rest), req.silence)
        | some es10xReq =>
            let (isdR, es10xRes) := serve execute isdR es10xReq.bytes
            some ((isdR, rest), es10x.answer req es10xRes)
      else
        let (rest, ans) := elsewhere others false rest req
        some ((isdR, rest), ans)

/-- From setting up the channel to closing it, without an end when it hangs or faults. A procedure that
aborts takes the process with it. -/
def overCard {α : Type} (card : Card) (fuel : Nat) (program : ProcM α) (euicc : EuiccCtx) (rest : η) :
    Option (Option (Except Abort α × Trace) × EuiccCtx × η) :=
  match ipaEuiccInitEs10x card euicc with
  | (_, .error _) => none
  | (euicc, .ok (.error _)) =>
      match freeCtx card euicc () with
      | (euicc, .returned _) => some (none, euicc, rest)
      | _ => none
  | (euicc, .ok (.ok ())) =>
      match against (transport es10x others card fuel) program (euicc, rest) [] with
      | none => none
      | some (.error abort, (euicc, rest), t) => some (some (.error abort, t), euicc, rest)
      | some (.ok a, (euicc, rest), t) =>
          match freeCtx card euicc () with
          | (euicc, .returned _) => some (some (.ok a, t), euicc, rest)
          | _ => none

end

/-! ## The card in place of the ISD-R -/

section
variable {σ η : Type} {execute : σ → List UInt8 → σ × List UInt8} {blockLen : Nat} {start : CardState σ}
  (es10x : Es10xCodec) (others : η → (req : Req) → η × Ans req)

/-- The ISD-R is selected on the channel and is where it would be had it executed the requests at once. -/
structure Behind (execute : σ → List UInt8 → σ × List UInt8) (blockLen : Nat) (start : CardState σ)
    (channel : UInt8) (channels : UInt8 → ChannelState) (linked : EuiccCtx × η) (atHand : σ × η) : Prop where
  euiccChannel : linked.1.euiccChannel = channel
  channels : (CardState.reached execute blockLen start linked.1).channels = channels
  isdR : (CardState.reached execute blockLen start linked.1).isdR = atHand.1
  canary : linked.1.checkScard = false
  rest : linked.2 = atHand.2

theorem transport_behind {channel : UInt8} {channels : UInt8 → ChannelState} (supported : ¬ channel > 3)
    (room : 0 < blockLen) (small : blockLen ≤ 256) (selected : channels channel = .selected) (s : σ × η)
    (req : Req) (s' : σ × η) (ans : Ans req) (answers : direct es10x others execute s req = some (s', ans)) :
    ∃ least, ∀ fuel, least ≤ fuel → ∀ u, Behind execute blockLen start channel channels u s →
      ∃ u', transport es10x others (CardState.card execute blockLen start) fuel u req = some (u', ans) ∧
        Behind execute blockLen start channel channels u' s' := by
  obtain ⟨isdR, rest⟩ := s
  unfold direct at answers
  by_cases toEuicc : req.isEs10x
  · simp only [if_pos toEuicc] at answers
    split at answers
    next unencoded =>
      cases answers
      refine ⟨0, fun fuel _ u behind => ⟨u, ?_, behind⟩⟩
      simp only [transport, if_pos toEuicc, unencoded]
    next es10xReq encoded =>
      cases answers
      refine ⟨(execute isdR es10xReq.bytes).2.length, fun fuel enough u behind => ?_⟩
      obtain ⟨euicc, rest'⟩ := u
      have now := behind.isdR
      obtain ⟨after, res, transceived, channels', isdR', bytes, canary⟩ :=
        CardState.ipaEuiccTransceiveEs10x_card es10xReq room small
          (show ¬ euicc.euiccChannel > 3 by rw [behind.euiccChannel]; exact supported)
          (by rw [behind.euiccChannel, behind.channels]; exact selected) rfl fuel (by rw [now]; exact enough)
      have channel' :=
        (ipaEuiccTransceiveEs10x_spoken (CardState.card execute blockLen start) fuel euicc es10xReq).euiccChannel
      rw [transceived] at channel'
      rw [now] at isdR' bytes
      refine ⟨(after, rest'), ?_, ⟨channel'.trans behind.euiccChannel, channels'.trans behind.channels, isdR',
        canary.trans behind.canary, behind.rest⟩⟩
      simp only [transport, if_pos toEuicc, encoded, transceived, bytes]
  · simp only [if_neg toEuicc] at answers
    cases answers
    refine ⟨0, fun fuel _ u behind => ?_⟩
    obtain ⟨euicc, rest'⟩ := u
    obtain rfl : rest' = rest := behind.rest
    have canary : euicc.checkScard = false := behind.canary
    refine ⟨(reset euicc req, (elsewhere others false rest' req).1), ?_, ?_⟩
    · simp only [transport, if_neg toEuicc, canary]
    have reset_same : (reset euicc req).history = euicc.history ∧
        (reset euicc req).euiccChannel = euicc.euiccChannel ∧ (reset euicc req).checkScard = false := by
      unfold reset
      split
      · exact ⟨rfl, rfl, rfl⟩
      · exact ⟨rfl, rfl, canary⟩
    obtain ⟨history, channel', canary'⟩ := reset_same
    have reached : CardState.reached execute blockLen start (reset euicc req) =
        CardState.reached execute blockLen start euicc := by
      rw [CardState.reached, history, CardState.reached]
    exact ⟨channel'.trans behind.euiccChannel, by rw [reached]; exact behind.channels,
      by rw [reached]; exact behind.isdR, canary', rfl⟩

theorem direct_answers (execute : σ → List UInt8 → σ × List UInt8) (s : σ × η) (req : Req) :
    (direct es10x others execute s req).isSome := by
  obtain ⟨isdR, rest⟩ := s
  simp only [direct]
  split
  · split <;> rfl
  · rfl

theorem overCard_against {α : Type} {program : ProcM α} {out : Except Abort α} {isdR : σ} {rest rest' : η} {t : Trace}
    (runs : against (direct es10x others execute) program (start.isdR, rest) [] = some (out, (isdR, rest'), t))
    (channel : UInt8) (supported : ¬ channel > 3) (room : 0 < blockLen) (small : blockLen ≤ 256)
    (free : start.channels channel = if channel = 0 then .opened else .closed) :
    ∃ least, ∀ fuel, least ≤ fuel → ∃ euicc,
      overCard es10x others (CardState.card execute blockLen start) fuel program ⟨channel, false, []⟩ rest =
          some (some (out, t), euicc, rest') ∧
        (CardState.reached execute blockLen start euicc).isdR = isdR ∧
        (out.isOk → (CardState.reached execute blockLen start euicc).channels =
          if channel = 0 then Function.update start.channels 0 .selected else start.channels) := by
  obtain ⟨opened, setUp, same, ready, canary⟩ := CardState.init_card supported
    (show CardState.reached execute blockLen start ⟨channel, false, []⟩ = start from rfl) free
  have selected : Function.update start.channels channel ChannelState.selected channel = .selected :=
    Function.update_self ..
  obtain ⟨least, served⟩ := against_simulates
    (transport_behind es10x others supported room small selected) runs
  refine ⟨least, fun fuel enough => ?_⟩
  obtain ⟨⟨euicc, rest''⟩, ended, behind⟩ := served fuel enough (opened, rest)
    ⟨same, by rw [ready], by rw [ready], canary, rfl⟩
  obtain rfl : rest'' = rest' := behind.rest
  cases out with
  | error abort => exact ⟨euicc, by simp only [overCard, setUp, ended], behind.isdR, (nomatch ·)⟩
  | ok a =>
      have same' : euicc.euiccChannel = channel := behind.euiccChannel
      obtain ⟨after, closed, final⟩ := CardState.freeCtx_card () (by rw [same']; exact supported)
        (show CardState.reached execute blockLen start euicc = _ from rfl)
        (by rw [behind.channels, same']; exact selected)
      refine ⟨after, by simp only [overCard, setUp, ended, closed], ?_, fun _ => ?_⟩
      · rw [final, same']
        split <;> exact behind.isdR
      · rw [final, same']
        by_cases basic : channel = 0
        · rw [if_pos basic, if_pos basic, behind.channels, ← basic]
        · rw [if_neg basic] at free
          rw [if_neg basic, if_neg basic, behind.channels]
          simp only
          rw [Function.update_idem, ← free, Function.update_eq_self]

/-- Whatever procedures run between opening and closing the channel: over a card that keeps to the transport they
end as they would with the ISD-R at hand, the ISD-R is left in the same state, and the reader is never blamed. -/
theorem overCard_direct {α : Type} (program : ProcM α) (rest : η) (channel : UInt8) (supported : ¬ channel > 3)
    (room : 0 < blockLen) (small : blockLen ≤ 256)
    (free : start.channels channel = if channel = 0 then .opened else .closed) :
    ∃ out isdR rest' t,
      against (direct es10x others execute) program (start.isdR, rest) [] = some (out, (isdR, rest'), t) ∧
      ∃ least, ∀ fuel, least ≤ fuel → ∃ euicc,
        overCard es10x others (CardState.card execute blockLen start) fuel program ⟨channel, false, []⟩ rest =
            some (some (out, t), euicc, rest') ∧
          (CardState.reached execute blockLen start euicc).isdR = isdR ∧
          (out.isOk → (CardState.reached execute blockLen start euicc).channels =
            if channel = 0 then Function.update start.channels 0 .selected else start.channels) := by
  obtain ⟨out, ⟨isdR, rest'⟩, t, runs⟩ := against_total (direct_answers es10x others execute) program
    (start.isdR, rest) []
  exact ⟨out, isdR, rest', t, runs, overCard_against es10x others runs channel supported room small free⟩

end

/-! A request for the eUICC challenge, put to an eUICC that answers with what it is asked. -/

def plainCodec : Es10xCodec where
  reqEnc := fun _ => some ⟨.ofBytes [0xBF, 0x2E], IpaBuf.ofBytes_valid _⟩
  resDec := fun
    | .getEuiccChallenge, res => some res
    | req, _ => req.silence
  prfleInstResDec := fun _ => none

def unreachableEim (_ : Unit) (req : Req) : Unit × Ans req := ((), req.silence)

theorem overCard_direct_challenge :
    ∃ out isdR rest' t,
      against (direct plainCodec unreachableEim CardState.echo) (request .getEuiccChallenge)
        (CardState.powered.isdR, ()) [] = some (out, (isdR, rest'), t) ∧
      ∃ least, ∀ fuel, least ≤ fuel → ∃ euicc,
        overCard plainCodec unreachableEim (CardState.card CardState.echo 256 CardState.powered) fuel
            (request .getEuiccChallenge) ⟨1, false, []⟩ () = some (some (out, t), euicc, rest') ∧
          (CardState.reached CardState.echo 256 CardState.powered euicc).isdR = isdR ∧
          (out.isOk → (CardState.reached CardState.echo 256 CardState.powered euicc).channels =
            if (1 : UInt8) = 0 then Function.update CardState.powered.channels 0 .selected
            else CardState.powered.channels) :=
  overCard_direct plainCodec unreachableEim (request .getEuiccChallenge) () 1 (by decide) (by decide) (by decide) rfl

end Ipad.Proc

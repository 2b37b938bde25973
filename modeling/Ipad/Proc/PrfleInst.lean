import Ipad.Proc.DwnldExec

/-!
# Notification delivery and profile installation
-/

namespace Ipad.Proc
open Lib.Dialogue Ipad.EimCfg Ipad.Nvstate Ipad.BppSegments Ipad.Utils

def ipaEsipaHandleNotif (notification : PendingNotification) : ProcM Int := do
  match ← send (Req.handleNotification notification) with
  | none => return einval
  -- the response has to be empty
  | some len => return if len = 0 then 0 else einval

/-! ## Notification delivery -/

def deliverNotifications : List PendingNotification → ProcM Unit
  | [] => pure ()
  | notification :: rest => do
      let rc ← ipaEsipaHandleNotif notification
      if rc < 0 then deliverNotifications rest
      else
        match notification with
        | .profileInstallationResult result =>
            let _ ← ipaEs10bRmNotifFromLst result.seqNumber
            deliverNotifications rest
        | .otherSignedNotification seqNumber =>
            let _ ← ipaEs10bRmNotifFromLst seqNumber
            deliverNotifications rest
        | .nothing => deliverNotifications rest

def deliverUsable : Option NotificationsListResponse → ProcM Int
  | some (.notificationList list) => do
      deliverNotifications list
      return 0
  | _ => pure einval

def ipaNotifDelivery (ctx : IpaContext) : ProcM Int := do
  let notifications ← ipaEs10bRetrNotifFromLst ctx none
  let rc ← deliverUsable (RetrNotifFromLstRes.usable notifications)
  ofExcept (ipaEs10bRetrNotifFromLstResFree notifications)
  return rc

/-! ## Profile installation -/

def IpaContext.setSession (ctx : IpaContext) (session : Session) : IpaContext :=
  { ctx with emu := { ctx.emu with session } }

def SegmentAnswer.result : SegmentAnswer → Option (Option PrfleInstRslt)
  | .noResponse => none
  | .empty => some none
  | .undecodable => none
  | .installed result => some (some result)

/-- The blocks of a segment that is longer than its buffer are read from behind it, unless the eUICC puts an end
to the transfer before. -/
def withinBuffer (segment : IpaBuf) : ProcM Unit :=
  if segment.Valid then pure ()
  else do
    match ← request (Req.overrun segment.bytes) with
    | true => stop (.fault .outOfBounds)
    | false => return ()

def ipaEs10bLoadBndPrflePkg (ctx : IpaContext) (segment : IpaBuf) :
    ProcM (IpaContext × Option (Option PrfleInstRslt)) := do
  withinBuffer segment
  let answer ← request (Req.loadBoundProfilePackage segment.bytes)
  let session := if ctx.iotEuiccEmuEnabled then (loadBndPrflePkg answer).1 else .cleared
  return (ctx.setSession session, SegmentAnswer.result answer)

def ipaEs10bEnableUsingDd (ctx : IpaContext) : ProcM (IpaContext × Int) := do
  mark .enableUsingDd
  if ctx.iotEuiccEmuEnabled then
    match enableUsingDdGrant ctx.emu with
    | .error rc => return (ctx.setSession .cleared, rc)
    | .ok aid =>
        let enableResult ← request (Req.enableProfile .autoEnable aid)
        return (ctx.setSession .cleared, enableUsingDdResult enableResult)
  else
    let rc ← request Req.enableUsingDd
    return (ctx, rc.getD einval)

/-- Negative on failure, 1 when there was a result and its notification was sent, and the sequence number. -/
def handleLoadBndPrflePkgRes (ctx : IpaContext) :
    Option PrfleInstRslt → ProcM (IpaContext × Int × Int)
  | none => pure (ctx, 0, 0)
  | some result => do
      let (ctx, _) ← ipaEs10bEnableUsingDd ctx
      let rc ← ipaEsipaHandleNotif (.profileInstallationResult result)
      return (ctx, if rc < 0 then einval else 1, result.seqNumber)

def loadSegments : IpaContext → List IpaBuf → Int → ProcM (IpaContext × Option Int)
  | ctx, [], seqNumber => pure (ctx, some seqNumber)
  | ctx, segment :: rest, _ => do
      let (ctx, res) ← ipaEs10bLoadBndPrflePkg ctx segment
      match res with
      | none => return (ctx, none)
      | some res =>
          let (ctx, rc, seqNumber) ← handleLoadBndPrflePkgRes ctx res
          if rc < 0 then return (ctx, none)
          else if rc = 0 ∧ rest = [] then return (ctx, none)
          else if rc = 1 ∧ rest ≠ [] then return (ctx, some seqNumber)
          else loadSegments ctx rest seqNumber

section
variable (asn1c : Asn1c)

def ipaProcPrfleInst (ctx : IpaContext) (boundProfilePackage : BoundProfilePackage) :
    ProcM (IpaContext × Int) := do
  match ← ofExcept (ipaBppSegmentsEncode asn1c boundProfilePackage) with
  | none => return (ctx, einval)
  | some segments =>
      let (ctx, seqNumber) ← loadSegments ctx segments (-1)
      match seqNumber with
      | none => return (ctx, einval)
      | some seqNumber =>
          if 0 ≤ seqNumber then
            let rc ← ipaEs10bRmNotifFromLst seqNumber
            return (ctx, if rc < 0 then einval else 0)
          else return (ctx, einval)

end

end Ipad.Proc

import Ipad.Proc.LoadEuiccPkg

/-!
# Execution of an eUICC package
-/

namespace Ipad.Proc
open Lib.Dialogue Ipad.EimCfg Ipad.Utils

def einval : Int := Errno.einval.code

theorem einval_neg : einval < 0 := by decide

/-! ## Notifications of the eUICC -/

/-- `converted` says whether there is a response of SGP.22 behind the one of SGP.32. -/
structure RetrNotifFromLstRes where
  converted : Bool
  notifLstResultErr : Int
  sgp32Res : Option NotificationsListResponse

def PendingNotification.isEmpty : PendingNotification → Bool
  | .nothing => true
  | _ => false

def decRetrNotifFromLstRes : NotificationsListResponse → RetrNotifFromLstRes
  | .notificationList list =>
      -- the conversion skips empty items
      { converted := true, notifLstResultErr := 0
        sgp32Res := some (.notificationList (list.filter fun item => !item.isEmpty)) }
  | .notificationsListResultError code =>
      { converted := true, notifLstResultErr := code, sgp32Res := some (.notificationsListResultError code) }
  | _ => { converted := true, notifLstResultErr := -1, sgp32Res := none }

def decRetrNotifFromLstResSgp32 (answer : NotificationsListResponse) : RetrNotifFromLstRes where
  converted := false
  notifLstResultErr :=
    match answer with
    | .notificationsListResultError code => code
    | .nothing => -1
    | _ => 0
  sgp32Res := some answer

def ipaEs10bRetrNotifFromLst (ctx : IpaContext) (seqNumber : Option Int) :
    ProcM (Option RetrNotifFromLstRes) := do
  let answer ← request (Req.retrieveNotificationsList seqNumber)
  return answer.map
    (if ctx.iotEuiccEmuEnabled then decRetrNotifFromLstRes else decRetrNotifFromLstResSgp32)

def RetrNotifFromLstRes.usable (res : Option RetrNotifFromLstRes) : Option NotificationsListResponse :=
  match res with
  | none => none
  | some res => if res.notifLstResultErr ≠ 0 then none else res.sgp32Res

/-- A converted response is taken for a list: an error code is freed like the array of one, and without a
response the list is looked for all the same. -/
def ipaEs10bRetrNotifFromLstResFree : Option RetrNotifFromLstRes → Except Fault Unit
  | none => .ok ()
  | some res =>
      if res.converted = false then .ok ()
      else
        match res.sgp32Res with
        | none => .error .nullDeref
        | some (.notificationsListResultError code) => if code = 0 then .ok () else .error .invalidFree
        | some _ => .ok ()

/-- A list, or an error code that is no pointer. -/
def NotificationsListResponse.released : NotificationsListResponse → Bool
  | .notificationList _ => true
  | .notificationsListResultError code => code = 0
  | _ => false

def Releasable (emulated : Bool) (answer : Option NotificationsListResponse) : Prop :=
  emulated = true → answer.all NotificationsListResponse.released = true

theorem ipaEs10bRetrNotifFromLstResFree_ok_iff (emulated : Bool) (answer : Option NotificationsListResponse) :
    ipaEs10bRetrNotifFromLstResFree
        (answer.map (if emulated then decRetrNotifFromLstRes else decRetrNotifFromLstResSgp32)) = .ok () ↔
      Releasable emulated answer := by
  cases emulated with
  | false =>
      refine iff_of_true ?_ nofun
      cases answer <;> rfl
  | true =>
      simp only [Releasable, if_true, forall_const]
      rcases answer with _ | (list | code | _ | _)
      · exact iff_of_true rfl rfl
      · exact iff_of_true rfl rfl
      · by_cases zero : code = 0
        · subst zero
          exact iff_of_true rfl rfl
        · simp [ipaEs10bRetrNotifFromLstResFree, decRetrNotifFromLstRes, NotificationsListResponse.released, zero]
      · exact iff_of_false (by simp [ipaEs10bRetrNotifFromLstResFree, decRetrNotifFromLstRes]) Bool.false_ne_true
      · exact iff_of_false (by simp [ipaEs10bRetrNotifFromLstResFree, decRetrNotifFromLstRes]) Bool.false_ne_true

def deleteNotificationStatusRc : Option Int → Int
  | none => einval
  | some status => if status = 0 ∨ status = 1 then 0 else einval

def ipaEs10bRmNotifFromLst (seqNumber : Int) : ProcM Int := do
  let status ← request (Req.removeNotificationFromList seqNumber)
  return deleteNotificationStatusRc status

def removeNotifications : List Int → ProcM Int
  | [] => pure 0
  | seqNumber :: eimAcknowledgements => do
      let rc ← ipaEs10bRmNotifFromLst seqNumber
      if rc < 0 then return einval
      else removeNotifications eimAcknowledgements

/-! ## ProvideEimPackageResult -/

structure PrvdeEimPkgRsltReq where
  eimPkgErr : Int := 0
  euiccPackageResult : Option EuiccPackageResult := none
  sgp32NotificationList : Option NotificationsListResponse := none
  ipaEuiccDataResp : Option IpaEuiccData := none
  prfleDwnldTrigReqRslt : Option (List UInt8) := none

def eimPackageUndefinedError : Int := 127

def ipaEsipaPrvdeEimPkgRslt (req : PrvdeEimPkgRsltReq) : ProcM (Option (Option (List Int))) :=
  if req.eimPkgErr ≠ 0 then request (Req.provideEimPackageOutcome (.eimPackageError req.eimPkgErr))
  else
    match req.euiccPackageResult, req.sgp32NotificationList, req.ipaEuiccDataResp,
      req.prfleDwnldTrigReqRslt with
    | some result, some notifications, _, _ => send (Req.provideEimPackageResult result notifications)
    | some result, none, _, _ => send (Req.provideEimPackageOutcome (.euiccPackageResult result))
    | none, _, some data, _ => send (Req.provideEimPackageOutcome (.ipaEuiccDataResponse data))
    | none, _, none, some content =>
        send (Req.provideEimPackageOutcome (.profileDownloadTriggerResult content))
    -- an empty request turns into an error
    | none, _, none, none =>
        request (Req.provideEimPackageOutcome (.eimPackageError eimPackageUndefinedError))

/-! ## Continuation -/

/-- What lies where the number of a signed result is: the alternatives share their memory, an error code
lies there in a signed error, and unused memory of the decoder in an unsigned one. -/
def EuiccPackageResult.seqNumberField : EuiccPackageResult → Int
  | .euiccPackageResultSigned result => result.seqNumber
  | .euiccPackageErrorSigned _ _ _ euiccPackageErrorCode => euiccPackageErrorCode
  | .euiccPackageErrorUnsigned _ _ => 0
  | .nothing => 0

def DwnldExecRes.delivered (res : DwnldExecRes) : EuiccPackageResult :=
  match res.prfleRollbackRes with
  | none => res.loadEuiccPkgRes.res
  | some rollback => rollback.eUICCPackageResult.getD res.loadEuiccPkgRes.res

def onsetFailed (res : DwnldExecRes) : ProcM (Int × DwnldExecRes) := pure (einval, res)

def onsetUnanswered (ctx : IpaContext) (res : DwnldExecRes) : ProcM (Int × DwnldExecRes) :=
  if ¬ res.loadEuiccPkgRes.profileChanged then onsetFailed res
  else if ¬ res.loadEuiccPkgRes.rollbackAllowed then onsetFailed res
  else if res.prfleRollbackRes.isSome then onsetFailed res
  else do
    let prfleRollbackRes ← ipaEs10bPrfleRollback ctx
    let res := { res with prfleRollbackRes }
    match prfleRollbackRes with
    | none => onsetFailed res
    | some rollback =>
        if rollback.cmdResult ≠ resultOk then onsetFailed res
        -- the error path that does not fail: the caller has to come back
        else return (0, { res with callOnset := true })

def onsetAnswered (res : DwnldExecRes) (eimAcknowledgements : Option (List Int)) :
    ProcM (Int × DwnldExecRes) := do
  let rc ← ipaEs10bRmNotifFromLst res.loadEuiccPkgRes.res.seqNumberField
  if rc < 0 then onsetFailed res
  else
    let rc ← removeNotifications (eimAcknowledgements.getD [])
    if rc < 0 then onsetFailed res
    else return (0, res)

/-- Steps 10 to 17. -/
def onsetProvide (ctx : IpaContext) (res : DwnldExecRes) (notifications : NotificationsListResponse) :
    ProcM (Int × DwnldExecRes) := do
  match ← ipaEsipaPrvdeEimPkgRslt
      { euiccPackageResult := some res.delivered, sgp32NotificationList := some notifications } with
  | none => onsetUnanswered ctx res
  | some eimAcknowledgements => onsetAnswered res eimAcknowledgements

def onsetNotified (ctx : IpaContext) (res : DwnldExecRes) (notifications : Option RetrNotifFromLstRes) :
    ProcM (Int × DwnldExecRes) :=
  match RetrNotifFromLstRes.usable notifications with
  | none => onsetFailed res
  | some notifications => onsetProvide ctx res notifications

def ipaProcEuccPkgDwnldExecOnset (ctx : IpaContext) (res : DwnldExecRes) : ProcM (Int × DwnldExecRes) := do
  mark (.onset res.loadEuiccPkgRes.res)
  let res := { res with callOnset := false }
  let notifications ← ipaEs10bRetrNotifFromLst ctx (some res.loadEuiccPkgRes.res.seqNumberField)
  let out ← onsetNotified ctx res notifications
  ofExcept (ipaEs10bRetrNotifFromLstResFree notifications)
  return out

section
variable (codec : EimCfgCodec)

def ipaProcEuccPkgDwnldExec (ctx : IpaContext) (euiccPackageRequest : EuiccPackageRequest) :
    ProcM (IpaContext × Option DwnldExecRes) := do
  mark (.execute euiccPackageRequest)
  let (ctx, loadEuiccPkgRes) ← ipaEs10bLoadEuiccPkg codec ctx euiccPackageRequest
  match loadEuiccPkgRes with
  | none =>
      mark .free
      return (ctx, none)
  | some loadEuiccPkgRes =>
      if loadEuiccPkgRes.profileChanged then
        return (ctx, some { loadEuiccPkgRes, prfleRollbackRes := none, callOnset := true })
      else
        let (rc, res) ← ipaProcEuccPkgDwnldExecOnset ctx
          { loadEuiccPkgRes, prfleRollbackRes := none, callOnset := false }
        if rc < 0 then
          mark .free
          return (ctx, none)
        else return (ctx, some res)

end

end Ipad.Proc

import Ipad.Proc.MtlAuth
import Ipad.Proc.PrfleInst

/-!
# Indirect profile download
-/

namespace Ipad.Proc
open Lib.Dialogue Ipad.EimCfg Ipad.BppSegments Ipad.Utils

/-! ## Activation codes -/

structure ActivationCode where
  smDpPlusAddress : Option (List UInt8)
  acToken : Option (List UInt8)
  smDpPlusOid : Option (List UInt8)
  confirmationCodeRequired : Bool
  ciPublicKeyIndicator : Option (List UInt8)
  deleteNotificationForDeviceChange : Option (List UInt8)

def ActivationCode.empty : ActivationCode where
  smDpPlusAddress := none
  acToken := none
  smDpPlusOid := none
  confirmationCodeRequired := false
  ciPublicKeyIndicator := none
  deleteNotificationForDeviceChange := none

def dollar : UInt8 := 0x24

def nonempty (item : List UInt8) : Option (List UInt8) := if item = [] then none else some item

def ActivationCode.setItem (ac : ActivationCode) (itemCount : Nat) (item : List UInt8) : ActivationCode :=
  match itemCount with
  | 0 => { ac with smDpPlusAddress := nonempty item }
  | 1 => { ac with acToken := some item }
  | 2 => { ac with smDpPlusOid := nonempty item }
  | 3 => { ac with confirmationCodeRequired := item.head? = some 0x31 }
  | 4 => { ac with ciPublicKeyIndicator := nonempty item }
  | 5 => { ac with deleteNotificationForDeviceChange := nonempty item }
  | _ => ac

def setItems (ac : ActivationCode) : (itemCount : Nat) → List (List UInt8) → ActivationCode
  | _, [] => ac
  | itemCount, item :: items => setItems (ac.setItem itemCount item) (itemCount + 1) items

/-- The items are the pieces between the separators behind the format qualifier. -/
def ipaActivationCodeParse (ac : List UInt8) : Option ActivationCode :=
  if ac.length ≤ 4 then none
  else
    let ac := if ac.take 4 = [0x4C, 0x50, 0x41, 0x3A] then ac.drop 4 else ac
    if ac.length ≤ 4 then none
    else if ac.take 2 ≠ [0x31, dollar] then none
    else
      let decoded := setItems .empty 0 ((ac.drop 2).splitOn dollar)
      if decoded.smDpPlusAddress = none ∨ decoded.acToken = none then none else some decoded

/-! ## Download -/

def usableBoundProfilePackage : Option GetBoundProfilePackageResponse → Option BoundProfilePackage
  | some (.getBoundProfilePackageOk boundProfilePackage) => some boundProfilePackage
  | _ => none

def getBndPrflePkgReq : PrepareDownloadResponse → Option GetBoundProfilePackageRequest
  | .downloadResponseOk transactionId content =>
      some { transactionId, prepareDownloadResponse := .downloadResponseOk transactionId content }
  | .downloadResponseError transactionId code =>
      some { transactionId, prepareDownloadResponse := .downloadResponseError transactionId code }
  | .nothing => none

def ipaEsipaGetBndPrflePkg (prepDwnldRes : PrepareDownloadResponse) : ProcM (Option BoundProfilePackage) :=
  match getBndPrflePkgReq prepDwnldRes with
  | none => pure none
  | some req => do
      let answer ← send (Req.getBoundProfilePackage req)
      return usableBoundProfilePackage answer

def prepDwnldReq (ok : AuthenticateClientOkDpe) : PrepareDownloadRequest where
  smdpSigned2 := ok.smdpSigned2
  smdpSignature2 := ipaStripTlvEnvelope ok.smdpSignature2.bytes 0x5f37
  hashCc := ok.hashCc
  smdpCertificate := ok.smdpCertificate

/-- The answer of an SM-DP+ is used without a check that it is one. -/
def ipaProcPrfleDwnlod : Option AuthenticateClientOkDpe → ProcM (Option BoundProfilePackage)
  | none => stop (.fault .nullDeref)
  | some ok => do
      ofExcept (readable ok.smdpSignature2)
      match ← send (Req.prepareDownload (prepDwnldReq ok)) with
      | none => return none
      | some prepDwnldRes => ipaEsipaGetBndPrflePkg prepDwnldRes

def prfleInstConsent (ctx : IpaContext) (ac : ActivationCode) : ProcM Bool :=
  if ctx.cfg.prfleInstConsentCb then
    request (Req.prfleInstConsent (ac.smDpPlusAddress.getD []) (ac.acToken.getD []))
  else pure true

/-- The pointer to the transaction ID is followed. -/
def cancelAuthClnt (authClntRes : AuthClntRes) (reason : CancelSessionReason) : ProcM Int :=
  match authClntRes.transactionId with
  | none => stop (.fault .nullDeref)
  | some transactionId => ipaProcCmnCancelSess transactionId reason

section
variable (asn1c : Asn1c)

def instPrfle (ctx : IpaContext) (authClntRes : AuthClntRes) (boundProfilePackage : BoundProfilePackage) :
    ProcM IpaContext := do
  let (ctx, rc) ← ipaProcPrfleInst asn1c ctx boundProfilePackage
  mark (.prfleInst rc)
  if rc < 0 then
    let _ ← cancelAuthClnt authClntRes .loadBppExecutionError
    return ctx
  else return ctx

def dwnldPrfle (ctx : IpaContext) (ac : ActivationCode) (authClntRes : AuthClntRes) : ProcM IpaContext := do
  match ← ipaProcPrfleDwnlod authClntRes.authClntOkDpe with
  | none =>
      let _ ← cancelAuthClnt authClntRes .loadBppExecutionError
      return ctx
  | some boundProfilePackage =>
      let consent ← prfleInstConsent ctx ac
      if consent = false then
        let _ ← cancelAuthClnt authClntRes .endUserRejection
        return ctx
      else instPrfle asn1c ctx authClntRes boundProfilePackage

def cmnMtlAuthPars (ctx : IpaContext) (allowedCa : Option (List UInt8)) (ac : ActivationCode) :
    CmnMtlAuthPars where
  tac := ctx.cfg.tac
  smdpAddr := ac.smDpPlusAddress
  allowedCa
  acToken := ac.acToken

/-- The return code is that of a success on every way. -/
def ipaProcIndirectPrfleDwnlod (ctx : IpaContext) (ac : List UInt8) (allowedCa : Option (List UInt8)) :
    ProcM (IpaContext × Int) :=
  match ipaActivationCodeParse ac with
  | none => pure (ctx, 0)
  | some activationCode => do
      match ← ipaProcCmnMtlAuth (cmnMtlAuthPars ctx allowedCa activationCode) with
      | none => return (ctx, 0)
      | some authClntRes =>
          let ctx ← dwnldPrfle asn1c ctx activationCode authClntRes
          return (ctx, 0)

end

end Ipad.Proc

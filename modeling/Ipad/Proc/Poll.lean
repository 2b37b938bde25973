import Ipad.Proc.IndirectDwnld
import Ipad.Proc.EuiccDataReq

/-!
# Polling
-/

namespace Ipad.Proc
open Lib.Dialogue Ipad.EimCfg Ipad.Nvstate Ipad.BppSegments Ipad.Utils

def noEimPackageAvailable : Int := 1

def pollAgain : Int := 0
def pollAgainLater : Int := 1
def pollAgainWhenOnline : Int := 2
def pollCheckScard : Int := -1000
def pollCheckHttp : Int := -2000

def checkCanaries : ProcM Int := do
  let (checkHttp, checkScard) ← request Req.canaries
  return if checkHttp then pollCheckHttp else if checkScard then pollCheckScard else einval

def IpaContext.setExecution (ctx : IpaContext) (res : Option DwnldExecRes) : IpaContext :=
  { ctx with procEuccPkgDwnldExecRes := res }

section
variable (codec : EimCfgCodec) (asn1c : Asn1c)

def eimPkgExecEuiccPackage (ctx : IpaContext) (euiccPackageRequest : EuiccPackageRequest) :
    ProcM (IpaContext × Int) :=
  if ctx.procEuccPkgDwnldExecRes.isSome then stop .executionPending
  else do
    let (ctx, res) ← ipaProcEuccPkgDwnldExec codec ctx euiccPackageRequest
    match res with
    | none =>
        -- the return code has not been set
        let rc ← request Req.uninitialised
        return (ctx.setExecution none, rc)
    | some res =>
        if res.callOnset then return (ctx.setExecution (some res), 0)
        else
          mark .free
          return (ctx.setExecution none, 0)

def eimPkgExecDwnld (ctx : IpaContext) (dwnldTriggerRequest : ProfileDownloadTriggerRequest) :
    ProcM (IpaContext × Int) :=
  match dwnldTriggerRequest.profileDownloadData with
  | some (.activationCode activationCode) => do
      match ← getEuiccCiPkid codec ctx with
      | none => return (ctx, einval)
      | some allowedCa =>
          let (ctx, rc) ← ipaProcIndirectPrfleDwnlod asn1c ctx (ipaStrFromAsn activationCode) allowedCa
          return (ctx, if rc < 0 then rc else 0)
  | _ => pure (ctx, einval)

def eimPkgExec (ctx : IpaContext) : GetEimPackageResponse → ProcM (IpaContext × Int)
  | .euiccPackageRequest euiccPackageRequest => eimPkgExecEuiccPackage codec ctx euiccPackageRequest
  | .ipaEuiccDataRequest ipaEuiccDataRequest => do
      let rc ← ipaProcEuiccDataReq codec ctx ipaEuiccDataRequest
      return (ctx, if rc < 0 then rc else 0)
  | .profileDownloadTriggerRequest dwnldTriggerRequest => eimPkgExecDwnld codec asn1c ctx dwnldTriggerRequest
  | _ => pure (ctx, einval)

def eimPkgErr : GetEimPackageResponse → Int
  | .eimPackageError code => code
  | .nothing => -1
  | _ => 0

def ipaProcEimPkgRetr (ctx : IpaContext) : ProcM (IpaContext × Int) := do
  match ← request Req.getEimPackage with
  | none => return (ctx, einval)
  | some response =>
      if eimPkgErr response = noEimPackageAvailable then return (ctx, -noEimPackageAvailable)
      else if eimPkgErr response ≠ 0 then return (ctx, einval)
      else eimPkgExec codec asn1c ctx response

def ipaPoll (ctx : IpaContext) : ProcM (IpaContext × Int) := do
  mark .resetCanaries
  match ctx.procEuccPkgDwnldExecRes with
  | some pending =>
      let (rc, res) ← ipaProcEuccPkgDwnldExecOnset ctx pending
      if rc < 0 then
        mark .free
        let rc ← checkCanaries
        return (ctx.setExecution none, rc)
      else if res.callOnset = false then
        mark .free
        return (ctx.setExecution none, pollAgain)
      else return (ctx.setExecution (some res), pollAgainWhenOnline)
  | none =>
      let _ ← ipaNotifDelivery ctx
      let (ctx, rc) ← ipaProcEimPkgRetr codec asn1c ctx
      if rc = -noEimPackageAvailable then return (ctx, pollAgainLater)
      else if rc < 0 then
        let rc ← checkCanaries
        return (ctx, rc)
      else if ctx.procEuccPkgDwnldExecRes.isSome then return (ctx, pollAgainWhenOnline)
      else return (ctx, pollAgain)

/-- The contexts that sequences of polls lead to, with everything that was said. -/
inductive Polled : IpaContext → Trace → Prop where
  | new (iotEuiccEmuEnabled : Bool) (eimId : List UInt8) (nvstate : IpaNvstate) (cfg : IpaConfig) :
      Polled (.fresh iotEuiccEmuEnabled eimId nvstate cfg) []
  | poll (ctx : IpaContext) (t : Trace) (polled : Polled ctx t) (ctx' : IpaContext) (rc : Int) (t' : Trace)
      (runs : Runs (ipaPoll codec asn1c ctx) t (.ok (ctx', rc)) t') : Polled ctx' t'

end

end Ipad.Proc

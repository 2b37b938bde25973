import Ipad.Proc.Poll

/-!
# Injection of eIM packages
-/

namespace Ipad.Proc
open Lib.Dialogue Ipad.EimCfg Ipad.Utils

def enomem : Int := -12

/-- What a TransferEimPackageRequest is decoded with: a buffer for its bytes, and the decoder. -/
structure ExtDec where
  ipaBufNew : List UInt8 → Option IpaBuf
  ipaEsipaMsgFromExtDec : IpaBuf → Option TransferEimPackageRequest

def parseTransferEimPackage (extDec : ExtDec) (package : List UInt8) : Except Int TransferEimPackageRequest :=
  match extDec.ipaBufNew package with
  | none => .error enomem
  | some buf =>
      match extDec.ipaEsipaMsgFromExtDec buf with
      | none => .error einval
      | some transferReq => .ok transferReq

/-- A request without content, or with an error in it. -/
def generateProvideEimResult (success : Bool) : ProcM Int := do
  match ← ipaEsipaPrvdeEimPkgRslt { eimPkgErr := if success then 0 else eimPackageUndefinedError } with
  | none => return einval
  | some _ => return 0

section
variable (codec : EimCfgCodec) (asn1c : Asn1c)

/-- What the context held before is lost. -/
def handleInjectedEuiccPackage (ctx : IpaContext) (euiccPkgReq : EuiccPackageRequest) :
    ProcM (IpaContext × Int) := do
  let (ctx, res) ← ipaProcEuccPkgDwnldExec codec ctx euiccPkgReq
  match res with
  | none => return (ctx.setExecution none, einval)
  | some res =>
      if res.callOnset then return (ctx.setExecution (some res), 0)
      else
        mark .free
        return (ctx.setExecution none, 0)

def handleInjectedIpaDataRequest (ctx : IpaContext) (ipaDataReq : IpaEuiccDataRequest) :
    ProcM (IpaContext × Int) := do
  let rc ← ipaProcEuiccDataReq codec ctx ipaDataReq
  return (ctx, if rc < 0 then rc else 0)

/-- The same steps as those of a polled request. -/
def handleInjectedDownloadTrigger (ctx : IpaContext) (dwnldTriggerReq : ProfileDownloadTriggerRequest) :
    ProcM (IpaContext × Int) := eimPkgExecDwnld codec asn1c ctx dwnldTriggerReq

def handleInjectedEimAcknowledgements (ctx : IpaContext) (_ : List Int) : ProcM (IpaContext × Int) := pure (ctx, 0)

def handleInjected (ctx : IpaContext) : TransferEimPackageRequest → ProcM (IpaContext × Int)
  | .euiccPackageRequest euiccPkgReq => handleInjectedEuiccPackage codec ctx euiccPkgReq
  | .ipaEuiccDataRequest ipaDataReq => handleInjectedIpaDataRequest codec ctx ipaDataReq
  | .profileDownloadTriggerRequest dwnldTriggerReq => handleInjectedDownloadTrigger codec asn1c ctx dwnldTriggerReq
  | .eimAcknowledgements eimAck => handleInjectedEimAcknowledgements ctx eimAck
  | .nothing => pure (ctx, einval)

def ipaProcEimPkgInject (extDec : ExtDec) (ctx : IpaContext) (package : List UInt8) : ProcM (IpaContext × Int) :=
  match parseTransferEimPackage extDec package with
  | .error rc => pure (ctx, rc)
  | .ok .nothing => pure (ctx, einval)
  | .ok transferReq => do
      let (ctx, rc) ← handleInjected codec asn1c ctx transferReq
      -- the return code of the handler is overwritten
      let rc ← generateProvideEimResult (rc = 0)
      return (ctx, if rc < 0 then rc else 0)

end

end Ipad.Proc

import Ipad.Utils.Strings
import Ipad.Proc.DwnldExec

/-!
# IpaEuiccDataRequest
-/

namespace Ipad.Proc
open Lib.Dialogue Ipad.EimCfg Ipad.Utils

/-! ## eIM configuration data -/

/-- Without an eimId the first entry is taken. -/
def ipaEs10bGetEimCfgDataFilter (list : List EimConfigurationData) (eimId : List UInt8) :
    Option EimConfigurationData :=
  if eimId = [] then list.head? else list.find? fun cfg => cfg.eimId = eimId

section
variable (codec : EimCfgCodec)

def ipaEs10bGetEimCfgData (ctx : IpaContext) : ProcM (Option (List EimConfigurationData)) :=
  if ctx.iotEuiccEmuEnabled then pure (getEimCfgDataIotEmu codec ctx.emu.nvstate)
  else request Req.getEimConfigurationData

/-- The key identifier as an `ipa_buf`. -/
def pkidBuf (item : EimConfigurationData) : Option (List UInt8) := item.euiccCiPKId.map OctetString.bytes

def getEuiccCiPkid (ctx : IpaContext) : ProcM (Option (Option (List UInt8))) := do
  match ← ipaEs10bGetEimCfgData codec ctx with
  | none => return none
  | some list => return (ipaEs10bGetEimCfgDataFilter list ctx.eimId).map pkidBuf

end

/-! ## The queries -/

def convertEuiccInfo2 (euiccInfo : EuiccInfo2) : Sgp32EuiccInfo2 where
  toEuiccInfo2Base := euiccInfo.toEuiccInfo2Base
  treProperties := none
  treProductReference := none
  additionalEuiccProfilePackageVersions := none
  ipaMode := none
  rfu2 := none
  rfu3 := none
  rfu4 := none
  iotSpecificInfo := none

structure EuiccInfoRes where
  sgp32EuiccInfo2 : Option Sgp32EuiccInfo2

def getEuiccInfo2 (ctx : IpaContext) : ProcM (Option EuiccInfoRes) :=
  if ctx.iotEuiccEmuEnabled then do
    let answer ← request Req.getEuiccInfo2
    return answer.map fun euiccInfo => ⟨some (convertEuiccInfo2 euiccInfo)⟩
  else do
    let answer ← request Req.getEuiccInfo2Sgp32
    return answer.map fun euiccInfo => ⟨some euiccInfo⟩

structure GetCertsRes where
  eumCertificate : Option Certificate
  euiccCertificate : Option Certificate

def decGetCertsRes : GetCertsResponse → GetCertsRes
  | .certs eumCertificate euiccCertificate => ⟨some eumCertificate, some euiccCertificate⟩
  | .getCertsError _ => ⟨none, none⟩
  | .nothing => ⟨none, none⟩

def ipaEs10bGetCerts (euiccCiPKId : Option (List UInt8)) : ProcM (Option GetCertsRes) := do
  let answer ← send (Req.getCerts euiccCiPKId)
  return answer.map decGetCertsRes

/-- The emulation has an eUICC of SGP.22, which cannot be asked for the results of eUICC packages. -/
def convertSearchCriteria (iotEuiccEmuEnabled : Bool) : Option SearchCriteria → Option SearchCriteria
  | none => none
  | some .euiccPackageResults => if iotEuiccEmuEnabled then none else some .euiccPackageResults
  | some .nothing => none
  | some criteria => some criteria

def ipaEs10bRetrNotif (ctx : IpaContext) (searchCriteria : Option SearchCriteria) :
    ProcM (Option RetrNotifFromLstRes) := do
  let answer ← send (Req.retrieveNotifications (convertSearchCriteria ctx.iotEuiccEmuEnabled searchCriteria))
  return answer.map
    (if ctx.iotEuiccEmuEnabled then decRetrNotifFromLstRes else decRetrNotifFromLstResSgp32)

/-- One byte for each bit of the two bit strings. -/
def makeIpaCapabilities : IpaCapabilities where
  ipaFeatures := [0, 1, 0, 1, 0, 0]
  ipaSupportedProtocols := [1, 0, 0, 0, 0]

def makeDeviceInfo (ctx : IpaContext) : DeviceInfo where
  tac := ctx.cfg.tac

/-! ## The members -/

section
variable (tagList : List UInt8)

def asked {α : Type} (tag : UInt16) (query : ProcM (Option α)) : ProcM (Option α) :=
  if ipaTagInTaglist tag tagList then query else pure none

/-- Only what is absent is handed on. -/
def euiccInfo2Member (res : Option EuiccInfoRes) : Option Sgp32EuiccInfo2 :=
  match res with
  | none => none
  | some res => if res.sgp32EuiccInfo2.isNone then res.sgp32EuiccInfo2 else none

/-- The addresses may be known already, and then the member is left out. -/
def rootSmdsAddressMember (known : Option EuiccConfiguredAddresses) : ProcM (Option (List UInt8)) :=
  asked tagList 0x83 <|
    match known with
    | some _ => pure none
    | none => do
        let res ← request Req.getEuiccConfiguredAddresses
        return res.map EuiccConfiguredAddresses.rootDsAddress

def eumCertificateMember (res : Option GetCertsRes) : Option Certificate :=
  match res with
  | none => none
  | some res => if res.eumCertificate.isSome && res.euiccCertificate.isSome then res.eumCertificate else none

def euiccCertificateMember (euiccCiPKId : Option (List UInt8)) (known : Option GetCertsRes) :
    ProcM (Option Certificate) :=
  asked tagList 0xA6 <|
    match known with
    | some res => pure res.euiccCertificate
    | none => do
        match ← ipaEs10bGetCerts euiccCiPKId with
        | none => return none
        | some res =>
            return if res.eumCertificate.isSome && res.euiccCertificate.isSome then res.euiccCertificate
              else none

end

section
variable (codec : EimCfgCodec)

def collectIpaEuiccData (ctx : IpaContext) (req : IpaEuiccDataRequest) :
    ProcM (IpaEuiccData × Option RetrNotifFromLstRes) := do
  let euiccCfgAddr ← asked req.tagList 0x80 (request Req.getEuiccConfiguredAddresses)
  let euiccInfo1 ← asked req.tagList 0xBF20 (request Req.getEuiccInfo1)
  let euiccInfo2 ← asked req.tagList 0xBF22 (getEuiccInfo2 ctx)
  let rootSmdsAddress ← rootSmdsAddressMember req.tagList euiccCfgAddr
  let eimCfgData ← asked req.tagList 0x84 (ipaEs10bGetEimCfgData codec ctx)
  let certs ← asked req.tagList 0xA5 (ipaEs10bGetCerts req.euiccCiPKId)
  let euiccCertificate ← euiccCertificateMember req.tagList req.euiccCiPKId certs
  let notifications ← asked req.tagList 0xBF2B (ipaEs10bRetrNotif ctx req.searchCriteria)
  let data : IpaEuiccData := {
    defaultSmdpAddress := euiccCfgAddr.bind EuiccConfiguredAddresses.defaultDpAddress
    euiccInfo1
    euiccInfo2 := euiccInfo2Member euiccInfo2
    rootSmdsAddress
    associationToken := eimCfgData.bind fun list =>
      (ipaEs10bGetEimCfgDataFilter list ctx.eimId).bind EimConfigurationData.associationToken
    eumCertificate := eumCertificateMember certs
    euiccCertificate
    ipaCapabilities := if ipaTagInTaglist 0x88 req.tagList then some makeIpaCapabilities else none
    deviceInfo := if ipaTagInTaglist 0xA9 req.tagList then some (makeDeviceInfo ctx) else none
    notificationsList := notifications.bind RetrNotifFromLstRes.sgp32Res }
  return (data, notifications)

def ipaProcEuiccDataReq (ctx : IpaContext) (req : IpaEuiccDataRequest) : ProcM Int := do
  let (data, notifications) ← collectIpaEuiccData codec ctx req
  let answer ← ipaEsipaPrvdeEimPkgRslt { ipaEuiccDataResp := some data }
  ofExcept (ipaEs10bRetrNotifFromLstResFree notifications)
  return if answer.isSome then 0 else einval

end

end Ipad.Proc

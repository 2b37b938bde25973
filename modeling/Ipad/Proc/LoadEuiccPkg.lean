import Ipad.Proc.Messages

/-!
# Loading an eUICC package
-/

namespace Ipad.Proc
open Lib.Dialogue Ipad.EimCfg Ipad.Nvstate Ipad.Utils

/-! ## GetProfilesInfo -/

structure GetPrfleInfoRes where
  prfleInfoListErr : Int
  sgp32Res : ProfileInfoListResponse
  currentlyActivePrfle : Option ProfileInfo

def convertResToSgp32 : ProfileInfoListResponse → ProfileInfoListResponse
  | .profileInfoListOk list => .profileInfoListOk list
  -- the code is converted, the selection of the alternative is not reached
  | .profileInfoListError _ => .nothing
  | .nothing => .nothing

def prfleInfoListErr : ProfileInfoListResponse → Int
  | .profileInfoListOk _ => 0
  | .profileInfoListError code => code
  | .nothing => -1

def profileStateEnabled : Int := 1

def findCurrentlyActivePrfle : ProfileInfoListResponse → Option ProfileInfo
  | .profileInfoListOk list => list.find? fun prfleInfo => prfleInfo.profileState = some profileStateEnabled
  | _ => none

def decGetPrfleInfoRes (iotEuiccEmuEnabled : Bool) (answer : ProfileInfoListResponse) : GetPrfleInfoRes :=
  let sgp32Res := if iotEuiccEmuEnabled then convertResToSgp32 answer else answer
  { prfleInfoListErr := prfleInfoListErr answer, sgp32Res
    currentlyActivePrfle := findCurrentlyActivePrfle sgp32Res }

/-- Only the request of a PSMO is one that was received. -/
def getProfilesInfo : (purpose : Purpose) → ProcM (Option ProfileInfoListResponse)
  | .psmo => send (Req.getProfilesInfo .psmo)
  | purpose => request (Req.getProfilesInfo purpose)

def ipaEs10cGetPrfleInfo (ctx : IpaContext) (purpose : Purpose) : ProcM (Option GetPrfleInfoRes) := do
  let answer ← getProfilesInfo purpose
  return answer.map (decGetPrfleInfoRes ctx.iotEuiccEmuEnabled)

/-- The ICCID for a rollback after GetProfilesInfo. It stays on the ways out that return early. -/
def updatedRollbackIccid (rollbackIccid : Option (List UInt8)) : Option GetPrfleInfoRes → Option (List UInt8)
  | none => rollbackIccid
  | some res =>
      if res.prfleInfoListErr ≠ 0 then rollbackIccid
      else
        match res.currentlyActivePrfle with
        | none => none
        | some prfle =>
            match prfle.iccid with
            | none => rollbackIccid
            | some iccid => some iccid

theorem updatedRollbackIccid_idle {rollbackIccid : Option (List UInt8)} {res : GetPrfleInfoRes}
    (ok : res.prfleInfoListErr = 0) (idle : res.currentlyActivePrfle = none) :
    updatedRollbackIccid rollbackIccid (some res) = none := by
  simp only [updatedRollbackIccid, ok, idle, ne_eq, not_true_eq_false, if_false]

theorem updatedRollbackIccid_active {rollbackIccid : Option (List UInt8)} {res : GetPrfleInfoRes}
    {prfle : ProfileInfo} (ok : res.prfleInfoListErr = 0) (active : res.currentlyActivePrfle = some prfle) :
    updatedRollbackIccid rollbackIccid (some res) = prfle.iccid.or rollbackIccid := by
  simp only [updatedRollbackIccid, ok, active, ne_eq, not_true_eq_false, if_false]
  cases prfle.iccid with
  | none => rfl
  | some iccid => rfl

theorem updatedRollbackIccid_failed {rollbackIccid : Option (List UInt8)} {res : GetPrfleInfoRes}
    (failed : res.prfleInfoListErr ≠ 0) : updatedRollbackIccid rollbackIccid (some res) = rollbackIccid :=
  if_pos failed

def updateRollbackIccid (ctx : IpaContext) : ProcM IpaContext := do
  let res ← ipaEs10cGetPrfleInfo ctx .rollback
  return { ctx with rollbackIccid := updatedRollbackIccid ctx.rollbackIccid res }

def IpaContext.refreshed (ctx : IpaContext) (ans : Option ProfileInfoListResponse) : IpaContext :=
  { ctx with
    rollbackIccid := updatedRollbackIccid ctx.rollbackIccid (ans.map (decGetPrfleInfoRes ctx.iotEuiccEmuEnabled)) }

@[simp] theorem ends_updateRollbackIccid {Q : IpaContext → Trace → Prop} {E : Abort → Trace → Prop}
    (ctx : IpaContext) (t : Trace) :
    Ends Q E (updateRollbackIccid ctx) t ↔
      ∀ ans, Q (ctx.refreshed ans) (⟨.getProfilesInfo .rollback, ans⟩ :: t) := Iff.rfl

/-! ## Emulated PSMOs and eCOs -/

/-- Of a copy. -/
def ProfileInfoListResponse.encoding : ProfileInfoListResponse → Encoding
  | .profileInfoListOk list => .ofBuffered (list.all ProfileInfo.buffered)
  | .profileInfoListError _ => .encoded
  | .nothing => .refused

def iotEmoDoListProfileInfoPsmo (ctx : IpaContext) : ProcM EuiccResultData := do
  match ← ipaEs10cGetPrfleInfo ctx .psmo with
  | none => return .listProfileInfoResult (.profileInfoListError resultUndefinedError)
  | some res =>
      -- that there is a copy is asserted
      if res.sgp32Res.encoding = .encoded then return .listProfileInfoResult res.sgp32Res
      else stop (.fault .assertion)

/-- The rules are copied one by one. -/
def iotEmoDoGetRatPsmo : ProcM EuiccResultData := do
  let answer ← request Req.getRat
  let rat := answer.getD []
  if rat.all ProfilePolicyAuthorisationRule.buffered then return .getRatResult rat
  else stop (.fault .assertion)

def IpaContext.setNvstate (ctx : IpaContext) (nvstate : IpaNvstate) : IpaContext :=
  { ctx with emu := { ctx.emu with nvstate } }

def iotEmoDoPsmo (ctx : IpaContext) : Psmo → ProcM (IpaContext × Option EuiccResultData)
  | .enable iccid _ => do
      let enableResult ← send (Req.enableProfile .psmo iccid)
      return (ctx, some (.enableResult (enableResult.getD resultUndefinedError)))
  | .disable iccid => do
      let disableResult ← send (Req.disableProfile iccid)
      return (ctx, some (.disableResult (disableResult.getD resultUndefinedError)))
  | .delete iccid => do
      let deleteResult ← send (Req.deleteProfile iccid)
      return (ctx, some (.deleteResult (deleteResult.getD resultUndefinedError)))
  | .listProfileInfo _ => do
      let res ← iotEmoDoListProfileInfoPsmo ctx
      return (ctx, some res)
  | .getRat => do
      let res ← iotEmoDoGetRatPsmo
      return (ctx, some res)
  | .configureAutoEnable autoEnableFlag smdpOid smdpAddress =>
      pure (ctx.setNvstate (configureAutoEnable autoEnableFlag smdpOid smdpAddress ctx.emu.nvstate),
        some (.configureAutoEnableResult resultOk))
  | .unsupported => pure (ctx, none)

section
variable (codec : EimCfgCodec)

def iotEmoDoEco (ctx : IpaContext) : Eco → ProcM (IpaContext × Option EuiccResultData)
  | .addEim addEim => do
      let (nvstate, res) ← ofExcept (iotEmoDoAddEimEco codec ctx.emu.nvstate addEim)
      return (ctx.setNvstate nvstate, some (.addEimResult res))
  | .deleteEim eimId => do
      let (nvstate, res) ← ofExcept (iotEmoDoDeleteEimEco codec ctx.emu.nvstate eimId)
      return (ctx.setNvstate nvstate, some (.deleteEimResult res))
  | .updateEim above updateEim => do
      let (nvstate, res) ← ofExcept (iotEmoDoUpdateEimEco codec ctx.emu.nvstate above updateEim)
      return (ctx.setNvstate nvstate, some (.updateEimResult res))
  | .listEim => pure (ctx, some (.listEimResult (iotEmoDoListEimEco codec ctx.emu.nvstate)))
  | .unsupported => pure (ctx, none)

end

def iotEmoDoList {α : Type} (command : IpaContext → α → ProcM (IpaContext × Option EuiccResultData)) :
    IpaContext → List α → ProcM (IpaContext × List EuiccResultData)
  | ctx, [] => pure (ctx, [])
  | ctx, first :: rest => do
      let (ctx, result) ← command ctx first
      let (ctx, results) ← iotEmoDoList command ctx rest
      return (ctx, result.toList ++ results)

/-! ## LoadEuiccPackage -/

def dupTransactionId : Option OctetString → Except Fault (Option (List UInt8))
  | none => .ok none
  | some (.octets transactionId) => .ok (some transactionId)
  | some .unbuffered => .error .assertion

def euiccPackageResult (ctx : IpaContext) (req : EuiccPackageRequest) (transactionId : Option (List UInt8))
    (euiccResult : List EuiccResultData) : EuiccPackageResult :=
  .euiccPackageResultSigned
    { eimId := ctx.eimId, counterValue := req.counterValue, transactionId, seqNumber := 0, euiccResult }

section
variable (codec : EimCfgCodec)

def loadEuiccPkgIotEmu (ctx : IpaContext) (req : EuiccPackageRequest) :
    ProcM (IpaContext × EuiccPackageResult) := do
  let ctx ← updateRollbackIccid ctx
  let transactionId ← ofExcept (dupTransactionId req.transactionId)
  match req.euiccPackage with
  | .psmoList list =>
      let (ctx, results) ← iotEmoDoList iotEmoDoPsmo ctx list
      return (ctx, euiccPackageResult ctx req transactionId results)
  | .ecoList list =>
      let (ctx, results) ← iotEmoDoList (iotEmoDoEco codec) ctx list
      return (ctx, euiccPackageResult ctx req transactionId results)
  | .nothing => return (ctx, .euiccPackageErrorUnsigned ctx.eimId none)

def EuiccResultData.changesProfile : EuiccResultData → Bool
  | .enableResult code => code = resultOk
  | .disableResult code => code = resultOk
  | .rollbackResult code => code = resultOk
  | _ => false

def checkForProfileChange : EuiccPackageResult → Bool
  | .euiccPackageResultSigned result => result.euiccResult.any EuiccResultData.changesProfile
  | _ => false

def Psmo.allowsRollback : Psmo → Bool
  | .enable _ rollbackFlag => rollbackFlag
  | _ => false

def checkForRollbackFlag (req : EuiccPackageRequest) : Bool :=
  match req.euiccPackage with
  | .psmoList list => list.any Psmo.allowsRollback
  | _ => false

def loadEuiccPkg (ctx : IpaContext) (req : EuiccPackageRequest) :
    ProcM (IpaContext × Option EuiccPackageResult) :=
  if ctx.iotEuiccEmuEnabled then do
    let (ctx, res) ← loadEuiccPkgIotEmu codec ctx req
    return (ctx, some res)
  else do
    let res ← send (Req.loadEuiccPackage req)
    return (ctx, res)

def ipaEs10bLoadEuiccPkg (ctx : IpaContext) (req : EuiccPackageRequest) :
    ProcM (IpaContext × Option LoadEuiccPkgRes) := do
  let (ctx, res) ← loadEuiccPkg codec ctx req
  return (ctx, res.map fun res =>
    { res, profileChanged := checkForProfileChange res, rollbackAllowed := checkForRollbackFlag req })

end

/-! ## ProfileRollback -/

def catBusy : Int := 5

def rollbackCmdResult (enableResult : Int) : Int :=
  if enableResult = resultOk then resultOk
  else if enableResult = catBusy then catBusy
  else resultUndefinedError

/-- The result list of any other alternative is not there. -/
def appendRollbackResult (rollbackSuccessful : Bool) : EuiccPackageResult → Except Fault EuiccPackageResult
  | .euiccPackageResultSigned result =>
      let rollbackResult : EuiccResultData :=
        .rollbackResult (if rollbackSuccessful then resultOk else resultUndefinedError)
      .ok (.euiccPackageResultSigned { result with euiccResult := result.euiccResult ++ [rollbackResult] })
  | _ => .error .outOfBounds

def prfleRollbackEmu (ctx : IpaContext) : ProcM (Option ProfileRollbackResponse) :=
  match ctx.rollbackIccid with
  | none => pure none
  | some iccid => do
      match ← request (Req.enableProfile .rollback iccid) with
      | none => return none
      | some enableResult =>
          let cmdResult := rollbackCmdResult enableResult
          match ctx.procEuccPkgDwnldExecRes with
          | none => return some { cmdResult, eUICCPackageResult := none }
          | some pending =>
              let result ← ofExcept (appendRollbackResult (cmdResult = resultOk) pending.loadEuiccPkgRes.res)
              return some { cmdResult, eUICCPackageResult := some result }

def ipaEs10bPrfleRollback (ctx : IpaContext) : ProcM (Option ProfileRollbackResponse) := do
  mark .prfleRollback
  if ctx.iotEuiccEmuEnabled then prfleRollbackEmu ctx
  else request Req.profileRollback

end Ipad.Proc

import Ipad.Utils.Strings
import Ipad.Proc.DwnldExec

/-!
# Common mutual authentication and cancellation of a session
-/

namespace Ipad.Proc
open Lib.Dialogue Ipad.EimCfg Ipad.Utils

/-! ## Cancellation -/

structure CancelSessionRes where
  cancelSessionErr : Int
  cancelSessionOk : Option (List UInt8 × List UInt8)

def decCancelSessionRes : CancelSessionResponse → CancelSessionRes
  | .cancelSessionResponseOk transactionId content =>
      { cancelSessionErr := 0, cancelSessionOk := some (transactionId, content) }
  | .cancelSessionResponseError code => { cancelSessionErr := code, cancelSessionOk := none }
  | .nothing => { cancelSessionErr := -1, cancelSessionOk := none }

def ipaEs10bCancelSession (transactionId : List UInt8) (reason : CancelSessionReason) :
    ProcM (Option CancelSessionRes) := do
  match ← send (Req.cancelSession transactionId reason) with
  | none => return none
  | some answer =>
      let res := decCancelSessionRes answer
      match res.cancelSessionOk with
      | none => return some res
      | some (answered, _) => return if answered ≠ transactionId then none else some res

def CancelSessionRes.forwarded (res : CancelSessionRes) : ForwardedCancelResponse :=
  if res.cancelSessionErr ≠ 0 then .cancelSessionResponseError res.cancelSessionErr
  else
    match res.cancelSessionOk with
    | some (transactionId, content) => .cancelSessionResponseOk transactionId content
    | none => .cancelSessionResponseError 0

def cancelSessionEsipaRc : Option CancelSessionResponseEsipa → Int
  | none => einval
  | some .cancelSessionOk => 0
  | some (.cancelSessionError code) => if code ≠ 0 then code else einval
  | some .nothing => -1

def ipaProcCmnCancelSess (transactionId : List UInt8) (reason : CancelSessionReason) : ProcM Int := do
  match ← ipaEs10bCancelSession transactionId reason with
  | none => return einval
  | some res =>
      let answer ← send (Req.cancelSessionEsipa transactionId res.forwarded)
      return cancelSessionEsipaRc answer

/-! ## Checks -/

/-- The entries from the last of the first `i` down to the first. -/
def restrictEuiccCiPKIdList (allowedCa : List UInt8) : Nat → List (List UInt8) → List (List UInt8)
  | 0, list => list
  | i + 1, list =>
      restrictEuiccCiPKIdList allowedCa i (if list[i]? ≠ some allowedCa then list.eraseIdx i else list)

def restrictEuiccInfo (euiccInfo : EuiccInfo1) : Option (List UInt8) → Option EuiccInfo1
  | none => some euiccInfo
  | some allowedCa =>
      let list := euiccInfo.euiccCiPKIdListForVerification
      let restricted := restrictEuiccCiPKIdList allowedCa list.length list
      if restricted = [] then none
      else some { euiccInfo with euiccCiPKIdListForVerification := restricted }

def idCeAuthorityKeyIdentifier : List Nat := [2, 5, 29, 35]

def allowedCaTlv (allowedCa : List UInt8) : List UInt8 :=
  0x30 :: UInt8.ofNat (allowedCa.length + 2) :: 0x80 :: UInt8.ofNat allowedCa.length :: allowedCa

def Extension.allows (allowedCa : List UInt8) (extension : Extension) : Bool :=
  extension.extnID = some idCeAuthorityKeyIdentifier ∧ extension.extnValue = allowedCaTlv allowedCa

/-- The optional extensions are used without a check that there are any. -/
def checkCertificate (allowedCa : Option (List UInt8)) (certificate : Certificate) : Except Fault Bool :=
  match allowedCa with
  | none => .ok true
  | some allowedCa =>
      match certificate.extensions with
      | none => .error .nullDeref
      | some extensions => .ok (extensions.any (Extension.allows allowedCa))

/-! ## The functions of the eUICC and the eIM -/

def ipaLenEuiccChlg : Nat := 16

def ipaEs10bGetEuiccChlg : ProcM (Option (List UInt8)) := do
  let answer ← request Req.getEuiccChallenge
  return answer.map (ipaCopyAsnBuf ipaLenEuiccChlg)

structure InitAuthRes where
  initAuthErr : Int
  initAuthOk : Option InitiateAuthenticationOk

def decInitAuthRes : InitiateAuthenticationResponse → InitAuthRes
  | .initiateAuthenticationOk ok => { initAuthErr := 0, initAuthOk := some ok }
  | .initiateAuthenticationError code => { initAuthErr := code, initAuthOk := none }
  | .nothing => { initAuthErr := -1, initAuthOk := none }

def checkInitAuthRes (req : InitiateAuthenticationRequest) (res : InitAuthRes) : InitAuthRes :=
  match res.initAuthOk with
  | none => res
  | some ok =>
      if ipaAsnStrCmpBufI ok.serverSigned1.serverAddress req.smdpAddress = false then
        { res with initAuthErr := -1 }
      else if ok.serverSigned1.euiccChallenge ≠ req.euiccChallenge then { res with initAuthErr := -1 }
      else res

def ipaEsipaInitAuth (req : InitiateAuthenticationRequest) : ProcM (Option InitAuthRes) := do
  let answer ← send (Req.initiateAuthentication req)
  return answer.map fun answer => checkInitAuthRes req (decInitAuthRes answer)

def InitAuthRes.usable (res : Option InitAuthRes) : Option InitiateAuthenticationOk :=
  match res with
  | none => none
  | some res => if res.initAuthErr ≠ 0 then none else res.initAuthOk

structure AuthServRes where
  authServErr : Int
  authServOk : Option (List UInt8)

def decAuthServRes : AuthenticateServerResponse → AuthServRes
  | .authenticateResponseOk content => { authServErr := 0, authServOk := some content }
  | .authenticateResponseError code => { authServErr := code, authServOk := none }
  | .nothing => { authServErr := -1, authServOk := none }

def ipaEs10bAuthServ (req : AuthenticateServerRequest) : ProcM (Option AuthServRes) := do
  let answer ← send (Req.authenticateServer req)
  return answer.map decAuthServRes

structure AuthClntRes where
  transactionId : Option (List UInt8)
  authClntOkDpe : Option AuthenticateClientOkDpe
  authClntOkDse : Option AuthenticateClientOkDse
  authClntErr : Int

def decAuthClntRes (req : AuthenticateClientRequest) : AuthenticateClientResponse → Except Fault AuthClntRes
  | .authenticateClientOkDpe ok =>
      match ok.transactionId with
      -- the message about the mismatch shows the absent transaction ID
      | none => .error .nullDeref
      | some transactionId =>
          .ok
            { transactionId := some transactionId, authClntOkDpe := some ok, authClntOkDse := none
              authClntErr := if transactionId ≠ req.transactionId then -1 else 0 }
  | .authenticateClientOkDse ok =>
      .ok
        { transactionId := some ok.transactionId, authClntOkDpe := none, authClntOkDse := some ok
          authClntErr := 0 }
  | .authenticateClientError code =>
      .ok { transactionId := none, authClntOkDpe := none, authClntOkDse := none, authClntErr := code }
  | .nothing =>
      .ok { transactionId := none, authClntOkDpe := none, authClntOkDse := none, authClntErr := -1 }

def AuthServRes.forwarded (transactionId : List UInt8) (res : AuthServRes) : Option ForwardedServerResponse :=
  if res.authServErr ≠ 0 then some (.authenticateResponseError transactionId res.authServErr)
  else res.authServOk.map .authenticateResponseOk

/-- Without a selected alternative the request cannot be encoded. -/
def ipaEsipaAuthClnt (transactionId : List UInt8) (res : AuthServRes) : ProcM (Option AuthClntRes) :=
  match res.forwarded transactionId with
  | none => pure none
  | some authenticateServerResponse => do
      let req : AuthenticateClientRequest := { transactionId, authenticateServerResponse }
      match ← send (Req.authenticateClient req) with
      | none => return none
      | some answer =>
          let res ← ofExcept (decAuthClntRes req answer)
          return some res

/-! ## The procedure -/

structure CmnMtlAuthPars where
  tac : List UInt8
  smdpAddr : Option (List UInt8)
  allowedCa : Option (List UInt8)
  acToken : Option (List UInt8)

def authServReq (pars : CmnMtlAuthPars) (ok : InitiateAuthenticationOk) : AuthenticateServerRequest where
  serverSigned1 := ok.serverSigned1
  serverSignature1 := ipaStripTlvEnvelope ok.serverSignature1.bytes 0x5f37
  euiccCiPKIdToBeUsed := ipaStripTlvEnvelope ok.euiccCiPKIdToBeUsed.bytes 0x04
  serverCertificate := ok.serverCertificate
  ctxParams1 := { matchingId := pars.acToken, tac := pars.tac }

/-- The bytes of a string are read before its length is looked at. -/
def readable : OctetString → Except Fault Unit
  | .octets _ => .ok ()
  | .unbuffered => .error .nullDeref

def AuthClntRes.failed (res : AuthClntRes) : Bool :=
  res.authClntErr ≠ 0 ∨ res.authClntOkDpe.isNone ∧ res.authClntOkDse.isNone

/-- From step 15 on a failure cancels the session. -/
def authenticateClient (transactionId : List UInt8) (authServRes : AuthServRes) : ProcM (Option AuthClntRes) := do
  match ← ipaEsipaAuthClnt transactionId authServRes with
  | none =>
      let _ ← ipaProcCmnCancelSess transactionId .undefinedReason
      return none
  | some res =>
      if res.failed then
        let _ ← ipaProcCmnCancelSess transactionId .undefinedReason
        return none
      else return some res

def transactionIdSize : Nat := 16

/-- Steps 10 to 19. -/
def authenticateServer (pars : CmnMtlAuthPars) (ok : InitiateAuthenticationOk) : ProcM (Option AuthClntRes) :=
  if transactionIdSize < ok.serverSigned1.transactionId.length then pure none
  else do
    let checked ← ofExcept (checkCertificate pars.allowedCa ok.serverCertificate)
    if checked = false then return none
    else
      ofExcept (readable ok.serverSignature1)
      ofExcept (readable ok.euiccCiPKIdToBeUsed)
      match ← ipaEs10bAuthServ (authServReq pars ok) with
      | none => return none
      | some authServRes => authenticateClient ok.serverSigned1.transactionId authServRes

def ipaProcCmnMtlAuth (pars : CmnMtlAuthPars) : ProcM (Option AuthClntRes) := do
  let euiccInfo ← request Req.getEuiccInfo1
  match euiccInfo.bind fun euiccInfo => restrictEuiccInfo euiccInfo pars.allowedCa with
  | none => return none
  | some euiccInfo1 =>
      match ← ipaEs10bGetEuiccChlg with
      | none => return none
      | some euiccChallenge =>
          let res ← ipaEsipaInitAuth { euiccChallenge, smdpAddress := pars.smdpAddr, euiccInfo1 }
          match InitAuthRes.usable res with
          | none => return none
          | some ok => authenticateServer pars ok

end Ipad.Proc

import Ipad.Proc.MtlAuth

/-!
# What mutual authentication lets through
-/

namespace Ipad.Proc
open Lib.Dialogue Ipad.EimCfg Ipad.Utils

/-! ## The list of CI public keys -/

theorem restrictEuiccCiPKIdList_take (allowedCa : List UInt8) (i : Nat) (list : List (List UInt8))
    (within : i ≤ list.length) : restrictEuiccCiPKIdList allowedCa i list =
      (list.take i).filter (· = allowedCa) ++ list.drop i := by
  induction i generalizing list with
  | zero => rfl
  | succ i ih =>
      have here : list[i]? = some list[i] := List.getElem?_eq_getElem within
      rw [restrictEuiccCiPKIdList, here, List.take_succ_eq_append_getElem within, List.filter_append]
      by_cases allowed : list[i] = allowedCa
      · rw [if_neg (not_not.mpr (congrArg some allowed)), ih list (Nat.le_of_lt within),
          List.drop_eq_getElem_cons within, List.filter_cons_of_pos (by simpa using allowed),
          List.filter_nil, List.append_assoc, List.singleton_append]
      · rw [if_pos fun same => allowed (Option.some.inj same), List.filter_cons_of_neg (by simpa using allowed),
          List.filter_nil, List.append_nil, List.eraseIdx_eq_take_drop_succ]
        have upTo : (list.take i).length = i := List.length_take_of_le (Nat.le_of_lt within)
        rw [ih _ (by rw [List.length_append, upTo]; exact Nat.le_add_right ..), List.take_left' upTo,
          List.drop_left' upTo]

theorem restrictEuiccCiPKIdList_filter (allowedCa : List UInt8) (list : List (List UInt8)) :
    restrictEuiccCiPKIdList allowedCa list.length list = list.filter (· = allowedCa) := by
  rw [restrictEuiccCiPKIdList_take allowedCa list.length list (Nat.le_refl _), List.take_length, List.drop_length,
    List.append_nil]

/-- The keys that are offered under a restriction, and that the certificate of the server has to name. -/
structure Restricts (allowedCa : List UInt8) (known offered : List (List UInt8)) (serverCertificate : Certificate) :
    Prop where
  sublist : offered = known.filter (· = allowedCa)
  nonempty : offered ≠ []
  certificate : checkCertificate (some allowedCa) serverCertificate = .ok true

theorem restrictEuiccInfo_some {euiccInfo restricted : EuiccInfo1} {allowedCa : List UInt8}
    (found : restrictEuiccInfo euiccInfo (some allowedCa) = some restricted) :
    restricted.euiccCiPKIdListForVerification =
        euiccInfo.euiccCiPKIdListForVerification.filter (· = allowedCa) ∧
      restricted.euiccCiPKIdListForVerification ≠ [] := by
  simp only [restrictEuiccInfo, restrictEuiccCiPKIdList_filter] at found
  split at found
  · cases found
  next nonempty =>
    cases found
    exact ⟨rfl, nonempty⟩

/-! ## Copies of the challenge -/

theorem ipaCopyAsnBuf_length (size : Nat) (asn1Obj : List UInt8) : (ipaCopyAsnBuf size asn1Obj).length = size := by
  unfold ipaCopyAsnBuf
  split
  next fits => rw [List.length_append, List.length_replicate, Nat.add_sub_cancel' fits]
  next => exact List.length_replicate

theorem ipaCopyAsnBuf_eq_iff (size : Nat) (asn1Obj : List UInt8) :
    ipaCopyAsnBuf size asn1Obj = asn1Obj ↔ asn1Obj.length = size := by
  constructor
  · intro same
    rw [← same, ipaCopyAsnBuf_length]
  · rintro rfl
    rw [ipaCopyAsnBuf, if_pos (Nat.le_refl _), Nat.sub_self, List.replicate_zero, List.append_nil]

/-! ## Runs -/

/-- The messages of a run that comes to the end. -/
structure MtlAuthRun where
  euiccInfo : EuiccInfo1
  euiccChallenge : List UInt8
  initAuthReq : InitiateAuthenticationRequest
  initAuthOk : InitiateAuthenticationOk
  authServReq : AuthenticateServerRequest
  authServRes : AuthenticateServerResponse
  authClntReq : AuthenticateClientRequest
  authClntRes : AuthenticateClientResponse

def MtlAuthRun.trace (run : MtlAuthRun) : Trace :=
  [⟨.authenticateClient run.authClntReq, some run.authClntRes⟩,
    ⟨.encode (.authenticateClient run.authClntReq), .encoded⟩,
    ⟨.authenticateServer run.authServReq, some run.authServRes⟩,
    ⟨.encode (.authenticateServer run.authServReq), .encoded⟩,
    ⟨.initiateAuthentication run.initAuthReq, some (.initiateAuthenticationOk run.initAuthOk)⟩,
    ⟨.encode (.initiateAuthentication run.initAuthReq), .encoded⟩,
    ⟨.getEuiccChallenge, some run.euiccChallenge⟩,
    ⟨.getEuiccInfo1, some run.euiccInfo⟩]

def MtlAuthRun.transactionId (run : MtlAuthRun) : List UInt8 := run.initAuthOk.serverSigned1.transactionId

def AuthenticateServerResponse.forwardedAs (transactionId : List UInt8) :
    AuthenticateServerResponse → ForwardedServerResponse
  | .authenticateResponseOk content => .authenticateResponseOk content
  | .authenticateResponseError code => .authenticateResponseError transactionId code
  | .nothing => .authenticateResponseError transactionId (-1)

structure MtlAuthGate (pars : CmnMtlAuthPars) (res : AuthClntRes) (run : MtlAuthRun) : Prop where
  challenge : run.initAuthOk.serverSigned1.euiccChallenge = run.euiccChallenge
  address : ∃ smdpAddr, pars.smdpAddr = some smdpAddr ∧
    run.initAuthOk.serverSigned1.serverAddress.map toUpper = smdpAddr.map toUpper
  restricted : ∀ allowedCa, pars.allowedCa = some allowedCa →
    Restricts allowedCa run.euiccInfo.euiccCiPKIdListForVerification
      run.initAuthReq.euiccInfo1.euiccCiPKIdListForVerification run.initAuthOk.serverCertificate
  forwarded : run.authClntReq =
    { transactionId := run.transactionId
      authenticateServerResponse := run.authServRes.forwardedAs run.transactionId }
  returned : res.transactionId = some run.transactionId

structure MtlAuthChecked (pars : CmnMtlAuthPars) (res : AuthClntRes) (run : MtlAuthRun) : Prop where
  challenge : run.initAuthOk.serverSigned1.euiccChallenge = ipaCopyAsnBuf ipaLenEuiccChlg run.euiccChallenge
  address : ∃ smdpAddr, pars.smdpAddr = some smdpAddr ∧
    run.initAuthOk.serverSigned1.serverAddress.map toUpper = smdpAddr.map toUpper
  restricted : ∀ allowedCa, pars.allowedCa = some allowedCa →
    Restricts allowedCa run.euiccInfo.euiccCiPKIdListForVerification
      run.initAuthReq.euiccInfo1.euiccCiPKIdListForVerification run.initAuthOk.serverCertificate
  forwarded : run.authClntReq =
    { transactionId := run.transactionId
      authenticateServerResponse := run.authServRes.forwardedAs run.transactionId }
  decoded : decAuthClntRes run.authClntReq run.authClntRes = .ok res
  succeeded : res.failed = false

/-- The eUICC's challenge has its length, and an SM-DS names the transaction of the session. -/
structure MtlAuthHonest (run : MtlAuthRun) : Prop where
  challenge : run.euiccChallenge.length = ipaLenEuiccChlg
  smds : ∀ ok, run.authClntRes = .authenticateClientOkDse ok → ok.transactionId = run.transactionId

theorem decAuthClntRes_transactionId {req : AuthenticateClientRequest} {answer : AuthenticateClientResponse}
    {res : AuthClntRes} (decoded : decAuthClntRes req answer = .ok res) (succeeded : res.failed = false) :
    res.transactionId = some req.transactionId ↔
      ∀ ok, answer = .authenticateClientOkDse ok → ok.transactionId = req.transactionId := by
  cases answer with
  | authenticateClientOkDpe ok =>
      simp only [decAuthClntRes] at decoded
      split at decoded
      · cases decoded
      next transactionId _ =>
        cases decoded
        refine iff_of_true (congrArg some ?_) ?_
        · by_contra other
          have failed : AuthClntRes.failed ⟨some transactionId, some ok, none, -1⟩ = true := rfl
          rw [if_pos other, failed] at succeeded
          cases succeeded
        · rintro _ ⟨⟩
  | authenticateClientOkDse ok =>
      cases decoded
      refine ⟨fun same other found => ?_, fun same => congrArg some (same ok rfl)⟩
      cases found
      exact Option.some.inj same
  | authenticateClientError code =>
      cases decoded
      have failed : AuthClntRes.failed ⟨none, none, none, code⟩ = true := by simp [AuthClntRes.failed]
      cases failed.symm.trans succeeded
  | nothing =>
      cases decoded
      cases succeeded

theorem MtlAuthChecked.gate_iff {pars : CmnMtlAuthPars} {res : AuthClntRes} {run : MtlAuthRun}
    (checked : MtlAuthChecked pars res run) : MtlAuthGate pars res run ↔ MtlAuthHonest run := by
  have transactionId : run.authClntReq.transactionId = run.transactionId := by rw [checked.forwarded]
  have returned := decAuthClntRes_transactionId checked.decoded checked.succeeded
  rw [transactionId] at returned
  constructor
  · intro gate
    exact ⟨(ipaCopyAsnBuf_eq_iff ..).mp (checked.challenge.symm.trans gate.challenge), returned.mp gate.returned⟩
  · intro honest
    exact
      { challenge := checked.challenge.trans ((ipaCopyAsnBuf_eq_iff ..).mpr honest.challenge)
        address := checked.address
        restricted := checked.restricted
        forwarded := checked.forwarded
        returned := returned.mpr honest.smds }

theorem forwarded_decAuthServRes {transactionId : List UInt8} {answer : AuthenticateServerResponse}
    {response : ForwardedServerResponse}
    (forwarded : (decAuthServRes answer).forwarded transactionId = some response) :
    response = answer.forwardedAs transactionId := by
  cases answer with
  | authenticateResponseOk content =>
      cases forwarded
      rfl
  | authenticateResponseError code =>
      unfold AuthServRes.forwarded at forwarded
      split at forwarded
      · cases forwarded
        rfl
      · cases forwarded
  | nothing =>
      cases forwarded
      rfl

theorem forall_none {α : Type} {Q : α → Prop} : ∀ a, (none : Option α) = some a → Q a :=
  fun a found => absurd found.symm (Option.some_ne_none a)

section
variable {t : Trace}

theorem ipaEsipaAuthClnt_ends (transactionId : List UInt8) (authServRes : AuthServRes) :
    Ends (fun out t' => ∀ res, out = some res → ∃ response answer,
        t' = ⟨.authenticateClient ⟨transactionId, response⟩, some answer⟩ ::
          ⟨.encode (.authenticateClient ⟨transactionId, response⟩), .encoded⟩ :: t ∧
        authServRes.forwarded transactionId = some response ∧
        decAuthClntRes ⟨transactionId, response⟩ answer = .ok res)
      (fun _ _ => True) (ipaEsipaAuthClnt transactionId authServRes) t := by
  unfold ipaEsipaAuthClnt
  split
  · exact forall_none
  next response forwarded =>
    rw [ends_bind, ends_send]
    refine ⟨fun ans => ?_, forall_none, trivial⟩
    cases ans with
    | none => exact forall_none
    | some answer =>
        simp only [ends_bind]
        cases decoded : decAuthClntRes ⟨transactionId, response⟩ answer with
        | error f => trivial
        | ok res =>
            rintro _ ⟨⟩
            exact ⟨response, answer, rfl, forwarded, decoded⟩

theorem cancelled_ends {α : Type} {Q : α → Trace → Prop} (cancel : ProcM Int) :
    Ends (fun out t' => ∀ res, out = some res → Q res t') (fun _ _ => True)
      (cancel >>= fun _ => (pure none : ProcM (Option α))) t :=
  (ends_always (fun _ _ => trivial) fun _ _ => trivial : Ends (fun _ _ => True) _ cancel t).bind
    fun _ _ _ => forall_none

theorem authenticateClient_ends (transactionId : List UInt8) (authServRes : AuthServRes) :
    Ends (fun out t' => ∀ res, out = some res → ∃ response answer,
        t' = ⟨.authenticateClient ⟨transactionId, response⟩, some answer⟩ ::
          ⟨.encode (.authenticateClient ⟨transactionId, response⟩), .encoded⟩ :: t ∧
        authServRes.forwarded transactionId = some response ∧
        decAuthClntRes ⟨transactionId, response⟩ answer = .ok res ∧ res.failed = false)
      (fun _ _ => True) (authenticateClient transactionId authServRes) t := by
  apply (ipaEsipaAuthClnt_ends transactionId authServRes).bind
  intro out t' answered
  cases out with
  | none => exact cancelled_ends _
  | some res =>
      simp only
      split
      · exact cancelled_ends _
      next succeeded =>
        rintro _ ⟨⟩
        obtain ⟨response, answer, said, forwarded, decoded⟩ := answered res rfl
        exact ⟨response, answer, said, forwarded, decoded, Bool.eq_false_iff.mpr succeeded⟩

theorem ends_readable (string : OctetString) :
    Ends (fun _ t' => t' = t) (fun _ _ => True) (ofExcept (readable string)) t := by
  cases string with
  | octets bytes => exact rfl
  | unbuffered => trivial

theorem authenticateServer_ends (pars : CmnMtlAuthPars) (ok : InitiateAuthenticationOk) :
    Ends (fun out t' => ∀ res, out = some res → ∃ req serverAnswer clientAnswer,
        let transactionId := ok.serverSigned1.transactionId
        let clientReq := ⟨transactionId, serverAnswer.forwardedAs transactionId⟩
        t' = ⟨.authenticateClient clientReq, some clientAnswer⟩ :: ⟨.encode (.authenticateClient clientReq), .encoded⟩ ::
          ⟨.authenticateServer req, some serverAnswer⟩ :: ⟨.encode (.authenticateServer req), .encoded⟩ :: t ∧
        checkCertificate pars.allowedCa ok.serverCertificate = .ok true ∧
        decAuthClntRes clientReq clientAnswer = .ok res ∧ res.failed = false)
      (fun _ _ => True) (authenticateServer pars ok) t := by
  unfold authenticateServer
  split
  · exact forall_none
  cases checked : checkCertificate pars.allowedCa ok.serverCertificate with
  | error f => trivial
  | ok passed =>
      cases passed with
      | false => exact forall_none
      | true =>
          show Ends _ _ (ofExcept (readable ok.serverSignature1) >>= fun _ =>
            ofExcept (readable ok.euiccCiPKIdToBeUsed) >>= fun _ => ipaEs10bAuthServ (authServReq pars ok) >>= _) t
          rw [ends_bind]
          refine (ends_readable ok.serverSignature1).imp fun _ _ same => ?_
          subst same
          rw [ends_bind]
          refine (ends_readable ok.euiccCiPKIdToBeUsed).imp fun _ _ same => ?_
          subst same
          rw [ends_bind, ipaEs10bAuthServ, ends_bind]
          apply (ends_send ..).mpr
          refine ⟨fun ans => ?_, forall_none, trivial⟩
          cases ans with
          | none => exact forall_none
          | some serverAnswer =>
              apply (authenticateClient_ends ok.serverSigned1.transactionId (decAuthServRes serverAnswer)).imp
              intro out t' answered res found
              obtain ⟨response, clientAnswer, rfl, forwarded, decoded, succeeded⟩ := answered res found
              cases forwarded_decAuthServRes forwarded
              exact ⟨_, serverAnswer, clientAnswer, rfl, rfl, decoded, succeeded⟩

theorem InitAuthRes.usable_checked {req : InitiateAuthenticationRequest} {answer : InitiateAuthenticationResponse}
    {ok : InitiateAuthenticationOk}
    (usable : InitAuthRes.usable (some (checkInitAuthRes req (decInitAuthRes answer))) = some ok) :
    answer = .initiateAuthenticationOk ok ∧ ipaAsnStrCmpBufI ok.serverSigned1.serverAddress req.smdpAddress = true ∧
      ok.serverSigned1.euiccChallenge = req.euiccChallenge := by
  cases answer with
  | initiateAuthenticationOk ok =>
      simp only [checkInitAuthRes, decInitAuthRes] at usable
      split at usable
      · cases usable
      next address =>
        split at usable
        · cases usable
        next challenge =>
          cases usable
          exact ⟨rfl, Bool.of_not_eq_false address, not_not.mp challenge⟩
  | initiateAuthenticationError code =>
      by_cases failed : code = 0 <;> simp [checkInitAuthRes, decInitAuthRes, InitAuthRes.usable, failed] at usable
  | nothing => cases usable

theorem ipaProcCmnMtlAuth_ends (pars : CmnMtlAuthPars) :
    Ends (fun out t' => ∀ res, out = some res → ∃ run : MtlAuthRun,
        t' = run.trace ++ t ∧ MtlAuthChecked pars res run)
      (fun _ _ => True) (ipaProcCmnMtlAuth pars) t := by
  simp only [ipaProcCmnMtlAuth, ends_bind, ends_request]
  intro euiccInfo
  cases euiccInfo with
  | none => exact forall_none
  | some euiccInfo =>
      rw [Option.bind_some]
      split
      · exact forall_none
      next restricted found =>
        simp only [ipaEs10bGetEuiccChlg, ends_bind, ends_request, ends_pure]
        intro challenge
        cases challenge with
        | none => exact forall_none
        | some challenge =>
            simp only [ipaEsipaInitAuth, Option.map_some, ends_bind, ends_send, ends_pure]
            refine ⟨fun answer => ?_, forall_none, trivial⟩
            cases answer with
            | none => exact forall_none
            | some answer =>
                rw [Option.map_some]
                split
                · exact forall_none
                next ok usable =>
                  obtain ⟨rfl, address, challenged⟩ := InitAuthRes.usable_checked usable
                  apply (authenticateServer_ends pars ok).imp
                  intro out t' authenticated res returned
                  obtain ⟨req, serverAnswer, clientAnswer, rfl, certificate, decoded, succeeded⟩ :=
                    authenticated res returned
                  refine ⟨⟨euiccInfo, challenge, _, ok, req, serverAnswer, _, clientAnswer⟩, rfl, ?_⟩
                  refine ⟨challenged, (ipaAsnStrCmpBufI_iff ..).mp address, ?_, rfl, decoded, succeeded⟩
                  intro allowedCa allowed
                  rw [allowed] at found certificate
                  obtain ⟨sublist, nonempty⟩ := restrictEuiccInfo_some found
                  exact ⟨sublist, nonempty, certificate⟩

end

theorem ipaProcCmnMtlAuth_gate_iff {pars : CmnMtlAuthPars} {t t' : Trace} {res : AuthClntRes}
    (runs : Runs (ipaProcCmnMtlAuth pars) t (.ok (some res)) t') :
    ∃ run : MtlAuthRun, t' = run.trace ++ t ∧ (MtlAuthGate pars res run ↔ MtlAuthHonest run) := by
  obtain ⟨run, said, checked⟩ := ((ipaProcCmnMtlAuth_ends pars).of_runs runs).1 _ rfl res rfl
  exact ⟨run, said, checked.gate_iff⟩

/-! An SM-DP+ and an SM-DS that names another transaction than the one of its signed answer. -/

def MtlAuthRun.known (run : MtlAuthRun) : (req : Req) → Option (Ans req)
  | .getEuiccInfo1 => some (some run.euiccInfo)
  | .getEuiccChallenge => some (some run.euiccChallenge)
  | .initiateAuthentication _ => some (some (.initiateAuthenticationOk run.initAuthOk))
  | .authenticateServer _ => some (some run.authServRes)
  | .authenticateClient _ => some (some run.authClntRes)
  | _ => none

def plainPars : CmnMtlAuthPars where
  tac := []
  smdpAddr := some [0x41]
  allowedCa := none
  acToken := none

def sixteenBytes : List UInt8 := List.replicate 16 7

def plainInfo : EuiccInfo1 where
  svn := []
  euiccCiPKIdListForVerification := []
  euiccCiPKIdListForSigning := []

def plainServer (transactionId : List UInt8) : InitiateAuthenticationOk where
  serverSigned1 := { transactionId, euiccChallenge := sixteenBytes, serverAddress := [0x61], serverChallenge := [] }
  serverSignature1 := .octets []
  euiccCiPKIdToBeUsed := .octets []
  serverCertificate := ⟨[], none⟩

/-- The messages where the transaction ID is 1 and the eIM gives an answer for the client. -/
def plainRun (authClntRes : AuthenticateClientResponse) : MtlAuthRun where
  euiccInfo := plainInfo
  euiccChallenge := sixteenBytes
  initAuthReq := { euiccChallenge := sixteenBytes, smdpAddress := some [0x41], euiccInfo1 := plainInfo }
  initAuthOk := plainServer [1]
  authServReq := authServReq plainPars (plainServer [1])
  authServRes := .authenticateResponseOk [9]
  authClntReq := { transactionId := [1], authenticateServerResponse := .authenticateResponseOk [9] }
  authClntRes

def smdpAnswer : AuthenticateClientResponse :=
  .authenticateClientOkDpe
    { transactionId := some [1], smdpSigned2 := [], smdpSignature2 := .octets [], smdpCertificate := ⟨[], none⟩
      hashCc := none }

theorem smdpAnswer_gate : ∃ run res, run.trace = (plainRun smdpAnswer).trace ∧ MtlAuthGate plainPars res run := by
  obtain ⟨run, said, gate⟩ := ipaProcCmnMtlAuth_gate_iff
    (runs_run (replies (plainRun smdpAnswer).known) (ipaProcCmnMtlAuth plainPars) [])
  refine ⟨run, _, (said.trans (List.append_nil _)).symm, gate.mpr ?_⟩
  cases run
  cases said
  exact ⟨rfl, fun _ found => AuthenticateClientResponse.noConfusion found⟩

theorem smds_not_gate : ¬ ∀ pars t' res, Runs (ipaProcCmnMtlAuth pars) [] (.ok (some res)) t' →
    ∃ run : MtlAuthRun, t' = run.trace ∧ MtlAuthGate pars res run := by
  intro gated
  obtain ⟨run, said, gate⟩ := gated plainPars _ _
    (runs_run (replies (plainRun (.authenticateClientOkDse ⟨[2]⟩)).known) (ipaProcCmnMtlAuth plainPars) [])
  cases run
  cases said
  exact absurd gate.returned (by decide)

end Ipad.Proc

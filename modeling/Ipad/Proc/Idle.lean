import Ipad.Proc.Law

/-!
# Procedures that make idle requests only
-/

namespace Ipad.Proc
open Lib.Dialogue Ipad.EimCfg Ipad.Nvstate Ipad.BppSegments Ipad.Utils

def Quiet {α : Type} (program : ProcM α) : Prop := Asks Req.Idle (· ≠ .executionPending) program

def Req.Service : Req → Prop
  | .retrieveNotifications _ => True
  | .getEuiccInfo1 => True
  | .getEuiccInfo2 => True
  | .getEuiccInfo2Sgp32 => True
  | .getEuiccChallenge => True
  | .getEuiccConfiguredAddresses => True
  | .getEimConfigurationData => True
  | .getCerts _ => True
  | .initiateAuthentication _ => True
  | .authenticateServer _ => True
  | .authenticateClient _ => True
  | .prepareDownload _ => True
  | .getBoundProfilePackage _ => True
  | .prfleInstConsent _ _ => True
  | .cancelSession _ _ => True
  | .cancelSessionEsipa _ _ => True
  | .encode req => req.Service
  | _ => False

theorem Req.Service.idle {req : Req} (service : req.Service) : req.Idle := by
  cases req with
  | getProfilesInfo => exact service.elim
  | enableProfile => exact service.elim
  | loadEuiccPackage => exact service.elim
  | profileRollback => exact service.elim
  | removeNotificationFromList => exact service.elim
  | getEimPackage => exact service.elim
  | mark => exact service.elim
  | _ => trivial

def Serving {α : Type} (program : ProcM α) : Prop := Asks Req.Service (· ≠ .executionPending) program

section
variable {α β : Type}

theorem Quiet.keeps {program : ProcM α} (quiet : Quiet program) {emulated : Bool} {t₀ t : Trace}
    (kept : Kept emulated t₀ t) : Ends (fun _ t' => Kept emulated t₀ t') (Aborts emulated) program t :=
  quiet.ends (fun req ans _ idle kept => kept.idle req ans idle) (fun _ _ other kept => ⟨other, kept.lawful⟩) kept

theorem Kept.adds {emulated : Bool} {t₀ t t' : Trace} (kept : Kept emulated t₀ t) (adds : Adds Req.Idle t t') :
    Kept emulated t₀ t' := by
  obtain ⟨later, rfl, idle⟩ := adds
  induction later with
  | nil => exact kept
  | cons event later ih =>
      rw [List.forall_mem_cons] at idle
      exact (ih idle.2).idle event.req event.ans idle.1

theorem Serving.quiet {program : ProcM α} (serving : Serving program) : Quiet program :=
  serving.imp (fun _ => Req.Service.idle) fun _ => id

theorem serving_pure (a : α) : Serving (pure a) := trivial

theorem serving_fault (f : Fault) : Serving (stop (.fault f) : ProcM α) := Abort.noConfusion

theorem serving_request (req : Req) (service : req.Service) : Serving (request req) := (asks_request req).mpr service

theorem serving_send (req : Req) (service : req.Service) : Serving (send req) :=
  asks_send req service service Abort.noConfusion

theorem Serving.bind {program : ProcM α} {next : α → ProcM β} (serving : Serving program)
    (rest : ∀ a, Serving (next a)) : Serving (program >>= next) := Asks.bind serving rest

theorem serving_ofExcept (result : Except Fault α) : Serving (ofExcept result) := by
  cases result with
  | ok a => exact serving_pure a
  | error f => exact serving_fault f

theorem serving_ite {p : Prop} [Decidable p] {first second : ProcM α} (yes : Serving first) (no : Serving second) :
    Serving (if p then first else second) := by
  split
  · exact yes
  · exact no

end

/-! ## Sessions -/

theorem ipaEs10bCancelSession_serving (transactionId : List UInt8) (reason : CancelSessionReason) :
    Serving (ipaEs10bCancelSession transactionId reason) := by
  apply (serving_send (.cancelSession transactionId reason) trivial).bind
  intro answer
  cases answer with
  | none => exact serving_pure _
  | some answer =>
      simp only
      split
      · exact serving_pure _
      · exact serving_pure _

theorem ipaProcCmnCancelSess_serving (transactionId : List UInt8) (reason : CancelSessionReason) :
    Serving (ipaProcCmnCancelSess transactionId reason) := by
  apply (ipaEs10bCancelSession_serving transactionId reason).bind
  intro res
  cases res with
  | none => exact serving_pure _
  | some res => exact Serving.bind (serving_send (.cancelSessionEsipa ..) trivial) fun _ => serving_pure _

theorem ipaEsipaAuthClnt_serving (transactionId : List UInt8) (res : AuthServRes) :
    Serving (ipaEsipaAuthClnt transactionId res) := by
  unfold ipaEsipaAuthClnt
  split
  · exact serving_pure _
  · refine Serving.bind (serving_send (.authenticateClient _) trivial) ?_
    intro answer
    cases answer with
    | none => exact serving_pure _
    | some answer => exact (serving_ofExcept _).bind fun _ => serving_pure _

theorem authenticateClient_serving (transactionId : List UInt8) (res : AuthServRes) :
    Serving (authenticateClient transactionId res) := by
  apply (ipaEsipaAuthClnt_serving transactionId res).bind
  have cancelled : Serving (ipaProcCmnCancelSess transactionId .undefinedReason >>= fun _ =>
      (pure none : ProcM (Option AuthClntRes))) :=
    (ipaProcCmnCancelSess_serving transactionId _).bind fun _ => serving_pure _
  intro res
  cases res with
  | none => exact cancelled
  | some res => exact serving_ite cancelled (serving_pure _)

theorem authenticateServer_serving (pars : CmnMtlAuthPars) (ok : InitiateAuthenticationOk) :
    Serving (authenticateServer pars ok) := by
  apply serving_ite (serving_pure _)
  apply (serving_ofExcept _).bind
  intro checked
  apply serving_ite (serving_pure _)
  apply (serving_ofExcept _).bind
  intro _
  apply (serving_ofExcept _).bind
  intro _
  apply (Serving.bind (serving_send (.authenticateServer _) trivial) fun _ => serving_pure _ :
    Serving (ipaEs10bAuthServ _)).bind
  intro res
  cases res with
  | none => exact serving_pure _
  | some res => exact authenticateClient_serving _ res

theorem ipaProcCmnMtlAuth_serving (pars : CmnMtlAuthPars) : Serving (ipaProcCmnMtlAuth pars) := by
  apply (serving_request .getEuiccInfo1 trivial).bind
  intro euiccInfo
  split
  · exact serving_pure _
  · apply (Serving.bind (serving_request _ trivial) fun _ => serving_pure _ : Serving ipaEs10bGetEuiccChlg).bind
    intro euiccChallenge
    cases euiccChallenge with
    | none => exact serving_pure _
    | some euiccChallenge =>
        apply (Serving.bind (serving_send (.initiateAuthentication _) trivial) fun _ => serving_pure _ :
          Serving (ipaEsipaInitAuth _)).bind
        intro res
        split
        · exact serving_pure _
        · exact authenticateServer_serving pars _

theorem ipaProcPrfleDwnlod_serving (ok : Option AuthenticateClientOkDpe) : Serving (ipaProcPrfleDwnlod ok) := by
  cases ok with
  | none => exact serving_fault .nullDeref
  | some ok =>
      apply (serving_ofExcept _).bind
      intro _
      apply (serving_send (.prepareDownload (prepDwnldReq ok)) trivial).bind
      intro res
      cases res with
      | none => exact serving_pure _
      | some res =>
          simp only [ipaEsipaGetBndPrflePkg]
          split
          · exact serving_pure _
          · exact Serving.bind (serving_send (.getBoundProfilePackage _) trivial) fun _ => serving_pure _

theorem prfleInstConsent_serving (ctx : IpaContext) (ac : ActivationCode) : Serving (prfleInstConsent ctx ac) :=
  serving_ite (serving_request _ trivial) (serving_pure true)

theorem cancelAuthClnt_serving (res : AuthClntRes) (reason : CancelSessionReason) :
    Serving (cancelAuthClnt res reason) := by
  unfold cancelAuthClnt
  split
  · exact serving_fault .nullDeref
  · exact ipaProcCmnCancelSess_serving _ reason

/-! ## Data of the eUICC -/

section
variable (codec : EimCfgCodec) (ctx : IpaContext)

theorem ipaEs10bGetEimCfgData_serving : Serving (ipaEs10bGetEimCfgData codec ctx) :=
  serving_ite (serving_pure _) (serving_request _ trivial)

theorem getEuiccCiPkid_serving : Serving (getEuiccCiPkid codec ctx) := by
  apply (ipaEs10bGetEimCfgData_serving codec ctx).bind
  intro list
  cases list with
  | none => exact serving_pure _
  | some list => exact serving_pure _

theorem asked_serving {α : Type} (tagList : List UInt8) (tag : UInt16) {query : ProcM (Option α)}
    (serving : Serving query) : Serving (asked tagList tag query) := serving_ite serving (serving_pure none)

theorem getEuiccInfo2_serving : Serving (getEuiccInfo2 ctx) :=
  serving_ite (Serving.bind (serving_request _ trivial) fun _ => serving_pure _)
    (Serving.bind (serving_request _ trivial) fun _ => serving_pure _)

theorem rootSmdsAddressMember_serving (tagList : List UInt8) (known : Option EuiccConfiguredAddresses) :
    Serving (rootSmdsAddressMember tagList known) := by
  apply asked_serving
  cases known with
  | none => exact Serving.bind (serving_request _ trivial) fun _ => serving_pure _
  | some known => exact serving_pure none

theorem ipaEs10bGetCerts_serving (euiccCiPKId : Option (List UInt8)) : Serving (ipaEs10bGetCerts euiccCiPKId) :=
  Serving.bind (serving_send (.getCerts euiccCiPKId) trivial) fun _ => serving_pure _

theorem euiccCertificateMember_serving (tagList : List UInt8) (euiccCiPKId : Option (List UInt8))
    (known : Option GetCertsRes) : Serving (euiccCertificateMember tagList euiccCiPKId known) := by
  apply asked_serving
  cases known with
  | some known => exact serving_pure _
  | none =>
      apply (ipaEs10bGetCerts_serving euiccCiPKId).bind
      intro res
      cases res with
      | none => exact serving_pure _
      | some res => exact serving_pure _

theorem collectIpaEuiccData_serving (req : IpaEuiccDataRequest) : Serving (collectIpaEuiccData codec ctx req) := by
  apply (asked_serving _ _ (serving_request .getEuiccConfiguredAddresses trivial)).bind
  intro euiccCfgAddr
  apply (asked_serving _ _ (serving_request .getEuiccInfo1 trivial)).bind
  intro euiccInfo1
  apply (asked_serving _ _ (getEuiccInfo2_serving ctx)).bind
  intro euiccInfo2
  apply (rootSmdsAddressMember_serving _ _).bind
  intro rootSmdsAddress
  apply (asked_serving _ _ (ipaEs10bGetEimCfgData_serving codec ctx)).bind
  intro eimCfgData
  apply (asked_serving _ _ (ipaEs10bGetCerts_serving _)).bind
  intro certs
  apply (euiccCertificateMember_serving _ _ _).bind
  intro euiccCertificate
  have retrieves (searchCriteria : Option SearchCriteria) : Serving (ipaEs10bRetrNotif ctx searchCriteria) :=
    Serving.bind (serving_send (.retrieveNotifications _) trivial) fun _ => serving_pure _
  apply (asked_serving _ _ (retrieves _)).bind
  exact fun notifications => serving_pure _

theorem ipaEsipaPrvdeEimPkgRslt_quiet (req : PrvdeEimPkgRsltReq) : Quiet (ipaEsipaPrvdeEimPkgRslt req) := by
  unfold ipaEsipaPrvdeEimPkgRslt
  split
  · exact (asks_request _).mpr trivial
  · split
    · exact asks_send (.provideEimPackageResult ..) trivial trivial Abort.noConfusion
    · exact asks_send (.provideEimPackageOutcome _) trivial trivial Abort.noConfusion
    · exact asks_send (.provideEimPackageOutcome _) trivial trivial Abort.noConfusion
    · exact asks_send (.provideEimPackageOutcome _) trivial trivial Abort.noConfusion
    · exact (asks_request _).mpr trivial

theorem ipaProcEuiccDataReq_quiet (req : IpaEuiccDataRequest) : Quiet (ipaProcEuiccDataReq codec ctx req) := by
  apply (collectIpaEuiccData_serving codec ctx req).quiet.bind
  rintro ⟨data, notifications⟩
  apply (ipaEsipaPrvdeEimPkgRslt_quiet _).bind
  intro answer
  exact Asks.bind (serving_ofExcept _).quiet fun _ => trivial

end

/-! ## Profile installation -/

def Req.Loading : Req → Prop
  | .enableProfile purpose _ => purpose = .autoEnable
  | .removeNotificationFromList _ => True
  | .loadBoundProfilePackage _ => True
  | .enableUsingDd => True
  | .handleNotification _ => True
  | .mark .enableUsingDd => True
  | .encode _ => True
  | .overrun _ => True
  | _ => False

theorem asks_ofExcept {P : Req → Prop} {F : Abort → Prop} {α : Type} (result : Except Fault α)
    (stops : ∀ f, result = .error f → F (.fault f)) : Asks P F (ofExcept result) := by
  cases result with
  | ok a => trivial
  | error f => exact stops f rfl

section
variable {F : Abort → Prop}

theorem ipaEs10bEnableUsingDd_asks (ctx : IpaContext) : Asks Req.Loading F (ipaEs10bEnableUsingDd ctx) := by
  refine Asks.bind ((asks_request (Req.mark .enableUsingDd)).mpr trivial) fun _ => ?_
  split
  · split
    · trivial
    · exact Asks.bind ((asks_request (Req.enableProfile .autoEnable _)).mpr rfl) fun _ => trivial
  · exact Asks.bind ((asks_request _).mpr trivial) fun _ => trivial

theorem ipaEsipaHandleNotif_asks (stops : F (.fault .assertion)) (notification : PendingNotification) :
    Asks Req.Loading F (ipaEsipaHandleNotif notification) := by
  refine Asks.bind (asks_send (.handleNotification notification) trivial trivial stops) fun ans => ?_
  cases ans with
  | none => trivial
  | some len => trivial

theorem handleLoadBndPrflePkgRes_asks (stops : F (.fault .assertion)) (ctx : IpaContext)
    (res : Option PrfleInstRslt) : Asks Req.Loading F (handleLoadBndPrflePkgRes ctx res) := by
  cases res with
  | none => trivial
  | some result =>
      exact (ipaEs10bEnableUsingDd_asks ctx).bind fun _ => (ipaEsipaHandleNotif_asks stops _).bind fun _ => trivial

theorem ipaEs10bLoadBndPrflePkg_asks (overruns : F (.fault .outOfBounds)) (ctx : IpaContext) (segment : IpaBuf) :
    Asks Req.Loading F (ipaEs10bLoadBndPrflePkg ctx segment) := by
  have checked : Asks Req.Loading F (withinBuffer segment) := by
    unfold withinBuffer
    split
    · trivial
    · refine Asks.bind ((asks_request (Req.overrun segment.bytes)).mpr trivial) fun overran => ?_
      cases overran with
      | true => exact overruns
      | false => trivial
  apply checked.bind
  intro _
  exact Asks.bind ((asks_request (Req.loadBoundProfilePackage segment.bytes)).mpr trivial) fun _ => trivial

theorem loadSegments_asks (stops : F (.fault .assertion)) (overruns : F (.fault .outOfBounds)) (ctx : IpaContext)
    (segments : List IpaBuf) (seqNumber : Int) : Asks Req.Loading F (loadSegments ctx segments seqNumber) := by
  induction segments generalizing ctx seqNumber with
  | nil => trivial
  | cons segment rest ih =>
      apply (ipaEs10bLoadBndPrflePkg_asks overruns ctx segment).bind
      rintro ⟨ctx', res⟩
      cases res with
      | none => trivial
      | some res =>
          apply (handleLoadBndPrflePkgRes_asks stops ctx' res).bind
          rintro ⟨ctx'', rc, seqNumber'⟩
          simp only
          split
          · trivial
          split
          · trivial
          split
          · trivial
          · exact ih ctx'' seqNumber'

theorem ipaProcPrfleInst_asks (stops : F (.fault .assertion)) (overruns : F (.fault .outOfBounds)) {asn1c : Asn1c}
    {bpp : BoundProfilePackage} (encodes : ∀ f, ipaBppSegmentsEncode asn1c bpp = .error f → F (.fault f))
    (ctx : IpaContext) : Asks Req.Loading F (ipaProcPrfleInst asn1c ctx bpp) := by
  apply (asks_ofExcept _ encodes).bind
  intro segments
  cases segments with
  | none => trivial
  | some segments =>
      apply (loadSegments_asks stops overruns ctx segments (-1)).bind
      rintro ⟨ctx', seqNumber⟩
      cases seqNumber with
      | none => trivial
      | some seqNumber =>
          simp only
          split
          · exact Asks.bind (Asks.bind ((asks_request _).mpr trivial) fun _ => trivial :
              Asks _ _ (ipaEs10bRmNotifFromLst seqNumber)) fun _ => trivial
          · trivial

end

/-! ## Profile download -/

def Req.Download (req : Req) : Prop := req.Service ∨ req.Loading ∨ ∃ rc, req = .mark (.prfleInst rc)

def Downloading {α : Type} (program : ProcM α) : Prop := Asks Req.Download (fun _ => True) program

theorem Serving.downloading {α : Type} {program : ProcM α} (serving : Serving program) : Downloading program :=
  serving.imp (fun _ => .inl) fun _ _ => trivial

theorem cancelAuthClnt_downloading {α : Type} (res : AuthClntRes) (reason : CancelSessionReason) (a : α) :
    Downloading (cancelAuthClnt res reason >>= fun _ => (pure a : ProcM α)) :=
  Asks.bind (cancelAuthClnt_serving res reason).downloading fun _ => trivial

theorem instPrfle_downloading (asn1c : Asn1c) (ctx : IpaContext) (authClntRes : AuthClntRes)
    (bpp : BoundProfilePackage) : Downloading (instPrfle asn1c ctx authClntRes bpp) := by
  apply ((ipaProcPrfleInst_asks trivial trivial (fun _ _ => trivial) ctx).imp (fun _ loading => .inr (.inl loading))
    fun _ stops => stops : Downloading (ipaProcPrfleInst asn1c ctx bpp)).bind
  rintro ⟨ctx', rc⟩
  refine Asks.bind ((asks_request (Req.mark (.prfleInst rc))).mpr (.inr (.inr ⟨rc, rfl⟩))) fun _ => ?_
  split
  · exact cancelAuthClnt_downloading authClntRes _ ctx'
  · trivial

theorem dwnldPrfle_downloading (asn1c : Asn1c) (ctx : IpaContext) (ac : ActivationCode) (authClntRes : AuthClntRes) :
    Downloading (dwnldPrfle asn1c ctx ac authClntRes) := by
  apply (ipaProcPrfleDwnlod_serving authClntRes.authClntOkDpe).downloading.bind
  intro boundProfilePackage
  cases boundProfilePackage with
  | none => exact cancelAuthClnt_downloading authClntRes _ ctx
  | some boundProfilePackage =>
      apply (prfleInstConsent_serving ctx ac).downloading.bind
      intro consent
      split
      · exact cancelAuthClnt_downloading authClntRes _ ctx
      · exact instPrfle_downloading asn1c ctx authClntRes boundProfilePackage

theorem ipaProcIndirectPrfleDwnlod_downloading (asn1c : Asn1c) (ctx : IpaContext) (ac : List UInt8)
    (allowedCa : Option (List UInt8)) : Downloading (ipaProcIndirectPrfleDwnlod asn1c ctx ac allowedCa) := by
  unfold ipaProcIndirectPrfleDwnlod
  split
  · trivial
  apply (ipaProcCmnMtlAuth_serving _).downloading.bind
  intro res
  cases res with
  | none => trivial
  | some authClntRes => exact (dwnldPrfle_downloading asn1c ctx _ authClntRes).bind fun _ => trivial

/-! ## Executions -/

def Req.Commanding : Req → Prop
  | .getProfilesInfo purpose => purpose = .psmo
  | .enableProfile purpose _ => purpose = .psmo
  | .disableProfile _ => True
  | .deleteProfile _ => True
  | .getRat => True
  | .encode req => req.Commanding
  | _ => False

theorem Req.Commanding.idle {req : Req} (commanding : req.Commanding) : req.Idle := by
  cases req with
  | getProfilesInfo purpose =>
      cases commanding
      exact idle_getProfilesInfo_psmo
  | enableProfile purpose profile =>
      cases commanding
      exact idle_enableProfile_psmo profile
  | disableProfile => trivial
  | deleteProfile => trivial
  | getRat => trivial
  | encode => trivial
  | _ => exact commanding.elim

def Req.Executing : Req → Prop
  | .enableProfile purpose _ => purpose = .rollback
  | .profileRollback => True
  | .retrieveNotificationsList _ => True
  | .removeNotificationFromList _ => True
  | .provideEimPackageResult _ _ => True
  | .handleNotification _ => True
  | .mark (.onset _) => True
  | .mark .prfleRollback => True
  | .encode _ => True
  | _ => False

def Advancing {α : Type} (program : ProcM α) : Prop := Asks Req.Executing (· ≠ .executionPending) program

theorem executing_request {α : Type} (req : Req) (next : Ans req → ProcM α) (executing : req.Executing)
    (rest : ∀ ans, Advancing (next ans)) : Advancing (request req >>= next) :=
  Asks.bind ((asks_request req).mpr executing) rest

theorem executing_send {α : Type} (req : Req) (next : Ans req → ProcM α) (executing : req.Executing)
    (rest : ∀ ans, Advancing (next ans)) : Advancing (send req >>= next) :=
  Asks.bind (asks_send req trivial executing Abort.noConfusion) rest

theorem executing_ofExcept {α : Type} (result : Except Fault α) :
    Advancing (ofExcept result) := asks_ofExcept result fun _ _ => Abort.noConfusion

theorem executing_mark {α : Type} (m : Mark) (next : ProcM α) (executing : (Req.mark m).Executing)
    (rest : Advancing next) : Advancing (mark m >>= fun _ => next) :=
  executing_request _ _ executing fun _ => rest

theorem ipaEs10bPrfleRollback_asks (ctx : IpaContext) :
    Advancing (ipaEs10bPrfleRollback ctx) := by
  apply executing_mark .prfleRollback _ trivial
  split
  · unfold prfleRollbackEmu
    split
    · trivial
    · refine executing_request _ _ rfl fun ans => ?_
      cases ans with
      | none => trivial
      | some enableResult =>
          simp only
          split
          · trivial
          · exact (executing_ofExcept _).bind fun _ => trivial
  · exact (asks_request Req.profileRollback).mpr trivial

section
variable {P : Req → Prop} {F : Abort → Prop}

theorem ipaEs10bRmNotifFromLst_asks (allowed : ∀ seqNumber, P (.removeNotificationFromList seqNumber))
    (seqNumber : Int) : Asks P F (ipaEs10bRmNotifFromLst seqNumber) :=
  Asks.bind ((asks_request (Req.removeNotificationFromList seqNumber)).mpr (allowed seqNumber)) fun _ => trivial

theorem removeNotifications_asks (allowed : ∀ seqNumber, P (.removeNotificationFromList seqNumber))
    (list : List Int) : Asks P F (removeNotifications list) := by
  induction list with
  | nil => trivial
  | cons seqNumber rest ih =>
      apply (ipaEs10bRmNotifFromLst_asks allowed seqNumber).bind
      intro rc
      split
      · trivial
      · exact ih

theorem onsetAnswered_asks (allowed : ∀ seqNumber, P (.removeNotificationFromList seqNumber)) (res : DwnldExecRes)
    (eimAcknowledgements : Option (List Int)) : Asks P F (onsetAnswered res eimAcknowledgements) := by
  apply (ipaEs10bRmNotifFromLst_asks allowed _).bind
  intro rc
  split
  · trivial
  apply (removeNotifications_asks allowed _).bind
  intro rc
  split
  · trivial
  · trivial

end

theorem ipaEs10bRetrNotifFromLst_asks (ctx : IpaContext) (seqNumber : Option Int) :
    Advancing (ipaEs10bRetrNotifFromLst ctx seqNumber) :=
  executing_request _ _ trivial fun _ => trivial

theorem onsetUnanswered_asks (ctx : IpaContext) (res : DwnldExecRes) : Advancing (onsetUnanswered ctx res) := by
  unfold onsetUnanswered
  split
  · trivial
  split
  · trivial
  split
  · trivial
  apply (ipaEs10bPrfleRollback_asks ctx).bind
  intro rollback
  cases rollback with
  | none => trivial
  | some rollback =>
      simp only
      split
      · trivial
      · trivial

theorem onsetNotified_asks (ctx : IpaContext) (res : DwnldExecRes) (notifications : Option RetrNotifFromLstRes) :
    Advancing (onsetNotified ctx res notifications) := by
  unfold onsetNotified
  split
  · trivial
  refine executing_send (.provideEimPackageResult ..) _ trivial fun answer => ?_
  cases answer with
  | none => exact onsetUnanswered_asks ctx res
  | some eimAcknowledgements => exact onsetAnswered_asks (fun _ => trivial) _ eimAcknowledgements

theorem ipaProcEuccPkgDwnldExecOnset_asks (ctx : IpaContext) (res : DwnldExecRes) :
    Advancing (ipaProcEuccPkgDwnldExecOnset ctx res) := by
  apply executing_mark (.onset _) _ trivial
  apply (ipaEs10bRetrNotifFromLst_asks ctx _).bind
  intro notifications
  apply (onsetNotified_asks ctx _ notifications).bind
  intro out
  exact (executing_ofExcept _).bind fun _ => trivial

theorem ipaNotifDelivery_asks (ctx : IpaContext) : Advancing (ipaNotifDelivery ctx) := by
  have delivers (list : List PendingNotification) : Advancing (deliverNotifications list) := by
    induction list with
    | nil => trivial
    | cons notification rest ih =>
        have handled : Advancing (ipaEsipaHandleNotif notification) :=
          executing_send (.handleNotification notification) _ trivial fun len => by cases len <;> trivial
        apply handled.bind
        intro rc
        split
        · exact ih
        · cases notification with
          | profileInstallationResult => exact (ipaEs10bRmNotifFromLst_asks (fun _ => trivial) _).bind fun _ => ih
          | otherSignedNotification => exact (ipaEs10bRmNotifFromLst_asks (fun _ => trivial) _).bind fun _ => ih
          | nothing => exact ih
  apply (ipaEs10bRetrNotifFromLst_asks ctx none).bind
  intro notifications
  have usable : Advancing (deliverUsable (RetrNotifFromLstRes.usable notifications)) := by
    unfold deliverUsable
    split
    · exact (delivers _).bind fun _ => trivial
    · trivial
  apply usable.bind
  intro rc
  exact (executing_ofExcept _).bind fun _ => trivial

end Ipad.Proc

import Ipad.Proc.Parties
import Ipad.Proc.Sessions

/-!
# A download between honest parties
-/

namespace Ipad.Proc
open Lib.Dialogue Lib.Tlv Ipad.EimCfg Ipad.Nvstate Ipad.BppSegments Ipad.Utils

section
variable (p : Parties)

/-! ## Loading -/

def Chain.loaded (c : Chain) (bpp : BoundProfilePackage) : Chain :=
  (c.install (derBoundProfilePackage bpp)).handle (.profileInstallationResult (p.report c.nextSeqNumber))

variable {p}

theorem ipaEs10bEnableUsingDd_arrives (ctx : IpaContext) (c : Chain) :
    ∃ out, Arrives p.serve (ipaEs10bEnableUsingDd ctx) c (.ok out) c := by
  have marks : p.serve c (.mark .enableUsingDd) = some (c, ()) := rfl
  unfold ipaEs10bEnableUsingDd
  cases ctx.iotEuiccEmuEnabled with
  | true =>
      cases granted : enableUsingDdGrant ctx.emu with
      | error rc =>
          refine ⟨(ctx.setSession .cleared, rc), (arrives_request marks).bind ?_⟩
          exact arrives_pure _ _ _
      | ok aid =>
          have answers : p.serve c (.enableProfile .autoEnable aid) = some (c, some 0) := rfl
          refine ⟨(ctx.setSession .cleared, enableUsingDdResult (some 0)), (arrives_request marks).bind ?_⟩
          exact (arrives_request answers).bind (arrives_pure _ _ _)
  | false =>
      have answers : p.serve c .enableUsingDd = some (c, some 0) := rfl
      refine ⟨(ctx, 0), (arrives_request marks).bind ?_⟩
      exact (arrives_request answers).bind (arrives_pure _ _ _)

theorem ipaEs10bLoadBndPrflePkg_arrives (ctx : IpaContext) (c : Chain) (segment : IpaBuf) (valid : segment.Valid) :
    ∃ ctx', Arrives p.serve (ipaEs10bLoadBndPrflePkg ctx segment) c
      (.ok (ctx', SegmentAnswer.result (p.load c segment.bytes).2)) (p.load c segment.bytes).1 := by
  have answers : p.serve c (.loadBoundProfilePackage segment.bytes) =
      some ((p.load c segment.bytes).1, (p.load c segment.bytes).2) := rfl
  unfold ipaEs10bLoadBndPrflePkg withinBuffer
  rw [if_pos valid]
  exact ⟨_, (arrives_pure _ _ _).bind ((arrives_request answers).bind (arrives_pure _ _ _))⟩

theorem handleLoadBndPrflePkgRes_arrives (ctx : IpaContext) (c : Chain) (result : PrfleInstRslt) :
    ∃ ctx', Arrives p.serve (handleLoadBndPrflePkgRes ctx (some result)) c (.ok (ctx', 1, result.seqNumber))
      (c.handle (.profileInstallationResult result)) := by
  obtain ⟨⟨ctx', rc⟩, enabling⟩ := @ipaEs10bEnableUsingDd_arrives p ctx c
  have answers : p.serve c (.handleNotification (.profileInstallationResult result)) =
      some (c.handle (.profileInstallationResult result), some 0) := rfl
  refine ⟨ctx', enabling.bind ?_⟩
  exact ((arrives_send rfl answers).bind (arrives_pure _ _ _)).bind (arrives_pure _ _ _)

/-- The eUICC answers the last segment, and no other. -/
theorem loadSegments_arrives {asn1c : Asn1c} (agree : p.Agree asn1c) {matchingId : Option (List UInt8)}
    {bpp : BoundProfilePackage} (offered : p.profile matchingId = some bpp) {transactionId : List UInt8}
    (segment : IpaBuf) (rest : List IpaBuf) (front : List UInt8) (ctx : IpaContext) (c : Chain) (seqNumber : Int)
    (prepared : c.euicc = .prepared transactionId front)
    (whole : front ++ ((segment :: rest).map IpaBuf.bytes).flatten = derBoundProfilePackage bpp)
    (nonempty : ∀ later ∈ rest, later.bytes ≠ []) (within : ∀ one ∈ segment :: rest, one.Valid) :
    ∃ ctx', Arrives p.serve (loadSegments ctx (segment :: rest) seqNumber) c (.ok (ctx', some c.nextSeqNumber))
      (c.loaded p bpp) := by
  induction rest generalizing segment front ctx c seqNumber with
  | nil =>
      have same : front ++ segment.bytes = derBoundProfilePackage bpp := by simpa using whole
      have complete := (agree.whole matchingId bpp offered _ (List.prefix_refl _)).mpr rfl
      have loads : p.load c segment.bytes =
          (c.install (derBoundProfilePackage bpp), .installed (p.report c.nextSeqNumber)) := by
        simp only [Parties.load, prepared, same, complete, if_true]
      obtain ⟨ctx₁, loading⟩ :=
        @ipaEs10bLoadBndPrflePkg_arrives p ctx c segment (List.forall_mem_singleton.mp within)
      rw [loads] at loading
      obtain ⟨ctx₂, handled⟩ := @handleLoadBndPrflePkgRes_arrives p ctx₁ (c.install (derBoundProfilePackage bpp))
        (p.report c.nextSeqNumber)
      rw [agree.report] at handled
      refine ⟨ctx₂, loading.bind ?_⟩
      apply handled.bind
      exact arrives_pure _ _ _
  | cons next rest ih =>
      obtain ⟨here, later⟩ := List.forall_mem_cons.mp nonempty
      obtain ⟨valid, others_valid⟩ := List.forall_mem_cons.mp within
      rw [List.map_cons, List.flatten_cons, ← List.append_assoc] at whole
      have front' : front ++ segment.bytes <+: derBoundProfilePackage bpp := ⟨_, whole⟩
      have part : front ++ segment.bytes ≠ derBoundProfilePackage bpp := by
        intro same
        rw [same, List.map_cons, List.flatten_cons] at whole
        have none := List.append_right_eq_self.mp whole
        exact here (List.append_eq_nil_iff.mp none).1
      have incomplete : p.whole (front ++ segment.bytes) = false := by
        rw [← Bool.not_eq_true, agree.whole matchingId bpp offered _ front']
        exact part
      have loads : p.load c segment.bytes = (c.receive transactionId (front ++ segment.bytes), .empty) := by
        simp only [Parties.load, prepared, incomplete]
        rfl
      obtain ⟨ctx₁, loading⟩ := @ipaEs10bLoadBndPrflePkg_arrives p ctx c segment valid
      rw [loads] at loading
      obtain ⟨ctx₂, others⟩ := ih next (front ++ segment.bytes) ctx₁
        (c.receive transactionId (front ++ segment.bytes)) 0 rfl whole later others_valid
      refine ⟨ctx₂, loading.bind ?_⟩
      apply Arrives.bind (arrives_pure _ _ _)
      exact others

theorem bppSegments_nonempty (bpp : BoundProfilePackage) : ∀ segment ∈ bppSegments bpp, segment ≠ [] := by
  have tagged : (bppSegments bpp).all (!·.isEmpty) = true := by
    cases second : bpp.secondSequenceOf87 <;>
      simp [bppSegments, second, BppSegments.headerOf, header, der88tlv, der86tlv, tlv]
  simpa using tagged

/-- The notification about the result is removed when the eIM has it. -/
theorem ipaProcPrfleInst_arrives {asn1c : Asn1c} (agree : p.Agree asn1c) {matchingId : Option (List UInt8)}
    {bpp : BoundProfilePackage} (offered : p.profile matchingId = some bpp) {transactionId : List UInt8}
    (ctx : IpaContext) {c : Chain} (prepared : c.euicc = .prepared transactionId []) :
    ∃ ctx', Arrives p.serve (ipaProcPrfleInst asn1c ctx bpp) c (.ok (ctx', 0))
      ((c.loaded p bpp).remove c.nextSeqNumber) := by
  obtain ⟨segments, encoded, cut, whole⟩ := agree.segmentation matchingId bpp offered
  have nonempty : ∀ segment ∈ segments, segment.bytes ≠ [] := by
    intro segment mem
    apply bppSegments_nonempty bpp
    rw [← cut]
    exact List.mem_map_of_mem mem
  rw [ipaProcPrfleInst, encoded]
  cases segments with
  | nil => cases cut
  | cons segment rest =>
      obtain ⟨ctx', loading⟩ := loadSegments_arrives agree offered segment rest [] ctx c (-1) prepared whole
        (List.forall_mem_cons.mp nonempty).2 (agree.within matchingId bpp _ offered encoded)
      have answers : p.serve (c.loaded p bpp) (.removeNotificationFromList c.nextSeqNumber) =
          some ((c.loaded p bpp).remove c.nextSeqNumber, some 0) := rfl
      refine ⟨ctx', loading.bind ?_⟩
      dsimp only
      rw [if_pos (Int.natCast_nonneg _)]
      exact ((arrives_request answers).bind (arrives_pure _ _ _)).bind (arrives_pure _ _ _)

/-! ## Cancellation -/

theorem ipaProcCmnCancelSess_arrives (reason : CancelSessionReason) {c : Chain} {transactionId : List UInt8}
    (euicc : c.euicc.transactionId = some transactionId) (smdp : c.smdp.transactionId = some transactionId) :
    Arrives p.serve (ipaProcCmnCancelSess transactionId reason) c (.ok 0) (c.enter .idle .idle) := by
  have cancels : p.serve c (.cancelSession transactionId reason) =
      some (c.enter .idle c.smdp, some (.cancelSessionResponseOk transactionId [])) := by
    simp only [Parties.serve, Chain.cancelSession, euicc, if_true]
    rfl
  have forwards : p.serve (c.enter .idle c.smdp)
      (.cancelSessionEsipa transactionId (.cancelSessionResponseOk transactionId [])) =
        some (c.enter .idle .idle, some .cancelSessionOk) := by
    simp only [Parties.serve, Chain.cancelSessionEsipa, Chain.enter, smdp, if_true]
  have answered : Arrives p.serve (ipaEs10bCancelSession transactionId reason) c
      (.ok (some (decCancelSessionRes (.cancelSessionResponseOk transactionId [])))) (c.enter .idle c.smdp) := by
    apply (arrives_send rfl cancels).bind
    dsimp only [decCancelSessionRes]
    rw [if_neg (not_not.mpr rfl)]
    exact arrives_pure _ _ _
  apply answered.bind
  exact (arrives_send rfl forwards).bind (arrives_pure _ _ _)

/-! ## Authentication -/

theorem ipaEs10bGetEuiccChlg_arrives {asn1c : Asn1c} (agree : p.Agree asn1c) (c : Chain) :
    Arrives p.serve ipaEs10bGetEuiccChlg c (.ok (some (p.challenge c.sessions)))
      (c.next.enter (.challenged (p.challenge c.sessions)) c.smdp) := by
  have answers : p.serve c .getEuiccChallenge =
      some (c.next.enter (.challenged (p.challenge c.sessions)) c.smdp, some (p.challenge c.sessions)) := rfl
  have copied := (ipaCopyAsnBuf_eq_iff ipaLenEuiccChlg _).mpr (agree.challenge c.sessions)
  have asked : Arrives p.serve ipaEs10bGetEuiccChlg c
      (.ok (some (ipaCopyAsnBuf ipaLenEuiccChlg (p.challenge c.sessions)))) _ :=
    (arrives_request answers).bind (arrives_pure _ _ _)
  rw [copied] at asked
  exact asked

/-- The SM-DP+ is the one that is asked for, and both have the key in common. -/
structure Parties.Meets (p : Parties) (req : InitiateAuthenticationRequest) : Prop where
  address : req.smdpAddress.map (List.map toUpper) = some (p.address.map toUpper)
  keyId : p.keyId ∈ req.euiccInfo1.euiccCiPKIdListForVerification

theorem ipaEsipaInitAuth_arrives {req : InitiateAuthenticationRequest} (meets : p.Meets req) (c : Chain) :
    ∃ res, Arrives p.serve (ipaEsipaInitAuth req) c (.ok res)
        (c.enter c.euicc (.initiated (p.serverSigned1 c.sessions req.euiccChallenge))) ∧
      InitAuthRes.usable res =
        some (p.initiateAuthenticationOk (p.serverSigned1 c.sessions req.euiccChallenge)) := by
  have answers : p.serve c (.initiateAuthentication req) =
      some (c.enter c.euicc (.initiated (p.serverSigned1 c.sessions req.euiccChallenge)),
        some (.initiateAuthenticationOk
          (p.initiateAuthenticationOk (p.serverSigned1 c.sessions req.euiccChallenge)))) := by
    have known : req.euiccInfo1.euiccCiPKIdListForVerification.any (· = p.keyId) = true :=
      List.any_eq_true.mpr ⟨_, meets.keyId, decide_eq_true rfl⟩
    simp only [Parties.serve, Parties.initiate, meets.address, known, and_self, if_true]
    rfl
  refine ⟨_, (arrives_send rfl answers).bind (arrives_pure _ _ _), ?_⟩
  have address : ipaAsnStrCmpBufI p.address req.smdpAddress = true := by
    obtain ⟨str, given, same⟩ := Option.map_eq_some_iff.mp meets.address
    exact (ipaAsnStrCmpBufI_iff ..).mpr ⟨str, given, same.symm⟩
  simp [checkInitAuthRes, decInitAuthRes, InitAuthRes.usable, Parties.initiateAuthenticationOk,
    Parties.serverSigned1, address]

theorem ipaEsipaInitAuth_refused {req : InitiateAuthenticationRequest} (apart : ¬ p.Meets req) (c : Chain) :
    ∃ res, Arrives p.serve (ipaEsipaInitAuth req) c (.ok res) c ∧ InitAuthRes.usable res = none := by
  have answers : p.serve c (.initiateAuthentication req) =
      some (c, some (.initiateAuthenticationError refusal)) := by
    simp only [Parties.serve, Parties.initiate]
    rw [if_neg ?_]
    rintro ⟨address, known⟩
    obtain ⟨keyId, member, same⟩ := List.any_eq_true.mp known
    exact apart ⟨address, of_decide_eq_true same ▸ member⟩
  exact ⟨_, (arrives_send rfl answers).bind (arrives_pure _ _ _), rfl⟩

theorem ipaEs10bAuthServ_arrives {asn1c : Asn1c} (agree : p.Agree asn1c) (pars : CmnMtlAuthPars) {c : Chain}
    {signed : ServerSigned1} (challenged : c.euicc = .challenged signed.euiccChallenge) :
    Arrives p.serve (ipaEs10bAuthServ (authServReq pars (p.initiateAuthenticationOk signed))) c
      (.ok (some (decAuthServRes (.authenticateResponseOk
        (p.signs1 signed { matchingId := pars.acToken, tac := pars.tac })))))
      (c.enter (.authenticated signed.transactionId) c.smdp) := by
  have signature : ipaStripTlvEnvelope (sent p.wrapped signatureTag (p.serverSignature1 signed)) 0x5f37 = _ :=
    (agree.signature1 signed).stripped p.wrapped
  have keyId : ipaStripTlvEnvelope (sent p.wrapped keyIdTag p.keyId) 0x04 = _ := agree.keyId.stripped p.wrapped
  have stripped : authServReq pars (p.initiateAuthenticationOk signed) =
      { serverSigned1 := signed, serverSignature1 := p.serverSignature1 signed, euiccCiPKIdToBeUsed := p.keyId
        serverCertificate := p.serverCertificate
        ctxParams1 := { matchingId := pars.acToken, tac := pars.tac } } := by
    simp only [authServReq, Parties.initiateAuthenticationOk, OctetString.bytes_octets, signature, keyId]
  have answers : p.serve c (.authenticateServer (authServReq pars (p.initiateAuthenticationOk signed))) =
      some (c.enter (.authenticated signed.transactionId) c.smdp, some (.authenticateResponseOk
        (p.signs1 signed { matchingId := pars.acToken, tac := pars.tac }))) := by
    rw [stripped]
    simp only [Parties.serve, Parties.authenticateServer, challenged, agree.accepts1, and_self, if_true]
    rfl
  exact (arrives_send rfl answers).bind (arrives_pure _ _ _)

def Parties.authClntRes (p : Parties) (transactionId : List UInt8) : AuthClntRes where
  transactionId := some transactionId
  authClntOkDpe := some (p.authenticateClientOkDpe transactionId)
  authClntOkDse := none
  authClntErr := 0

theorem ipaEsipaAuthClnt_arrives {c c' : Chain} {transactionId content : List UInt8}
    {answer : AuthenticateClientResponse} {res : AuthClntRes}
    (answers : p.authenticateClient c
      { transactionId, authenticateServerResponse := .authenticateResponseOk content } = (c', answer))
    (decoded : decAuthClntRes
      { transactionId, authenticateServerResponse := .authenticateResponseOk content } answer = .ok res) :
    Arrives p.serve (ipaEsipaAuthClnt transactionId (decAuthServRes (.authenticateResponseOk content))) c
      (.ok (some res)) c' := by
  have forwarded : AuthServRes.forwarded transactionId (decAuthServRes (.authenticateResponseOk content)) =
      some (.authenticateResponseOk content) := rfl
  have served : p.serve c (.authenticateClient
      { transactionId, authenticateServerResponse := .authenticateResponseOk content }) = some (c', some answer) := by
    simp only [Parties.serve, answers]
  rw [ipaEsipaAuthClnt, forwarded]
  apply (arrives_send rfl served).bind
  dsimp only
  rw [decoded]
  exact Arrives.bind (arrives_pure _ _ _) (arrives_pure _ _ _)

theorem authenticateClient_arrives {c : Chain} {signed : ServerSigned1} {ctxParams1 : CtxParams1}
    (reads : p.reads1 (p.signs1 signed ctxParams1) =
      some (signed.transactionId, signed.serverChallenge, ctxParams1.matchingId))
    {bpp : BoundProfilePackage} (initiated : c.smdp = .initiated signed)
    (offered : p.profile ctxParams1.matchingId = some bpp) :
    Arrives p.serve (authenticateClient signed.transactionId
      (decAuthServRes (.authenticateResponseOk (p.signs1 signed ctxParams1)))) c
      (.ok (some (p.authClntRes signed.transactionId)))
      (c.enter c.euicc (.authenticated signed.transactionId bpp)) := by
  have answers : p.authenticateClient c
      { transactionId := signed.transactionId
        authenticateServerResponse := .authenticateResponseOk (p.signs1 signed ctxParams1) } =
      (c.enter c.euicc (.authenticated signed.transactionId bpp),
        .authenticateClientOkDpe (p.authenticateClientOkDpe signed.transactionId)) := by
    simp only [Parties.authenticateClient, initiated, reads, offered, and_self, if_true]
    rfl
  have decoded : decAuthClntRes
      { transactionId := signed.transactionId
        authenticateServerResponse := .authenticateResponseOk (p.signs1 signed ctxParams1) }
      (.authenticateClientOkDpe (p.authenticateClientOkDpe signed.transactionId)) =
        .ok (p.authClntRes signed.transactionId) := by
    simp [decAuthClntRes, Parties.authenticateClientOkDpe, Parties.authClntRes]
  apply (ipaEsipaAuthClnt_arrives answers decoded).bind
  exact arrives_pure _ _ _

/-- Without a profile for the matching ID the session is cancelled on both sides. -/
theorem authenticateClient_refused {c : Chain} {signed : ServerSigned1} {ctxParams1 : CtxParams1}
    (reads : p.reads1 (p.signs1 signed ctxParams1) =
      some (signed.transactionId, signed.serverChallenge, ctxParams1.matchingId))
    (initiated : c.smdp = .initiated signed)
    (authenticated : c.euicc = .authenticated signed.transactionId)
    (unknown : p.profile ctxParams1.matchingId = none) :
    Arrives p.serve (authenticateClient signed.transactionId
      (decAuthServRes (.authenticateResponseOk (p.signs1 signed ctxParams1)))) c (.ok none)
      (c.enter .idle .idle) := by
  have answers : p.authenticateClient c
      { transactionId := signed.transactionId
        authenticateServerResponse := .authenticateResponseOk (p.signs1 signed ctxParams1) } =
      (c, .authenticateClientError refusal) := by
    simp only [Parties.authenticateClient, initiated, reads, unknown, and_self, if_true]
  have cancelled := @ipaProcCmnCancelSess_arrives p .undefinedReason c signed.transactionId
    (by rw [authenticated]; rfl) (by rw [initiated]; rfl)
  apply (ipaEsipaAuthClnt_arrives answers rfl).bind
  exact cancelled.bind (arrives_pure _ _ _)

theorem authenticateServer_reaches {asn1c : Asn1c} (agree : p.Agree asn1c) {pars : CmnMtlAuthPars}
    (allowed : pars.allowedCa.all (· = p.keyId) = true) {signed : ServerSigned1} {c c' : Chain}
    {out : Option AuthClntRes} (short : signed.transactionId.length ≤ transactionIdSize)
    (challenged : c.euicc = .challenged signed.euiccChallenge)
    (rest : Arrives p.serve (authenticateClient signed.transactionId
      (decAuthServRes (.authenticateResponseOk
        (p.signs1 signed { matchingId := pars.acToken, tac := pars.tac }))))
      (c.enter (.authenticated signed.transactionId) c.smdp) (.ok out) c') :
    Arrives p.serve (authenticateServer pars (p.initiateAuthenticationOk signed)) c (.ok out) c' := by
  have certificate : checkCertificate pars.allowedCa p.serverCertificate = .ok true := by
    cases given : pars.allowedCa with
    | none => rfl
    | some allowedCa =>
        rw [given, Option.all_some, decide_eq_true_eq] at allowed
        rw [allowed]
        exact agree.certificate
  have checked : Arrives p.serve (ofExcept (checkCertificate pars.allowedCa p.serverCertificate)) c (.ok true) c := by
    rw [certificate]
    exact arrives_pure _ _ _
  unfold authenticateServer
  rw [if_neg (show ¬ transactionIdSize < (p.initiateAuthenticationOk signed).serverSigned1.transactionId.length from
    Nat.not_lt.mpr short)]
  apply checked.bind
  rw [if_neg (by simp)]
  apply Arrives.bind (arrives_pure _ _ _)
  apply Arrives.bind (arrives_pure _ _ _)
  exact (ipaEs10bAuthServ_arrives agree pars challenged).bind rest

/-- The parties find each other. -/
def Parties.Reached (p : Parties) (allowedCa smdpAddr : Option (List UInt8)) : Prop :=
  allowedCa.all (· = p.keyId) = true ∧ p.keyId ∈ p.euiccInfo1.euiccCiPKIdListForVerification ∧
    smdpAddr.map (List.map toUpper) = some (p.address.map toUpper)

instance (allowedCa smdpAddr : Option (List UInt8)) : Decidable (p.Reached allowedCa smdpAddr) :=
  inferInstanceAs (Decidable (_ ∧ _ ∧ _))

theorem keyId_restricted_iff (p : Parties) (allowedCa : Option (List UInt8)) :
    (∃ info, restrictEuiccInfo p.euiccInfo1 allowedCa = some info ∧
        p.keyId ∈ info.euiccCiPKIdListForVerification) ↔
      allowedCa.all (· = p.keyId) = true ∧ p.keyId ∈ p.euiccInfo1.euiccCiPKIdListForVerification := by
  cases allowedCa with
  | none => simp [restrictEuiccInfo]
  | some allowedCa =>
      rw [Option.all_some, decide_eq_true_eq]
      constructor
      · rintro ⟨info, restricted, member⟩
        rw [(restrictEuiccInfo_some restricted).1, List.mem_filter, decide_eq_true_eq] at member
        exact ⟨member.2.symm, member.1⟩
      · rintro ⟨rfl, member⟩
        have kept : p.keyId ∈ p.euiccInfo1.euiccCiPKIdListForVerification.filter (· = p.keyId) :=
          List.mem_filter.mpr ⟨member, decide_eq_true rfl⟩
        simp only [restrictEuiccInfo, restrictEuiccCiPKIdList_filter, List.ne_nil_of_mem kept, if_false]
        exact ⟨_, rfl, kept⟩

/-- No session is open. -/
structure Chain.Closed (c : Chain) : Prop where
  euicc : c.euicc.transactionId = none
  smdp : c.smdp = .idle

/-- What a download leaves behind where `package` is what there is to install. -/
structure Settled (p : Parties) (package : Option BoundProfilePackage) (c c' : Chain) : Prop where
  installed : c'.installed = c.installed ++ (package.map derBoundProfilePackage).toList
  handled : c'.handled =
    c.handled ++ (package.map fun _ => .profileInstallationResult (p.report c.nextSeqNumber)).toList
  notifications : c'.notifications = c.notifications
  closed : c'.Closed

theorem settled_none {c : Chain} {euicc : EuiccSession} (outside : euicc.transactionId = none) :
    Settled p none c (c.next.enter euicc .idle) :=
  ⟨(List.append_nil _).symm, (List.append_nil _).symm, rfl, outside, rfl⟩

theorem settled_some {c : Chain} {bpp : BoundProfilePackage} {euicc : EuiccSession} {smdp : SmdpSession} :
    Settled p (some bpp) c (((c.next.enter euicc smdp).loaded p bpp).remove c.nextSeqNumber) := by
  refine ⟨rfl, rfl, ?_, rfl, rfl⟩
  change (c.nextSeqNumber :: c.notifications).erase c.nextSeqNumber = c.notifications
  exact List.erase_cons_head ..

def Chain.signed (c : Chain) (p : Parties) : ServerSigned1 :=
  p.serverSigned1 (c.sessions + 1) (p.challenge c.sessions)

theorem ipaProcCmnMtlAuth_reaches {asn1c : Asn1c} (agree : p.Agree asn1c) {pars : CmnMtlAuthPars}
    (reached : p.Reached pars.allowedCa pars.smdpAddr) {c c' : Chain} {out : Option AuthClntRes}
    (rest : Arrives p.serve (authenticateClient (c.signed p).transactionId
      (decAuthServRes (.authenticateResponseOk
        (p.signs1 (c.signed p) { matchingId := pars.acToken, tac := pars.tac }))))
      (c.next.enter (.authenticated (c.signed p).transactionId) (.initiated (c.signed p))) (.ok out) c') :
    Arrives p.serve (ipaProcCmnMtlAuth pars) c (.ok out) c' := by
  obtain ⟨allowed, known, address⟩ := reached
  obtain ⟨info, restricted, member⟩ := (keyId_restricted_iff p pars.allowedCa).mpr ⟨allowed, known⟩
  have informs : p.serve c .getEuiccInfo1 = some (c, some p.euiccInfo1) := rfl
  obtain ⟨res, initiated, usable⟩ := @ipaEsipaInitAuth_arrives p
    { euiccChallenge := p.challenge c.sessions, smdpAddress := pars.smdpAddr, euiccInfo1 := info } ⟨address, member⟩
    (c.next.enter (.challenged (p.challenge c.sessions)) c.smdp)
  apply (arrives_request informs).bind
  rw [Option.bind_some, restricted]
  apply (ipaEs10bGetEuiccChlg_arrives agree c).bind
  apply initiated.bind
  rw [usable]
  apply authenticateServer_reaches agree allowed (agree.transactionId _) rfl
  exact rest

theorem ipaProcCmnMtlAuth_unreached {asn1c : Asn1c} (agree : p.Agree asn1c) {pars : CmnMtlAuthPars}
    (unreached : ¬ p.Reached pars.allowedCa pars.smdpAddr) {c : Chain} (closed : c.Closed) :
    ∃ c', Arrives p.serve (ipaProcCmnMtlAuth pars) c (.ok none) c' ∧ Settled p none c c' := by
  have informs : p.serve c .getEuiccInfo1 = some (c, some p.euiccInfo1) := rfl
  cases restricted : restrictEuiccInfo p.euiccInfo1 pars.allowedCa with
  | none =>
      refine ⟨c, (arrives_request informs).bind ?_, ?_⟩
      · rw [Option.bind_some, restricted]
        exact arrives_pure _ _ _
      · exact ⟨(List.append_nil _).symm, (List.append_nil _).symm, rfl, closed⟩
  | some info =>
      have apart : ¬ p.Meets
          { euiccChallenge := p.challenge c.sessions, smdpAddress := pars.smdpAddr, euiccInfo1 := info } := by
        rintro ⟨address, member⟩
        obtain ⟨allowed, known⟩ := (keyId_restricted_iff p pars.allowedCa).mp ⟨info, restricted, member⟩
        exact unreached ⟨allowed, known, address⟩
      obtain ⟨res, refused, unusable⟩ := ipaEsipaInitAuth_refused apart
        (c.next.enter (.challenged (p.challenge c.sessions)) c.smdp)
      refine ⟨c.next.enter (.challenged (p.challenge c.sessions)) .idle, ?_, settled_none rfl⟩
      rw [closed.smdp] at refused
      apply (arrives_request informs).bind
      rw [Option.bind_some, restricted]
      apply (ipaEs10bGetEuiccChlg_arrives agree c).bind
      rw [closed.smdp]
      apply refused.bind
      rw [unusable]
      exact arrives_pure _ _ _

/-! ## Download -/

theorem ipaProcPrfleDwnlod_arrives {asn1c : Asn1c} (agree : p.Agree asn1c) {transactionId : List UInt8}
    {bpp : BoundProfilePackage} {c : Chain} (euicc : c.euicc = .authenticated transactionId)
    (smdp : c.smdp = .authenticated transactionId bpp) :
    Arrives p.serve (ipaProcPrfleDwnlod (some (p.authenticateClientOkDpe transactionId))) c (.ok (some bpp))
      (c.enter (.prepared transactionId []) (.bound transactionId)) := by
  have signature : ipaStripTlvEnvelope (sent p.wrapped signatureTag (p.smdpSignature2 transactionId)) 0x5f37 = _ :=
    (agree.signature2 transactionId).stripped p.wrapped
  have prepares : p.serve c (.prepareDownload (prepDwnldReq (p.authenticateClientOkDpe transactionId))) =
      some (c.enter (.prepared transactionId []) c.smdp,
        some (.downloadResponseOk transactionId (p.signs2 transactionId))) := by
    simp only [Parties.serve, Parties.prepareDownload, euicc, prepDwnldReq, Parties.authenticateClientOkDpe,
      OctetString.bytes_octets, signature, agree.accepts2, if_true]
    rfl
  have binds : p.serve (c.enter (.prepared transactionId []) c.smdp) (.getBoundProfilePackage
      { transactionId, prepareDownloadResponse := .downloadResponseOk transactionId (p.signs2 transactionId) }) =
        some (c.enter (.prepared transactionId []) (.bound transactionId), some (.getBoundProfilePackageOk bpp)) := by
    simp only [Parties.serve, Parties.bind, Chain.enter, smdp, agree.reads2, if_true]
  apply Arrives.bind (arrives_pure _ _ _)
  apply (arrives_send rfl prepares).bind
  exact (arrives_send rfl binds).bind (arrives_pure _ _ _)

def Parties.agreed (p : Parties) (cfg : IpaConfig) (ac : ActivationCode) : Bool :=
  !cfg.prfleInstConsentCb || p.consents (ac.smDpPlusAddress.getD []) (ac.acToken.getD [])

theorem prfleInstConsent_arrives (ctx : IpaContext) (ac : ActivationCode) (c : Chain) :
    Arrives p.serve (prfleInstConsent ctx ac) c (.ok (p.agreed ctx.cfg ac)) c := by
  have answers : p.serve c (.prfleInstConsent (ac.smDpPlusAddress.getD []) (ac.acToken.getD [])) =
      some (c, p.consents (ac.smDpPlusAddress.getD []) (ac.acToken.getD [])) := rfl
  unfold prfleInstConsent Parties.agreed
  cases ctx.cfg.prfleInstConsentCb with
  | true => exact arrives_request answers
  | false => exact arrives_pure _ _ _

theorem dwnldPrfle_arrives {asn1c : Asn1c} (agree : p.Agree asn1c) (ctx : IpaContext) (ac : ActivationCode)
    {transactionId : List UInt8} {bpp : BoundProfilePackage} (offered : p.profile ac.acToken = some bpp) (c : Chain) :
    ∃ ctx' c', Arrives p.serve (dwnldPrfle asn1c ctx ac (p.authClntRes transactionId))
        (c.next.enter (.authenticated transactionId) (.authenticated transactionId bpp)) (.ok ctx') c' ∧
      Settled p (if p.agreed ctx.cfg ac then some bpp else none) c c' := by
  have downloads := @ipaProcPrfleDwnlod_arrives p asn1c agree transactionId bpp
    (c.next.enter (.authenticated transactionId) (.authenticated transactionId bpp)) rfl rfl
  have asks := @prfleInstConsent_arrives p ctx ac (c.next.enter (.prepared transactionId []) (.bound transactionId))
  cases agreed : p.agreed ctx.cfg ac with
  | false =>
      rw [agreed] at asks
      have cancels := @ipaProcCmnCancelSess_arrives p .endUserRejection
        (c.next.enter (.prepared transactionId []) (.bound transactionId)) transactionId rfl rfl
      refine ⟨ctx, c.next.enter .idle .idle, ?_, settled_none rfl⟩
      apply downloads.bind
      apply asks.bind
      exact cancels.bind (arrives_pure _ _ _)
  | true =>
      rw [agreed] at asks
      obtain ⟨ctx', installs⟩ := ipaProcPrfleInst_arrives agree offered ctx
        (show (c.next.enter (.prepared transactionId []) (.bound transactionId)).euicc = _ from rfl)
      have marks : p.serve (((c.next.enter (.prepared transactionId []) (.bound transactionId)).loaded p bpp).remove
          c.nextSeqNumber) (.mark (.prfleInst 0)) = some (_, ()) := rfl
      refine ⟨ctx', _, ?_, @settled_some p c bpp (.prepared transactionId []) (.bound transactionId)⟩
      apply downloads.bind
      apply asks.bind
      apply installs.bind
      exact (arrives_request marks).bind (arrives_pure _ _ _)

/-- The package that an activation code stands for. -/
def Parties.offers (p : Parties) (cfg : IpaConfig) (ac : List UInt8) (allowedCa : Option (List UInt8)) :
    Option BoundProfilePackage :=
  match ipaActivationCodeParse ac with
  | none => none
  | some code =>
      if p.Reached allowedCa code.smDpPlusAddress ∧ p.agreed cfg code = true then p.profile code.acToken else none

end

/-! An SM-DP+ that has one package, and an eUICC that waits for it. -/

def plainParties : Parties where
  euiccInfo1 := { svn := [], euiccCiPKIdListForVerification := [[8], [9]], euiccCiPKIdListForSigning := [] }
  challenge _ := sixteenBytes
  accepts1 req := req.serverSignature1 = [1, 2] ∧ req.euiccCiPKIdToBeUsed = [9]
  signs1 _ ctxParams1 :=
    match ctxParams1.matchingId with
    | none => []
    | some matchingId => 1 :: matchingId
  accepts2 req := if req.smdpSignature2 = [3, 4] then some req.smdpSigned2 else none
  signs2 transactionId := transactionId
  whole package := package = derBoundProfilePackage smallBpp.1
  report seqNumber := { seqNumber, smdpOid := [], notificationAddress := [], aid := none }
  address := [0x61]
  transactionId _ := [5]
  serverChallenge _ := [7]
  keyId := [9]
  serverCertificate := { content := [], extensions := some [⟨some idCeAuthorityKeyIdentifier, allowedCaTlv [9]⟩] }
  serverSignature1 _ := [1, 2]
  reads1 content := some ([5], [7], content.tail?)
  smdpSigned2 transactionId := transactionId
  smdpSignature2 _ := [3, 4]
  smdpCertificate := { content := [], extensions := none }
  hashCc := none
  reads2 content := some content
  profile matchingId := if matchingId = some [0x42] then some smallBpp.1 else none
  wrapped := true
  consents _ _ := false

theorem segmentation_of_bytes {bpp : BoundProfilePackage} {result : Except Fault (Option (List IpaBuf))}
    (cut : result.toOption.join.map (List.map IpaBuf.bytes) = some (bppSegments bpp)) : Segmentation bpp result := by
  rcases result with f | _ | segments
  · cases cut
  · cases cut
  · have same : segments.map IpaBuf.bytes = bppSegments bpp := Option.some.inj cut
    exact ⟨segments, rfl, same, by rw [same, flatten_bppSegments]⟩

theorem plainParties_profile {matchingId : Option (List UInt8)} {bpp : BoundProfilePackage}
    (offered : plainParties.profile matchingId = some bpp) : bpp = smallBpp.1 := by
  change (if matchingId = some [0x42] then some smallBpp.1 else none) = some bpp at offered
  split at offered
  · exact (Option.some.inj offered).symm
  · cases offered

theorem plainParties_agree : plainParties.Agree oneChunk where
  challenge _ := rfl
  transactionId _ := Nat.le_add_left 1 15
  keyId := sendable_of_head (by decide) (by decide)
  signature1 _ := (sendable_of_head (by decide) (by decide) : Sendable signatureTag [1, 2])
  signature2 _ := (sendable_of_head (by decide) (by decide) : Sendable signatureTag [3, 4])
  certificate := by rfl
  accepts1 _ _ := rfl
  reads1 session euiccChallenge ctxParams1 := by
    cases ctxParams1 with
    | mk matchingId tac => cases matchingId <;> rfl
  accepts2 _ := rfl
  reads2 _ := rfl
  report _ := rfl
  segmentation matchingId bpp offered := by
    rw [plainParties_profile offered]
    exact segmentation_of_bytes (by decide +kernel)
  within matchingId bpp segments offered encoded := by
    rw [plainParties_profile offered] at encoded
    have all : (ipaBppSegmentsEncode oneChunk smallBpp.1).toOption.join.all fun segments =>
        segments.all fun segment => segment.Valid := by decide +kernel
    rw [encoded] at all
    exact fun segment member => of_decide_eq_true (List.all_eq_true.mp all segment member)
  whole matchingId bpp offered front _ := by
    rw [plainParties_profile offered]
    exact decide_eq_true_iff

end Ipad.Proc

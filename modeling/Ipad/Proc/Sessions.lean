import Ipad.Proc.IndirectDwnld
import Ipad.Proc.Installation
import Ipad.Proc.MtlAuthGate
import Ipad.Proc.Idle

/-!
# How downloads end
-/

namespace Ipad.Proc
open Lib.Dialogue Lib.Except Ipad.EimCfg Ipad.Nvstate Ipad.BppSegments Ipad.Utils

/-! ## The observer -/

/-- `opened` is the transaction of the server that the eUICC has authenticated, `smds` says that an SM-DS
answered for the client, `unnamed` that an SM-DP+ did without a transaction ID, and `unsigned` that it did with a
signature that has no buffer. `aborted` and `overrun` say that an encoder ended the program, and that the eUICC
took the blocks from behind a segment. -/
structure DwnldSeen where
  opened : Option (List UInt8)
  smds : Bool
  unnamed : Bool
  unsigned : Bool
  package : Option BoundProfilePackage
  refused : Bool
  cancelled : List (List UInt8)
  installed : Option Int
  aborted : Bool
  overrun : Bool

def DwnldSeen.nothing : DwnldSeen where
  opened := none
  smds := false
  unnamed := false
  unsigned := false
  package := none
  refused := false
  cancelled := []
  installed := none
  aborted := false
  overrun := false

/-- A cancellation is counted when it is tried. -/
def DwnldSeen.step (seen : DwnldSeen) : Event Req Ans → DwnldSeen
  | ⟨.authenticateServer req, some (.authenticateResponseOk _)⟩ =>
      { seen with opened := some req.serverSigned1.transactionId }
  | ⟨.authenticateClient _, some (.authenticateClientOkDse _)⟩ => { seen with smds := true }
  | ⟨.authenticateClient req, some (.authenticateClientOkDpe ok)⟩ =>
      { seen with
        unnamed := ok.transactionId.isNone
        unsigned := ok.transactionId = some req.transactionId && !ok.smdpSignature2.buffered }
  | ⟨.getBoundProfilePackage _, some (.getBoundProfilePackageOk boundProfilePackage)⟩ =>
      { seen with package := some boundProfilePackage }
  | ⟨.prfleInstConsent _ _, consent⟩ => { seen with refused := !consent }
  | ⟨.encode (.cancelSession transactionId _), .aborted⟩ =>
      { seen with cancelled := transactionId :: seen.cancelled, aborted := true }
  | ⟨.encode (.cancelSession transactionId _), _⟩ =>
      { seen with cancelled := transactionId :: seen.cancelled }
  | ⟨.encode _, .aborted⟩ => { seen with aborted := true }
  | ⟨.overrun _, true⟩ => { seen with overrun := true }
  | ⟨.mark (.prfleInst rc), _⟩ => { seen with installed := some rc }
  | _ => seen

def dwnldSeen : Trace → DwnldSeen
  | [] => .nothing
  | event :: t => (dwnldSeen t).step event

/-- The last thing was an installation that returned 0, or the session was cancelled once. -/
def DwnldSeen.Closed (seen : DwnldSeen) (transactionId : List UInt8) : Prop :=
  seen.installed = some 0 ∧ seen.cancelled = [] ∨ seen.cancelled = [transactionId]

/-- The answers are those that the procedures can deal with. -/
structure DwnldSeen.Expected (asn1c : Asn1c) (seen : DwnldSeen) : Prop where
  smds : seen.smds = false
  unnamed : seen.unnamed = false
  unsigned : seen.unsigned = false
  package : ∀ boundProfilePackage, seen.package = some boundProfilePackage → seen.refused = false →
    ∃ segments, ipaBppSegmentsEncode asn1c boundProfilePackage = .ok segments
  aborted : seen.aborted = false
  overrun : seen.overrun = false

def LoadsWithin : Event Req Ans → Trace → Prop
  | ⟨.loadBoundProfilePackage _, _⟩, t => (dwnldSeen t).cancelled = [] ∧ (dwnldSeen t).refused = false
  | _, _ => True

structure Watched (seen : DwnldSeen) (t : Trace) : Prop where
  seen : dwnldSeen t = seen
  loads : Every LoadsWithin t

/-! ## Requests that the observer takes no notice of -/

def Req.Aside : Req → Prop
  | .authenticateServer _ => False
  | .authenticateClient _ => False
  | .getBoundProfilePackage _ => False
  | .prfleInstConsent _ _ => False
  | .loadBoundProfilePackage _ => False
  | .encode _ => False
  | .overrun _ => False
  | .mark (.prfleInst _) => False
  | _ => True

def Req.Cancels : Req → Prop
  | .cancelSession _ _ => True
  | _ => False

section
variable {seen : DwnldSeen} {t : Trace}

theorem Watched.cons (watched : Watched seen t) (event : Event Req Ans) (loads : LoadsWithin event t) :
    Watched (seen.step event) (event :: t) where
  seen := congrArg (DwnldSeen.step · event) watched.seen
  loads := ⟨loads, watched.loads⟩

theorem Watched.aside (watched : Watched seen t) (req : Req) (ans : Ans req) (aside : req.Aside) :
    Watched seen (⟨req, ans⟩ :: t) := by
  have quiet : LoadsWithin ⟨req, ans⟩ t := by
    cases req with
    | loadBoundProfilePackage => exact aside.elim
    | _ => trivial
  have unnoticed : seen.step ⟨req, ans⟩ = seen := by
    cases req with
    | authenticateServer => exact aside.elim
    | authenticateClient => exact aside.elim
    | getBoundProfilePackage => exact aside.elim
    | prfleInstConsent => exact aside.elim
    | encode => exact aside.elim
    | overrun => exact aside.elim
    | mark m =>
        cases m with
        | prfleInst => exact aside.elim
        | _ => rfl
    | _ => rfl
  exact unnoticed ▸ watched.cons _ quiet

theorem Watched.load (watched : Watched seen t) (segment : List UInt8) (ans : SegmentAnswer)
    (kept : seen.cancelled = []) (consented : seen.refused = false) :
    Watched seen (⟨.loadBoundProfilePackage segment, ans⟩ :: t) :=
  watched.cons ⟨.loadBoundProfilePackage segment, ans⟩ (by
    rw [← watched.seen] at kept consented
    exact ⟨kept, consented⟩)

theorem Watched.encode (watched : Watched seen t) (req : Req) (other : ¬ req.Cancels) (outcome : Encoding)
    (through : outcome ≠ .aborted) : Watched seen (⟨.encode req, outcome⟩ :: t) := by
  have unnoticed : seen.step ⟨.encode req, outcome⟩ = seen := by
    cases outcome with
    | aborted => exact absurd rfl through
    | _ =>
        cases req with
        | cancelSession => exact absurd trivial other
        | _ => rfl
  exact unnoticed ▸ watched.cons ⟨.encode req, outcome⟩ trivial

theorem Watched.abort (watched : Watched seen t) (req : Req) (other : ¬ req.Cancels) :
    Watched { seen with aborted := true } (⟨.encode req, .aborted⟩ :: t) := by
  have noticed : seen.step ⟨.encode req, .aborted⟩ = { seen with aborted := true } := by
    cases req with
    | cancelSession => exact absurd trivial other
    | _ => rfl
  exact noticed ▸ watched.cons ⟨.encode req, .aborted⟩ trivial

/-! ## Ends -/

structure Finished (asn1c : Asn1c) (seen : DwnldSeen) (t : Trace) : Prop where
  watched : Watched seen t
  cancelled : seen.cancelled.length ≤ 1
  closed : ∀ transactionId, seen.opened = some transactionId → seen.Closed transactionId ∧ seen.Expected asn1c

structure Crashed (asn1c : Asn1c) (seen : DwnldSeen) (t : Trace) : Prop where
  watched : Watched seen t
  cancelled : seen.cancelled.length ≤ 1
  unexpected : ∀ transactionId, seen.opened = some transactionId → ¬ seen.Expected asn1c

variable {asn1c : Asn1c}

theorem Watched.crashed (watched : Watched seen t) (req : Req) (other : ¬ req.Cancels)
    (cancelled : seen.cancelled.length ≤ 1) : ∃ seen', Crashed asn1c seen' (⟨.encode req, .aborted⟩ :: t) :=
  ⟨_, watched.abort req other, cancelled, fun _ _ expected => Bool.noConfusion expected.aborted⟩

theorem send_watched (watched : Watched seen t) (cancelled : seen.cancelled.length ≤ 1) (req : Req)
    (aside : req.Aside) (other : ¬ req.Cancels) :
    Ends (fun _ t' => Watched seen t') (fun _ t' => ∃ seen, Crashed asn1c seen t') (send req) t :=
  (ends_send req _ t).mpr ⟨fun ans => (watched.encode req other .encoded Encoding.noConfusion).aside req ans aside,
    watched.encode req other .refused Encoding.noConfusion, watched.crashed req other cancelled⟩

/-! ## Mutual authentication -/

theorem ipaProcCmnCancelSess_watched (watched : Watched seen t) (fresh : seen.cancelled = [])
    (transactionId : List UInt8) (reason : CancelSessionReason) :
    Ends (fun _ t' => Watched { seen with cancelled := [transactionId] } t')
      (fun _ t' => ∃ seen, Crashed asn1c seen t') (ipaProcCmnCancelSess transactionId reason) t := by
  have once : transactionId :: seen.cancelled = [transactionId] := congrArg (transactionId :: ·) fresh
  have tried (outcome : Encoding) := watched.cons ⟨.encode (.cancelSession transactionId reason), outcome⟩ trivial
  have forwarded {t : Trace} (watched : Watched { seen with cancelled := [transactionId] } t)
      (res : CancelSessionRes) : Ends (fun _ t' => Watched { seen with cancelled := [transactionId] } t')
        (fun _ t' => ∃ seen, Crashed asn1c seen t') (send (Req.cancelSessionEsipa transactionId res.forwarded) >>=
          fun answer => (pure (cancelSessionEsipaRc answer) : ProcM Int)) t :=
    (send_watched watched (Nat.le_refl 1) (.cancelSessionEsipa transactionId res.forwarded) trivial id).bind
      fun _ _ watched => watched
  rw [ipaProcCmnCancelSess, ipaEs10bCancelSession, ends_bind, ends_bind]
  refine (ends_send (.cancelSession transactionId reason) _ _).mpr ⟨fun ans => ?_, ?_, ?_⟩
  · have answered := (tried .encoded).aside (.cancelSession transactionId reason) ans trivial
    simp only [DwnldSeen.step, once] at answered
    cases ans with
    | none => exact answered
    | some answer =>
        simp only
        split
        · exact forwarded answered _
        · split
          · exact answered
          · exact forwarded answered _
  · have refused := tried .refused
    simp only [DwnldSeen.step, once] at refused
    exact refused
  · have aborted := tried .aborted
    simp only [DwnldSeen.step, once] at aborted
    exact ⟨_, aborted, Nat.le_refl 1, fun _ _ expected => Bool.noConfusion expected.aborted⟩

/-- What the observer sees when the procedure is done with the server `transactionId`. -/
inductive Authenticated (seen : DwnldSeen) (transactionId : List UInt8) : Option AuthClntRes → Trace → Prop where
  | cancelled (t : Trace) (watched : Watched { seen with cancelled := [transactionId] } t) :
      Authenticated seen transactionId none t
  | smdp (res : AuthClntRes) (ok : AuthenticateClientOkDpe) (found : res.authClntOkDpe = some ok)
      (named : res.transactionId = some transactionId) (t : Trace)
      (watched : Watched { seen with unsigned := !ok.smdpSignature2.buffered } t) :
      Authenticated seen transactionId (some res) t
  | smds (res : AuthClntRes) (found : res.authClntOkDpe = none) (t : Trace)
      (watched : Watched { seen with smds := true } t) : Authenticated seen transactionId (some res) t

theorem authenticateClient_watched (watched : Watched seen t) (fresh : seen.cancelled = [])
    (unnamed : seen.unnamed = false) (unsigned : seen.unsigned = false) (transactionId : List UInt8)
    (authServRes : AuthServRes) :
    Ends (Authenticated seen transactionId) (fun _ t' => ∃ seen, Crashed asn1c seen t')
      (authenticateClient transactionId authServRes) t := by
  have single : seen.cancelled.length ≤ 1 := by rw [fresh]; exact Nat.zero_le 1
  have cancel {t : Trace} (watched : Watched seen t) : Ends (Authenticated seen transactionId)
      (fun _ t' => ∃ seen, Crashed asn1c seen t') (ipaProcCmnCancelSess transactionId .undefinedReason >>= fun _ =>
        (pure none : ProcM (Option AuthClntRes))) t := by
    apply (ipaProcCmnCancelSess_watched watched fresh transactionId .undefinedReason).bind
    exact fun _ t' watched => .cancelled t' watched
  have conclude {t : Trace} {res : AuthClntRes} (failed : res.failed = true → Watched seen t)
      (succeeds : res.failed = false → Authenticated seen transactionId (some res) t) :
      Ends (Authenticated seen transactionId) (fun _ t' => ∃ seen, Crashed asn1c seen t')
        (if res.failed then ipaProcCmnCancelSess transactionId .undefinedReason >>= fun _ =>
          (pure none : ProcM (Option AuthClntRes)) else pure (some res)) t := by
    split
    next fails => exact cancel (failed fails)
    next succeeded => exact succeeds (Bool.eq_false_iff.mpr succeeded)
  unfold authenticateClient ipaEsipaAuthClnt
  split
  · exact cancel watched
  next response _ =>
    rw [ends_bind, ends_bind]
    refine (ends_send (.authenticateClient ⟨transactionId, response⟩) _ _).mpr ⟨fun ans => ?_, ?_, ?_⟩
    · have encoded := watched.encode (.authenticateClient ⟨transactionId, response⟩) id .encoded Encoding.noConfusion
      cases ans with
      | none => exact cancel (encoded.cons ⟨.authenticateClient _, none⟩ trivial)
      | some answer =>
          have answered := encoded.cons ⟨.authenticateClient ⟨transactionId, response⟩, some answer⟩ trivial
          cases answer with
          | authenticateClientOkDpe ok =>
              cases named : ok.transactionId with
              | none =>
                  simp only [decAuthClntRes, named]
                  refine ⟨_, answered, single, fun _ _ expected => ?_⟩
                  have absent := expected.unnamed
                  simp only [DwnldSeen.step, named, Option.isNone_none] at absent
                  cases absent
              | some other =>
                  simp only [DwnldSeen.step, named, Option.isNone_some, ← unnamed, Option.some.injEq] at answered
                  simp only [decAuthClntRes, named]
                  by_cases same : other = transactionId
                  · subst same
                    simp only [decide_true, Bool.true_and] at answered
                    exact conclude (fun fails => by simp [AuthClntRes.failed] at fails) fun _ =>
                      .smdp _ ok rfl rfl _ answered
                  · have kept : { seen with unnamed := seen.unnamed, unsigned := false } = seen := by rw [← unsigned]
                    simp only [same, decide_false, Bool.false_and, kept] at answered
                    exact conclude (fun _ => answered) fun succeeded => by simp [AuthClntRes.failed, same] at succeeded
          | authenticateClientOkDse ok => exact .smds _ rfl _ answered
          | authenticateClientError code =>
              exact conclude (fun _ => answered) fun succeeded => by simp [AuthClntRes.failed] at succeeded
          | nothing => exact cancel answered
    · exact cancel (watched.encode _ id .refused Encoding.noConfusion)
    · exact watched.crashed _ id single

/-- The start of a session: the server of the session has been authenticated, or the eUICC has refused to. -/
structure SessionBegun (transactionId : List UInt8) (seen : DwnldSeen) : Prop where
  opened : ∀ other, seen.opened = some other → other = transactionId
  begun : seen = { DwnldSeen.nothing with opened := seen.opened }

theorem SessionBegun.fresh {transactionId : List UInt8} (begun : SessionBegun transactionId seen) :
    seen.cancelled = [] := by
  rw [begun.begun]
  rfl

theorem SessionBegun.consented {transactionId : List UInt8} (begun : SessionBegun transactionId seen) :
    seen.refused = false := by
  rw [begun.begun]
  rfl

theorem SessionBegun.unsigned {transactionId : List UInt8} (begun : SessionBegun transactionId seen) :
    seen.unsigned = false := by
  rw [begun.begun]
  rfl

/-- Nothing is known of a package yet. -/
theorem SessionBegun.unpackaged {transactionId : List UInt8} (begun : SessionBegun transactionId seen)
    (bpp : BoundProfilePackage) (found : seen.package = some bpp) (_ : seen.refused = false) :
    ∃ segments, ipaBppSegmentsEncode asn1c bpp = .ok segments := by
  rw [begun.begun] at found
  cases found

inductive MtlAuthEnds : Option AuthClntRes → Trace → Prop where
  | unopened (t : Trace) (watched : Watched .nothing t) : MtlAuthEnds none t
  | authenticated (transactionId : List UInt8) (seen : DwnldSeen) (begun : SessionBegun transactionId seen)
      (out : Option AuthClntRes) (t : Trace) (authenticated : Authenticated seen transactionId out t) :
      MtlAuthEnds out t

theorem authenticateServer_watched (watched : Watched .nothing t) (pars : CmnMtlAuthPars)
    (ok : InitiateAuthenticationOk) :
    Ends MtlAuthEnds (fun _ t' => ∃ seen, Crashed asn1c seen t') (authenticateServer pars ok) t := by
  have unopened : ∃ seen, Crashed asn1c seen t :=
    ⟨.nothing, watched, Nat.zero_le 1, fun _ opened => by cases opened⟩
  have goOn {seen : DwnldSeen} {t : Trace} (watched : Watched seen t)
      (begun : SessionBegun ok.serverSigned1.transactionId seen) (authServRes : AuthServRes) :
      Ends MtlAuthEnds (fun _ t' => ∃ seen, Crashed asn1c seen t')
        (authenticateClient ok.serverSigned1.transactionId authServRes) t := by
    apply (authenticateClient_watched watched _ _ _ _ authServRes).imp
    · exact fun out t' authenticated => .authenticated _ seen begun out t' authenticated
    all_goals
      rw [begun.begun]
      rfl
  unfold authenticateServer
  split
  · exact .unopened t watched
  cases checkCertificate pars.allowedCa ok.serverCertificate with
  | error f => exact unopened
  | ok passed =>
      cases passed with
      | false => exact .unopened t watched
      | true =>
          show Ends _ _ (ofExcept (readable ok.serverSignature1) >>= fun _ =>
            ofExcept (readable ok.euiccCiPKIdToBeUsed) >>= fun _ => ipaEs10bAuthServ (authServReq pars ok) >>= _) t
          cases readable ok.serverSignature1 with
          | error f => exact unopened
          | ok =>
              cases readable ok.euiccCiPKIdToBeUsed with
              | error f => exact unopened
              | ok =>
                  show Ends _ _ (ipaEs10bAuthServ (authServReq pars ok) >>= _) t
                  rw [ipaEs10bAuthServ, ends_bind, ends_bind]
                  refine (ends_send (.authenticateServer (authServReq pars ok)) _ _).mpr ⟨fun ans => ?_, ?_, ?_⟩
                  · have encoded := watched.encode (.authenticateServer (authServReq pars ok)) id .encoded
                      Encoding.noConfusion
                    cases ans with
                    | none => exact .unopened _ (encoded.cons ⟨.authenticateServer (authServReq pars ok), none⟩ trivial)
                    | some answer =>
                        have answered := encoded.cons ⟨.authenticateServer (authServReq pars ok), some answer⟩ trivial
                        cases answer with
                        | authenticateResponseOk content =>
                            exact goOn answered ⟨fun other opened => (Option.some.inj opened).symm, rfl⟩ _
                        | authenticateResponseError code =>
                            exact goOn answered ⟨fun _ opened => (by cases opened), rfl⟩ _
                        | nothing => exact goOn answered ⟨fun _ opened => (by cases opened), rfl⟩ _
                  · exact .unopened _ (watched.encode _ id .refused Encoding.noConfusion)
                  · exact watched.crashed _ id (Nat.zero_le 1)

theorem ipaProcCmnMtlAuth_watched (watched : Watched .nothing t) (pars : CmnMtlAuthPars) :
    Ends MtlAuthEnds (fun _ t' => ∃ seen, Crashed asn1c seen t') (ipaProcCmnMtlAuth pars) t := by
  simp only [ipaProcCmnMtlAuth, ends_bind, ends_request]
  intro euiccInfo
  have asked := watched.aside .getEuiccInfo1 euiccInfo trivial
  split
  · exact .unopened _ asked
  simp only [ipaEs10bGetEuiccChlg, ends_bind, ends_request, ends_pure]
  intro challenge
  have challenged := asked.aside .getEuiccChallenge challenge trivial
  cases challenge with
  | none => exact .unopened _ challenged
  | some challenge =>
      simp only [ipaEsipaInitAuth, Option.map_some, ends_bind]
      refine (send_watched challenged (Nat.zero_le 1) (.initiateAuthentication _) trivial id).imp ?_
      intro answer t initiated
      rw [ends_pure]
      split
      · exact .unopened _ initiated
      · exact authenticateServer_watched initiated pars _

/-! ## Installation -/

theorem withinBuffer_watched (watched : Watched seen t) (single : seen.cancelled.length ≤ 1) (segment : IpaBuf) :
    Ends (fun _ t' => Watched seen t') (fun _ t' => ∃ seen, Crashed asn1c seen t') (withinBuffer segment) t := by
  unfold withinBuffer
  split
  · exact watched
  rw [ends_bind]
  intro overruns
  have asked := watched.cons ⟨.overrun segment.bytes, overruns⟩ trivial
  cases overruns with
  | true => exact ⟨_, asked, single, fun _ _ expected => Bool.noConfusion expected.overrun⟩
  | false => exact asked

theorem ipaEs10bLoadBndPrflePkg_watched (watched : Watched seen t) (fresh : seen.cancelled = [])
    (consented : seen.refused = false) (ctx : IpaContext) (segment : IpaBuf) :
    Ends (fun _ t' => Watched seen t') (fun _ t' => ∃ seen, Crashed asn1c seen t')
      (ipaEs10bLoadBndPrflePkg ctx segment) t := by
  apply (withinBuffer_watched watched (by rw [fresh]; exact Nat.zero_le 1) segment).bind
  intro _ t watched
  rw [ends_bind]
  exact fun ans => watched.load segment.bytes ans fresh consented

theorem ipaEs10bEnableUsingDd_watched (watched : Watched seen t) (ctx : IpaContext) :
    Ends (fun _ t' => Watched seen t') (fun _ t' => ∃ seen, Crashed asn1c seen t')
      (ipaEs10bEnableUsingDd ctx) t := by
  have marked := watched.aside (.mark .enableUsingDd) () trivial
  simp only [ipaEs10bEnableUsingDd, ends_bind, ends_mark]
  split
  · split
    · exact marked
    · simp only [ends_bind, ends_request, ends_pure]
      exact fun ans => marked.aside (.enableProfile .autoEnable _) ans trivial
  · simp only [ends_bind, ends_request, ends_pure]
    exact fun ans => marked.aside .enableUsingDd ans trivial

theorem handleLoadBndPrflePkgRes_watched (watched : Watched seen t) (single : seen.cancelled.length ≤ 1)
    (ctx : IpaContext) (res : Option PrfleInstRslt) :
    Ends (fun _ t' => Watched seen t') (fun _ t' => ∃ seen, Crashed asn1c seen t')
      (handleLoadBndPrflePkgRes ctx res) t := by
  cases res with
  | none => exact watched
  | some result =>
      unfold handleLoadBndPrflePkgRes
      apply (ipaEs10bEnableUsingDd_watched watched ctx).bind
      intro _ t watched
      rw [ipaEsipaHandleNotif, ends_bind, ends_bind]
      apply (send_watched watched single (.handleNotification (.profileInstallationResult result)) trivial id).imp
      intro ans t watched
      cases ans with
      | none => exact watched
      | some => exact watched

theorem loadSegments_watched (watched : Watched seen t) (fresh : seen.cancelled = [])
    (consented : seen.refused = false) (ctx : IpaContext) (segments : List IpaBuf) (seqNumber : Int) :
    Ends (fun _ t' => Watched seen t') (fun _ t' => ∃ seen, Crashed asn1c seen t')
      (loadSegments ctx segments seqNumber) t := by
  induction segments generalizing ctx seqNumber t with
  | nil => exact watched
  | cons segment rest ih =>
      unfold loadSegments
      apply (ipaEs10bLoadBndPrflePkg_watched watched fresh consented ctx segment).bind
      rintro ⟨ctx, res⟩ t watched
      cases res with
      | none => exact watched
      | some res =>
          apply (handleLoadBndPrflePkgRes_watched watched (by rw [fresh]; exact Nat.zero_le 1) ctx res).bind
          rintro ⟨ctx, rc, seqNumber⟩ t watched
          simp only
          split
          · exact watched
          split
          · exact watched
          split
          · exact watched
          · exact ih watched ctx seqNumber

theorem ipaProcPrfleInst_watched (watched : Watched seen t) (fresh : seen.cancelled = [])
    (consented : seen.refused = false) (ctx : IpaContext) (bpp : BoundProfilePackage)
    (package : seen.package = some bpp) :
    Ends (fun out t' => Watched seen t' ∧ (∃ segments, ipaBppSegmentsEncode asn1c bpp = .ok segments) ∧
        (out.2 = 0 ∨ out.2 < 0))
      (fun _ t' => ∃ seen, Crashed asn1c seen t') (ipaProcPrfleInst asn1c ctx bpp) t := by
  have fails {t : Trace} (watched : Watched seen t) : Watched seen t ∧ (einval = 0 ∨ einval < 0) :=
    ⟨watched, .inr einval_neg⟩
  cases encoded : ipaBppSegmentsEncode asn1c bpp with
  | error f =>
      simp only [ipaProcPrfleInst, encoded]
      refine ⟨seen, watched, by rw [fresh]; exact Nat.zero_le 1, fun _ _ expected => ?_⟩
      obtain ⟨segments, returned⟩ := expected.package bpp package consented
      cases encoded.symm.trans returned
  | ok segments =>
      have installs : Ends (fun out t' => Watched seen t' ∧ (out.2 = 0 ∨ out.2 < 0))
          (fun _ t' => ∃ seen, Crashed asn1c seen t') (ipaProcPrfleInst asn1c ctx bpp) t := by
        simp only [ipaProcPrfleInst, encoded]
        cases segments with
        | none => exact fails watched
        | some segments =>
            apply (loadSegments_watched watched fresh consented ctx segments (-1)).bind
            rintro ⟨ctx, seqNumber⟩ t watched
            cases seqNumber with
            | none => exact fails watched
            | some seqNumber =>
                simp only
                split
                · simp only [ipaEs10bRmNotifFromLst, ends_bind, ends_request, ends_pure]
                  intro ans
                  refine ⟨watched.aside (.removeNotificationFromList seqNumber) ans trivial, ?_⟩
                  split
                  · exact .inr einval_neg
                  · exact .inl rfl
                · exact fails watched
      exact installs.imp fun _ _ both => ⟨both.1, ⟨segments, rfl⟩, both.2⟩

/-! ## Download -/

theorem cancelAuthClnt_watched (watched : Watched seen t) (fresh : seen.cancelled = []) (res : AuthClntRes)
    {transactionId : List UInt8} (named : res.transactionId = some transactionId) (reason : CancelSessionReason) :
    Ends (fun _ t' => Watched { seen with cancelled := [transactionId] } t')
      (fun _ t' => ∃ seen, Crashed asn1c seen t') (cancelAuthClnt res reason) t := by
  rw [cancelAuthClnt, named]
  exact ipaProcCmnCancelSess_watched watched fresh transactionId reason

/-- What is left to say of a session once the answer for the client has been dealt with. -/
theorem SessionBegun.expected {transactionId : List UInt8} (begun : SessionBegun transactionId seen)
    (package : Option BoundProfilePackage) (refused : Bool) (cancelled : List (List UInt8)) (installed : Option Int)
    (encodes : ∀ bpp, package = some bpp → refused = false →
      ∃ segments, ipaBppSegmentsEncode asn1c bpp = .ok segments) :
    DwnldSeen.Expected asn1c { seen with package, refused, cancelled, installed } := by
  rw [begun.begun]
  exact ⟨rfl, rfl, rfl, encodes, rfl, rfl⟩

theorem SessionBegun.cancelled {transactionId : List UInt8} (begun : SessionBegun transactionId seen)
    {package : Option BoundProfilePackage} {refused : Bool} {installed : Option Int}
    (encodes : ∀ bpp, package = some bpp → refused = false →
      ∃ segments, ipaBppSegmentsEncode asn1c bpp = .ok segments)
    (watched : Watched { seen with package, refused, cancelled := [transactionId], installed } t) :
    ∃ seen, Finished asn1c seen t := by
  refine ⟨_, watched, Nat.le_refl 1, fun other opened => ?_⟩
  cases begun.opened other opened
  exact ⟨.inr rfl, begun.expected package refused [transactionId] installed encodes⟩

theorem instPrfle_watched {transactionId : List UInt8} (begun : SessionBegun transactionId seen)
    {bpp : BoundProfilePackage} (watched : Watched { seen with package := some bpp } t) (ctx : IpaContext)
    (res : AuthClntRes) (named : res.transactionId = some transactionId) :
    Ends (fun _ t' => ∃ seen, Finished asn1c seen t') (fun _ t' => ∃ seen, Crashed asn1c seen t')
      (instPrfle asn1c ctx res bpp) t := by
  apply (ipaProcPrfleInst_watched watched begun.fresh begun.consented ctx bpp rfl).bind
  rintro ⟨ctx', rc⟩ t ⟨watched, encodes, success⟩
  have installed := watched.cons ⟨.mark (.prfleInst rc), ()⟩ trivial
  have only (other : BoundProfilePackage) (found : some bpp = some other) (_ : seen.refused = false) :
      ∃ segments, ipaBppSegmentsEncode asn1c other = .ok segments := by
    cases found
    exact encodes
  simp only [ends_bind, ends_mark]
  split
  next failed =>
    apply (cancelAuthClnt_watched installed begun.fresh res named _).bind
    exact fun _ t watched => begun.cancelled only watched
  next succeeded =>
    refine ⟨_, installed, by simp [DwnldSeen.step, begun.fresh], fun other opened => ?_⟩
    exact ⟨.inl ⟨congrArg some (success.resolve_right succeeded), begun.fresh⟩, begun.expected _ _ _ _ only⟩

theorem prfleInstConsent_watched {transactionId : List UInt8} (begun : SessionBegun transactionId seen)
    {bpp : BoundProfilePackage} (watched : Watched { seen with package := some bpp } t) (ctx : IpaContext)
    (ac : ActivationCode) (res : AuthClntRes) (named : res.transactionId = some transactionId) :
    Ends (fun _ t' => ∃ seen, Finished asn1c seen t') (fun _ t' => ∃ seen, Crashed asn1c seen t')
      (prfleInstConsent ctx ac >>= fun consent =>
        if consent = false then cancelAuthClnt res .endUserRejection >>= fun _ => pure ctx
        else instPrfle asn1c ctx res bpp) t := by
  unfold prfleInstConsent
  split
  · rw [ends_bind]
    refine (ends_request _ _ _).mpr fun consent => ?_
    have asked := watched.cons
      ⟨.prfleInstConsent (ac.smDpPlusAddress.getD []) (ac.acToken.getD []), consent⟩ trivial
    cases consent with
    | false =>
        apply (cancelAuthClnt_watched asked begun.fresh res named _).bind
        exact fun _ t watched => begun.cancelled (fun _ _ refused => by cases refused) watched
    | true =>
        have same : { seen with package := some bpp, refused := false } = { seen with package := some bpp } := by
          rw [← begun.consented]
        exact instPrfle_watched begun (same ▸ asked) ctx res named
  · exact instPrfle_watched begun watched ctx res named

theorem dwnldPrfle_watched {transactionId : List UInt8} (begun : SessionBegun transactionId seen) (ctx : IpaContext)
    (ac : ActivationCode) (res : AuthClntRes) {ok : AuthenticateClientOkDpe} (smdp : res.authClntOkDpe = some ok)
    (named : res.transactionId = some transactionId)
    (watched : Watched { seen with unsigned := !ok.smdpSignature2.buffered } t) :
    Ends (fun _ t' => ∃ seen, Finished asn1c seen t') (fun _ t' => ∃ seen, Crashed asn1c seen t')
      (dwnldPrfle asn1c ctx ac res) t := by
  have single : seen.cancelled.length ≤ 1 := by rw [begun.fresh]; exact Nat.zero_le 1
  have failed {t : Trace} (watched : Watched seen t) :
      Ends (fun _ t' => ∃ seen, Finished asn1c seen t') (fun _ t' => ∃ seen, Crashed asn1c seen t')
        (cancelAuthClnt res .loadBppExecutionError >>= fun _ => (pure ctx : ProcM IpaContext)) t := by
    apply (cancelAuthClnt_watched watched begun.fresh res named _).bind
    exact fun _ t watched => begun.cancelled begun.unpackaged watched
  rw [dwnldPrfle, smdp, ipaProcPrfleDwnlod]
  cases signature : ok.smdpSignature2 with
  | unbuffered =>
      rw [signature] at watched
      exact ⟨_, watched, single, fun _ _ expected => Bool.noConfusion expected.unsigned⟩
  | octets bytes =>
      have same : { seen with unsigned := false } = seen := by rw [← begun.unsigned]
      rw [signature] at watched
      replace watched : Watched seen t := same ▸ watched
      show Ends _ _ (((send (Req.prepareDownload (prepDwnldReq ok))) >>= _) >>= _) t
      rw [ends_bind, ends_bind]
      refine (send_watched watched single (.prepareDownload (prepDwnldReq ok)) trivial id).imp fun ans t prepared => ?_
      cases ans with
      | none => exact failed prepared
      | some prepDwnldRes =>
          simp only [ipaEsipaGetBndPrflePkg]
          split
          · exact failed prepared
          next req _ =>
            rw [ends_bind]
            refine (ends_send (.getBoundProfilePackage req) _ _).mpr ⟨fun ans => ?_, ?_, ?_⟩
            · have answered := (prepared.encode (.getBoundProfilePackage req) id .encoded Encoding.noConfusion).cons
                ⟨.getBoundProfilePackage req, ans⟩ trivial
              rcases ans with _ | (bpp | code | _)
              · exact failed answered
              · exact prfleInstConsent_watched begun answered ctx ac res named
              · exact failed answered
              · exact failed answered
            · exact failed (prepared.encode _ id .refused Encoding.noConfusion)
            · exact prepared.crashed _ id single

theorem ipaProcIndirectPrfleDwnlod_watched (watched : Watched .nothing t) (ctx : IpaContext) (ac : List UInt8)
    (allowedCa : Option (List UInt8)) :
    Ends (fun _ t' => ∃ seen, Finished asn1c seen t') (fun _ t' => ∃ seen, Crashed asn1c seen t')
      (ipaProcIndirectPrfleDwnlod asn1c ctx ac allowedCa) t := by
  have unopened {t : Trace} (watched : Watched .nothing t) : ∃ seen, Finished asn1c seen t :=
    ⟨.nothing, watched, Nat.zero_le 1, fun _ opened => by cases opened⟩
  unfold ipaProcIndirectPrfleDwnlod
  split
  · exact unopened watched
  apply (ipaProcCmnMtlAuth_watched watched _).bind
  intro out t ended
  cases ended with
  | unopened t watched => exact unopened watched
  | authenticated transactionId seen begun out t authenticated =>
      cases authenticated with
      | cancelled t watched => exact begun.cancelled begun.unpackaged watched
      | smdp res ok found named t watched =>
          apply (dwnldPrfle_watched begun ctx _ res found named watched).bind
          exact fun _ _ finished => finished
      | smds res found t watched =>
          simp only [dwnldPrfle, found, ipaProcPrfleDwnlod]
          refine ⟨_, watched, ?_, fun _ _ expected => Bool.noConfusion expected.smds⟩
          rw [begun.fresh]
          exact Nat.zero_le 1

end

structure SessionsClosed (asn1c : Asn1c) (out : Except Abort (IpaContext × Int)) (t : Trace) : Prop where
  closed : ∀ transactionId, (dwnldSeen t).opened = some transactionId →
    (((∃ ctx rc, out = .ok (ctx, rc)) ∧ (dwnldSeen t).Closed transactionId) ↔ (dwnldSeen t).Expected asn1c)
  cancelledOnce : (dwnldSeen t).cancelled.length ≤ 1
  loads : ∀ later segment ans earlier, t = later ++ ⟨.loadBoundProfilePackage segment, ans⟩ :: earlier →
    (dwnldSeen earlier).cancelled = [] ∧ (dwnldSeen earlier).refused = false

theorem ipaProcIndirectPrfleDwnlod_sessionsClosed {asn1c : Asn1c} {ctx : IpaContext} {ac : List UInt8}
    {allowedCa : Option (List UInt8)} {out : Except Abort (IpaContext × Int)} {t' : Trace}
    (runs : Runs (ipaProcIndirectPrfleDwnlod asn1c ctx ac allowedCa) [] out t') : SessionsClosed asn1c out t' := by
  have fresh : Watched .nothing [] := ⟨rfl, trivial⟩
  have ends := (ipaProcIndirectPrfleDwnlod_watched fresh ctx ac allowedCa).of_runs runs
  have loads {seen : DwnldSeen} (watched : Watched seen t') (later : Trace) (segment : List UInt8)
      (ans : SegmentAnswer) (earlier : Trace)
      (said : t' = later ++ ⟨.loadBoundProfilePackage segment, ans⟩ :: earlier) :
      (dwnldSeen earlier).cancelled = [] ∧ (dwnldSeen earlier).refused = false := by
    subst said
    exact watched.loads.before
  cases out with
  | ok out =>
      obtain ⟨seen, finished⟩ := ends.1 out rfl
      rw [← finished.watched.seen] at finished
      refine ⟨fun transactionId opened => ?_, finished.cancelled, loads finished.watched⟩
      obtain ⟨closed, expected⟩ := finished.closed transactionId opened
      exact iff_of_true ⟨⟨out.1, out.2, rfl⟩, closed⟩ expected
  | error abort =>
      obtain ⟨seen, crashed⟩ := ends.2 abort rfl
      rw [← crashed.watched.seen] at crashed
      refine ⟨fun transactionId opened => ?_, crashed.cancelled, loads crashed.watched⟩
      refine iff_of_false ?_ (crashed.unexpected transactionId opened)
      rintro ⟨⟨_, _, ⟨⟩⟩, -⟩

/-- `1$A$B` -/
def shortCode : List UInt8 := [0x31, 0x24, 0x41, 0x24, 0x42]

theorem smdpAnswer_sessionsClosed :
    let ended := run (replies (plainRun smdpAnswer).known)
      (ipaProcIndirectPrfleDwnlod oneChunk (freshContext false) shortCode none) []
    (dwnldSeen ended.2).opened = some [1] ∧ (dwnldSeen ended.2).cancelled = [[1]] ∧
      SessionsClosed oneChunk ended.1 ended.2 :=
  ⟨rfl, rfl, ipaProcIndirectPrfleDwnlod_sessionsClosed (runs_run (replies (plainRun smdpAnswer).known) _ _)⟩

theorem smds_not_closed : ¬ ∀ ctx ac allowedCa out t',
    Runs (ipaProcIndirectPrfleDwnlod oneChunk ctx ac allowedCa) [] out t' →
    ∀ transactionId, (dwnldSeen t').opened = some transactionId →
      (∃ ctx rc, out = .ok (ctx, rc)) ∧ (dwnldSeen t').Closed transactionId := by
  intro closed
  obtain ⟨⟨ctx, rc, returned⟩, -⟩ := closed (freshContext false) shortCode none _ _
    (runs_run (replies (plainRun (.authenticateClientOkDse ⟨[1]⟩)).known) _ _) [1] rfl
  cases returned

end Ipad.Proc

import Ipad.Lib.Server
import Ipad.Proc.Data

/-!
# Requests to the eUICC and the eIM

What the procedures ask for, one request for each ES10 or ESipa function, and the decoded answers. Some requests
go to nobody: what the encoder makes of a message and how far a transfer reads are answers too, and a mark records
what the procedures do in between.
-/

namespace Ipad.Proc
open Lib.Dialogue Ipad.EimCfg Ipad.Nvstate Ipad.BppSegments Ipad.Utils

/-! ## Requests -/

inductive Purpose where
  | psmo
  | rollback
  | autoEnable

inductive Mark where
  | resetCanaries
  | execute (request : EuiccPackageRequest)
  | onset (result : EuiccPackageResult)
  | prfleRollback
  | enableUsingDd
  | prfleInst (rc : Int)
  | free

inductive Req where
  | getProfilesInfo (purpose : Purpose)
  | enableProfile (purpose : Purpose) (profile : List UInt8)
  | disableProfile (iccid : List UInt8)
  | deleteProfile (iccid : List UInt8)
  | getRat
  | loadEuiccPackage (request : EuiccPackageRequest)
  | profileRollback
  | retrieveNotificationsList (seqNumber : Option Int)
  | retrieveNotifications (searchCriteria : Option SearchCriteria)
  | removeNotificationFromList (seqNumber : Int)
  | loadBoundProfilePackage (segment : List UInt8)
  | enableUsingDd
  | getEimPackage
  | provideEimPackageResult (result : EuiccPackageResult) (notifications : NotificationsListResponse)
  | provideEimPackageOutcome (outcome : EimPackageOutcome)
  | handleNotification (notification : PendingNotification)
  | getEuiccInfo1
  | getEuiccInfo2
  | getEuiccInfo2Sgp32
  | getEuiccChallenge
  | getEuiccConfiguredAddresses
  | getEimConfigurationData
  | getCerts (euiccCiPKId : Option (List UInt8))
  | initiateAuthentication (request : InitiateAuthenticationRequest)
  | authenticateServer (request : AuthenticateServerRequest)
  | authenticateClient (request : AuthenticateClientRequest)
  | prepareDownload (request : PrepareDownloadRequest)
  | getBoundProfilePackage (request : GetBoundProfilePackageRequest)
  | prfleInstConsent (smDpPlusAddress acToken : List UInt8)
  | cancelSession (transactionId : List UInt8) (reason : CancelSessionReason)
  | cancelSessionEsipa (transactionId : List UInt8) (response : ForwardedCancelResponse)
  | encode (req : Req)
  | overrun (segment : List UInt8)
  | canaries
  | uninitialised
  | mark (mark : Mark)

/-- Without an answer: the request was not answered, or the answer was not decoded. Some answers are pieces of
memory: the two flags, and an integer that nobody has set. -/
abbrev Ans : Req → Type
  | .getProfilesInfo _ => Option ProfileInfoListResponse
  | .enableProfile _ _ => Option Int
  | .disableProfile _ => Option Int
  | .deleteProfile _ => Option Int
  | .getRat => Option (List ProfilePolicyAuthorisationRule)
  | .loadEuiccPackage _ => Option EuiccPackageResult
  | .profileRollback => Option ProfileRollbackResponse
  | .retrieveNotificationsList _ => Option NotificationsListResponse
  | .retrieveNotifications _ => Option NotificationsListResponse
  | .removeNotificationFromList _ => Option Int
  | .loadBoundProfilePackage _ => SegmentAnswer
  | .enableUsingDd => Option Int
  | .getEimPackage => Option GetEimPackageResponse
  -- the acknowledgements are optional
  | .provideEimPackageResult _ _ => Option (Option (List Int))
  | .provideEimPackageOutcome _ => Option (Option (List Int))
  -- the length of the response
  | .handleNotification _ => Option Nat
  | .getEuiccInfo1 => Option EuiccInfo1
  | .getEuiccInfo2 => Option EuiccInfo2
  | .getEuiccInfo2Sgp32 => Option Sgp32EuiccInfo2
  | .getEuiccChallenge => Option (List UInt8)
  | .getEuiccConfiguredAddresses => Option EuiccConfiguredAddresses
  | .getEimConfigurationData => Option (List EimConfigurationData)
  | .getCerts _ => Option GetCertsResponse
  | .initiateAuthentication _ => Option InitiateAuthenticationResponse
  | .authenticateServer _ => Option AuthenticateServerResponse
  | .authenticateClient _ => Option AuthenticateClientResponse
  | .prepareDownload _ => Option PrepareDownloadResponse
  | .getBoundProfilePackage _ => Option GetBoundProfilePackageResponse
  | .prfleInstConsent _ _ => Bool
  | .cancelSession _ _ => Option CancelSessionResponse
  | .cancelSessionEsipa _ _ => Option CancelSessionResponseEsipa
  | .encode _ => Encoding
  -- whether the eUICC takes all blocks up to the end of the buffer, where the segment goes on
  | .overrun _ => Bool
  | .canaries => Bool × Bool
  | .uninitialised => Int
  | .mark _ => Unit

/-- The answers where nobody answers. -/
def Req.silence : (req : Req) → Ans req
  | .getProfilesInfo _ => none
  | .enableProfile _ _ => none
  | .disableProfile _ => none
  | .deleteProfile _ => none
  | .getRat => none
  | .loadEuiccPackage _ => none
  | .profileRollback => none
  | .retrieveNotificationsList _ => none
  | .retrieveNotifications _ => none
  | .removeNotificationFromList _ => none
  | .loadBoundProfilePackage _ => .noResponse
  | .enableUsingDd => none
  | .getEimPackage => none
  | .provideEimPackageResult _ _ => none
  | .provideEimPackageOutcome _ => none
  | .handleNotification _ => none
  | .getEuiccInfo1 => none
  | .getEuiccInfo2 => none
  | .getEuiccInfo2Sgp32 => none
  | .getEuiccChallenge => none
  | .getEuiccConfiguredAddresses => none
  | .getEimConfigurationData => none
  | .getCerts _ => none
  | .initiateAuthentication _ => none
  | .authenticateServer _ => none
  | .authenticateClient _ => none
  | .prepareDownload _ => none
  | .getBoundProfilePackage _ => none
  | .prfleInstConsent _ _ => false
  | .cancelSession _ _ => none
  | .cancelSessionEsipa _ _ => none
  | .encode _ => .encoded
  | .overrun _ => false
  | .canaries => (false, false)
  | .uninitialised => 0
  | .mark _ => ()

inductive Abort where
  | fault (f : Fault)
  | executionPending

abbrev Trace := List (Event Req Ans)
abbrev ProcM := Program Req Ans Abort

def replies (known : (req : Req) → Option (Ans req)) (_ : Trace) (req : Req) : Ans req :=
  (known req).getD req.silence

/-- A message with strings that were received is encoded first. What cannot be encoded is not sent, and a string
without a buffer ends the program. -/
def send (req : Req) : ProcM (Ans req) := do
  match ← request (Req.encode req) with
  | .encoded => request req
  | .refused => return req.silence
  | .aborted => stop (.fault .assertion)

@[simp] theorem ends_send {E : Abort → Trace → Prop} (req : Req) (Q : Ans req → Trace → Prop) (t : Trace) :
    Ends (α := no_index (Ans req)) Q E (send req) t ↔
      (∀ ans, Q ans (⟨req, ans⟩ :: ⟨.encode req, .encoded⟩ :: t)) ∧
      Q req.silence (⟨.encode req, .refused⟩ :: t) ∧ E (.fault .assertion) (⟨.encode req, .aborted⟩ :: t) := by
  constructor
  · exact fun ends => ⟨ends .encoded, ends .refused, ends .aborted⟩
  · rintro ⟨sent, refused, aborted⟩ outcome
    cases outcome with
    | encoded => exact sent
    | refused => exact refused
    | aborted => exact aborted

theorem asks_send {P : Req → Prop} {F : Abort → Prop} (req : Req) (encodes : P (.encode req)) (sends : P req)
    (stops : F (.fault .assertion)) : Asks P F (send req) := by
  refine ⟨encodes, fun outcome => ?_⟩
  cases outcome with
  | encoded => exact (asks_request req).mpr sends
  | refused => trivial
  | aborted => exact stops

/-- What is said where a message is sent, and what comes of it. -/
inductive Sends (req : Req) : Except Abort (Ans req) → Trace → Prop where
  | answered (ans : Ans req) : Sends req (.ok ans) [⟨req, ans⟩, ⟨.encode req, .encoded⟩]
  | refused : Sends req (.ok req.silence) [⟨.encode req, .refused⟩]
  | aborted : Sends req (.error (.fault .assertion)) [⟨.encode req, .aborted⟩]

theorem send_sends (req : Req) (t : Trace) :
    Ends (fun ans t' => ∃ events, Sends req (.ok ans) events ∧ t' = events ++ t)
      (fun abort t' => ∃ events, Sends req (.error abort) events ∧ t' = events ++ t) (send req) t :=
  (ends_send req _ t).mpr ⟨fun ans => ⟨_, .answered ans, rfl⟩, ⟨_, .refused, rfl⟩, _, .aborted, rfl⟩

theorem Sends.adds {P : Req → Prop} {req : Req} {outcome : Except Abort (Ans req)} {events : Trace}
    (sends : Sends req outcome events) (encodes : P (.encode req)) (allowed : P req) (t : Trace) :
    Adds P t (events ++ t) := by
  refine ⟨events, rfl, ?_⟩
  cases sends with
  | answered => exact List.forall_mem_cons.mpr ⟨allowed, List.forall_mem_singleton.mpr encodes⟩
  | refused => exact List.forall_mem_singleton.mpr encodes
  | aborted => exact List.forall_mem_singleton.mpr encodes

theorem sends_cases {req : Req} {outcome : Except Abort (Ans req)} {events : Trace} (sends : Sends req outcome events) :
    (∃ ans, outcome = .ok ans ∧ events = [⟨req, ans⟩, ⟨.encode req, .encoded⟩]) ∨
      (outcome = .ok req.silence ∧ events = [⟨.encode req, .refused⟩]) ∨
      (outcome = .error (.fault .assertion) ∧ events = [⟨.encode req, .aborted⟩]) := by
  cases sends with
  | answered ans => exact .inl ⟨ans, rfl, rfl⟩
  | refused => exact .inr (.inl ⟨rfl, rfl⟩)
  | aborted => exact .inr (.inr ⟨rfl, rfl⟩)

theorem arrives_send {σ : Type} {server : Server σ Req Ans} {s s' : σ} {req : Req} {ans : Ans req}
    (encodes : server s (.encode req) = some (s, .encoded)) (answers : server s req = some (s', ans)) :
    Arrives server (send req) s (.ok ans) s' :=
  (arrives_request encodes).bind (arrives_request answers)

def mark (m : Mark) : ProcM Unit := request (Req.mark m)

@[simp] theorem ends_mark {Q : Unit → Trace → Prop} {E : Abort → Trace → Prop} (m : Mark) (t : Trace) :
    Ends Q E (mark m) t ↔ Q () (⟨Req.mark m, ()⟩ :: t) :=
  ⟨fun ends => ends (), fun ends _ => ends⟩

def ofExcept {α : Type} : Except Fault α → ProcM α
  | .ok a => pure a
  | .error f => stop (.fault f)

/-! ## The context -/

structure LoadEuiccPkgRes where
  res : EuiccPackageResult
  profileChanged : Bool
  rollbackAllowed : Bool

structure DwnldExecRes where
  loadEuiccPkgRes : LoadEuiccPkgRes
  prfleRollbackRes : Option ProfileRollbackResponse
  callOnset : Bool

structure IpaConfig where
  tac : List UInt8
  prfleInstConsentCb : Bool

structure IpaContext where
  cfg : IpaConfig
  iotEuiccEmuEnabled : Bool
  eimId : List UInt8
  emu : EmuCtx
  rollbackIccid : Option (List UInt8)
  procEuccPkgDwnldExecRes : Option DwnldExecRes

def IpaContext.fresh (iotEuiccEmuEnabled : Bool) (eimId : List UInt8) (nvstate : IpaNvstate) (cfg : IpaConfig) :
    IpaContext where
  cfg
  iotEuiccEmuEnabled
  eimId
  emu := { nvstate, session := .cleared }
  rollbackIccid := none
  procEuccPkgDwnldExecRes := none

end Ipad.Proc

import Ipad.Proc.Main

/-!
# The peers of the poll loop

An eIM with a queue of packages, and an eUICC whose connectivity hangs on its profiles.
-/

namespace Ipad.Proc
open Lib.Dialogue Ipad.EimCfg Ipad.Nvstate Ipad.BppSegments Ipad.Utils

/-! ## The world around the IPAd -/

structure Effect (ν : Type) where
  state : ν
  /-- how many notifications it raises -/
  raised : Nat

/-- `notifications` and `results` are the sequence numbers that the eUICC keeps. -/
structure World (ν : Type) where
  state : ν
  nextSeqNumber : Nat
  notifications : List Nat
  results : List Nat
  lastResult : Option EuiccPackageResultSigned
  queue : List EuiccPackageRequest
  received : List EuiccPackageResult
  handled : List PendingNotification
  checkHttp : Bool

section
variable {ν : Type}

def World.flag (w : World ν) (checkHttp : Bool) : World ν := { w with checkHttp }

@[simp] theorem World.flag_state (w : World ν) (checkHttp : Bool) : (w.flag checkHttp).state = w.state := rfl

def World.keep (w : World ν) (results : List Nat) : World ν := { w with results }

def World.perform (w : World ν) (effect : Effect ν) : World ν :=
  { w with
    state := effect.state
    nextSeqNumber := w.nextSeqNumber + effect.raised
    notifications := w.notifications ++ List.range' w.nextSeqNumber effect.raised }

theorem World.perform_perform (w : World ν) (first second : Effect ν) :
    (w.perform first).perform second = w.perform ⟨second.state, first.raised + second.raised⟩ := by
  simp [World.perform, Nat.add_assoc, List.range'_append_1]

theorem World.perform_none (w : World ν) : w.perform ⟨w.state, 0⟩ = w := by
  simp [World.perform]

def signedResult (eimId : List UInt8) (seqNumber : Nat) (req : EuiccPackageRequest)
    (euiccResult : List EuiccResultData) : EuiccPackageResultSigned where
  eimId
  counterValue := req.counterValue
  transactionId := req.transactionId.map OctetString.bytes
  seqNumber
  euiccResult

def EuiccPackageResultSigned.rolledBack (result : EuiccPackageResultSigned) : EuiccPackageResultSigned :=
  { result with euiccResult := result.euiccResult ++ [.rollbackResult resultOk] }

def numbered (seqNumber : Nat) : PendingNotification := .otherSignedNotification seqNumber

def World.removed (w : World ν) : (seqNumber : Int) → World ν × Int
  | .ofNat n =>
      if n ∈ w.results then ({ w with results := w.results.erase n }, 0)
      else if n ∈ w.notifications then ({ w with notifications := w.notifications.erase n }, 0)
      else (w, 1)
  | .negSucc _ => (w, 1)

def World.retrieved (w : World ν) : (seqNumber : Int) → NotificationsListResponse
  | .ofNat n =>
      if n ∈ w.results then .otherList
      else .notificationList (if n ∈ w.notifications then [numbered n] else [])
  | .negSucc _ => .notificationList []

def EuiccPackageResult.answers (result : EuiccPackageResult) (req : EuiccPackageRequest) : Bool :=
  match result with
  | .euiccPackageResultSigned signed =>
      signed.counterValue = req.counterValue ∧ signed.transactionId = req.transactionId.map OctetString.bytes
  | _ => false

/-- The package that is answered leaves the queue. -/
def World.deliver (w : World ν) (result : EuiccPackageResult) : World ν :=
  { w with
    queue := match w.queue with
      | [] => []
      | req :: queue => if result.answers req then queue else req :: queue
    received := w.received ++ [result] }

/-! ## Messages that can be encoded -/

def EuiccPackageRequest.buffered (req : EuiccPackageRequest) : Bool := req.transactionId.all OctetString.buffered

def EuiccResultData.encodable : EuiccResultData → Bool
  | .listProfileInfoResult res => res.encoding = .encoded
  | .getRatResult rat => rat.all ProfilePolicyAuthorisationRule.buffered
  | .nothing => false
  | _ => true

def EuiccPackageResult.encodable : EuiccPackageResult → Bool
  | .euiccPackageResultSigned signed => signed.euiccResult.all EuiccResultData.encodable
  | .nothing => false
  | _ => true

/-- The strings that the model does not follow have buffers. -/
def Req.encoding : Req → Encoding
  | .loadEuiccPackage req => .ofBuffered req.buffered
  | .provideEimPackageResult result _ => if result.encodable then .encoded else .refused
  | _ => .encoded

/-- The requests to the eIM, and those about notifications. The others are for `euicc`. -/
def serveWith (reach : ν → Bool) (euicc : Server (World ν) Req Ans) (w : World ν) :
    (req : Req) → Option (World ν × Ans req)
  | .mark .resetCanaries => some (w.flag false, ())
  | .mark _ => some (w, ())
  | .encode req => some (w, req.encoding)
  | .canaries => some (w, (w.checkHttp, false))
  | .retrieveNotificationsList none =>
      some (w, some (.notificationList (w.notifications.map numbered)))
  | .retrieveNotificationsList (some seqNumber) => some (w, some (w.retrieved seqNumber))
  | .removeNotificationFromList seqNumber => some ((w.removed seqNumber).1, some (w.removed seqNumber).2)
  | .getEimPackage =>
      if reach w.state then
        match w.queue with
        | [] => some (w, some (.eimPackageError noEimPackageAvailable))
        | req :: _ => some (w, some (.euiccPackageRequest req))
      else some (w.flag true, none)
  | .provideEimPackageResult result _ =>
      if reach w.state then some (w.deliver result, some (some [result.seqNumberField]))
      else some (w.flag true, none)
  | .handleNotification notification =>
      if reach w.state then some ({ w with handled := w.handled ++ [notification] }, some 0)
      else some (w.flag true, none)
  | req => euicc w req

/-! ## What a queue of packages comes to -/

structure Device (ν : Type) where
  execute : ν → EuiccPackageRequest → Effect ν × List EuiccResultData
  rollback : ν → Option (Effect ν)
  online : ν → Bool
  encodable : ∀ s req, (execute s req).2.all EuiccResultData.encodable = true
  steady : ∀ s req, (execute s req).2.any EuiccResultData.changesProfile = false →
    online (execute s req).1.state = online s

/-- A package that takes the device out of reach is rolled back, where that is allowed and of any use. -/
def Device.attempt (device : Device ν) (s : ν) (req : EuiccPackageRequest) : Option (Effect ν × List EuiccResultData) :=
  let (effect, results) := device.execute s req
  if device.online effect.state then some (effect, results)
  else if checkForRollbackFlag req then
    (device.rollback effect.state).bind fun back =>
      if device.online back.state then
        some (⟨back.state, effect.raised + back.raised⟩, results ++ [.rollbackResult resultOk])
      else none
  else none

theorem Device.attempt_eq_some {device : Device ν} {s : ν} {req : EuiccPackageRequest} {effect : Effect ν}
    {results : List EuiccResultData} (attempted : device.attempt s req = some (effect, results)) :
    (device.online (device.execute s req).1.state = true ∧ effect = (device.execute s req).1 ∧
      results = (device.execute s req).2) ∨
    ∃ back, device.online (device.execute s req).1.state = false ∧ checkForRollbackFlag req = true ∧
      device.rollback (device.execute s req).1.state = some back ∧ device.online back.state = true ∧
      effect = ⟨back.state, (device.execute s req).1.raised + back.raised⟩ ∧
      results = (device.execute s req).2 ++ [.rollbackResult resultOk] := by
  rw [Device.attempt] at attempted
  by_cases reached : device.online (device.execute s req).1.state = true
  · simp only [reached, if_true, Option.some.injEq, Prod.ext_iff] at attempted
    exact .inl ⟨reached, attempted.1.symm, attempted.2.symm⟩
  · simp only [reached] at attempted
    by_cases allowed : checkForRollbackFlag req = true
    · simp only [allowed, if_true] at attempted
      obtain ⟨back, rolls, online⟩ := Option.bind_eq_some_iff.mp attempted
      by_cases again : device.online back.state = true
      · simp only [again, if_true, Option.some.injEq, Prod.ext_iff] at online
        exact .inr ⟨back, by simpa using reached, allowed, rolls, again, online.1.symm, online.2.symm⟩
      · simp only [again] at online
        cases online
    · simp only [allowed] at attempted
      cases attempted

theorem Device.attempt_eq_none {device : Device ν} {s : ν} {req : EuiccPackageRequest}
    (stranded : device.attempt s req = none) :
    device.online (device.execute s req).1.state = false ∧ (checkForRollbackFlag req = true → ∀ back,
      device.rollback (device.execute s req).1.state = some back → device.online back.state = false) := by
  rw [Device.attempt] at stranded
  by_cases reached : device.online (device.execute s req).1.state = true
  · simp only [reached, if_true] at stranded
    cases stranded
  · refine ⟨by simpa using reached, fun allowed back rolls => ?_⟩
    simp only [reached, allowed, if_true, rolls, Option.bind_some] at stranded
    by_cases again : device.online back.state = true
    · simp only [again, if_true] at stranded
      cases stranded
    · simpa using again

structure Done (ν : Type) where
  req : EuiccPackageRequest
  effect : Effect ν
  results : List EuiccResultData

/-- The packages up to the first one that leaves the device out of reach, and the others. -/
def Device.settle (device : Device ν) (s : ν) : List EuiccPackageRequest → List (Done ν) × List EuiccPackageRequest
  | [] => ([], [])
  | req :: queue =>
      match device.attempt s req with
      | none => ([], req :: queue)
      | some (effect, results) =>
          let (done, left) := device.settle effect.state queue
          (⟨req, effect, results⟩ :: done, left)

/-! ## Notifications -/

section
variable {reach : ν → Bool} {euicc : Server (World ν) Req Ans} {w : World ν}

/-- The numbers of the notifications are not those of results. An emulated result has the number 0. -/
structure World.Sound (emulated : Bool) (w : World ν) : Prop where
  apart : ∀ n ∈ w.notifications, n ∉ w.results
  results : ∀ n ∈ w.results, n < w.nextSeqNumber
  positive : emulated = true → 0 ∉ w.notifications ∧ 0 ∉ w.results ∧ 0 < w.nextSeqNumber

def World.cleared (w : World ν) : World ν :=
  { w with
    notifications := []
    handled := w.handled ++ w.notifications.map numbered
    checkHttp := false }

theorem World.removed_notification {n : Nat} {rest : List Nat} (first : w.notifications = n :: rest)
    (apart : n ∉ w.results) : w.removed n = ({ w with notifications := rest }, 0) := by
  change World.removed w (.ofNat n) = _
  simp [World.removed, first, apart]

theorem World.removed_result {n : Nat} {rest : List Nat} (first : w.results = n :: rest) :
    w.removed n = (w.keep rest, 0) := by
  change World.removed w (.ofNat n) = _
  simp [World.removed, first, World.keep]

theorem World.removed_unknown {n : Nat} (noResult : n ∉ w.results) (noNotification : n ∉ w.notifications) :
    w.removed n = (w, 1) := by
  change World.removed w (.ofNat n) = _
  simp [World.removed, noResult, noNotification]

theorem serveWith_encode {req : Req} (encodes : req.encoding = .encoded) :
    serveWith reach euicc w (.encode req) = some (w, .encoded) := by
  rw [← encodes]
  rfl

theorem ipaEs10bRmNotifFromLst_arrives (seqNumber : Int) :
    Arrives (serveWith reach euicc) (ipaEs10bRmNotifFromLst seqNumber) w (.ok 0) (w.removed seqNumber).1 := by
  have answers : serveWith reach euicc w (.removeNotificationFromList seqNumber) =
      some ((w.removed seqNumber).1, some (w.removed seqNumber).2) := rfl
  have status : deleteNotificationStatusRc (some (w.removed seqNumber).2) = 0 := by
    unfold World.removed
    split
    · split
      · rfl
      · split <;> rfl
    · rfl
  rw [← status]
  exact (arrives_request answers).bind (arrives_pure _ _ _)

theorem ipaEsipaHandleNotif_arrives (online : reach w.state) (notification : PendingNotification) :
    Arrives (serveWith reach euicc) (ipaEsipaHandleNotif notification) w (.ok 0)
      { w with handled := w.handled ++ [notification] } := by
  have answers : serveWith reach euicc w (.handleNotification notification) =
      some ({ w with handled := w.handled ++ [notification] }, some 0) := if_pos online
  exact (arrives_send (serveWith_encode rfl) answers).bind (arrives_pure _ _ _)

/-- Every notification is sent and removed, one after the other. -/
theorem deliverNotifications_arrives (list : List Nat) (online : reach w.state) (whole : w.notifications = list)
    (apart : ∀ n ∈ list, n ∉ w.results) :
    Arrives (serveWith reach euicc) (deliverNotifications (list.map numbered)) w (.ok ())
      { w with
        notifications := []
        handled := w.handled ++ list.map numbered } := by
  induction list generalizing w with
  | nil =>
      rw [List.map_nil, List.append_nil, ← whole]
      exact arrives_pure _ _ _
  | cons n list ih =>
      obtain ⟨first, others⟩ := List.forall_mem_cons.mp apart
      apply (ipaEsipaHandleNotif_arrives online _).bind
      apply (ipaEs10bRmNotifFromLst_arrives _).bind
      have removed : World.removed { w with handled := w.handled ++ [numbered n] } n =
          ({ w with notifications := list, handled := w.handled ++ [numbered n] }, 0) :=
        World.removed_notification whole first
      have later := @ih { w with notifications := list, handled := w.handled ++ [numbered n] } online rfl others
      rw [removed]
      simpa only [List.append_assoc, List.singleton_append, List.map_cons] using later

theorem filter_numbered (list : List Nat) :
    ((list.map numbered).filter fun item => !item.isEmpty) = list.map numbered := by
  rw [List.filter_eq_self]
  intro item mem
  obtain ⟨n, -, rfl⟩ := List.mem_map.mp mem
  rfl

/-- With and without the emulation a list of notifications is taken as it is. -/
theorem ipaEs10bRetrNotifFromLst_arrives (ctx : IpaContext) {seqNumber : Option Int} {list : List Nat}
    (answers : serveWith reach euicc w (.retrieveNotificationsList seqNumber) =
      some (w, some (.notificationList (list.map numbered)))) :
    ∃ res, Arrives (serveWith reach euicc) (ipaEs10bRetrNotifFromLst ctx seqNumber) w (.ok res) w ∧
      RetrNotifFromLstRes.usable res = some (.notificationList (list.map numbered)) ∧
      ipaEs10bRetrNotifFromLstResFree res = .ok () := by
  refine ⟨_, (arrives_request answers).bind (arrives_pure _ _ _), ?_⟩
  cases ctx.iotEuiccEmuEnabled with
  | false => exact ⟨rfl, rfl⟩
  | true =>
      refine ⟨?_, rfl⟩
      change some (NotificationsListResponse.notificationList _) = _
      rw [filter_numbered]

theorem ipaNotifDelivery_arrives {emulated : Bool} (ctx : IpaContext) (sound : w.Sound emulated)
    (online : reach w.state) :
    Arrives (serveWith reach euicc) (ipaNotifDelivery ctx) w (.ok 0)
      { w with
        notifications := []
        handled := w.handled ++ w.notifications.map numbered } := by
  have answers : serveWith reach euicc w (.retrieveNotificationsList none) =
      some (w, some (.notificationList (w.notifications.map numbered))) := rfl
  obtain ⟨res, retrieved, usable, freed⟩ := ipaEs10bRetrNotifFromLst_arrives ctx answers
  apply retrieved.bind
  rw [usable, freed]
  apply Arrives.bind
  · exact (deliverNotifications_arrives w.notifications online rfl sound.apart).bind (arrives_pure _ _ _)
  · exact arrives_pure _ _ _

/-! ## The onset -/

/-- The execution of a package whose result the eUICC keeps, or does not know. -/
structure Awaited (emulated : Bool) (w : World ν) (rest : List Nat) (signed : EuiccPackageResultSigned)
    (res : DwnldExecRes) : Prop where
  result : res.loadEuiccPkgRes.res = .euiccPackageResultSigned signed
  number : ∃ n : Nat, signed.seqNumber = n ∧ n ∉ rest ∧ n ∉ w.notifications ∧
    (emulated = false ∧ w.results = n :: rest ∨ w.results = rest)

section
variable {emulated : Bool} {ctx : IpaContext} (mode : ctx.iotEuiccEmuEnabled = emulated) {rest : List Nat}
  {signed : EuiccPackageResultSigned} {res : DwnldExecRes} (awaited : Awaited emulated w rest signed res)
include mode awaited

theorem Awaited.retrieved :
    ∃ retr notifications, Arrives (serveWith reach euicc)
        (ipaEs10bRetrNotifFromLst ctx (some res.loadEuiccPkgRes.res.seqNumberField)) w (.ok retr) w ∧
      RetrNotifFromLstRes.usable retr = some notifications ∧ ipaEs10bRetrNotifFromLstResFree retr = .ok () := by
  obtain ⟨result, n, number, notRest, notNotification, kept⟩ := awaited
  have answers : serveWith reach euicc w (.retrieveNotificationsList (some res.loadEuiccPkgRes.res.seqNumberField)) =
      some (w, some (w.retrieved (.ofNat n))) := by
    rw [result, EuiccPackageResult.seqNumberField, number]
    rfl
  obtain ⟨rfl, kept⟩ | unknown := kept
  · have found : w.retrieved (.ofNat n) = .otherList := by
      simp [World.retrieved, kept]
    rw [found] at answers
    refine ⟨_, .otherList, (arrives_request answers).bind (arrives_pure _ _ _), ?_⟩
    rw [mode]
    exact ⟨rfl, rfl⟩
  · have found : w.retrieved (.ofNat n) = .notificationList (([] : List Nat).map numbered) := by
      simp [World.retrieved, unknown, notRest, notNotification]
    rw [found] at answers
    obtain ⟨retr, arrives, usable⟩ := ipaEs10bRetrNotifFromLst_arrives ctx answers
    exact ⟨retr, _, arrives, usable⟩

variable (encodes : res.delivered.encodable = true)
include encodes

theorem ipaProcEuccPkgDwnldExecOnset_arrives (online : reach w.state)
    (same : res.delivered.seqNumberField = signed.seqNumber) :
    Arrives (serveWith reach euicc) (ipaProcEuccPkgDwnldExecOnset ctx res) w (.ok (0, { res with callOnset := false }))
      ((w.deliver res.delivered).keep rest) := by
  obtain ⟨retr, notifications, retrieved, usable, freed⟩ := @Awaited.retrieved _ reach euicc _ _ _ mode _ _ _ awaited
  obtain ⟨result, n, number, notRest, notNotification, kept⟩ := awaited
  have field : res.loadEuiccPkgRes.res.seqNumberField = n := by
    rw [result, ← number]
    rfl
  have provides : serveWith reach euicc w (.provideEimPackageResult res.delivered notifications) =
      some (w.deliver res.delivered, some (some [res.delivered.seqNumberField])) := if_pos online
  have marks : serveWith reach euicc w (.mark (.onset res.loadEuiccPkgRes.res)) = some (w, ()) := rfl
  have first : ((w.deliver res.delivered).removed n).1 = (w.deliver res.delivered).keep rest := by
    obtain ⟨-, whole⟩ | unknown := kept
    · rw [World.removed_result (show (w.deliver res.delivered).results = n :: rest from whole)]
    · have none : n ∉ (w.deliver res.delivered).results := by
        change n ∉ w.results
        rwa [unknown]
      rw [World.removed_unknown none notNotification, ← unknown]
      rfl
  have again : ((w.deliver res.delivered).keep rest).removed n = ((w.deliver res.delivered).keep rest, 1) :=
    World.removed_unknown notRest notNotification
  have encoded : (Req.provideEimPackageResult res.delivered notifications).encoding = .encoded := if_pos encodes
  apply (arrives_request marks).bind
  apply retrieved.bind
  simp only [onsetNotified, usable, freed]
  apply Arrives.bind ?_ (arrives_pure _ _ _)
  apply (arrives_send (serveWith_encode encoded) provides).bind
  rw [same, number]
  apply (ipaEs10bRmNotifFromLst_arrives _).bind
  simp only [field, first, Int.lt_irrefl, if_false]
  have removes : Arrives (serveWith reach euicc) (removeNotifications [n]) ((w.deliver res.delivered).keep rest) (.ok 0)
      ((w.deliver res.delivered).keep rest) := by
    have unchanged := @ipaEs10bRmNotifFromLst_arrives _ reach euicc ((w.deliver res.delivered).keep rest) n
    rw [again] at unchanged
    exact unchanged.bind (arrives_pure _ _ _)
  exact removes.bind (arrives_pure _ _ _)

variable (offline : reach w.state = false)
include offline

theorem ipaProcEuccPkgDwnldExecOnset_unanswered {out : Int × DwnldExecRes} {w' : World ν}
    (unanswered : Arrives (serveWith reach euicc) (onsetUnanswered ctx { res with callOnset := false })
      (w.flag true) (.ok out) w') :
    Arrives (serveWith reach euicc) (ipaProcEuccPkgDwnldExecOnset ctx res) w (.ok out) w' := by
  obtain ⟨retr, notifications, retrieved, usable, freed⟩ := @Awaited.retrieved _ reach euicc _ _ _ mode _ _ _ awaited
  have provides : serveWith reach euicc w (.provideEimPackageResult res.delivered notifications) =
      some (w.flag true, none) := if_neg (Bool.not_eq_true _ ▸ offline)
  have marks : serveWith reach euicc w (.mark (.onset res.loadEuiccPkgRes.res)) = some (w, ()) := rfl
  have encoded : (Req.provideEimPackageResult res.delivered notifications).encoding = .encoded := if_pos encodes
  apply (arrives_request marks).bind
  apply retrieved.bind
  simp only [onsetNotified, usable, freed]
  exact ((arrives_send (serveWith_encode encoded) provides).bind unanswered).bind (arrives_pure _ _ _)

variable (changed : res.loadEuiccPkgRes.profileChanged = true)
include changed

theorem ipaProcEuccPkgDwnldExecOnset_fails
    (hopeless : res.loadEuiccPkgRes.rollbackAllowed = true → res.prfleRollbackRes = none →
      ∃ ans, Arrives (serveWith reach euicc) (ipaEs10bPrfleRollback ctx) (w.flag true) (.ok ans) (w.flag true) ∧
        ∀ rollback ∈ ans, rollback.cmdResult ≠ resultOk) :
    ∃ res', Arrives (serveWith reach euicc) (ipaProcEuccPkgDwnldExecOnset ctx res) w (.ok (einval, res'))
      (w.flag true) := by
  by_cases allowed : res.loadEuiccPkgRes.rollbackAllowed = true
  · cases tried : res.prfleRollbackRes with
    | some rollback =>
        refine ⟨{ res with callOnset := false }, ipaProcEuccPkgDwnldExecOnset_unanswered mode awaited encodes offline ?_⟩
        simp only [onsetUnanswered, changed, allowed, tried]
        exact arrives_pure _ _ _
    | none =>
        obtain ⟨ans, rolls, refused⟩ := hopeless allowed tried
        refine ⟨{ res with prfleRollbackRes := ans, callOnset := false },
          ipaProcEuccPkgDwnldExecOnset_unanswered mode awaited encodes offline ?_⟩
        simp only [onsetUnanswered, changed, allowed, tried]
        apply rolls.bind
        cases ans with
        | none => exact arrives_pure _ _ _
        | some rollback =>
            simp only [refused rollback rfl, ne_eq, not_false_iff, if_true]
            exact arrives_pure _ _ _
  · refine ⟨{ res with callOnset := false }, ipaProcEuccPkgDwnldExecOnset_unanswered mode awaited encodes offline ?_⟩
    simp only [onsetUnanswered, changed, allowed]
    exact arrives_pure _ _ _

theorem ipaProcEuccPkgDwnldExecOnset_rollsBack (allowed : res.loadEuiccPkgRes.rollbackAllowed = true)
    (untried : res.prfleRollbackRes = none) {rollback : ProfileRollbackResponse} {w' : World ν}
    (rolls : Arrives (serveWith reach euicc) (ipaEs10bPrfleRollback ctx) (w.flag true) (.ok (some rollback)) w')
    (ok : rollback.cmdResult = resultOk) :
    Arrives (serveWith reach euicc) (ipaProcEuccPkgDwnldExecOnset ctx res) w
      (.ok (0, { res with prfleRollbackRes := some rollback, callOnset := true })) w' := by
  apply ipaProcEuccPkgDwnldExecOnset_unanswered mode awaited encodes offline
  simp only [onsetUnanswered, changed, allowed, untried]
  apply rolls.bind
  simp only [ok, ne_eq, not_true_eq_false, if_false]
  exact arrives_pure _ _ _

end

/-! ## Passes -/

section
variable {codec : EimCfgCodec} {asn1c : Asn1c} {ctx ctx' : IpaContext} {w' w'' : World ν} {running : List Bool}
  {rc : Int} {out : Except Abort LoopEnd}

theorem ipaPoll_onset_finished {pending res : DwnldExecRes} (found : ctx.procEuccPkgDwnldExecRes = some pending)
    (onset : Arrives (serveWith reach euicc) (ipaProcEuccPkgDwnldExecOnset ctx pending) (w.flag false) (.ok (0, res)) w')
    (finished : res.callOnset = false) :
    Arrives (serveWith reach euicc) (ipaPoll codec asn1c ctx) w (.ok (ctx.setExecution none, pollAgain)) w' := by
  have resets : serveWith reach euicc w (.mark .resetCanaries) = some (w.flag false, ()) := rfl
  have frees : serveWith reach euicc w' (.mark .free) = some (w', ()) := rfl
  apply (arrives_request resets).bind
  simp only [found]
  apply onset.bind
  simp only [Int.lt_irrefl, if_false, finished, if_true]
  exact (arrives_request frees).bind (arrives_pure _ _ _)

theorem ipaPoll_onset_again {pending res : DwnldExecRes} (found : ctx.procEuccPkgDwnldExecRes = some pending)
    (onset : Arrives (serveWith reach euicc) (ipaProcEuccPkgDwnldExecOnset ctx pending) (w.flag false) (.ok (0, res)) w')
    (again : res.callOnset = true) :
    Arrives (serveWith reach euicc) (ipaPoll codec asn1c ctx) w
      (.ok (ctx.setExecution (some res), pollAgainWhenOnline)) w' := by
  have resets : serveWith reach euicc w (.mark .resetCanaries) = some (w.flag false, ()) := rfl
  apply (arrives_request resets).bind
  simp only [found]
  apply onset.bind
  simp only [Int.lt_irrefl, if_false, again]
  exact arrives_pure _ _ _

theorem ipaPoll_onset_failed {pending res : DwnldExecRes} (found : ctx.procEuccPkgDwnldExecRes = some pending)
    (onset : Arrives (serveWith reach euicc) (ipaProcEuccPkgDwnldExecOnset ctx pending) (w.flag false)
      (.ok (einval, res)) w') (flagged : w'.checkHttp = true) :
    Arrives (serveWith reach euicc) (ipaPoll codec asn1c ctx) w (.ok (ctx.setExecution none, pollCheckHttp)) w' := by
  have resets : serveWith reach euicc w (.mark .resetCanaries) = some (w.flag false, ()) := rfl
  have frees : serveWith reach euicc w' (.mark .free) = some (w', ()) := rfl
  have canaries : serveWith reach euicc w' .canaries = some (w', (true, false)) := by
    rw [← flagged]
    rfl
  apply (arrives_request resets).bind
  simp only [found]
  apply onset.bind
  simp only [einval_neg, if_true]
  apply (arrives_request frees).bind
  exact ((arrives_request canaries).bind (arrives_pure _ _ _)).bind (arrives_pure _ _ _)

section
variable {emulated : Bool} (idle : ctx.procEuccPkgDwnldExecRes = none) (sound : w.Sound emulated)
  (online : reach w.state)
include idle sound online

theorem ipaPoll_fetch {req : EuiccPackageRequest} {queue : List EuiccPackageRequest} (queued : w.queue = req :: queue)
    (exec : Arrives (serveWith reach euicc) (eimPkgExecEuiccPackage codec ctx req) w.cleared (.ok (ctx', 0)) w') :
    Arrives (serveWith reach euicc) (ipaPoll codec asn1c ctx) w
      (.ok (if ctx'.procEuccPkgDwnldExecRes.isSome then (ctx', pollAgainWhenOnline) else (ctx', pollAgain))) w' := by
  have resets : serveWith reach euicc w (.mark .resetCanaries) = some (w.flag false, ()) := rfl
  have fetches : serveWith reach euicc w.cleared .getEimPackage =
      some (w.cleared, some (.euiccPackageRequest req)) := by
    have reached : reach w.cleared.state := online
    have same : w.cleared.queue = req :: queue := queued
    simp only [serveWith, reached, if_true, same]
  have clears : Arrives (serveWith reach euicc) (ipaNotifDelivery ctx) (w.flag false) (.ok 0) w.cleared :=
    @ipaNotifDelivery_arrives _ reach euicc (w.flag false) emulated ctx ⟨sound.apart, sound.results, sound.positive⟩
      online
  have retrieved : Arrives (serveWith reach euicc) (ipaProcEimPkgRetr codec asn1c ctx) w.cleared (.ok (ctx', 0)) w' := by
    apply (arrives_request fetches).bind
    exact exec
  have available : ¬ (0 : Int) = -noEimPackageAvailable := by decide
  apply (arrives_request resets).bind
  simp only [idle]
  apply clears.bind
  apply retrieved.bind
  simp only [available, Int.lt_irrefl, if_false]
  by_cases pending : ctx'.procEuccPkgDwnldExecRes.isSome
  · simp only [pending, if_true]
    exact arrives_pure _ _ _
  · simp only [pending]
    exact arrives_pure _ _ _

theorem ipaPoll_finished (queued : w.queue = []) :
    Arrives (serveWith reach euicc) (ipaPoll codec asn1c ctx) w (.ok (ctx, pollAgainLater)) w.cleared := by
  have resets : serveWith reach euicc w (.mark .resetCanaries) = some (w.flag false, ()) := rfl
  have fetches : serveWith reach euicc w.cleared .getEimPackage =
      some (w.cleared, some (.eimPackageError noEimPackageAvailable)) := by
    have reached : reach w.cleared.state := online
    have same : w.cleared.queue = [] := queued
    simp only [serveWith, reached, if_true, same]
  have clears : Arrives (serveWith reach euicc) (ipaNotifDelivery ctx) (w.flag false) (.ok 0) w.cleared :=
    @ipaNotifDelivery_arrives _ reach euicc (w.flag false) emulated ctx ⟨sound.apart, sound.results, sound.positive⟩
      online
  have retrieved : Arrives (serveWith reach euicc) (ipaProcEimPkgRetr codec asn1c ctx) w.cleared
      (.ok (ctx, -noEimPackageAvailable)) w.cleared :=
    (arrives_request fetches).bind (arrives_pure _ _ _)
  apply (arrives_request resets).bind
  simp only [idle]
  apply clears.bind
  apply retrieved.bind
  exact arrives_pure _ _ _

end

theorem pollLoop_again (pass : Arrives (serveWith reach euicc) (ipaPoll codec asn1c ctx) w (.ok (ctx', rc)) w')
    (again : rc = pollAgainWhenOnline ∨ rc = pollAgain)
    (rest : Arrives (serveWith reach euicc) (pollLoop codec asn1c false running ctx' 0) w' out w'') :
    Arrives (serveWith reach euicc) (pollLoop codec asn1c false (true :: running) ctx 0) w out w'' := by
  apply pass.bind
  cases again with
  | inl online =>
      simp only [online, if_true]
      exact rest
  | inr again =>
      subst again
      have offline : ¬ pollAgain = pollAgainWhenOnline := by decide
      simp only [offline, if_true, if_false]
      exact rest

theorem pollLoop_later
    (pass : Arrives (serveWith reach euicc) (ipaPoll codec asn1c ctx) w (.ok (ctx', pollAgainLater)) w') :
    Arrives (serveWith reach euicc) (pollLoop codec asn1c false (true :: running) ctx 0) w (.ok (.left ctx' 0)) w' := by
  apply pass.bind
  exact arrives_pure _ _ _

theorem pollLoop_failed
    (pass : Arrives (serveWith reach euicc) (ipaPoll codec asn1c ctx) w (.ok (ctx', pollCheckHttp)) w') :
    Arrives (serveWith reach euicc) (pollLoop codec asn1c false (true :: running) ctx 0) w
      (.ok (.left ctx' einval)) w' := by
  apply pass.bind
  exact arrives_pure _ _ _

end

end

end

end Ipad.Proc

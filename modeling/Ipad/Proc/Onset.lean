import Ipad.Proc.Idle

/-!
# The course of an onset step
-/

namespace Ipad.Proc
open Lib.Dialogue Ipad.EimCfg Ipad.Nvstate Ipad.Utils

def usableAnswer (emulated : Bool) (ans : Option NotificationsListResponse) : Option NotificationsListResponse :=
  RetrNotifFromLstRes.usable (ans.map (if emulated then decRetrNotifFromLstRes else decRetrNotifFromLstResSgp32))

theorem releasable_of_usable {emulated : Bool} {answer : Option NotificationsListResponse}
    {notifications : NotificationsListResponse} (usable : usableAnswer emulated answer = some notifications) :
    Releasable emulated answer := by
  rintro rfl
  rcases answer with _ | (list | code | _ | _)
  · rfl
  · rfl
  · by_cases zero : code = 0
    · exact decide_eq_true zero
    · simp [usableAnswer, RetrNotifFromLstRes.usable, decRetrNotifFromLstRes, zero] at usable
  · cases usable
  · cases usable

/-! ## Without an answer from the eIM -/

/-- The rollback result has nowhere to go. -/
def Unappendable (ctx : IpaContext) : Prop :=
  ∃ pending, ctx.procEuccPkgDwnldExecRes = some pending ∧ ¬ pending.loadEuiccPkgRes.res.Signed

def DwnldExecRes.mayRollback (res : DwnldExecRes) : Bool :=
  res.loadEuiccPkgRes.profileChanged && res.loadEuiccPkgRes.rollbackAllowed && res.prfleRollbackRes.isNone

def Req.RollsBack : Req → Prop
  | .enableProfile purpose _ => purpose = .rollback
  | .profileRollback => True
  | _ => False

inductive Unprovided (ctx : IpaContext) (res : DwnldExecRes) : Except Abort (Int × DwnldExecRes) → Trace → Prop where
  | failed (allowed : res.mayRollback = false) : Unprovided ctx res (.ok (einval, res)) []
  | tried (allowed : res.mayRollback = true) (out : Int × DwnldExecRes)
      (same : out.2.loadEuiccPkgRes = res.loadEuiccPkgRes) (later : Trace)
      (rollsBack : ∀ event ∈ later, event.req.RollsBack) :
      Unprovided ctx res (.ok out) (later ++ [⟨.mark .prfleRollback, ()⟩])
  | faulted (allowed : res.mayRollback = true) (f : Fault) (unappendable : Unappendable ctx) (later : Trace)
      (rollsBack : ∀ event ∈ later, event.req.RollsBack) :
      Unprovided ctx res (.error (.fault f)) (later ++ [⟨.mark .prfleRollback, ()⟩])

section
variable {t : Trace}

theorem appendRollbackResult_error {rollbackSuccessful : Bool} {result : EuiccPackageResult} {f : Fault}
    (error : appendRollbackResult rollbackSuccessful result = .error f) : ¬ result.Signed := by
  rintro ⟨signed, rfl⟩
  cases error

theorem ipaEs10bPrfleRollback_rollsBack (ctx : IpaContext) (t : Trace) :
    Ends (fun _ t' => ∃ later, t' = later ++ ⟨.mark .prfleRollback, ()⟩ :: t ∧ ∀ event ∈ later, event.req.RollsBack)
      (fun abort t' => ∃ f later, abort = .fault f ∧ t' = later ++ ⟨.mark .prfleRollback, ()⟩ :: t ∧
        Unappendable ctx ∧ ∀ event ∈ later, event.req.RollsBack)
      (ipaEs10bPrfleRollback ctx) t := by
  have alone (event : Event Req Ans) (rollsBack : event.req.RollsBack) :
      ∀ other ∈ [event], other.req.RollsBack := List.forall_mem_singleton.mpr rollsBack
  simp only [ipaEs10bPrfleRollback, ends_bind, ends_mark]
  split
  · unfold prfleRollbackEmu
    split
    · exact ⟨[], rfl, fun _ member => absurd member List.not_mem_nil⟩
    next iccid _ =>
      simp only [ends_bind, ends_request]
      intro ans
      have asked := alone ⟨.enableProfile .rollback iccid, ans⟩ rfl
      cases ans with
      | none => exact ⟨[_], rfl, asked⟩
      | some enableResult =>
          simp only
          split
          · exact ⟨[_], rfl, asked⟩
          next pending found =>
            rw [ends_bind]
            cases appended : appendRollbackResult (rollbackCmdResult enableResult = resultOk)
                pending.loadEuiccPkgRes.res with
            | ok result => exact ⟨[_], rfl, asked⟩
            | error f => exact ⟨f, [_], rfl, rfl, ⟨pending, found, appendRollbackResult_error appended⟩, asked⟩
  · exact fun ans => ⟨[_], rfl, alone ⟨.profileRollback, ans⟩ trivial⟩

theorem onsetUnanswered_unprovided (ctx : IpaContext) (res : DwnldExecRes) (t : Trace) :
    Ends (fun out t' => ∃ said, t' = said ++ t ∧ Unprovided ctx res (.ok out) said)
      (fun abort t' => ∃ said, t' = said ++ t ∧ Unprovided ctx res (.error abort) said)
      (onsetUnanswered ctx res) t := by
  unfold onsetUnanswered
  split
  next unchanged => exact ⟨[], rfl, .failed (by simp [DwnldExecRes.mayRollback, unchanged])⟩
  split
  next refused => exact ⟨[], rfl, .failed (by simp [DwnldExecRes.mayRollback, refused])⟩
  split
  next again => exact ⟨[], rfl, .failed (by simp [DwnldExecRes.mayRollback, again])⟩
  next changed allowed first =>
    have may : res.mayRollback = true := by
      simp only [DwnldExecRes.mayRollback, not_not.mp changed, not_not.mp allowed, Bool.and_self, Bool.true_and]
      simpa using first
    rw [ends_bind]
    refine (ipaEs10bPrfleRollback_rollsBack ctx t).mono ?_ ?_
    · rintro rollback _ ⟨later, rfl, rollsBack⟩
      have tried (out : Int × DwnldExecRes) (same : out.2.loadEuiccPkgRes = res.loadEuiccPkgRes) :
          ∃ said, later ++ ⟨.mark .prfleRollback, ()⟩ :: t = said ++ t ∧ Unprovided ctx res (.ok out) said :=
        ⟨later ++ [⟨.mark .prfleRollback, ()⟩], List.append_cons .., .tried may out same later rollsBack⟩
      cases rollback with
      | none => exact tried _ rfl
      | some rollback =>
          simp only
          split
          · exact tried _ rfl
          · exact tried _ rfl
    · rintro _ _ ⟨f, later, rfl, rfl, unappendable, rollsBack⟩
      exact ⟨later ++ [⟨.mark .prfleRollback, ()⟩], List.append_cons .., .faulted may f unappendable later rollsBack⟩

/-! ## With an answer -/

def Req.Removes : Req → Prop
  | .removeNotificationFromList _ => True
  | _ => False

theorem onsetAnswered_removes (res : DwnldExecRes) (eimAcknowledgements : Option (List Int)) (t : Trace) :
    Ends (fun out t' => out.2 = res ∧ Adds Req.Removes t t') (fun _ _ => False)
      (onsetAnswered res eimAcknowledgements) t := by
  have removes {program : ProcM Int} {t₀ t : Trace} (adds : Adds Req.Removes t₀ t)
      (asks : Asks Req.Removes (fun _ => False) program) :
      Ends (fun _ t' => Adds Req.Removes t₀ t') (fun _ _ => False) program t :=
    asks.ends (fun req ans _ allowed adds => adds.cons req ans allowed) (fun _ _ stopped _ => stopped) adds
  apply (removes (.refl _ t) (ipaEs10bRmNotifFromLst_asks (fun _ => trivial) _)).bind
  intro rc t' adds
  split
  · exact ⟨rfl, adds⟩
  apply (removes adds (removeNotifications_asks (fun _ => trivial) _)).bind
  intro rc t'' adds'
  split
  · exact ⟨rfl, adds'⟩
  · exact ⟨rfl, adds'⟩

end

/-! ## The step -/

def onsetAsked (res : DwnldExecRes) (answer : Option NotificationsListResponse) : Trace :=
  [⟨.retrieveNotificationsList (some res.loadEuiccPkgRes.res.seqNumberField), answer⟩,
    ⟨.mark (.onset res.loadEuiccPkgRes.res), ()⟩]

def onsetEncoded (res : DwnldExecRes) (answer : Option NotificationsListResponse)
    (notifications : NotificationsListResponse) (outcome : Encoding) : Trace :=
  ⟨.encode (.provideEimPackageResult res.delivered notifications), outcome⟩ :: onsetAsked res answer

def onsetSent (res : DwnldExecRes) (answer : Option NotificationsListResponse)
    (notifications : NotificationsListResponse) (eimAcknowledgements : Option (Option (List Int))) : Trace :=
  ⟨.provideEimPackageResult res.delivered notifications, eimAcknowledgements⟩ ::
    onsetEncoded res answer notifications .encoded

def DwnldExecRes.called (res : DwnldExecRes) : DwnldExecRes := { res with callOnset := false }

/-- How an onset step ends, and what is said in it. -/
inductive Onset (ctx : IpaContext) (res : DwnldExecRes) : Except Abort (Int × DwnldExecRes) → Trace → Prop where
  | unusable (answer : Option NotificationsListResponse)
      (unusable : usableAnswer ctx.iotEuiccEmuEnabled answer = none)
      (releasable : Releasable ctx.iotEuiccEmuEnabled answer) :
      Onset ctx res (.ok (einval, res.called)) (onsetAsked res answer)
  | unreleasable (answer : Option NotificationsListResponse)
      (wild : ¬ Releasable ctx.iotEuiccEmuEnabled answer) (f : Fault) :
      Onset ctx res (.error (.fault f)) (onsetAsked res answer)
  | aborted (answer : Option NotificationsListResponse) (notifications : NotificationsListResponse)
      (usable : usableAnswer ctx.iotEuiccEmuEnabled answer = some notifications) :
      Onset ctx res (.error (.fault .assertion)) (onsetEncoded res answer notifications .aborted)
  | unencoded (answer : Option NotificationsListResponse) (notifications : NotificationsListResponse)
      (usable : usableAnswer ctx.iotEuiccEmuEnabled answer = some notifications)
      (out : Except Abort (Int × DwnldExecRes)) (later : Trace) (unprovided : Unprovided ctx res.called out later) :
      Onset ctx res out (later ++ onsetEncoded res answer notifications .refused)
  | silent (answer : Option NotificationsListResponse) (notifications : NotificationsListResponse)
      (usable : usableAnswer ctx.iotEuiccEmuEnabled answer = some notifications)
      (out : Except Abort (Int × DwnldExecRes)) (later : Trace) (unprovided : Unprovided ctx res.called out later) :
      Onset ctx res out (later ++ onsetSent res answer notifications none)
  | acknowledged (answer : Option NotificationsListResponse) (notifications : NotificationsListResponse)
      (usable : usableAnswer ctx.iotEuiccEmuEnabled answer = some notifications)
      (eimAcknowledgements : Option (List Int)) (out : Int × DwnldExecRes) (same : out.2 = res.called)
      (later : Trace) (removes : ∀ event ∈ later, event.req.Removes) :
      Onset ctx res (.ok out) (later ++ onsetSent res answer notifications (some eimAcknowledgements))

theorem onsetProvide_onset (ctx : IpaContext) (res : DwnldExecRes) {answer : Option NotificationsListResponse}
    {notifications : NotificationsListResponse}
    (usable : usableAnswer ctx.iotEuiccEmuEnabled answer = some notifications) (t : Trace) :
    Ends (fun out t' => ∃ said, t' = said ++ t ∧ Onset ctx res (.ok out) said)
      (fun abort t' => ∃ said, t' = said ++ t ∧ Onset ctx res (.error abort) said)
      (onsetProvide ctx res.called notifications) (onsetAsked res answer ++ t) := by
  rw [onsetProvide, ends_bind]
  refine (ends_send (.provideEimPackageResult ..) _ _).mpr ⟨fun ans => ?_, ?_, ?_⟩
  · cases ans with
    | none =>
        refine (onsetUnanswered_unprovided ctx res.called _).mono ?_ ?_
        · rintro out _ ⟨later, rfl, unprovided⟩
          exact ⟨_, (List.append_assoc later (onsetSent res answer notifications none) t).symm,
            .silent answer notifications usable _ later unprovided⟩
        · rintro abort _ ⟨later, rfl, unprovided⟩
          exact ⟨_, (List.append_assoc later (onsetSent res answer notifications none) t).symm,
            .silent answer notifications usable _ later unprovided⟩
    | some eimAcknowledgements =>
        refine (onsetAnswered_removes res.called eimAcknowledgements _).mono ?_ fun _ _ => False.elim
        rintro out _ ⟨same, later, rfl, removes⟩
        exact ⟨_, (List.append_assoc later (onsetSent res answer notifications (some eimAcknowledgements)) t).symm,
          .acknowledged answer notifications usable eimAcknowledgements out same later removes⟩
  · refine (onsetUnanswered_unprovided ctx res.called _).mono ?_ ?_
    · rintro out _ ⟨later, rfl, unprovided⟩
      exact ⟨_, (List.append_assoc later (onsetEncoded res answer notifications .refused) t).symm,
        .unencoded answer notifications usable _ later unprovided⟩
    · rintro abort _ ⟨later, rfl, unprovided⟩
      exact ⟨_, (List.append_assoc later (onsetEncoded res answer notifications .refused) t).symm,
        .unencoded answer notifications usable _ later unprovided⟩
  · exact ⟨onsetEncoded res answer notifications .aborted, rfl, .aborted answer notifications usable⟩

theorem ipaProcEuccPkgDwnldExecOnset_onset (ctx : IpaContext) (res : DwnldExecRes) (t : Trace) :
    Ends (fun out t' => ∃ said, t' = said ++ t ∧ Onset ctx res (.ok out) said)
      (fun abort t' => ∃ said, t' = said ++ t ∧ Onset ctx res (.error abort) said)
      (ipaProcEuccPkgDwnldExecOnset ctx res) t := by
  simp only [ipaProcEuccPkgDwnldExecOnset, ipaEs10bRetrNotifFromLst, ends_bind, ends_mark, ends_request, ends_pure]
  intro answer
  have released := ipaEs10bRetrNotifFromLstResFree_ok_iff ctx.iotEuiccEmuEnabled answer
  unfold onsetNotified
  rw [show RetrNotifFromLstRes.usable _ = usableAnswer ctx.iotEuiccEmuEnabled answer from rfl]
  cases usable : usableAnswer ctx.iotEuiccEmuEnabled answer with
  | none =>
      simp only [onsetFailed, ends_pure, ends_bind]
      cases freed : ipaEs10bRetrNotifFromLstResFree
          (answer.map (if ctx.iotEuiccEmuEnabled then decRetrNotifFromLstRes else decRetrNotifFromLstResSgp32)) with
      | ok => exact ⟨onsetAsked res answer, rfl, .unusable answer usable (released.mp freed)⟩
      | error f =>
          refine ⟨onsetAsked res answer, rfl, .unreleasable answer (fun releasable => ?_) f⟩
          cases freed.symm.trans (released.mpr releasable)
  | some notifications =>
      rw [released.mpr (releasable_of_usable usable)]
      exact onsetProvide_onset ctx res usable t

/-! ## What ends the program -/

/-- In emulation an error code is freed like the array of a list, and a string without a buffer ends the
program in the encoder. -/
def Disturbs (emulated : Bool) : Event Req Ans → Prop
  | ⟨.retrieveNotificationsList _, answer⟩ => ¬ Releasable emulated answer
  | ⟨.encode _, outcome⟩ => outcome = .aborted
  | _ => False

section
variable {emulated : Bool}

theorem Req.RollsBack.harmless (req : Req) (ans : Ans req) (rollsBack : req.RollsBack) :
    ¬ Disturbs emulated ⟨req, ans⟩ := by
  cases req with
  | retrieveNotificationsList => exact rollsBack.elim
  | encode => exact rollsBack.elim
  | _ => exact id

theorem Req.Removes.harmless (req : Req) (ans : Ans req) (removes : req.Removes) :
    ¬ Disturbs emulated ⟨req, ans⟩ := by
  cases req with
  | retrieveNotificationsList => exact removes.elim
  | encode => exact removes.elim
  | _ => exact id

@[simp] theorem said_onsetAsked (res : DwnldExecRes) (answer : Option NotificationsListResponse) :
    Said (Disturbs emulated) (onsetAsked res answer) ↔ ¬ Releasable emulated answer := by
  simp [onsetAsked, Disturbs]

@[simp] theorem said_onsetEncoded (res : DwnldExecRes) (answer : Option NotificationsListResponse)
    (notifications : NotificationsListResponse) (outcome : Encoding) :
    Said (Disturbs emulated) (onsetEncoded res answer notifications outcome) ↔
      outcome = .aborted ∨ ¬ Releasable emulated answer := by
  simp [onsetEncoded, Disturbs]

@[simp] theorem said_onsetSent (res : DwnldExecRes) (answer : Option NotificationsListResponse)
    (notifications : NotificationsListResponse) (eimAcknowledgements : Option (Option (List Int))) :
    Said (Disturbs emulated) (onsetSent res answer notifications eimAcknowledgements) ↔
    ¬ Releasable emulated answer := by
  simp [onsetSent, Disturbs]

theorem Unprovided.not_disturbed {ctx : IpaContext} {res : DwnldExecRes} {out : Except Abort (Int × DwnldExecRes)}
    {said : Trace} (unprovided : Unprovided ctx res out said) : ¬ Said (Disturbs emulated) said := by
  cases unprovided with
  | failed => exact not_said_nil
  | tried _ _ _ later rollsBack =>
      simpa [Disturbs] using not_said_of_forall Req.RollsBack.harmless rollsBack
  | faulted _ _ _ later rollsBack =>
      simpa [Disturbs] using not_said_of_forall Req.RollsBack.harmless rollsBack

theorem Unprovided.returns {ctx : IpaContext} {res : DwnldExecRes} {out : Except Abort (Int × DwnldExecRes)}
    {said : Trace} (unprovided : Unprovided ctx res out said)
    (appendable : res.mayRollback = true → ¬ Unappendable ctx) : ¬ ∃ abort, out = .error abort := by
  rintro ⟨abort, rfl⟩
  cases unprovided with
  | faulted allowed f unappendable => exact appendable allowed unappendable

theorem Onset.disturbed_iff {ctx : IpaContext} {res : DwnldExecRes} {out : Except Abort (Int × DwnldExecRes)}
    {said : Trace} (onset : Onset ctx res out said) (appendable : res.mayRollback = true → ¬ Unappendable ctx) :
    Said (Disturbs ctx.iotEuiccEmuEnabled) said ↔ ∃ abort, out = .error abort := by
  cases onset with
  | unusable answer _ releasable => simp [releasable]
  | unreleasable answer wild f => simp [wild]
  | aborted => simp
  | unencoded answer notifications usable out later unprovided =>
      simp [unprovided.not_disturbed, releasable_of_usable usable, unprovided.returns appendable]
  | silent answer notifications usable out later unprovided =>
      simp [unprovided.not_disturbed, releasable_of_usable usable, unprovided.returns appendable]
  | acknowledged answer notifications usable _ _ _ later removes =>
      simp [not_said_of_forall Req.Removes.harmless removes, releasable_of_usable usable]

end

end Ipad.Proc

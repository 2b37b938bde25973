import Ipad.Proc.Execution
import Ipad.Proc.Installation
import Ipad.Proc.Onset

/-!
# Sequences of polls
-/

namespace Ipad.Proc
open Lib.Dialogue Ipad.EimCfg Ipad.Nvstate Ipad.BppSegments Ipad.Utils

section
variable {codec : EimCfgCodec} {asn1c : Asn1c} {emulated : Bool} {ctx ctx' : IpaContext} {t t' : Trace}

/-! ## Executing a package -/

theorem Linked.setExecution (linked : Linked emulated ctx t) (res : Option DwnldExecRes) :
    Linked emulated (ctx.setExecution res) t := ⟨linked.mode, linked.rollbackIccid⟩

theorem Lawful.free (lawful : Lawful emulated t) : Lawful emulated (⟨.mark .free, ()⟩ :: t) :=
  ⟨trivial, lawful⟩

theorem Between.vacant (lawful : Lawful emulated t) (linked : Linked emulated ctx t)
    (idle : (seen t).executing = none) (vacant : ctx.procEuccPkgDwnldExecRes = none) : Between emulated ctx t where
  lawful := lawful
  linked := linked
  idle := fun _ => idle
  pending := fun res pending => by cases vacant.symm.trans pending

theorem Between.waiting {res : DwnldExecRes} (lawful : Lawful emulated t) (linked : Linked emulated ctx t)
    (found : ctx.procEuccPkgDwnldExecRes = some res) (callOnset : res.callOnset = true)
    (executes : ∃ euiccPackageRequest, Executes emulated res.loadEuiccPkgRes euiccPackageRequest t)
    (stage : Stage emulated res (seen t)) : Between emulated ctx t where
  lawful := lawful
  linked := linked
  idle := fun vacant => absurd (found.symm.trans vacant) (Option.some_ne_none res)
  pending := by
    intro other found'
    cases found.symm.trans found'
    exact ⟨callOnset, executes, stage⟩

structure Executed (emulated : Bool) (ctx : IpaContext) (res : Option DwnldExecRes) (t : Trace) : Prop where
  lawful : Lawful emulated t
  linked : Linked emulated ctx t
  vacant : ctx.procEuccPkgDwnldExecRes = none
  ended : res = none → (seen t).executing = none
  pending : ∀ dwnldExecRes, res = some dwnldExecRes → dwnldExecRes.callOnset = true →
    (∃ euiccPackageRequest, Executes emulated dwnldExecRes.loadEuiccPkgRes euiccPackageRequest t) ∧
      Stage emulated dwnldExecRes (seen t)

theorem Executed.dropped (lawful : Lawful emulated t) (linked : Linked emulated ctx t)
    (vacant : ctx.procEuccPkgDwnldExecRes = none) : Executed emulated ctx none (⟨.mark .free, ()⟩ :: t) where
  lawful := lawful.free
  linked := ⟨linked.mode, linked.rollbackIccid⟩
  vacant := vacant
  ended := fun _ => rfl
  pending := fun _ found => nomatch found

theorem ipaProcEuccPkgDwnldExec_ends (lawful : Lawful emulated t) (linked : Linked emulated ctx t)
    (idle : (seen t).executing = none) (vacant : ctx.procEuccPkgDwnldExecRes = none)
    {euiccPackageRequest : EuiccPackageRequest}
    (conforming : Conforming emulated t → emulated = true → euiccPackageRequest.euiccPackage ≠ .nothing) :
    Ends (fun out t' => Executed emulated out.1 out.2 t') (Aborts emulated)
      (ipaProcEuccPkgDwnldExec codec ctx euiccPackageRequest) t := by
  simp only [ipaProcEuccPkgDwnldExec, ends_bind, ends_mark]
  have marked : Lawful emulated (⟨.mark (.execute euiccPackageRequest), ()⟩ :: t) := ⟨idle, lawful⟩
  have linkedMarked : Linked emulated ctx (⟨.mark (.execute euiccPackageRequest), ()⟩ :: t) :=
    ⟨linked.mode, linked.rollbackIccid⟩
  apply (ipaEs10bLoadEuiccPkg_ends codec linkedMarked marked ⟨_, t, rfl⟩ ⟨rfl, rfl, rfl, rfl⟩
    fun conformed => conforming conformed.2).imp
  rintro ⟨ctx', load⟩ t' ⟨linked', lawful', begun, execution, executes⟩
  have vacant' : ctx'.procEuccPkgDwnldExecRes = none := execution.trans vacant
  cases load with
  | none =>
      simp only [ends_bind, ends_mark, ends_pure]
      exact .dropped lawful' linked' vacant'
  | some load =>
      have first (callOnset : Bool) : Stage emulated ⟨load, none, callOnset⟩ (seen t') :=
        .first rfl begun.onsetSteps begun.rollbacks begun.rolledBack
      have own (pending : DwnldExecRes) (found : ctx'.procEuccPkgDwnldExecRes = some pending) :
          pending.loadEuiccPkgRes.res = load.res := by cases vacant'.symm.trans found
      simp only
      split
      · refine ⟨lawful', linked', vacant', fun found => absurd found (Option.some_ne_none _), ?_⟩
        rintro _ ⟨⟩ -
        exact ⟨⟨_, executes load rfl⟩, first true⟩
      · apply (ipaProcEuccPkgDwnldExecOnset_ends ⟨load, none, false⟩ linked' lawful' (executes load rfl)
          (first false) own).bind
        rintro ⟨rc, res⟩ t'' stepped
        simp only
        split
        · simp only [ends_bind, ends_mark, ends_pure]
          exact .dropped stepped.lawful stepped.linked vacant'
        · refine ⟨stepped.lawful, stepped.linked, vacant', fun found => absurd found (Option.some_ne_none _), ?_⟩
          rintro _ ⟨⟩ callOnset
          exact ⟨⟨_, (stepped.again callOnset).2.1⟩, (stepped.again callOnset).2.2⟩

def PendingOnSuccess (out : IpaContext × Int) : Prop := out.1.procEuccPkgDwnldExecRes.isSome → 0 ≤ out.2

theorem PendingOnSuccess.of_vacant (vacant : ctx.procEuccPkgDwnldExecRes = none) (rc : Int) :
    PendingOnSuccess (ctx, rc) := by
  unfold PendingOnSuccess
  rw [vacant]
  nofun

theorem eimPkgExecEuiccPackage_ends (between : Between emulated ctx t)
    (vacant : ctx.procEuccPkgDwnldExecRes = none) {euiccPackageRequest : EuiccPackageRequest}
    (conforming : Conforming emulated t → emulated = true → euiccPackageRequest.euiccPackage ≠ .nothing) :
    Ends (fun out t' => Between emulated out.1 t' ∧ PendingOnSuccess out) (Aborts emulated)
      (eimPkgExecEuiccPackage codec ctx euiccPackageRequest) t := by
  rw [eimPkgExecEuiccPackage, if_neg (by rw [vacant]; exact Bool.false_ne_true)]
  apply (ipaProcEuccPkgDwnldExec_ends between.lawful between.linked (between.idle vacant) vacant conforming).bind
  rintro ⟨ctx', res⟩ t' executed
  cases res with
  | none =>
      simp only [ends_bind, ends_request, ends_pure]
      intro rc
      have kept := (Kept.refl executed.lawful).idle .uninitialised rc trivial
      exact ⟨.vacant kept.lawful ((executed.linked.later (.refl ctx') (by rw [kept.seen])).setExecution _)
        (kept.seen ▸ executed.ended rfl) rfl, .of_vacant rfl rc⟩
  | some res =>
      simp only
      split
      next callOnset =>
        have pending := executed.pending res rfl callOnset
        exact ⟨.waiting executed.lawful (executed.linked.setExecution _) rfl callOnset pending.1 pending.2,
          fun _ => Int.le_refl 0⟩
      next =>
        simp only [ends_bind, ends_mark, ends_pure]
        exact ⟨.vacant executed.lawful.free ⟨executed.linked.mode, executed.linked.rollbackIccid⟩ rfl rfl,
          .of_vacant rfl 0⟩

theorem eimPkgExec_ends (between : Between emulated ctx t) (vacant : ctx.procEuccPkgDwnldExecRes = none)
    {response : GetEimPackageResponse}
    (conforming : ∀ euiccPackageRequest, response = .euiccPackageRequest euiccPackageRequest →
      Conforming emulated t → emulated = true → euiccPackageRequest.euiccPackage ≠ .nothing) :
    Ends (fun out t' => Between emulated out.1 t' ∧ PendingOnSuccess out) (Aborts emulated)
      (eimPkgExec codec asn1c ctx response) t := by
  have kept := Kept.refl between.lawful
  have stays {ctx' : IpaContext} {t' : Trace} (same : SameCtx ctx ctx') (kept : Kept emulated t t') (rc : Int) :
      Between emulated ctx' t' ∧ PendingOnSuccess (ctx', rc) :=
    ⟨between.kept kept same, .of_vacant (same.execution.trans vacant) rc⟩
  cases response with
  | euiccPackageRequest euiccPackageRequest =>
      exact eimPkgExecEuiccPackage_ends between vacant (conforming _ rfl)
  | ipaEuiccDataRequest ipaEuiccDataRequest =>
      exact ((ipaProcEuiccDataReq_quiet codec ctx ipaEuiccDataRequest).keeps kept).bind
        fun _ _ kept => stays (.refl ctx) kept _
  | profileDownloadTriggerRequest dwnldTriggerRequest =>
      simp only [eimPkgExec, eimPkgExecDwnld]
      split
      · apply ((getEuiccCiPkid_serving codec ctx).quiet.keeps kept).bind
        intro allowedCa t' kept
        cases allowedCa with
        | none => exact stays (.refl ctx) kept einval
        | some allowedCa =>
            apply (ipaProcIndirectPrfleDwnlod_keeps asn1c kept ctx _ allowedCa).bind
            rintro ⟨ctx', rc⟩ t' ⟨same, kept⟩
            exact stays same kept _
      · exact stays (.refl ctx) kept einval
  | eimPackageError code => exact stays (.refl ctx) kept einval
  | nothing => exact stays (.refl ctx) kept einval

/-! ## Polling -/

theorem ipaProcEimPkgRetr_ends (between : Between emulated ctx t) (vacant : ctx.procEuccPkgDwnldExecRes = none) :
    Ends (fun out t' => Between emulated out.1 t' ∧ PendingOnSuccess out) (Aborts emulated)
      (ipaProcEimPkgRetr codec asn1c ctx) t := by
  simp only [ipaProcEimPkgRetr, ends_bind, ends_request]
  intro ans
  have asked : Kept emulated t (⟨.getEimPackage, ans⟩ :: t) :=
    ⟨⟨between.idle vacant, between.lawful⟩, rfl, List.suffix_cons ..⟩
  have stays := between.kept asked (.refl ctx)
  cases ans with
  | none => exact ⟨stays, .of_vacant vacant _⟩
  | some response =>
      simp only
      split
      · exact ⟨stays, .of_vacant vacant _⟩
      split
      · exact ⟨stays, .of_vacant vacant _⟩
      refine eimPkgExec_ends stays vacant ?_
      rintro euiccPackageRequest rfl conforming
      exact conforming.1

theorem checkCanaries_keeps (kept : Kept emulated t t') :
    Ends (fun rc t'' => Kept emulated t t'' ∧ rc < 0) (Aborts emulated) checkCanaries t' := by
  simp only [checkCanaries, ends_bind, ends_request]
  rintro ⟨checkHttp, checkScard⟩
  refine ⟨kept.idle .canaries (checkHttp, checkScard) trivial, ?_⟩
  cases checkHttp <;> cases checkScard <;> decide

structure PollEnds (emulated : Bool) (before : IpaContext) (t : Trace) (out : IpaContext × Int) (t' : Trace) :
    Prop where
  between : Between emulated out.1 t'
  online : out.1.procEuccPkgDwnldExecRes.isSome ↔ out.2 = pollAgainWhenOnline
  advances : before.procEuccPkgDwnldExecRes.isSome → (seen t').onsetSteps = (seen t).onsetSteps + 1
  finishes : before.procEuccPkgDwnldExecRes.isSome → out.1.procEuccPkgDwnldExecRes = none →
    out.2 = pollAgain ∨ out.2 < 0

theorem not_online_of_neg {rc : Int} (negative : rc < 0) : rc ≠ pollAgainWhenOnline := by
  rintro rfl
  exact absurd negative (by decide)

theorem ipaPoll_ends (between : Between emulated ctx t) :
    Ends (PollEnds emulated ctx t) (Aborts emulated) (ipaPoll codec asn1c ctx) t := by
  simp only [ipaPoll, ends_bind, ends_mark]
  replace between := between.kept ((Kept.refl between.lawful).idle (.mark .resetCanaries) () trivial) (.refl ctx)
  split
  next pending found =>
    obtain ⟨callOnset, ⟨euiccPackageRequest, executes⟩, stage⟩ := between.pending pending found
    have own (other : DwnldExecRes) (found' : ctx.procEuccPkgDwnldExecRes = some other) :
        other.loadEuiccPkgRes.res = pending.loadEuiccPkgRes.res := by
      cases found.symm.trans found'
      rfl
    apply (ipaProcEuccPkgDwnldExecOnset_ends pending between.linked between.lawful executes stage own).bind
    rintro ⟨rc, res⟩ t' stepped
    have freed : Between emulated (ctx.setExecution none) (⟨.mark .free, ()⟩ :: t') :=
      .vacant stepped.lawful.free ⟨stepped.linked.mode, stepped.linked.rollbackIccid⟩ rfl rfl
    simp only
    split
    · simp only [ends_bind, ends_mark]
      apply (checkCanaries_keeps (.refl freed.lawful)).imp
      rintro rc t'' ⟨kept, negative⟩
      refine ⟨freed.kept kept (.refl _), iff_of_false Bool.false_ne_true (not_online_of_neg negative),
        fun _ => ?_, fun _ _ => .inr negative⟩
      rw [kept.seen]
      exact stepped.onsetSteps
    split
    · simp only [ends_bind, ends_mark, ends_pure]
      exact ⟨freed, iff_of_false Bool.false_ne_true (by decide : pollAgain ≠ pollAgainWhenOnline),
        fun _ => stepped.onsetSteps,
        fun _ _ => .inl rfl⟩
    next callOnset =>
      have called : res.callOnset = true := by simpa using callOnset
      obtain ⟨-, executes, stage⟩ := stepped.again called
      exact ⟨.waiting stepped.lawful (stepped.linked.setExecution _) rfl called ⟨_, executes⟩ stage,
        iff_of_true rfl rfl, fun _ => stepped.onsetSteps,
        fun _ found => absurd found (Option.some_ne_none res)⟩
  next vacant =>
    apply (ipaNotifDelivery_keeps (.refl between.lawful) ctx).bind
    intro rc t' delivered
    apply (ipaProcEimPkgRetr_ends (between.kept delivered (.refl ctx)) vacant).bind
    rintro ⟨ctx', rc⟩ t'' ⟨between', success⟩
    have notPending : ¬ ctx.procEuccPkgDwnldExecRes.isSome := by
      rw [vacant]
      exact Bool.false_ne_true
    have ended {t'' : Trace} {out : IpaContext × Int} (between : Between emulated out.1 t'')
        (online : out.1.procEuccPkgDwnldExecRes.isSome ↔ out.2 = pollAgainWhenOnline) :
        PollEnds emulated ctx t out t'' :=
      ⟨between, online, fun pending => absurd pending notPending, fun pending => absurd pending notPending⟩
    have failed (negative : rc < 0) : ¬ ctx'.procEuccPkgDwnldExecRes.isSome := fun pending =>
      absurd (success pending) (Int.not_le.mpr negative)
    simp only
    split
    next noPackage =>
      have idle := failed (by rw [noPackage]; decide)
      exact ended between' (iff_of_false idle (by decide : pollAgainLater ≠ pollAgainWhenOnline))
    split
    next negative =>
      apply (checkCanaries_keeps (.refl between'.lawful)).bind
      rintro rc' t''' ⟨kept, negative'⟩
      exact ended (between'.kept kept (.refl ctx'))
        (iff_of_false (failed negative) (not_online_of_neg negative'))
    split
    next pending => exact ended between' (iff_of_true pending rfl)
    next idle => exact ended between' (iff_of_false idle (by decide : pollAgain ≠ pollAgainWhenOnline))

theorem polled_between (polled : Polled codec asn1c ctx t) : Between ctx.iotEuiccEmuEnabled ctx t := by
  induction polled with
  | new iotEuiccEmuEnabled eimId nvstate cfg => exact .vacant trivial ⟨rfl, rfl⟩ rfl rfl
  | poll ctx t polled ctx' rc t' runs ih =>
      have ends := ((ipaPoll_ends ih).of_runs runs).1 _ rfl
      rw [show ctx'.iotEuiccEmuEnabled = ctx.iotEuiccEmuEnabled from ends.between.linked.mode]
      exact ends.between

theorem polled_lawful (polled : Polled codec asn1c ctx t) {out : Except Abort (IpaContext × Int)}
    (runs : Runs (ipaPoll codec asn1c ctx) t out t') : Lawful ctx.iotEuiccEmuEnabled t' := by
  have ends := (ipaPoll_ends (polled_between polled)).of_runs runs
  cases out with
  | ok out => exact (ends.1 out rfl).between.lawful
  | error abort => exact (ends.2 abort rfl).2

end

/-! ## Polling against an environment -/

/-- The answers of an eUICC and an eIM that offers one package again and again. -/
structure Answers where
  euiccPackageRequest : EuiccPackageRequest
  loaded : Option EuiccPackageResult
  profilesInfo : Trace → Option ProfileInfoListResponse
  enableResult : List UInt8 → Int
  disableResult : Int
  rollback : Option ProfileRollbackResponse
  eimAcknowledgements : Trace → Option (Option (List Int))

def Answers.answer (answers : Answers) (t : Trace) : (req : Req) → Ans req
  | .getProfilesInfo _ => answers.profilesInfo t
  | .enableProfile _ profile => some (answers.enableResult profile)
  | .disableProfile _ => some answers.disableResult
  | .loadEuiccPackage _ => answers.loaded
  | .profileRollback => answers.rollback
  | .retrieveNotificationsList _ => some (.notificationList [])
  | .removeNotificationFromList _ => some 0
  | .getEimPackage => some (.euiccPackageRequest answers.euiccPackageRequest)
  | .provideEimPackageResult _ _ => answers.eimAcknowledgements t
  | req => req.silence

section
variable (codec : EimCfgCodec) (asn1c : Asn1c) (answers : Answers)

def polls : Nat → IpaContext → Trace → IpaContext × Trace
  | 0, ctx, t => (ctx, t)
  | n + 1, ctx, t =>
      match run answers.answer (ipaPoll codec asn1c ctx) t with
      | (.ok (ctx', _), t') => polls n ctx' t'
      | (.error _, _) => (ctx, t)

theorem polled_polls (n : Nat) {ctx : IpaContext} {t : Trace} (polled : Polled codec asn1c ctx t) :
    Polled codec asn1c (polls codec asn1c answers n ctx t).1 (polls codec asn1c answers n ctx t).2 := by
  induction n generalizing ctx t with
  | zero => exact polled
  | succ n ih =>
      have runs := runs_run answers.answer (ipaPoll codec asn1c ctx) t
      unfold polls
      split
      next ctx' rc t' returned =>
        rw [returned] at runs
        exact ih (.poll ctx t polled ctx' rc t' runs)
      next => exact polled

end

/-! A package that enables a profile with the rollback flag, and an eIM that cannot be reached afterwards. -/

def enablePackage : EuiccPackageRequest where
  counterValue := 1
  transactionId := none
  euiccPackage := .psmoList [.enable [1] true]

def packageDone (seqNumber : Int) (euiccResult : List EuiccResultData) : EuiccPackageResult :=
  .euiccPackageResultSigned
    { eimId := [], counterValue := 1, transactionId := none, seqNumber, euiccResult }

def unreachable : Answers where
  euiccPackageRequest := enablePackage
  loaded := some (packageDone 4 [.enableResult resultOk])
  profilesInfo := fun _ => none
  enableResult := fun _ => resultOk
  disableResult := resultOk
  rollback := some ⟨resultOk, some (packageDone 5 [.rollbackResult resultOk])⟩
  eimAcknowledgements := fun _ => none

/-! ## The execution of a package over a sequence of polls -/

section
variable {codec : EimCfgCodec} {asn1c : Asn1c} {emulated : Bool} {ctx : IpaContext} {t t' : Trace}

/-- What a call of the poll after others does, where `t'` holds all that was said since the context was set
up. -/
structure ExecutionKept (emulated : Bool) (ctx : IpaContext) (t : Trace) (out : Except Abort (IpaContext × Int))
    (t' : Trace) : Prop where
  online : ∀ ctx' rc, out = .ok (ctx', rc) →
    (ctx'.procEuccPkgDwnldExecRes.isSome ↔ rc = pollAgainWhenOnline)
  callOnset : ∀ ctx' rc res, out = .ok (ctx', rc) → ctx'.procEuccPkgDwnldExecRes = some res →
    res.callOnset = true
  executing : ∀ ctx' rc, out = .ok (ctx', rc) →
    (ctx'.procEuccPkgDwnldExecRes.isSome ↔ (seen t').executing.isSome)
  asserted : out ≠ .error .executionPending
  retrieved : ∀ later ans earlier, t' = later ++ ⟨.getEimPackage, ans⟩ :: earlier →
    (seen earlier).executing = none
  mayRollback : ∀ later earlier, t' = later ++ ⟨.mark .prfleRollback, ()⟩ :: earlier →
    MayRollback emulated earlier
  rolledBack : ∀ later ans earlier, t' = later ++ ⟨.profileRollback, ans⟩ :: earlier → JustTried earlier
  enabled : ∀ later iccid ans earlier, t' = later ++ ⟨.enableProfile .rollback iccid, ans⟩ :: earlier →
    JustTried earlier
  onsetSteps : ∀ later result earlier, t' = later ++ ⟨.mark (.onset result), ()⟩ :: earlier →
    (seen earlier).onsetSteps ≤ 1
  pendingSteps : ∀ ctx' rc, out = .ok (ctx', rc) → ctx'.procEuccPkgDwnldExecRes.isSome →
    (seen t').onsetSteps ≤ 1
  returns : ctx.procEuccPkgDwnldExecRes.isSome → ∃ ctx' rc, out = .ok (ctx', rc)
  advances : ∀ ctx' rc, out = .ok (ctx', rc) → ctx.procEuccPkgDwnldExecRes.isSome →
    (seen t').onsetSteps = (seen t).onsetSteps + 1
  finishes : ∀ ctx' rc, out = .ok (ctx', rc) → ctx.procEuccPkgDwnldExecRes.isSome →
    ctx'.procEuccPkgDwnldExecRes = none → rc = pollAgain ∨ rc < 0

theorem Between.executing_iff (between : Between emulated ctx t) :
    ctx.procEuccPkgDwnldExecRes.isSome ↔ (seen t).executing.isSome := by
  cases execution : ctx.procEuccPkgDwnldExecRes with
  | none =>
      rw [between.idle execution]
      exact Iff.rfl
  | some res =>
      obtain ⟨-, ⟨euiccPackageRequest, executes⟩, -⟩ := between.pending res execution
      rw [executes.executing]
      exact ⟨fun _ => rfl, fun _ => rfl⟩

theorem Between.appendable {res : DwnldExecRes} (between : Between emulated ctx t)
    (found : ctx.procEuccPkgDwnldExecRes = some res) (may : res.called.mayRollback = true) : ¬ Unappendable ctx := by
  rintro ⟨pending, found', unsigned⟩
  cases found.symm.trans found'
  obtain ⟨-, ⟨_, executes⟩, -⟩ := between.pending res found
  have changed : res.loadEuiccPkgRes.profileChanged = true := (Bool.and_eq_true_iff.mp (Bool.and_eq_true_iff.mp may).1).1
  rw [executes.changed] at changed
  revert unsigned changed
  cases res.loadEuiccPkgRes.res with
  | euiccPackageResultSigned signed => exact fun unsigned _ => unsigned ⟨signed, rfl⟩
  | _ => exact fun _ changed => Bool.noConfusion changed

theorem checkCanaries_not_disturbed (emulated : Bool) (t : Trace) :
    Ends (fun _ t' => ∃ said, t' = said ++ t ∧ ¬ Said (Disturbs emulated) said) (fun _ _ => False) checkCanaries t := by
  simp only [checkCanaries, ends_bind, ends_request, ends_pure]
  exact fun flags => ⟨[⟨.canaries, flags⟩], rfl, by simp [Disturbs]⟩

theorem ipaPoll_disturbed (between : Between ctx.iotEuiccEmuEnabled ctx t)
    (pending : ctx.procEuccPkgDwnldExecRes.isSome) :
    Ends (fun _ t' => ∃ said, t' = said ++ t ∧ ¬ Said (Disturbs ctx.iotEuiccEmuEnabled) said)
      (fun _ t' => ∃ said, t' = said ++ t ∧ Said (Disturbs ctx.iotEuiccEmuEnabled) said)
      (ipaPoll codec asn1c ctx) t := by
  obtain ⟨res, found⟩ := Option.isSome_iff_exists.mp pending
  simp only [ipaPoll, found, ends_bind, ends_mark]
  refine (ipaProcEuccPkgDwnldExecOnset_onset ctx res _).mono ?_ ?_
  · rintro ⟨rc, res'⟩ _ ⟨said, rfl, onset⟩
    have quiet : ¬ Said (Disturbs ctx.iotEuiccEmuEnabled) (said ++ [⟨.mark .resetCanaries, ()⟩]) := by
      simp [Disturbs, onset.disturbed_iff (between.appendable found)]
    rw [List.append_cons said]
    simp only
    split
    · simp only [ends_bind, ends_mark]
      refine (checkCanaries_not_disturbed ctx.iotEuiccEmuEnabled _).mono ?_ fun _ _ => False.elim
      rintro rc' _ ⟨checked, rfl, harmless⟩
      exact ⟨checked ++ ⟨.mark .free, ()⟩ :: (said ++ [⟨.mark .resetCanaries, ()⟩]), by simp,
        by simpa [Disturbs, harmless] using quiet⟩
    split
    · simp only [ends_bind, ends_mark, ends_pure]
      exact ⟨⟨.mark .free, ()⟩ :: (said ++ [⟨.mark .resetCanaries, ()⟩]), rfl, by simpa [Disturbs] using quiet⟩
    · exact ⟨_, rfl, quiet⟩
  · rintro abort _ ⟨said, rfl, onset⟩
    refine ⟨said ++ [⟨.mark .resetCanaries, ()⟩], List.append_cons .., ?_⟩
    rw [said_append]
    exact .inl ((onset.disturbed_iff (between.appendable found)).mpr ⟨abort, rfl⟩)

/-- In every call after others. What ends the program in one call leaves nothing to call after it. -/
theorem ipaPoll_executionKept_iff (polled : Polled codec asn1c ctx t) {out : Except Abort (IpaContext × Int)}
    {said : Trace} (runs : Runs (ipaPoll codec asn1c ctx) t out (said ++ t)) :
    ExecutionKept ctx.iotEuiccEmuEnabled ctx t out (said ++ t) ↔
      (ctx.procEuccPkgDwnldExecRes.isSome → ¬ Said (Disturbs ctx.iotEuiccEmuEnabled) said) := by
  have disturbs (pending : ctx.procEuccPkgDwnldExecRes.isSome) :
      Said (Disturbs ctx.iotEuiccEmuEnabled) said ↔ ¬ ∃ ctx' rc, out = .ok (ctx', rc) := by
    have ends := (ipaPoll_disturbed (polled_between polled) pending).of_runs runs
    cases out with
    | ok out =>
        obtain ⟨said', same, quiet⟩ := ends.1 out rfl
        rw [List.append_cancel_right same]
        exact iff_of_false quiet (not_not.mpr ⟨_, _, rfl⟩)
    | error abort =>
        obtain ⟨said', same, disturbed⟩ := ends.2 abort rfl
        rw [List.append_cancel_right same]
        refine iff_of_true disturbed ?_
        rintro ⟨_, _, ⟨⟩⟩
  constructor
  · intro kept pending
    rw [disturbs pending, not_not]
    exact kept.returns pending
  intro undisturbed
  have lawful := polled_lawful polled runs
  have ends := (ipaPoll_ends (polled_between polled)).of_runs runs
  exact
    { online := fun ctx' rc returned => (ends.1 _ returned).online
      callOnset := fun ctx' rc res returned pending => ((ends.1 _ returned).between.pending res pending).1
      executing := fun ctx' rc returned => (ends.1 _ returned).between.executing_iff
      asserted := fun aborted => (ends.2 _ aborted).1 rfl
      retrieved := by
        intro later ans earlier split
        exact (split ▸ lawful).before
      mayRollback := by
        intro later earlier split
        exact (split ▸ lawful).before
      rolledBack := by
        intro later ans earlier split
        exact (split ▸ lawful).before
      enabled := by
        intro later iccid ans earlier split
        exact (split ▸ lawful).before.1
      onsetSteps := by
        intro later result earlier split
        exact (split ▸ lawful).before.1
      pendingSteps := by
        intro ctx' rc returned pending
        obtain ⟨res, execution⟩ := Option.isSome_iff_exists.mp pending
        exact ((ends.1 _ returned).between.pending res execution).2.2.onsetSteps_le
      returns := fun pending => not_not.mp (mt (disturbs pending).mpr (undisturbed pending))
      advances := fun ctx' rc returned => (ends.1 _ returned).advances
      finishes := fun ctx' rc returned => (ends.1 _ returned).finishes }

end

theorem unreachable_executionKept :
    let start := polls derCodec oneChunk unreachable 1 (freshContext false) []
    let ended := run unreachable.answer (ipaPoll derCodec oneChunk start.1) start.2
    (seen ended.2).rollbacks = 1 ∧ ExecutionKept false start.1 start.2 ended.1 (ended.2.take 7 ++ start.2) := by
  intro start ended
  have runs : Runs (ipaPoll derCodec oneChunk start.1) start.2 ended.1 (ended.2.take 7 ++ start.2) :=
    runs_run unreachable.answer _ _
  have polled : Polled derCodec oneChunk start.1 start.2 :=
    polled_polls derCodec oneChunk unreachable 1 (.new false [] .fresh plainConfig)
  refine ⟨rfl, (ipaPoll_executionKept_iff polled runs).mpr fun _ => ?_⟩
  show ¬ Said (Disturbs false) [⟨.profileRollback, _⟩, ⟨.mark .prfleRollback, _⟩, ⟨.provideEimPackageResult _ _, _⟩,
    ⟨.encode (.provideEimPackageResult _ _), .encoded⟩, ⟨.retrieveNotificationsList _, _⟩, ⟨.mark (.onset _), _⟩,
    ⟨.mark .resetCanaries, _⟩]
  simp [Disturbs, Releasable]

/-- The eUICC executes the package and refuses to list its notifications afterwards. -/
def unlisted (t : Trace) : (req : Req) → Ans req
  | .retrieveNotificationsList _ => some (.notificationsListResultError 127)
  | req => unreachable.answer t req

theorem unlisted_not_executionKept : ¬ ∀ ctx t out t', Polled derCodec oneChunk ctx t →
    Runs (ipaPoll derCodec oneChunk ctx) t out t' → ExecutionKept ctx.iotEuiccEmuEnabled ctx t out t' := by
  intro always
  have polled := polled_polls derCodec oneChunk unreachable 1 (.new true [] .fresh plainConfig)
  obtain ⟨_, _, returned⟩ := (always _ _ _ _ polled (runs_run unlisted _ _)).returns rfl
  cases returned

end Ipad.Proc

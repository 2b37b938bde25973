import Ipad.Proc.Keep

/-!
# The execution of an eUICC package over whole runs
-/

namespace Ipad.Proc
open Lib.Dialogue Ipad.EimCfg Ipad.Nvstate Ipad.Utils

/-! ## Where an execution stands -/

structure Linked (emulated : Bool) (ctx : IpaContext) (t : Trace) : Prop where
  mode : ctx.iotEuiccEmuEnabled = emulated
  rollbackIccid : ctx.rollbackIccid = (seen t).rememberedIccid

structure Begun (euiccPackageRequest : EuiccPackageRequest) (seen : Seen) : Prop where
  executing : seen.executing = some euiccPackageRequest
  onsetSteps : seen.onsetSteps = 0
  rollbacks : seen.rollbacks = 0
  rolledBack : seen.rolledBack = none

structure Executes (emulated : Bool) (load : LoadEuiccPkgRes) (euiccPackageRequest : EuiccPackageRequest)
    (t : Trace) : Prop where
  executing : (seen t).executing = some euiccPackageRequest
  allowed : load.rollbackAllowed = checkForRollbackFlag euiccPackageRequest
  changed : load.profileChanged = checkForProfileChange load.res
  signed : Conforming emulated t → load.res.Signed
  native : emulated = false → (seen t).loaded = some load.res
  started : emulated = true → (seen t).startAnswer.isSome
  answered : emulated = true → PsmosAnswered euiccPackageRequest load.res

/-- An emulated rollback carries the loaded result, extended; otherwise it carries what was answered. -/
def Carries (emulated : Bool) (loaded : EuiccPackageResult) (rollback : ProfileRollbackResponse)
    (rolledBack : Option EuiccPackageResult) : Prop :=
  ∀ result, rollback.eUICCPackageResult = some result →
    (emulated = true ∧ ∀ first, loaded = .euiccPackageResultSigned first → result.Numbered first.seqNumber) ∨
      (emulated = false ∧ rolledBack = some result)

/-- An onset step is to come: the first, or the second after a rollback. -/
inductive Stage (emulated : Bool) (res : DwnldExecRes) (seen : Seen) : Prop where
  | first (onlyLoaded : res.prfleRollbackRes = none) (onsetSteps : seen.onsetSteps = 0)
      (rollbacks : seen.rollbacks = 0) (rolledBack : seen.rolledBack = none)
  | again (rollback : ProfileRollbackResponse) (rolled : res.prfleRollbackRes = some rollback)
      (onsetSteps : seen.onsetSteps = 1)
      (carries : Carries emulated res.loadEuiccPkgRes.res rollback seen.rolledBack)

structure Stepped (emulated : Bool) (ctx : IpaContext) (euiccPackageRequest : EuiccPackageRequest)
    (onsetSteps : Nat) (out : Int × DwnldExecRes) (t : Trace) : Prop where
  lawful : Lawful emulated t
  linked : Linked emulated ctx t
  onsetSteps : (seen t).onsetSteps = onsetSteps
  again : out.2.callOnset = true → out.1 = 0 ∧
    Executes emulated out.2.loadEuiccPkgRes euiccPackageRequest t ∧ Stage emulated out.2 (seen t)

/-- What holds between two calls of the poll. -/
structure Between (emulated : Bool) (ctx : IpaContext) (t : Trace) : Prop where
  lawful : Lawful emulated t
  linked : Linked emulated ctx t
  idle : ctx.procEuccPkgDwnldExecRes = none → (seen t).executing = none
  pending : ∀ res, ctx.procEuccPkgDwnldExecRes = some res → res.callOnset = true ∧
    (∃ euiccPackageRequest, Executes emulated res.loadEuiccPkgRes euiccPackageRequest t) ∧
    Stage emulated res (seen t)

section
variable {emulated : Bool} {ctx ctx' : IpaContext} {t t' : Trace} {res : DwnldExecRes}
  {euiccPackageRequest : EuiccPackageRequest}

theorem Linked.later (linked : Linked emulated ctx t) (same : SameCtx ctx ctx')
    (remembered : (seen t').rememberedIccid = (seen t).rememberedIccid) : Linked emulated ctx' t' where
  mode := same.mode.trans linked.mode
  rollbackIccid := same.rollbackIccid.trans (linked.rollbackIccid.trans remembered.symm)

theorem Executes.later {load : LoadEuiccPkgRes} (executes : Executes emulated load euiccPackageRequest t)
    (suffix : t <:+ t') (executing : (seen t').executing = (seen t).executing)
    (loaded : (seen t').loaded = (seen t).loaded) (startAnswer : (seen t').startAnswer = (seen t).startAnswer) :
    Executes emulated load euiccPackageRequest t' where
  executing := executing.trans executes.executing
  allowed := executes.allowed
  changed := executes.changed
  signed := fun conforming => executes.signed (conforming.suffix suffix)
  native := fun native => loaded.trans (executes.native native)
  started := fun emulation => startAnswer ▸ executes.started emulation
  answered := executes.answered

theorem Between.kept (between : Between emulated ctx t) (kept : Kept emulated t t') (same : SameCtx ctx ctx') :
    Between emulated ctx' t' where
  lawful := kept.lawful
  linked := between.linked.later same (by rw [kept.seen])
  idle := fun none => kept.seen ▸ between.idle (same.execution ▸ none)
  pending := by
    intro res pending
    obtain ⟨callOnset, ⟨request, executes⟩, stage⟩ := between.pending res (same.execution ▸ pending)
    refine ⟨callOnset, ⟨request, executes.later kept.suffix ?_ ?_ ?_⟩, kept.seen ▸ stage⟩
    · rw [kept.seen]
    · rw [kept.seen]
    · rw [kept.seen]

theorem Stage.onsetSteps_le (stage : Stage emulated res (seen t)) : (seen t).onsetSteps ≤ 1 := by
  cases stage with
  | first _ onsetSteps => omega
  | again _ _ onsetSteps => omega

theorem Stage.carries (stage : Stage emulated res (seen t)) {rollback : ProfileRollbackResponse}
    (rolled : res.prfleRollbackRes = some rollback) :
    Carries emulated res.loadEuiccPkgRes.res rollback (seen t).rolledBack := by
  cases stage with
  | first onlyLoaded => cases onlyLoaded.symm.trans rolled
  | again other rolled' _ carries =>
      cases rolled.symm.trans rolled'
      exact carries

/-! ## Loading -/

theorem updateRollbackIccid_ends (linked : Linked true ctx t) :
    Ends (fun ctx' t' => Linked true ctx' t' ∧
        ctx'.procEuccPkgDwnldExecRes = ctx.procEuccPkgDwnldExecRes ∧
        ∃ answer, t' = ⟨.getProfilesInfo .rollback, answer⟩ :: t)
      (Aborts emulated) (updateRollbackIccid ctx) t := by
  rw [ends_updateRollbackIccid]
  refine fun answer => ⟨⟨linked.mode, ?_⟩, rfl, answer, rfl⟩
  simp only [IpaContext.refreshed, linked.mode, linked.rollbackIccid]
  rfl

theorem loadEuiccPkgIotEmu_ends (codec : EimCfgCodec) (linked : Linked true ctx t) (lawful : Lawful true t)
    (just : JustBegun t) (begun : Begun euiccPackageRequest (seen t))
    (conforming : Conforming true t → euiccPackageRequest.euiccPackage ≠ .nothing) :
    Ends (fun out t' => Linked true out.1 t' ∧ Lawful true t' ∧ Begun euiccPackageRequest (seen t') ∧
        out.1.procEuccPkgDwnldExecRes = ctx.procEuccPkgDwnldExecRes ∧
        Executes true ⟨out.2, checkForProfileChange out.2, checkForRollbackFlag euiccPackageRequest⟩
          euiccPackageRequest t')
      (Aborts true) (loadEuiccPkgIotEmu codec ctx euiccPackageRequest) t := by
  unfold loadEuiccPkgIotEmu
  apply (updateRollbackIccid_ends linked).bind
  rintro ctx' _ ⟨linked', execution, answer, rfl⟩
  have read : Kept true _ (⟨.getProfilesInfo .rollback, answer⟩ :: t) := .refl ⟨just, lawful⟩
  have loads {ctx'' : IpaContext} {t'' : Trace} (res : EuiccPackageResult) (same : SameCtx ctx' ctx'')
      (kept : Kept true (⟨.getProfilesInfo .rollback, answer⟩ :: t) t'')
      (signed : Conforming true t → res.Signed) (answered : PsmosAnswered euiccPackageRequest res) :
      Linked true ctx'' t'' ∧ Lawful true t'' ∧ Begun euiccPackageRequest (seen t'') ∧
        ctx''.procEuccPkgDwnldExecRes = ctx.procEuccPkgDwnldExecRes ∧
        Executes true ⟨res, checkForProfileChange res, checkForRollbackFlag euiccPackageRequest⟩
          euiccPackageRequest t'' := by
    have begun'' : Begun euiccPackageRequest (seen t'') := by
      rw [kept.seen]
      exact ⟨begun.executing, begun.onsetSteps, begun.rollbacks, begun.rolledBack⟩
    refine ⟨linked'.later same (by rw [kept.seen]), kept.lawful, begun'', same.execution.trans execution, ?_⟩
    refine ⟨begun''.executing, rfl, rfl, fun conforming => signed (kept.conforming conforming).2, nofun, ?_,
      fun _ => answered⟩
    intro _
    rw [kept.seen]
    rfl
  rw [ends_bind]
  refine ends_ofExcept read _ fun transactionId _ => ?_
  split
  next list package =>
    apply (iotEmoDoList_keeps iotEmoDoPsmo_obeys read ctx' list).bind
    rintro ⟨ctx'', results⟩ t'' ⟨same, kept, answered⟩
    refine loads _ same kept (fun _ => ⟨_, rfl⟩) ?_
    rintro list' signed package' ⟨⟩
    cases package.symm.trans package'
    exact answered
  next list package =>
    apply (iotEmoDoList_keeps (iotEmoDoEco_obeys codec) read ctx' list).bind
    rintro ⟨ctx'', results⟩ t'' ⟨same, kept, -⟩
    refine loads _ same kept (fun _ => ⟨_, rfl⟩) ?_
    intro list' signed package'
    cases package.symm.trans package'
  next package =>
    refine loads _ (.refl ctx') read (fun conformed => absurd package (conforming conformed)) ?_
    intro list' signed package'
    cases package.symm.trans package'

theorem ipaEs10bLoadEuiccPkg_ends (codec : EimCfgCodec) (linked : Linked emulated ctx t)
    (lawful : Lawful emulated t) (just : JustBegun t) (begun : Begun euiccPackageRequest (seen t))
    (conforming : Conforming emulated t → emulated = true → euiccPackageRequest.euiccPackage ≠ .nothing) :
    Ends (fun out t' => Linked emulated out.1 t' ∧ Lawful emulated t' ∧ Begun euiccPackageRequest (seen t') ∧
        out.1.procEuccPkgDwnldExecRes = ctx.procEuccPkgDwnldExecRes ∧
        ∀ load, out.2 = some load → Executes emulated load euiccPackageRequest t')
      (Aborts emulated) (ipaEs10bLoadEuiccPkg codec ctx euiccPackageRequest) t := by
  simp only [ipaEs10bLoadEuiccPkg, loadEuiccPkg, ends_bind]
  cases emulated with
  | true =>
      rw [if_pos linked.mode]
      apply (loadEuiccPkgIotEmu_ends codec linked lawful just begun fun conformed =>
        conforming conformed rfl).bind
      rintro ⟨ctx', res⟩ t' ⟨linked', lawful', begun', execution, executes⟩
      refine ⟨linked', lawful', begun', execution, ?_⟩
      rintro _ ⟨⟩
      exact executes
  | false =>
      rw [if_neg (by rw [linked.mode]; exact Bool.false_ne_true)]
      simp only [ends_bind, ends_send, ends_pure]
      have encoded (outcome : Encoding) :=
        (Kept.refl lawful).idle (.encode (.loadEuiccPackage euiccPackageRequest)) outcome trivial
      refine ⟨fun answer => ?_, ?_, aborts_fault (encoded .aborted).lawful _⟩
      rotate_left
      · exact ⟨⟨linked.mode, linked.rollbackIccid⟩, (encoded .refused).lawful, begun, trivial, by simp [Req.silence]⟩
      refine ⟨⟨linked.mode, linked.rollbackIccid⟩, ⟨trivial, (encoded .encoded).lawful⟩,
        ⟨begun.executing, begun.onsetSteps, begun.rollbacks, begun.rolledBack⟩, trivial, ?_⟩
      intro load found
      cases answer with
      | none => cases found
      | some res =>
          cases found
          exact ⟨begun.executing, rfl, rfl, And.left, fun _ => rfl,
            fun emulation => absurd emulation Bool.false_ne_true,
            fun emulation => absurd emulation Bool.false_ne_true⟩

/-! ## Rolling back -/

theorem appendRollbackResult_numbered {rollbackSuccessful : Bool} {loaded result : EuiccPackageResult}
    (appended : appendRollbackResult rollbackSuccessful loaded = .ok result) (first : EuiccPackageResultSigned)
    (signed : loaded = .euiccPackageResultSigned first) : result.Numbered first.seqNumber := by
  subst signed
  cases appended
  exact ⟨_, rfl, rfl⟩

theorem ipaEs10bPrfleRollback_ends (linked : Linked emulated ctx t) (lawful : Lawful emulated t)
    (may : MayRollback emulated t) (started : emulated = true → (seen t).startAnswer.isSome)
    {loaded : EuiccPackageResult} (own : ∀ pending, ctx.procEuccPkgDwnldExecRes = some pending →
      pending.loadEuiccPkgRes.res = loaded) :
    Ends (fun rollback t' => Lawful emulated t' ∧ t <:+ t' ∧
        ∃ rolledBack, seen t' = { seen t with rollbacks := (seen t).rollbacks + 1, rolledBack } ∧
          ∀ response, rollback = some response → Carries emulated loaded response rolledBack)
      (Aborts emulated) (ipaEs10bPrfleRollback ctx) t := by
  simp only [ipaEs10bPrfleRollback, ends_bind, ends_mark]
  have marked : Lawful emulated (⟨.mark .prfleRollback, ()⟩ :: t) := ⟨may, lawful⟩
  cases emulated with
  | false =>
      rw [if_neg (by rw [linked.mode]; exact Bool.false_ne_true)]
      intro answer
      refine ⟨⟨⟨t, rfl⟩, marked⟩, (List.suffix_cons ..).trans (List.suffix_cons ..), _, rfl, ?_⟩
      rintro response rfl result carried
      exact .inr ⟨rfl, carried⟩
  | true =>
      rw [if_pos linked.mode, prfleRollbackEmu]
      cases rollbackIccid : ctx.rollbackIccid with
      | none => exact ⟨marked, List.suffix_cons .., _, rfl, fun _ found => absurd found.symm (Option.some_ne_none _)⟩
      | some iccid =>
          have remembered := linked.rollbackIccid.symm.trans rollbackIccid
          simp only [ends_bind, ends_request]
          intro answer
          have enabled : Lawful true (⟨.enableProfile .rollback iccid, answer⟩ ::
              ⟨.mark .prfleRollback, ()⟩ :: t) := ⟨⟨⟨t, rfl⟩, remembered, started rfl⟩, marked⟩
          have suffix : t <:+ ⟨.enableProfile .rollback iccid, answer⟩ :: ⟨.mark .prfleRollback, ()⟩ :: t :=
            (List.suffix_cons ..).trans (List.suffix_cons ..)
          cases answer with
          | none => exact ⟨enabled, suffix, _, rfl, fun _ found => absurd found.symm (Option.some_ne_none _)⟩
          | some enableResult =>
              cases execution : ctx.procEuccPkgDwnldExecRes with
              | none =>
                  refine ⟨enabled, suffix, _, rfl, ?_⟩
                  rintro _ ⟨⟩ _ ⟨⟩
              | some pending =>
                  have same := own pending execution
                  subst same
                  simp only [ends_bind]
                  refine ends_ofExcept (.refl enabled) _ fun result appended => ?_
                  refine ⟨enabled, suffix, _, rfl, ?_⟩
                  rintro _ ⟨⟩ _ ⟨⟩
                  exact .inl ⟨rfl, appendRollbackResult_numbered appended⟩

/-! ## Onset -/

theorem DwnldExecRes.delivered_eq : res.delivered =
    (res.prfleRollbackRes.bind ProfileRollbackResponse.eUICCPackageResult).getD res.loadEuiccPkgRes.res := by
  unfold DwnldExecRes.delivered
  cases res.prfleRollbackRes with
  | none => rfl
  | some rollback => rfl

theorem delivers_loaded (res : DwnldExecRes)
    (executes : Executes emulated res.loadEuiccPkgRes euiccPackageRequest t)
    (carries : ∀ rollback, res.prfleRollbackRes = some rollback →
      Carries emulated res.loadEuiccPkgRes.res rollback (seen t).rolledBack)
    {notifications : NotificationsListResponse} {eimAcknowledgements : Option (List Int)}
    (conforms : Conforms emulated
      ⟨.provideEimPackageResult res.delivered notifications, some eimAcknowledgements⟩ t)
    (signed : res.loadEuiccPkgRes.res.Signed) :
    Delivers res.loadEuiccPkgRes.res.seqNumberField
      ⟨.provideEimPackageResult res.delivered notifications, some eimAcknowledgements⟩ := by
  obtain ⟨first, loaded⟩ := signed
  have own : res.loadEuiccPkgRes.res.Numbered first.seqNumber := ⟨first, loaded, rfl⟩
  rw [show res.loadEuiccPkgRes.res.seqNumberField = first.seqNumber by rw [loaded]; rfl]
  show res.delivered.Numbered first.seqNumber ∨ first.seqNumber ∈ eimAcknowledgements.getD []
  rw [DwnldExecRes.delivered_eq]
  cases rolled : res.prfleRollbackRes with
  | none => exact .inl own
  | some rollback =>
      simp only [Option.bind_some]
      cases carried : rollback.eUICCPackageResult with
      | none => exact .inl own
      | some result =>
          rcases carries rollback rolled result carried with ⟨-, numbered⟩ | ⟨native, rolledBack⟩
          · exact .inl (numbered first loaded)
          · exact conforms result first rolledBack ((executes.native native).trans (congrArg some loaded))

theorem onsetUnanswered_ends (res : DwnldExecRes) (linked : Linked emulated ctx t) (lawful : Lawful emulated t)
    (executes : Executes emulated res.loadEuiccPkgRes euiccPackageRequest t)
    (begun : res.prfleRollbackRes = none → (seen t).onsetSteps = 1 ∧ (seen t).rollbacks = 0)
    (onset : (seen t).onsetResult = some res.loadEuiccPkgRes.res)
    (unanswered : JustUnanswered t)
    (notCalled : res.callOnset = false)
    (own : ∀ pending, ctx.procEuccPkgDwnldExecRes = some pending →
      pending.loadEuiccPkgRes.res = res.loadEuiccPkgRes.res) :
    Ends (Stepped emulated ctx euiccPackageRequest (seen t).onsetSteps) (Aborts emulated)
      (onsetUnanswered ctx res) t := by
  have failed : Stepped emulated ctx euiccPackageRequest (seen t).onsetSteps (einval, res) t :=
    ⟨lawful, linked, rfl, by rw [notCalled]; nofun⟩
  unfold onsetUnanswered
  split
  · exact failed
  split
  · exact failed
  split
  · exact failed
  next changed allowed notRolled =>
    have onlyLoaded : res.prfleRollbackRes = none := by simpa using notRolled
    obtain ⟨onsetSteps, rollbacks⟩ := begun onlyLoaded
    have may : MayRollback emulated t :=
      { unanswered
        execution := ⟨euiccPackageRequest, res.loadEuiccPkgRes.res, executes.executing, onset,
          executes.allowed.symm.trans (by simpa using allowed),
          executes.changed.symm.trans (by simpa using changed), executes.answered⟩
        first := rollbacks }
    apply (ipaEs10bPrfleRollback_ends linked lawful may executes.started own).bind
    rintro rollback t' ⟨lawful', suffix, rolledBack, after, carries⟩
    have linked' : Linked emulated ctx t' := linked.later (.refl ctx) (by rw [after])
    have steps : (seen t').onsetSteps = (seen t).onsetSteps := by rw [after]
    cases rollback with
    | none => exact ⟨lawful', linked', steps, by rw [notCalled]; nofun⟩
    | some response =>
        simp only
        split
        · exact ⟨lawful', linked', steps, by rw [notCalled]; nofun⟩
        · refine ⟨lawful', linked', steps, fun _ => ⟨rfl, ?_, ?_⟩⟩
          · exact executes.later suffix (by rw [after]) (by rw [after]) (by rw [after])
          · exact .again response rfl (steps.trans onsetSteps) (by rw [after]; exact carries response rfl)

theorem ipaProcEuccPkgDwnldExecOnset_ends (res : DwnldExecRes) (linked : Linked emulated ctx t)
    (lawful : Lawful emulated t)
    (executes : Executes emulated res.loadEuiccPkgRes euiccPackageRequest t)
    (stage : Stage emulated res (seen t))
    (own : ∀ pending, ctx.procEuccPkgDwnldExecRes = some pending →
      pending.loadEuiccPkgRes.res = res.loadEuiccPkgRes.res) :
    Ends (Stepped emulated ctx euiccPackageRequest ((seen t).onsetSteps + 1)) (Aborts emulated)
      (ipaProcEuccPkgDwnldExecOnset ctx res) t := by
  unfold ipaProcEuccPkgDwnldExecOnset
  simp only [ipaEs10bRetrNotifFromLst, ends_bind, ends_mark, ends_request, ends_pure]
  intro answer
  have marked : Lawful emulated (⟨.mark (.onset res.loadEuiccPkgRes.res), ()⟩ :: t) :=
    ⟨⟨stage.onsetSteps_le, executes.signed⟩, lawful⟩
  have kept := (Kept.refl marked).idle
    (.retrieveNotificationsList (some res.loadEuiccPkgRes.res.seqNumberField)) answer trivial
  have still {t' : Trace} (kept : Kept emulated (⟨.mark (.onset res.loadEuiccPkgRes.res), ()⟩ :: t) t') :
      Executes emulated res.loadEuiccPkgRes euiccPackageRequest t' :=
    executes.later ((List.suffix_cons ..).trans kept.suffix) (by rw [kept.seen]; rfl) (by rw [kept.seen]; rfl)
      (by rw [kept.seen]; rfl)
  have stepped {t' : Trace} (kept : Kept emulated (⟨.mark (.onset res.loadEuiccPkgRes.res), ()⟩ :: t) t')
      (rc : Int) : Stepped emulated ctx euiccPackageRequest ((seen t).onsetSteps + 1)
        (rc, { res with callOnset := false }) t' :=
    ⟨kept.lawful, linked.later (.refl ctx) (by rw [kept.seen]; rfl), by rw [kept.seen]; rfl,
      fun again => absurd again Bool.false_ne_true⟩
  have unanswered {t' : Trace} (kept : Kept emulated (⟨.mark (.onset res.loadEuiccPkgRes.res), ()⟩ :: t) t')
      (just : JustUnanswered t') : Ends (Stepped emulated ctx euiccPackageRequest ((seen t).onsetSteps + 1))
        (Aborts emulated) (onsetUnanswered ctx { res with callOnset := false }) t' := by
    have begun (onlyLoaded : res.prfleRollbackRes = none) :
        (seen t).onsetSteps + 1 = 1 ∧ (seen t).rollbacks = 0 := by
      cases stage with
      | first _ onsetSteps rollbacks => exact ⟨congrArg (· + 1) onsetSteps, rollbacks⟩
      | again rollback rolled => cases onlyLoaded.symm.trans rolled
    have ends := onsetUnanswered_ends { res with callOnset := false } (stepped kept 0).linked kept.lawful
      (still kept) (by rw [kept.seen]; exact begun) (by rw [kept.seen]; rfl) just rfl own
    rwa [(stepped kept 0).onsetSteps] at ends
  have notified (notifications : Option RetrNotifFromLstRes) :
      Ends (Stepped emulated ctx euiccPackageRequest ((seen t).onsetSteps + 1)) (Aborts emulated)
        (onsetNotified ctx { res with callOnset := false } notifications)
        (⟨.retrieveNotificationsList (some res.loadEuiccPkgRes.res.seqNumberField), answer⟩ ::
          ⟨.mark (.onset res.loadEuiccPkgRes.res), ()⟩ :: t) := by
    unfold onsetNotified
    split
    next => exact stepped kept einval
    next notifications _ =>
      have encoded (outcome : Encoding) := kept.idle
        (.encode (.provideEimPackageResult { res with callOnset := false }.delivered notifications)) outcome trivial
      rw [onsetProvide, ends_bind]
      refine (ends_send (.provideEimPackageResult ..) _ _).mpr ⟨fun delivery => ?_, ?_, ?_⟩
      · have provided := (encoded .encoded).idle
          (.provideEimPackageResult { res with callOnset := false }.delivered notifications) delivery trivial
        cases delivery with
        | none => exact unanswered provided (.silent ..)
        | some eimAcknowledgements =>
            refine (onsetAnswered_keeps provided _ eimAcknowledgements ?_).imp ?_
            · intro conforming seqNumber member
              refine ⟨_, List.mem_cons_self .., ?_⟩
              rcases List.mem_cons.mp member with rfl | acknowledged
              · apply delivers_loaded { res with callOnset := false } (still (encoded .encoded)) _ conforming.1
                · exact (still provided).signed conforming
                · intro rollback rolled
                  rw [(encoded .encoded).seen]
                  exact stage.carries rolled
              · exact .inr acknowledged
            · rintro ⟨rc, _⟩ t' ⟨kept, rfl⟩
              exact stepped kept rc
      · exact unanswered (encoded .refused) (.unencoded ..)
      · exact aborts_fault (encoded .aborted).lawful _
  refine (notified _).imp fun out t' after => ?_
  rw [ends_bind]
  exact ends_ofExcept (.refl after.lawful) _ fun _ _ => after

end

end Ipad.Proc

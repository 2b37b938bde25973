import Ipad.Proc.Idle

/-!
# Procedures that leave the executions alone
-/

namespace Ipad.Proc
open Lib.Dialogue Ipad.EimCfg Ipad.Nvstate Ipad.BppSegments Ipad.Utils

structure SameCtx (ctx ctx' : IpaContext) : Prop where
  mode : ctx'.iotEuiccEmuEnabled = ctx.iotEuiccEmuEnabled
  rollbackIccid : ctx'.rollbackIccid = ctx.rollbackIccid
  execution : ctx'.procEuccPkgDwnldExecRes = ctx.procEuccPkgDwnldExecRes

theorem SameCtx.refl (ctx : IpaContext) : SameCtx ctx ctx := ⟨rfl, rfl, rfl⟩

theorem SameCtx.trans {ctx ctx' ctx'' : IpaContext} (first : SameCtx ctx ctx') (second : SameCtx ctx' ctx'') :
    SameCtx ctx ctx'' :=
  ⟨second.mode.trans first.mode, second.rollbackIccid.trans first.rollbackIccid,
    second.execution.trans first.execution⟩

/-! ## Emulated commands -/

/-- A command leaves the context but for the state in non-volatile memory. -/
def Obeys (ctx : IpaContext) (t : Trace) (program : ProcM (IpaContext × Option EuiccResultData))
    (Answer : Option EuiccResultData → Prop) : Prop :=
  Ends (fun out t' => SameCtx ctx out.1 ∧ Adds Req.Commanding t t' ∧ Answer out.2)
    (fun abort t' => abort ≠ .executionPending ∧ Adds Req.Commanding t t') program t

section
variable {t : Trace}

theorem obeys_send {ctx : IpaContext} (req : Req) {result : Ans req → EuiccResultData}
    {Answer : Option EuiccResultData → Prop} (commanding : req.Commanding)
    (answers : ∀ ans, Answer (some (result ans))) :
    Obeys ctx t (send req >>= fun ans => pure (ctx, some (result ans))) Answer := by
  rw [Obeys, ends_bind]
  refine (send_sends req t).mono ?_ ?_
  · rintro ans _ ⟨events, sends, rfl⟩
    exact ⟨.refl ctx, sends.adds commanding commanding t, answers ans⟩
  · rintro abort _ ⟨events, sends, rfl⟩
    have adds := sends.adds (P := Req.Commanding) commanding commanding t
    cases sends with
    | aborted => exact ⟨Abort.noConfusion, adds⟩

theorem iotEmoDoPsmo_obeys (ctx : IpaContext) (psmo : Psmo) : Obeys ctx t (iotEmoDoPsmo ctx psmo) psmo.Answer := by
  cases psmo with
  | enable iccid rollbackFlag => exact obeys_send (.enableProfile .psmo iccid) rfl fun _ => trivial
  | disable iccid => exact obeys_send (.disableProfile iccid) trivial fun _ => trivial
  | delete iccid => exact obeys_send (.deleteProfile iccid) trivial fun _ => trivial
  | listProfileInfo listProfileInfo =>
      simp only [Obeys, iotEmoDoPsmo, iotEmoDoListProfileInfoPsmo, ipaEs10cGetPrfleInfo, getProfilesInfo, ends_bind]
      refine (send_sends (.getProfilesInfo .psmo) t).mono ?_ ?_
      · rintro ans _ ⟨events, sends, rfl⟩
        have adds := sends.adds (P := Req.Commanding) rfl rfl t
        rw [ends_pure]
        cases ans with
        | none => exact ⟨.refl ctx, adds, trivial⟩
        | some answer =>
            simp only [Option.map_some]
            split
            · exact ⟨.refl ctx, adds, trivial⟩
            · exact ⟨Abort.noConfusion, adds⟩
      · rintro abort _ ⟨events, sends, rfl⟩
        have adds := sends.adds (P := Req.Commanding) rfl rfl t
        cases sends with
        | aborted => exact ⟨Abort.noConfusion, adds⟩
  | getRat =>
      simp only [Obeys, iotEmoDoPsmo, iotEmoDoGetRatPsmo, ends_bind, ends_request]
      intro ans
      have asked : Adds Req.Commanding t (⟨.getRat, ans⟩ :: t) := (Adds.refl _ t).cons _ ans trivial
      split
      · exact ⟨.refl ctx, asked, trivial⟩
      · exact ⟨Abort.noConfusion, asked⟩
  | configureAutoEnable => exact ⟨⟨rfl, rfl, rfl⟩, .refl _ t, trivial⟩
  | unsupported => exact ⟨.refl ctx, .refl _ t, trivial⟩

theorem iotEmoDoEco_obeys (codec : EimCfgCodec) (ctx : IpaContext) (eco : Eco) :
    Obeys ctx t (iotEmoDoEco codec ctx eco) fun _ => True := by
  have written {α : Type} (result : Except Fault (IpaNvstate × α)) (answer : α → EuiccResultData) :
      Obeys ctx t (do
        let (nvstate, res) ← ofExcept result
        return (ctx.setNvstate nvstate, some (answer res))) fun _ => True := by
    rw [Obeys, ends_bind]
    cases result with
    | ok out => exact ⟨⟨rfl, rfl, rfl⟩, .refl _ t, trivial⟩
    | error f => exact ⟨Abort.noConfusion, .refl _ t⟩
  cases eco with
  | addEim => exact written _ _
  | deleteEim => exact written _ _
  | updateEim => exact written _ _
  | listEim => exact ⟨.refl ctx, .refl _ t, trivial⟩
  | unsupported => exact ⟨.refl ctx, .refl _ t, trivial⟩

theorem iotEmoDoList_obeys {α : Type} {Answer : α → Option EuiccResultData → Prop}
    {command : IpaContext → α → ProcM (IpaContext × Option EuiccResultData)}
    (obeys : ∀ {t} ctx a, Obeys ctx t (command ctx a) (Answer a)) (ctx : IpaContext) (list : List α) :
    Ends (fun out t' => SameCtx ctx out.1 ∧ Adds Req.Commanding t t' ∧ Answered Answer list out.2)
      (fun abort t' => abort ≠ .executionPending ∧ Adds Req.Commanding t t') (iotEmoDoList command ctx list) t := by
  induction list generalizing ctx t with
  | nil => exact ⟨.refl ctx, .refl _ t, [], .nil, rfl⟩
  | cons first rest ih =>
      unfold iotEmoDoList
      apply (obeys ctx first).bind
      rintro ⟨ctx', outcome⟩ t' ⟨same, adds, answer⟩
      rw [ends_bind]
      refine (ih ctx').mono ?_ fun abort t'' stopped => ⟨stopped.1, adds.trans stopped.2⟩
      rintro ⟨ctx'', results⟩ t'' ⟨same', adds', outcomes, answers, rfl⟩
      refine ⟨same.trans same', adds.trans adds', outcome :: outcomes, .cons answer answers, ?_⟩
      cases outcome with
      | none => rfl
      | some result => rfl

def Req.Emulating : Req → Prop
  | .getProfilesInfo _ => True
  | req => req.Commanding

theorem Req.Commanding.emulating {req : Req} (commanding : req.Commanding) : req.Emulating := by
  cases req with
  | getProfilesInfo => trivial
  | _ => exact commanding

inductive Loads (req : EuiccPackageRequest) (t : Trace) : Option LoadEuiccPkgRes → Trace → Prop where
  | emulated (load : LoadEuiccPkgRes) (t' : Trace) (adds : Adds Req.Emulating t t') : Loads req t (some load) t'
  | native (ans : Option EuiccPackageResult) (events : Trace)
      (sends : Sends (.loadEuiccPackage req) (.ok ans) events) (load : Option LoadEuiccPkgRes)
      (loaded : load.isSome = ans.isSome) : Loads req t load (events ++ t)

theorem ipaEs10bLoadEuiccPkg_loads (codec : EimCfgCodec) (ctx : IpaContext) (req : EuiccPackageRequest) :
    Ends (fun out t' => out.1.iotEuiccEmuEnabled = ctx.iotEuiccEmuEnabled ∧
        out.1.procEuccPkgDwnldExecRes = ctx.procEuccPkgDwnldExecRes ∧ Loads req t out.2 t')
      (fun _ t' => Adds Req.Emulating t t' ∨ t' = ⟨.encode (.loadEuiccPackage req), .aborted⟩ :: t)
      (ipaEs10bLoadEuiccPkg codec ctx req) t := by
  have emulating : Ends (fun out t' => out.1.iotEuiccEmuEnabled = ctx.iotEuiccEmuEnabled ∧
      out.1.procEuccPkgDwnldExecRes = ctx.procEuccPkgDwnldExecRes ∧ Adds Req.Emulating t t')
      (fun _ t' => Adds Req.Emulating t t') (loadEuiccPkgIotEmu codec ctx req) t := by
    unfold loadEuiccPkgIotEmu
    rw [ends_bind, ends_updateRollbackIccid]
    intro ans
    have read : Adds Req.Emulating t (⟨.getProfilesInfo .rollback, ans⟩ :: t) :=
      (Adds.refl _ t).cons (.getProfilesInfo .rollback) ans trivial
    have stays {t' : Trace} {ctx' ctx'' : IpaContext} (same : SameCtx ctx' ctx'')
        (mode : ctx'.iotEuiccEmuEnabled = ctx.iotEuiccEmuEnabled)
        (execution : ctx'.procEuccPkgDwnldExecRes = ctx.procEuccPkgDwnldExecRes)
        (adds : Adds Req.Commanding (⟨.getProfilesInfo .rollback, ans⟩ :: t) t') :
        ctx''.iotEuiccEmuEnabled = ctx.iotEuiccEmuEnabled ∧
          ctx''.procEuccPkgDwnldExecRes = ctx.procEuccPkgDwnldExecRes ∧ Adds Req.Emulating t t' :=
      ⟨same.mode.trans mode, same.execution.trans execution,
        read.trans (adds.imp fun _ => Req.Commanding.emulating)⟩
    rw [ends_bind]
    cases dupTransactionId req.transactionId with
    | error f => exact read
    | ok transactionId =>
        cases req.euiccPackage with
        | psmoList list =>
            show Ends _ _ (_ >>= _) _
            rw [ends_bind]
            exact (iotEmoDoList_obeys iotEmoDoPsmo_obeys _ _).mono
              (fun _ _ out => stays out.1 rfl rfl out.2.1) fun _ _ stopped =>
                read.trans (stopped.2.imp fun _ => Req.Commanding.emulating)
        | ecoList list =>
            show Ends _ _ (_ >>= _) _
            rw [ends_bind]
            exact (iotEmoDoList_obeys (iotEmoDoEco_obeys codec) _ _).mono
              (fun _ _ out => stays out.1 rfl rfl out.2.1) fun _ _ stopped =>
                read.trans (stopped.2.imp fun _ => Req.Commanding.emulating)
        | nothing => exact ⟨rfl, rfl, read⟩
  simp only [ipaEs10bLoadEuiccPkg, loadEuiccPkg, ends_bind]
  split
  · rw [ends_bind]
    exact emulating.mono (fun out t' loaded => ⟨loaded.1, loaded.2.1, .emulated _ t' loaded.2.2⟩)
      fun _ _ adds => .inl adds
  · rw [ends_bind]
    refine (send_sends (.loadEuiccPackage req) t).mono ?_ ?_
    · rintro ans _ ⟨events, sends, rfl⟩
      exact ⟨rfl, rfl, .native ans events sends _ (by cases ans <;> rfl)⟩
    · rintro abort _ ⟨events, sends, rfl⟩
      cases sends with
      | aborted => exact .inr rfl

end

section
variable {emulated : Bool} {t₀ t : Trace}

theorem iotEmoDoList_keeps {α : Type} {Answer : α → Option EuiccResultData → Prop}
    {command : IpaContext → α → ProcM (IpaContext × Option EuiccResultData)}
    (obeys : ∀ {t} ctx a, Obeys ctx t (command ctx a) (Answer a)) (kept : Kept emulated t₀ t) (ctx : IpaContext)
    (list : List α) :
    Ends (fun out t' => SameCtx ctx out.1 ∧ Kept emulated t₀ t' ∧ Answered Answer list out.2)
      (Aborts emulated) (iotEmoDoList command ctx list) t := by
  have idle {t' : Trace} (adds : Adds Req.Commanding t t') : Kept emulated t₀ t' :=
    kept.adds (adds.imp fun _ => Req.Commanding.idle)
  exact (iotEmoDoList_obeys obeys ctx list).mono (fun _ _ out => ⟨out.1, idle out.2.1, out.2.2⟩)
    fun _ _ stopped => ⟨stopped.1, (idle stopped.2).lawful⟩

theorem ends_ofExcept {α : Type} {Q : α → Trace → Prop} (kept : Kept emulated t₀ t) (result : Except Fault α)
    (ok : ∀ a, result = .ok a → Q a t) : Ends Q (Aborts emulated) (ofExcept result) t := by
  cases result with
  | ok a => exact ok a rfl
  | error f => exact aborts_fault kept.lawful f

/-! ## Notifications -/

theorem ipaEs10bRmNotifFromLst_keeps (kept : Kept emulated t₀ t) (seqNumber : Int)
    (delivered : Conforming emulated t → Delivered seqNumber t) :
    Ends (fun _ t' => Kept emulated t₀ t' ∧ ∃ ans, t' = ⟨.removeNotificationFromList seqNumber, ans⟩ :: t)
      (Aborts emulated) (ipaEs10bRmNotifFromLst seqNumber) t := by
  simp only [ipaEs10bRmNotifFromLst, ends_bind, ends_request, ends_pure]
  exact fun ans => ⟨kept.remove seqNumber ans delivered, ans, rfl⟩

theorem ipaEsipaHandleNotif_keeps (kept : Kept emulated t₀ t) (notification : PendingNotification) :
    Ends (fun rc t' => Kept emulated t₀ t' ∧
        (0 ≤ rc → ∀ seqNumber, notification.seqNumber = some seqNumber → Delivered seqNumber t'))
      (Aborts emulated) (ipaEsipaHandleNotif notification) t := by
  simp only [ipaEsipaHandleNotif, ends_bind, ends_send]
  have encoded (outcome : Encoding) := kept.idle (.encode (.handleNotification notification)) outcome trivial
  refine ⟨fun ans => ?_, ⟨encoded _, fun positive => absurd positive (by decide)⟩, aborts_fault (encoded _).lawful _⟩
  have after := (encoded .encoded).idle (.handleNotification notification) ans trivial
  cases ans with
  | none => exact ⟨after, fun positive => absurd positive (by decide)⟩
  | some len =>
      refine ⟨after, fun positive seqNumber numbered => ?_⟩
      cases len with
      | zero => exact ⟨_, List.mem_cons_self .., numbered⟩
      | succ len =>
          rw [if_neg (Nat.succ_ne_zero len)] at positive
          exact absurd positive (by decide)

theorem Delivered.cons {seqNumber : Int} (delivered : Delivered seqNumber t) (event : Event Req Ans) :
    Delivered seqNumber (event :: t) := by
  obtain ⟨delivery, member, delivers⟩ := delivered
  exact ⟨delivery, List.mem_cons_of_mem _ member, delivers⟩

theorem removeNotifications_keeps (kept : Kept emulated t₀ t) (list : List Int)
    (delivered : Conforming emulated t → ∀ seqNumber ∈ list, Delivered seqNumber t) :
    Ends (fun _ t' => Kept emulated t₀ t') (Aborts emulated) (removeNotifications list) t := by
  induction list generalizing t with
  | nil => exact kept
  | cons seqNumber rest ih =>
      unfold removeNotifications
      apply (ipaEs10bRmNotifFromLst_keeps kept seqNumber fun conforming =>
        delivered conforming seqNumber (List.mem_cons_self ..)).bind
      rintro rc _ ⟨after, ans, rfl⟩
      split
      · exact after
      · refine ih after fun conforming other member => ?_
        exact (delivered conforming.2 other (List.mem_cons_of_mem _ member)).cons _

theorem onsetAnswered_keeps (kept : Kept emulated t₀ t) (res : DwnldExecRes)
    (eimAcknowledgements : Option (List Int))
    (delivered : Conforming emulated t → ∀ seqNumber ∈ res.loadEuiccPkgRes.res.seqNumberField ::
      eimAcknowledgements.getD [], Delivered seqNumber t) :
    Ends (fun out t' => Kept emulated t₀ t' ∧ out.2 = res) (Aborts emulated)
      (onsetAnswered res eimAcknowledgements) t := by
  unfold onsetAnswered
  apply (ipaEs10bRmNotifFromLst_keeps kept _ fun conforming =>
    delivered conforming _ (List.mem_cons_self ..)).bind
  rintro rc _ ⟨after, ans, rfl⟩
  split
  · exact ⟨after, rfl⟩
  · apply (removeNotifications_keeps after _ fun conforming seqNumber member =>
      (delivered conforming.2 seqNumber (List.mem_cons_of_mem _ member)).cons _).bind
    intro rc t kept
    split
    · exact ⟨kept, rfl⟩
    · exact ⟨kept, rfl⟩

theorem deliverNotifications_keeps (kept : Kept emulated t₀ t) (list : List PendingNotification) :
    Ends (fun _ t' => Kept emulated t₀ t') (Aborts emulated) (deliverNotifications list) t := by
  induction list generalizing t with
  | nil => exact kept
  | cons notification rest ih =>
      unfold deliverNotifications
      apply (ipaEsipaHandleNotif_keeps kept notification).bind
      rintro rc t ⟨kept, delivered⟩
      have remove (seqNumber : Int) (numbered : notification.seqNumber = some seqNumber) (positive : 0 ≤ rc) :
          Ends (fun _ t' => Kept emulated t₀ t') (Aborts emulated)
            (ipaEs10bRmNotifFromLst seqNumber >>= fun _ => deliverNotifications rest) t :=
        (ipaEs10bRmNotifFromLst_keeps kept seqNumber fun _ => delivered positive seqNumber numbered).bind
          fun _ _ after => ih after.1
      split
      next => exact ih kept
      next positive =>
        cases notification with
        | profileInstallationResult result => exact remove result.seqNumber rfl (Int.not_lt.mp positive)
        | otherSignedNotification seqNumber => exact remove seqNumber rfl (Int.not_lt.mp positive)
        | nothing => exact ih kept

theorem ipaNotifDelivery_keeps (kept : Kept emulated t₀ t) (ctx : IpaContext) :
    Ends (fun _ t' => Kept emulated t₀ t') (Aborts emulated) (ipaNotifDelivery ctx) t := by
  simp only [ipaNotifDelivery, ipaEs10bRetrNotifFromLst, ends_bind, ends_request, ends_pure]
  intro ans
  have after := kept.idle (.retrieveNotificationsList none) ans trivial
  have usable (notifications : Option NotificationsListResponse) :
      Ends (fun _ t' => Kept emulated t₀ t') (Aborts emulated) (deliverUsable notifications)
        (⟨.retrieveNotificationsList none, ans⟩ :: t) := by
    unfold deliverUsable
    split
    next list => exact (deliverNotifications_keeps after list).bind fun _ _ kept => kept
    next => exact after
  refine (usable _).imp fun rc t' kept => ?_
  rw [ends_bind]
  exact ends_ofExcept kept _ fun _ _ => kept

/-! ## Profile installation -/

theorem ipaEs10bLoadBndPrflePkg_keeps (kept : Kept emulated t₀ t) (ctx : IpaContext) (segment : IpaBuf) :
    Ends (fun out t' => SameCtx ctx out.1 ∧ Kept emulated t₀ t') (Aborts emulated)
      (ipaEs10bLoadBndPrflePkg ctx segment) t := by
  have checked : Ends (fun _ t' => Kept emulated t₀ t') (Aborts emulated) (withinBuffer segment) t := by
    unfold withinBuffer
    split
    · exact kept
    · rw [ends_bind, ends_request]
      intro overran
      have after := kept.idle (.overrun segment.bytes) overran trivial
      cases overran with
      | true => exact aborts_fault after.lawful _
      | false => exact after
  apply checked.bind
  intro _ t' kept ans
  exact ⟨⟨rfl, rfl, rfl⟩, kept.idle _ ans trivial⟩

theorem ipaEs10bEnableUsingDd_keeps (kept : Kept emulated t₀ t) (ctx : IpaContext) :
    Ends (fun out t' => SameCtx ctx out.1 ∧ Kept emulated t₀ t') (Aborts emulated)
      (ipaEs10bEnableUsingDd ctx) t := by
  unfold ipaEs10bEnableUsingDd
  rw [ends_bind, ends_mark]
  have marked := kept.idle (.mark .enableUsingDd) () trivial
  split
  · split
    · exact ⟨⟨rfl, rfl, rfl⟩, marked⟩
    · simp only [ends_bind, ends_request, ends_pure]
      exact fun ans => ⟨⟨rfl, rfl, rfl⟩, marked.idle _ ans (idle_enableProfile_autoEnable _)⟩
  · simp only [ends_bind, ends_request, ends_pure]
    exact fun ans => ⟨.refl ctx, marked.idle _ ans trivial⟩

theorem handleLoadBndPrflePkgRes_keeps (kept : Kept emulated t₀ t) (ctx : IpaContext)
    (res : Option PrfleInstRslt) :
    Ends (fun out t' => SameCtx ctx out.1 ∧ Kept emulated t₀ t' ∧ (out.2.1 < 0 ∨ out.2.1 = 0 ∨
        out.2.1 = 1 ∧ Delivered out.2.2 t')) (Aborts emulated) (handleLoadBndPrflePkgRes ctx res) t := by
  cases res with
  | none => exact ⟨.refl ctx, kept, .inr (.inl rfl)⟩
  | some result =>
      unfold handleLoadBndPrflePkgRes
      apply (ipaEs10bEnableUsingDd_keeps kept ctx).bind
      rintro out t ⟨same, kept⟩
      apply (ipaEsipaHandleNotif_keeps kept _).bind
      rintro rc t ⟨kept, delivered⟩
      refine ⟨same, kept, ?_⟩
      simp only
      split
      · exact .inl (by decide)
      next positive => exact .inr (.inr ⟨rfl, delivered (Int.not_lt.mp positive) _ rfl⟩)

theorem loadSegments_keeps (kept : Kept emulated t₀ t) (ctx : IpaContext) (segments : List IpaBuf)
    (seqNumber : Int) (before : segments = [] → 0 ≤ seqNumber → Delivered seqNumber t) :
    Ends (fun out t' => SameCtx ctx out.1 ∧ Kept emulated t₀ t' ∧
        ∀ seqNumber, out.2 = some seqNumber → 0 ≤ seqNumber → Delivered seqNumber t')
      (Aborts emulated) (loadSegments ctx segments seqNumber) t := by
  induction segments generalizing ctx t seqNumber with
  | nil =>
      refine ⟨.refl ctx, kept, ?_⟩
      rintro _ ⟨⟩ positive
      exact before rfl positive
  | cons segment rest ih =>
      unfold loadSegments
      apply (ipaEs10bLoadBndPrflePkg_keeps kept ctx segment).bind
      rintro ⟨ctx', res⟩ t ⟨same, kept⟩
      cases res with
      | none => exact ⟨same, kept, nofun⟩
      | some res =>
          apply (handleLoadBndPrflePkgRes_keeps kept ctx' res).bind
          rintro ⟨ctx'', rc, seqNumber⟩ t ⟨same', kept, outcome⟩
          have whole := same.trans same'
          simp only at outcome whole ⊢
          split
          · exact ⟨whole, kept, nofun⟩
          split
          · exact ⟨whole, kept, nofun⟩
          split
          next sent =>
            refine ⟨whole, kept, ?_⟩
            rintro _ ⟨⟩ -
            rcases outcome with negative | zero | ⟨-, delivered⟩
            · omega
            · omega
            · exact delivered
          next notNegative notLast notSent =>
            refine (ih kept ctx'' seqNumber ?_).imp fun _ _ after => ⟨whole.trans after.1, after.2⟩
            intro last positive
            rcases outcome with negative | zero | ⟨-, delivered⟩
            · omega
            · exact absurd ⟨zero, last⟩ notLast
            · exact delivered

theorem ipaProcPrfleInst_keeps (asn1c : Asn1c) (kept : Kept emulated t₀ t) (ctx : IpaContext)
    (boundProfilePackage : BoundProfilePackage) :
    Ends (fun out t' => SameCtx ctx out.1 ∧ Kept emulated t₀ t') (Aborts emulated)
      (ipaProcPrfleInst asn1c ctx boundProfilePackage) t := by
  simp only [ipaProcPrfleInst, ends_bind]
  refine ends_ofExcept kept _ fun segments _ => ?_
  cases segments with
  | none => exact ⟨.refl ctx, kept⟩
  | some segments =>
      apply (loadSegments_keeps kept ctx segments (-1) fun _ positive => absurd positive (by decide)).bind
      rintro ⟨ctx', seqNumber⟩ t ⟨same, kept, delivered⟩
      cases seqNumber with
      | none => exact ⟨same, kept⟩
      | some seqNumber =>
          simp only
          split
          next positive =>
            exact (ipaEs10bRmNotifFromLst_keeps kept seqNumber fun _ => delivered _ rfl positive).bind
              fun _ _ after => ⟨same, after.1⟩
          next => exact ⟨same, kept⟩

/-! ## Profile download -/

theorem instPrfle_keeps (asn1c : Asn1c) (kept : Kept emulated t₀ t) (ctx : IpaContext)
    (authClntRes : AuthClntRes) (boundProfilePackage : BoundProfilePackage) :
    Ends (fun ctx' t' => SameCtx ctx ctx' ∧ Kept emulated t₀ t') (Aborts emulated)
      (instPrfle asn1c ctx authClntRes boundProfilePackage) t := by
  apply (ipaProcPrfleInst_keeps asn1c kept ctx boundProfilePackage).bind
  rintro ⟨ctx', rc⟩ t ⟨same, kept⟩
  simp only [ends_bind, ends_mark]
  have marked := kept.idle (.mark (.prfleInst rc)) () trivial
  split
  · exact ((cancelAuthClnt_serving authClntRes _).quiet.keeps marked).bind fun _ _ kept => ⟨same, kept⟩
  · exact ⟨same, marked⟩

theorem dwnldPrfle_keeps (asn1c : Asn1c) (kept : Kept emulated t₀ t) (ctx : IpaContext) (ac : ActivationCode)
    (authClntRes : AuthClntRes) :
    Ends (fun ctx' t' => SameCtx ctx ctx' ∧ Kept emulated t₀ t') (Aborts emulated)
      (dwnldPrfle asn1c ctx ac authClntRes) t := by
  apply ((ipaProcPrfleDwnlod_serving authClntRes.authClntOkDpe).quiet.keeps kept).bind
  intro boundProfilePackage t kept
  cases boundProfilePackage with
  | none => exact ((cancelAuthClnt_serving authClntRes _).quiet.keeps kept).bind fun _ _ kept => ⟨.refl ctx, kept⟩
  | some boundProfilePackage =>
      apply ((prfleInstConsent_serving ctx ac).quiet.keeps kept).bind
      intro consent t kept
      split
      · exact ((cancelAuthClnt_serving authClntRes _).quiet.keeps kept).bind fun _ _ kept => ⟨.refl ctx, kept⟩
      · exact instPrfle_keeps asn1c kept ctx authClntRes boundProfilePackage

theorem ipaProcIndirectPrfleDwnlod_keeps (asn1c : Asn1c) (kept : Kept emulated t₀ t) (ctx : IpaContext)
    (ac : List UInt8) (allowedCa : Option (List UInt8)) :
    Ends (fun out t' => SameCtx ctx out.1 ∧ Kept emulated t₀ t') (Aborts emulated)
      (ipaProcIndirectPrfleDwnlod asn1c ctx ac allowedCa) t := by
  unfold ipaProcIndirectPrfleDwnlod
  split
  · exact ⟨.refl ctx, kept⟩
  · apply ((ipaProcCmnMtlAuth_serving _).quiet.keeps kept).bind
    intro res t kept
    cases res with
    | none => exact ⟨.refl ctx, kept⟩
    | some authClntRes => exact (dwnldPrfle_keeps asn1c kept ctx _ authClntRes).bind fun _ _ after => after

end

end Ipad.Proc

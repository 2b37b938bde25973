import Ipad.Proc.Peers

/-!
# A queue of packages

What the poll loop makes of the packages that the eIM has, with any eUICC that executes them.
-/

namespace Ipad.Proc
open Lib.Dialogue Ipad.EimCfg Ipad.Nvstate Ipad.BppSegments Ipad.Utils

section
variable {σ ν : Type}

def World.underway (emulated : Bool) (signed : EuiccPackageResultSigned) (effect : Effect σ) (w : World σ) : World σ :=
  if emulated then w.perform effect
  else
    World.perform
      { w with
        nextSeqNumber := w.nextSeqNumber + 1
        results := w.nextSeqNumber :: w.results
        lastResult := some signed } effect

def resultNumber (emulated : Bool) (w : World σ) : Nat := if emulated then 0 else w.nextSeqNumber

/-- How many numbers of the eUICC a result takes. -/
def ownNumbers (emulated : Bool) : Nat := if emulated then 0 else 1

def loadedRes (signed : EuiccPackageResultSigned) (req : EuiccPackageRequest) : LoadEuiccPkgRes where
  res := .euiccPackageResultSigned signed
  profileChanged := signed.euiccResult.any EuiccResultData.changesProfile
  rollbackAllowed := checkForRollbackFlag req

/-- Packages go to the eUICC and are rolled back as on the device, which is seen in the states of both sides. -/
structure Hosts (emulated : Bool) (eimId : List UInt8) (codec : EimCfgCodec) (reach : σ → Bool)
    (euicc : Server (World σ) Req Ans) (device : Device ν) (view : IpaContext → σ → ν)
    (supported : ν → EuiccPackageRequest → Prop) : Prop where
  online : ∀ ctx s, device.online (view ctx s) = reach s
  pending : ∀ ctx s res, view (ctx.setExecution res) s = view ctx s
  load : ∀ ctx w req, ctx.iotEuiccEmuEnabled = emulated → ctx.eimId = eimId →
    supported (view ctx w.state) req → ∃ ctx' s', ctx'.iotEuiccEmuEnabled = emulated ∧ ctx'.eimId = eimId ∧
      view ctx' s' = (device.execute (view ctx w.state) req).1.state ∧
      Arrives (serveWith reach euicc) (ipaEs10bLoadEuiccPkg codec ctx req) w
        (.ok (ctx', some (loadedRes
          (signedResult eimId (resultNumber emulated w) req (device.execute (view ctx w.state) req).2) req)))
        (w.underway emulated
          (signedResult eimId (resultNumber emulated w) req (device.execute (view ctx w.state) req).2)
          ⟨s', (device.execute (view ctx w.state) req).1.raised⟩)
  rollback : ∀ ctx w pending signed back, ctx.iotEuiccEmuEnabled = emulated →
    ctx.procEuccPkgDwnldExecRes = some pending → pending.loadEuiccPkgRes.res = .euiccPackageResultSigned signed →
    (emulated = false → w.lastResult = some signed) → device.rollback (view ctx w.state) = some back →
    ∃ s', view ctx s' = back.state ∧
      Arrives (serveWith reach euicc) (ipaEs10bPrfleRollback ctx) w
        (.ok (some
          { cmdResult := resultOk, eUICCPackageResult := some (.euiccPackageResultSigned signed.rolledBack) }))
        (w.perform ⟨s', back.raised⟩)
  noRollback : ∀ ctx w pending signed, ctx.iotEuiccEmuEnabled = emulated →
    ctx.procEuccPkgDwnldExecRes = some pending → pending.loadEuiccPkgRes.res = .euiccPackageResultSigned signed →
    device.rollback (view ctx w.state) = none →
    ∃ ans, Arrives (serveWith reach euicc) (ipaEs10bPrfleRollback ctx) w (.ok ans) w ∧
      ∀ rollback ∈ ans, rollback.cmdResult ≠ resultOk

/-! ## One package -/

variable {emulated : Bool} {eimId : List UInt8} {w later : World σ} {req : EuiccPackageRequest}
  {results : List EuiccResultData} {effect : Effect σ}

/-- The world between the execution of a package and the delivery of its result. -/
structure Underway (emulated : Bool) (eimId : List UInt8) (w : World σ) (req : EuiccPackageRequest)
    (data : List EuiccResultData) (effect : Effect σ) (later : World σ) : Prop where
  state : later.state = effect.state
  nextSeqNumber : later.nextSeqNumber = w.nextSeqNumber + ownNumbers emulated + effect.raised
  notifications : later.notifications = List.range' (w.nextSeqNumber + ownNumbers emulated) effect.raised
  kept : emulated = false ∧ later.results = resultNumber emulated w :: w.results ∨
    emulated = true ∧ later.results = w.results
  lastResult : emulated = false →
    later.lastResult = some (signedResult eimId (resultNumber emulated w) req data)
  queue : later.queue = w.queue
  received : later.received = w.received
  handled : later.handled = w.handled ++ w.notifications.map numbered

theorem underway_cleared (w : World σ) (req : EuiccPackageRequest) (results : List EuiccResultData)
    (effect : Effect σ) :
    Underway emulated eimId w req results effect
      (w.cleared.underway emulated (signedResult eimId (resultNumber emulated w) req results) effect) := by
  cases emulated with
  | false => exact ⟨rfl, rfl, rfl, .inl ⟨rfl, rfl⟩, fun _ => rfl, rfl, rfl, rfl⟩
  | true => exact ⟨rfl, rfl, rfl, .inr ⟨rfl, rfl⟩, (nomatch ·), rfl, rfl, rfl⟩

section
variable (underway : Underway emulated eimId w req results effect later)
include underway

theorem Underway.flagged (checkHttp : Bool) :
    Underway emulated eimId w req results effect (later.flag checkHttp) := by
  obtain ⟨state, next, notifications, kept, last, queue, received, handled⟩ := underway
  exact ⟨state, next, notifications, kept, last, queue, received, handled⟩

theorem Underway.here : Underway emulated eimId w req results ⟨later.state, effect.raised⟩ later := by
  obtain ⟨state, next, notifications, kept, last, queue, received, handled⟩ := underway
  exact ⟨rfl, next, notifications, kept, last, queue, received, handled⟩

theorem Underway.perform (back : Effect σ) :
    Underway emulated eimId w req results ⟨back.state, effect.raised + back.raised⟩ (later.perform back) where
  state := rfl
  nextSeqNumber := by
    change later.nextSeqNumber + back.raised = _
    rw [underway.nextSeqNumber, Nat.add_assoc]
  notifications := by
    change later.notifications ++ List.range' later.nextSeqNumber back.raised = _
    rw [underway.notifications, underway.nextSeqNumber, List.range'_append_1]
  kept := underway.kept
  lastResult := underway.lastResult
  queue := underway.queue
  received := underway.received
  handled := underway.handled

/-- The result has a number of its own. -/
theorem Underway.awaited (sound : w.Sound emulated) (res : DwnldExecRes)
    (result : res.loadEuiccPkgRes.res =
      .euiccPackageResultSigned (signedResult eimId (resultNumber emulated w) req results)) :
    Awaited emulated later w.results (signedResult eimId (resultNumber emulated w) req results) res := by
  refine ⟨result, resultNumber emulated w, rfl, ?_⟩
  rw [underway.notifications, List.mem_range'_1]
  obtain ⟨rfl, kept⟩ | ⟨rfl, kept⟩ := underway.kept
  · refine ⟨fun own => Nat.lt_irrefl _ (sound.results _ own), ?_, .inl ⟨rfl, kept⟩⟩
    rintro ⟨low, -⟩
    exact Nat.not_succ_le_self _ low
  · obtain ⟨-, unknown, positive⟩ := sound.positive rfl
    refine ⟨unknown, ?_, .inr kept⟩
    rintro ⟨low, -⟩
    exact absurd positive (Nat.not_lt.mpr low)

end

/-- The world after a package that went well. -/
structure Completed (emulated : Bool) (eimId : List UInt8) (w : World σ) (d : Done ν) (w' : World σ) : Prop where
  nextSeqNumber : w'.nextSeqNumber = w.nextSeqNumber + ownNumbers emulated + d.effect.raised
  notifications : w'.notifications = List.range' (w.nextSeqNumber + ownNumbers emulated) d.effect.raised
  results : w'.results = w.results
  queue : w.queue = d.req :: w'.queue
  received : w'.received =
    w.received ++ [.euiccPackageResultSigned (signedResult eimId (resultNumber emulated w) d.req d.results)]
  handled : w'.handled = w.handled ++ w.notifications.map numbered

theorem Underway.completed (underway : Underway emulated eimId w req results effect later)
    {queue : List EuiccPackageRequest} (queued : w.queue = req :: queue) (state : ν) (data : List EuiccResultData) :
    Completed emulated eimId w ⟨req, ⟨state, effect.raised⟩, data⟩
      ((later.deliver (.euiccPackageResultSigned (signedResult eimId (resultNumber emulated w) req data))).keep
        w.results) where
  nextSeqNumber := underway.nextSeqNumber
  notifications := underway.notifications
  results := rfl
  queue := by simp [World.keep, World.deliver, underway.queue, queued, EuiccPackageResult.answers, signedResult]
  received := by simp [World.keep, World.deliver, underway.received]
  handled := underway.handled

theorem Completed.sound {d : Done ν} {w' : World σ} (completed : Completed emulated eimId w d w')
    (sound : w.Sound emulated) : w'.Sound emulated where
  apart n raised kept := by
    rw [completed.notifications, List.mem_range'_1] at raised
    rw [completed.results] at kept
    have below := sound.results n kept
    omega
  results n kept := by
    rw [completed.results] at kept
    rw [completed.nextSeqNumber]
    have below := sound.results n kept
    omega
  positive mode := by
    obtain ⟨-, unknown, positive⟩ := sound.positive mode
    rw [completed.notifications, completed.results, completed.nextSeqNumber, List.mem_range'_1]
    exact ⟨by omega, unknown, by omega⟩

section
variable {codec : EimCfgCodec} {asn1c : Asn1c} {reach : σ → Bool} {euicc : Server (World σ) Req Ans}
  {ctx ctx' : IpaContext} {w' w'' : World σ} {signed : EuiccPackageResultSigned}

def pendingRes (signed : EuiccPackageResultSigned) (req : EuiccPackageRequest) (callOnset : Bool) : DwnldExecRes where
  loadEuiccPkgRes := loadedRes signed req
  prfleRollbackRes := none
  callOnset

section
variable (idle : ctx.procEuccPkgDwnldExecRes = none)
  (loads : Arrives (serveWith reach euicc) (ipaEs10bLoadEuiccPkg codec ctx req) w
    (.ok (ctx', some (loadedRes signed req))) w')
include idle loads

theorem eimPkgExecEuiccPackage_changed (changed : signed.euiccResult.any EuiccResultData.changesProfile = true) :
    Arrives (serveWith reach euicc) (eimPkgExecEuiccPackage codec ctx req) w
      (.ok (ctx'.setExecution (some (pendingRes signed req true)), 0)) w' := by
  have marks : serveWith reach euicc w (.mark (.execute req)) = some (w, ()) := rfl
  have changes : (loadedRes signed req).profileChanged = true := changed
  rw [eimPkgExecEuiccPackage, idle]
  apply Arrives.bind
  · apply (arrives_request marks).bind
    apply loads.bind
    simp only [changes, if_true]
    exact arrives_pure _ _ _
  · exact arrives_pure _ _ _

theorem eimPkgExecEuiccPackage_unchanged
    (unchanged : signed.euiccResult.any EuiccResultData.changesProfile = false)
    (onset : Arrives (serveWith reach euicc) (ipaProcEuccPkgDwnldExecOnset ctx' (pendingRes signed req false)) w'
      (.ok (0, pendingRes signed req false)) w'') :
    Arrives (serveWith reach euicc) (eimPkgExecEuiccPackage codec ctx req) w (.ok (ctx'.setExecution none, 0)) w'' := by
  have marks : serveWith reach euicc w (.mark (.execute req)) = some (w, ()) := rfl
  have frees : serveWith reach euicc w'' (.mark .free) = some (w'', ()) := rfl
  have changes : (loadedRes signed req).profileChanged = false := unchanged
  rw [eimPkgExecEuiccPackage, idle]
  apply Arrives.bind
  · apply (arrives_request marks).bind
    apply loads.bind
    simp only [changes, Bool.false_eq_true, if_false]
    apply onset.bind
    exact arrives_pure _ _ _
  · exact (arrives_request frees).bind (arrives_pure _ _ _)

end

theorem Device.changes {device : Device ν} {s : ν} (online : device.online s = true)
    (offline : device.online (device.execute s req).1.state = false) :
    (device.execute s req).2.any EuiccResultData.changesProfile = true := by
  cases changed : (device.execute s req).2.any EuiccResultData.changesProfile with
  | true => rfl
  | false =>
      have same := device.steady s req changed
      rw [offline, online] at same
      cases same

theorem rolledBack_encodable {signed : EuiccPackageResultSigned}
    (encodes : (EuiccPackageResult.euiccPackageResultSigned signed).encodable = true) :
    (EuiccPackageResult.euiccPackageResultSigned signed.rolledBack).encodable = true := by
  simp only [EuiccPackageResult.encodable, EuiccPackageResultSigned.rolledBack, List.all_append, Bool.and_eq_true]
  exact ⟨encodes, rfl⟩

def rolledRes (signed : EuiccPackageResultSigned) (req : EuiccPackageRequest) : DwnldExecRes where
  loadEuiccPkgRes := loadedRes signed req
  prfleRollbackRes := some
    { cmdResult := resultOk, eUICCPackageResult := some (.euiccPackageResultSigned signed.rolledBack) }
  callOnset := true

section
variable {device : Device ν} {view : IpaContext → σ → ν} {supported : ν → EuiccPackageRequest → Prop}
  (hosts : Hosts emulated eimId codec reach euicc device view supported)
  (mode : ctx.iotEuiccEmuEnabled = emulated) (eim : ctx.eimId = eimId)
include hosts mode eim

/-- A package that has been fetched is executed. -/
theorem Hosts.begins (allowed : supported (view ctx w.state) req) {e : Effect ν × List EuiccResultData}
    (executes : device.execute (view ctx w.state) req = e) :
    ∃ ctx₁ executed, ctx₁.iotEuiccEmuEnabled = emulated ∧ ctx₁.eimId = eimId ∧
      (∀ res, view (ctx₁.setExecution res) executed.state = e.1.state) ∧
      reach executed.state = device.online e.1.state ∧
      Arrives (serveWith reach euicc) (ipaEs10bLoadEuiccPkg codec ctx req) w.cleared
        (.ok (ctx₁, some (loadedRes (signedResult eimId (resultNumber emulated w) req e.2) req))) executed ∧
      Underway emulated eimId w req e.2 ⟨executed.state, e.1.raised⟩ executed := by
  obtain ⟨ctx₁, s₁, mode₁, eim₁, seen, loads⟩ := hosts.load ctx w.cleared req mode eim allowed
  subst executes
  have underway := @underway_cleared _ emulated eimId w req (device.execute (view ctx w.state) req).2
    ⟨s₁, (device.execute (view ctx w.state) req).1.raised⟩
  have there := underway.state
  refine ⟨ctx₁, _, mode₁, eim₁, fun res => ?_, ?_, loads, ?_⟩
  · rw [hosts.pending]
    exact (congrArg (view ctx₁) there).trans seen
  · rw [← hosts.online ctx₁]
    exact congrArg device.online ((congrArg (view ctx₁) there).trans seen)
  · exact underway.here

variable (idle : ctx.procEuccPkgDwnldExecRes = none) (sound : w.Sound emulated) (online : reach w.state)
  (allowed : supported (view ctx w.state) req) {queue : List EuiccPackageRequest} (queued : w.queue = req :: queue)
include idle sound online allowed queued

theorem package_completed {effect : Effect ν} {results : List EuiccResultData}
    (attempted : device.attempt (view ctx w.state) req = some (effect, results)) :
    ∃ passes ctx' w', passes ≤ 3 ∧ ctx'.iotEuiccEmuEnabled = emulated ∧ ctx'.eimId = eimId ∧
      ctx'.procEuccPkgDwnldExecRes = none ∧ view ctx' w'.state = effect.state ∧
      Completed emulated eimId w ⟨req, effect, results⟩ w' ∧ reach w'.state ∧
      ∀ running out w'', Arrives (serveWith reach euicc) (pollLoop codec asn1c false running ctx' 0) w' out w'' →
        Arrives (serveWith reach euicc)
          (pollLoop codec asn1c false (List.replicate passes true ++ running) ctx 0) w out w'' := by
  obtain ⟨ctx₁, executed, mode₁, eim₁, seen, connected, loads, underway⟩ := hosts.begins mode eim allowed rfl
  let signed := signedResult eimId (resultNumber emulated w) req (device.execute (view ctx w.state) req).2
  let pending := pendingRes signed req true
  have encodes : (EuiccPackageResult.euiccPackageResultSigned signed).encodable = true := device.encodable _ req
  obtain ⟨reached, rfl, rfl⟩ | ⟨back, offline, granted, rolls, reached, rfl, rfl⟩ := Device.attempt_eq_some attempted
  · rw [reached] at connected
    cases changed : signed.euiccResult.any EuiccResultData.changesProfile with
    | false =>
        have onset := @ipaProcEuccPkgDwnldExecOnset_arrives _ reach euicc _ _ ctx₁ mode₁ _ _ _
          (underway.awaited sound (pendingRes signed req false) rfl) encodes connected rfl
        refine ⟨1, ctx₁.setExecution none,
          (executed.deliver (.euiccPackageResultSigned signed)).keep w.results, by omega,
          mode₁, eim₁, rfl, seen none, underway.completed queued _ _, connected, ?_⟩
        intro running out w'' rest
        exact pollLoop_again (ipaPoll_fetch idle sound online queued
          (eimPkgExecEuiccPackage_unchanged idle loads changed onset)) (.inr rfl) rest
    | true =>
        have onset := @ipaProcEuccPkgDwnldExecOnset_arrives _ reach euicc _ _ (ctx₁.setExecution (some pending)) mode₁
          _ _ _ ((underway.flagged false).awaited sound pending rfl) encodes connected rfl
        refine ⟨2, ctx₁.setExecution none,
          ((executed.flag false).deliver (.euiccPackageResultSigned signed)).keep w.results, by omega, mode₁, eim₁, rfl,
          seen none, (underway.flagged false).completed queued _ _, connected, ?_⟩
        intro running out w'' rest
        apply pollLoop_again (ipaPoll_fetch idle sound online queued
          (eimPkgExecEuiccPackage_changed idle loads changed)) (.inl rfl)
        exact pollLoop_again (ipaPoll_onset_finished rfl onset rfl) (.inr rfl) rest
  · have changed := Device.changes ((hosts.online ctx w.state).trans online) offline
    let rolled := rolledRes signed req
    have flagged := (underway.flagged false).flagged true
    rw [offline] at connected
    obtain ⟨s₂, seen₂, rolling⟩ := hosts.rollback (ctx₁.setExecution (some pending)) ((executed.flag false).flag true)
      pending signed back mode₁ rfl rfl flagged.lastResult ((congrArg device.rollback (seen _)).trans rolls)
    have onset₁ := @ipaProcEuccPkgDwnldExecOnset_rollsBack _ reach euicc _ _ (ctx₁.setExecution (some pending)) mode₁
      _ _ _ ((underway.flagged false).awaited sound pending rfl) encodes connected changed granted rfl _ _ rolling rfl
    have after := (flagged.perform ⟨s₂, back.raised⟩).flagged false
    have there : reach s₂ = true := by
      rw [← hosts.online (ctx₁.setExecution (some pending)), seen₂]
      exact reached
    have onset₂ := @ipaProcEuccPkgDwnldExecOnset_arrives _ reach euicc _ _ (ctx₁.setExecution (some rolled)) mode₁
      _ _ _ (after.awaited sound rolled rfl) (rolledBack_encodable encodes) there rfl
    refine ⟨3, ctx₁.setExecution none, _, by omega, mode₁, eim₁, rfl, ?_, after.completed queued _ _, there, ?_⟩
    · exact (hosts.pending ctx₁ s₂ none).trans ((hosts.pending ctx₁ s₂ _).symm.trans seen₂)
    · intro running out w'' rest
      apply pollLoop_again (ipaPoll_fetch idle sound online queued
        (eimPkgExecEuiccPackage_changed idle loads changed)) (.inl rfl)
      apply pollLoop_again (ipaPoll_onset_again rfl onset₁ rfl) (.inl rfl)
      exact pollLoop_again (ipaPoll_onset_finished rfl onset₂ rfl) (.inr rfl) rest

theorem package_stranded (stranded : device.attempt (view ctx w.state) req = none) :
    ∃ passes ctx' w', passes ≤ 3 ∧ reach w'.state = false ∧ w'.queue = w.queue ∧ w'.received = w.received ∧
      w'.handled = w.handled ++ w.notifications.map numbered ∧ ∀ running, Arrives (serveWith reach euicc)
        (pollLoop codec asn1c false (List.replicate passes true ++ running) ctx 0) w (.ok (.left ctx' einval)) w' := by
  obtain ⟨ctx₁, executed, mode₁, eim₁, seen, connected, loads, underway⟩ := hosts.begins mode eim allowed rfl
  obtain ⟨offline, useless⟩ := Device.attempt_eq_none stranded
  have changed := Device.changes ((hosts.online ctx w.state).trans online) offline
  let signed := signedResult eimId (resultNumber emulated w) req (device.execute (view ctx w.state) req).2
  let pending := pendingRes signed req true
  let rolled := rolledRes signed req
  have encodes : (EuiccPackageResult.euiccPackageResultSigned signed).encodable = true := device.encodable _ req
  have awaited := (underway.flagged false).awaited sound pending rfl
  have flagged := (underway.flagged false).flagged true
  rw [offline] at connected
  have gone (hopeless : checkForRollbackFlag req = true →
      device.rollback (device.execute (view ctx w.state) req).1.state = none) :
      ∃ ctx', ∀ running, Arrives (serveWith reach euicc)
        (pollLoop codec asn1c false (List.replicate 2 true ++ running) ctx 0) w (.ok (.left ctx' einval))
        ((executed.flag false).flag true) := by
    obtain ⟨res', onset⟩ := @ipaProcEuccPkgDwnldExecOnset_fails _ reach euicc _ _ (ctx₁.setExecution (some pending))
      mode₁ _ _ _ awaited encodes connected changed (fun granted _ => hosts.noRollback _ _ pending signed mode₁ rfl rfl
        ((congrArg device.rollback (seen _)).trans (hopeless granted)))
    refine ⟨ctx₁.setExecution none, fun running => ?_⟩
    apply pollLoop_again (ipaPoll_fetch idle sound online queued
      (eimPkgExecEuiccPackage_changed idle loads changed)) (.inl rfl)
    exact pollLoop_failed (ipaPoll_onset_failed rfl onset rfl)
  by_cases granted : checkForRollbackFlag req = true
  · cases rolls : device.rollback (device.execute (view ctx w.state) req).1.state with
    | none =>
        obtain ⟨ctx', runs⟩ := gone fun _ => rolls
        exact ⟨2, ctx', (executed.flag false).flag true, by omega,
          connected, flagged.queue, flagged.received, flagged.handled, runs⟩
    | some back =>
        obtain ⟨s₂, seen₂, rolling⟩ := hosts.rollback (ctx₁.setExecution (some pending))
          ((executed.flag false).flag true) pending signed back mode₁ rfl rfl flagged.lastResult
          ((congrArg device.rollback (seen _)).trans rolls)
        have onset₁ := @ipaProcEuccPkgDwnldExecOnset_rollsBack _ reach euicc _ _ (ctx₁.setExecution (some pending))
          mode₁ _ _ _ awaited encodes connected changed granted rfl _ _ rolling rfl
        have after := (flagged.perform ⟨s₂, back.raised⟩).flagged false
        have still : reach s₂ = false := by
          rw [← hosts.online (ctx₁.setExecution (some pending)), seen₂]
          exact useless granted back rolls
        obtain ⟨res', onset₂⟩ := @ipaProcEuccPkgDwnldExecOnset_fails _ reach euicc _ _ (ctx₁.setExecution (some rolled))
          mode₁ _ _ _ (after.awaited sound rolled rfl) (rolledBack_encodable encodes) still changed
          (fun _ untried => by cases untried)
        refine ⟨3, ctx₁.setExecution none, _, by omega, still, (after.flagged true).queue,
          (after.flagged true).received, (after.flagged true).handled, fun running => ?_⟩
        apply pollLoop_again (ipaPoll_fetch idle sound online queued
          (eimPkgExecEuiccPackage_changed idle loads changed)) (.inl rfl)
        apply pollLoop_again (ipaPoll_onset_again rfl onset₁ rfl) (.inl rfl)
        exact pollLoop_failed (ipaPoll_onset_failed rfl onset₂ rfl)
  · obtain ⟨ctx', runs⟩ := gone fun granted' => absurd granted' granted
    exact ⟨2, ctx', (executed.flag false).flag true, by omega,
      connected, flagged.queue, flagged.received, flagged.handled, runs⟩

end

/-! ## The whole queue -/

/-- What the loop has to bring about: `numbers` are those of the results, `delivered` those of the notifications, and
`s` is what becomes of the device. -/
structure WorkedOff (emulated : Bool) (eimId : List UInt8) (reach : σ → Bool) (w w' : World σ) (start s : ν)
    (done : List (Done ν)) (left : List EuiccPackageRequest) (rc : Int) (numbers delivered : List Nat) : Prop where
  code : rc = if left = [] then 0 else einval
  queue : w'.queue = left
  connected : reach w'.state = left.isEmpty
  count : numbers.length = done.length
  zero : emulated = true → ∀ n ∈ numbers, n = 0
  received : w'.received = w.received ++
    List.zipWith (fun n d => .euiccPackageResultSigned (signedResult eimId n d.req d.results)) numbers done
  handled : w'.handled = w.handled ++ delivered.map numbered
  state : left = [] → s = done.foldl (fun _ d => d.effect.state) start
  results : left = [] → w'.results = w.results
  notifications : left = [] → w'.notifications = []
  once : left = [] → w.nextSeqNumber ≤ w'.nextSeqNumber ∧
    ((if emulated then [] else numbers) ++ delivered).Perm
      (w.notifications ++ List.range' w.nextSeqNumber (w'.nextSeqNumber - w.nextSeqNumber))

section
variable {reach : σ → Bool} {start s : ν} {w₁ w' : World σ} {done : List (Done ν)} {left : List EuiccPackageRequest}
  {rc : Int} {numbers delivered : List Nat}

theorem WorkedOff.cons {d : Done ν} (first : Completed emulated eimId w d w₁)
    (others : WorkedOff emulated eimId reach w₁ w' d.effect.state s done left rc numbers delivered) :
    WorkedOff emulated eimId reach w w' start s (d :: done) left rc (resultNumber emulated w :: numbers)
      (w.notifications ++ delivered) where
  code := others.code
  queue := others.queue
  connected := others.connected
  count := by simp [others.count]
  zero mode := by
    rw [List.forall_mem_cons]
    exact ⟨if_pos mode, others.zero mode⟩
  received := by simp [others.received, first.received]
  handled := by simp [others.handled, first.handled]
  state none := others.state none
  results none := by rw [others.results none, first.results]
  notifications none := others.notifications none
  once none := by
    obtain ⟨grows, perm⟩ := others.once none
    rw [first.nextSeqNumber] at grows perm
    rw [first.notifications, List.range'_append_1] at perm
    refine ⟨by omega, ?_⟩
    have count : w'.nextSeqNumber - w.nextSeqNumber = ownNumbers emulated +
        (d.effect.raised + (w'.nextSeqNumber - (w.nextSeqNumber + ownNumbers emulated + d.effect.raised))) := by omega
    have swapped : ((if emulated then [] else numbers) ++ (w.notifications ++ delivered)).Perm
        (w.notifications ++ ((if emulated then [] else numbers) ++ delivered)) := by
      rw [← List.append_assoc, ← List.append_assoc]
      exact List.perm_append_comm.append_right delivered
    have later := swapped.trans (perm.append_left w.notifications)
    rw [count]
    cases emulated with
    | true =>
        simp only [ownNumbers, if_true, Nat.zero_add]
        exact later
    | false =>
        rw [← List.range'_append_1]
        exact (later.cons _).trans List.perm_middle.symm

theorem workedOff_finished (online : reach w.state) (queued : w.queue = []) :
    WorkedOff emulated eimId reach w w.cleared start start ([] : List (Done ν)) [] 0 [] w.notifications where
  code := rfl
  queue := queued
  connected := online
  count := rfl
  zero _ := by simp
  received := (List.append_nil _).symm
  handled := rfl
  state _ := rfl
  results _ := rfl
  notifications _ := rfl
  once _ := by
    refine ⟨Nat.le_refl _, ?_⟩
    have same : w.cleared.nextSeqNumber = w.nextSeqNumber := rfl
    rw [same]
    simp

theorem workedOff_stranded {queue : List EuiccPackageRequest} (offline : reach w'.state = false)
    (queued : w.queue = req :: queue) (same : w'.queue = w.queue) (received : w'.received = w.received)
    (handled : w'.handled = w.handled ++ w.notifications.map numbered) :
    WorkedOff emulated eimId reach w w' start s ([] : List (Done ν)) (req :: queue) einval [] w.notifications where
  code := rfl
  queue := same.trans queued
  connected := offline
  count := rfl
  zero _ := by simp
  received := by rw [received, List.zipWith_nil_left, List.append_nil]
  handled := handled
  state none := nomatch none
  results none := nomatch none
  notifications none := nomatch none
  once none := nomatch none

/-- Every package that is reached finds the device in a state that can execute it. -/
def Device.Admits (device : Device ν) (supported : ν → EuiccPackageRequest → Prop) :
    ν → List EuiccPackageRequest → Prop
  | _, [] => True
  | s, req :: queue => supported s req ∧ ∀ effect results, device.attempt s req = some (effect, results) →
      device.Admits supported effect.state queue

theorem Device.admits_of_forall (device : Device ν) {P : EuiccPackageRequest → Prop} {queue : List EuiccPackageRequest}
    (all : ∀ req ∈ queue, P req) (s : ν) : device.Admits (fun _ => P) s queue := by
  induction queue generalizing s with
  | nil => trivial
  | cons req queue ih =>
      rw [List.forall_mem_cons] at all
      exact ⟨all.1, fun effect _ _ => ih all.2 effect.state⟩

theorem pollLoop_queue {codec : EimCfgCodec} {euicc : Server (World σ) Req Ans} {device : Device ν}
    {view : IpaContext → σ → ν} {supported : ν → EuiccPackageRequest → Prop}
    (hosts : Hosts emulated eimId codec reach euicc device view supported) (asn1c : Asn1c)
    (queue : List EuiccPackageRequest) {ctx : IpaContext} (mode : ctx.iotEuiccEmuEnabled = emulated)
    (eim : ctx.eimId = eimId) (idle : ctx.procEuccPkgDwnldExecRes = none) (sound : w.Sound emulated)
    (online : reach w.state) (queued : w.queue = queue)
    (admitted : device.Admits supported (view ctx w.state) queue) (n : Nat)
    (enough : 3 * queue.length + 1 ≤ n) :
    ∃ ctx' rc w' numbers delivered,
      Arrives (serveWith reach euicc) (pollLoop codec asn1c false (List.replicate n true) ctx 0) w
        (.ok (.left ctx' rc)) w' ∧
      WorkedOff emulated eimId reach w w' (view ctx w.state) (view ctx' w'.state)
        (device.settle (view ctx w.state) queue).1 (device.settle (view ctx w.state) queue).2 rc numbers delivered := by
  induction queue generalizing ctx w n with
  | nil =>
      obtain ⟨n, rfl⟩ := Nat.exists_eq_add_of_le' enough
      refine ⟨ctx, 0, w.cleared, [], w.notifications, ?_, workedOff_finished online queued⟩
      exact pollLoop_later (ipaPoll_finished idle sound online queued)
  | cons req queue ih =>
      rw [List.length_cons] at enough
      obtain ⟨first, others⟩ := admitted
      cases attempted : device.attempt (view ctx w.state) req with
      | none =>
          obtain ⟨passes, ctx', w', few, offline, same, received, handled, runs⟩ :=
            @package_stranded _ _ _ _ _ _ codec asn1c
              _ _ _ _ _ _ hosts mode eim idle sound online first _ queued attempted
          obtain ⟨n, rfl⟩ := Nat.exists_eq_add_of_le (show passes ≤ n by omega)
          refine ⟨ctx', einval, w', [], w.notifications, ?_, ?_⟩
          · rw [List.replicate_add]
            exact runs _
          · simp only [Device.settle, attempted]
            exact workedOff_stranded offline queued same received handled
      | some out =>
          obtain ⟨effect, results⟩ := out
          obtain ⟨passes, ctx₁, w₁, few, mode₁, eim₁, idle₁, seen, completed, online₁, runs⟩ :=
            @package_completed _ _ _ _ _ _ codec asn1c _ _ _ _ _ _ hosts mode eim idle sound online first _ queued _ _
              attempted
          obtain ⟨n, rfl⟩ := Nat.exists_eq_add_of_le (show passes ≤ n by omega)
          have rest : w₁.queue = queue := by
            have same := completed.queue.symm.trans queued
            exact (List.cons.inj same).2
          obtain ⟨ctx', rc, w', numbers, delivered, later, worked⟩ :=
            ih mode₁ eim₁ idle₁ (completed.sound sound)
              online₁ rest (seen ▸ others effect results attempted) n (by omega)
          rw [seen] at worked
          refine ⟨ctx', rc, w', resultNumber emulated w :: numbers, w.notifications ++ delivered, ?_, ?_⟩
          · rw [List.replicate_add]
            exact runs _ _ _ later
          · simp only [Device.settle, attempted]
            exact worked.cons completed

end

end

end

/-! ## An IoT eUICC -/

section
variable {ν : Type} (eimId : List UInt8) (device : Device ν)

/-- It executes packages and rolls them back on its own. -/
def iotEuicc (w : World ν) : (req : Req) → Option (World ν × Ans req)
  | .loadEuiccPackage req =>
      let signed := signedResult eimId w.nextSeqNumber req (device.execute w.state req).2
      some (w.underway false signed (device.execute w.state req).1, some (.euiccPackageResultSigned signed))
  | .profileRollback =>
      match device.rollback w.state with
      | none => some (w, some { cmdResult := resultUndefinedError, eUICCPackageResult := none })
      | some back =>
          some (w.perform back, some
            { cmdResult := resultOk
              eUICCPackageResult := w.lastResult.map fun result => .euiccPackageResultSigned result.rolledBack })
  | _ => none

theorem ipaEs10bPrfleRollback_native {reach : ν → Bool} {euicc : Server (World ν) Req Ans} {ctx : IpaContext}
    {w w' : World ν} {ans : Option ProfileRollbackResponse} (native : ctx.iotEuiccEmuEnabled = false)
    (answers : serveWith reach euicc w .profileRollback = some (w', ans)) :
    Arrives (serveWith reach euicc) (ipaEs10bPrfleRollback ctx) w (.ok ans) w' := by
  have marks : serveWith reach euicc w (.mark .prfleRollback) = some (w, ()) := rfl
  apply (arrives_request marks).bind
  rw [native]
  exact arrives_request answers

theorem iotEuicc_hosts (codec : EimCfgCodec) :
    Hosts false eimId codec device.online (iotEuicc eimId device) device (fun _ s => s) fun _ req =>
      req.buffered = true where
  online _ _ := rfl
  pending _ _ _ := rfl
  load ctx w req mode eim buffered := by
    let signed := signedResult eimId w.nextSeqNumber req (device.execute w.state req).2
    have loads : serveWith device.online (iotEuicc eimId device) w (.loadEuiccPackage req) =
        some (w.underway false signed (device.execute w.state req).1, some (.euiccPackageResultSigned signed)) := rfl
    refine ⟨ctx, _, mode, eim, rfl, ?_⟩
    rw [ipaEs10bLoadEuiccPkg, loadEuiccPkg, mode]
    have encodes : (Req.loadEuiccPackage req).encoding = .encoded := (Encoding.ofBuffered_eq_encoded _).mpr buffered
    apply Arrives.bind
    · exact (arrives_send (serveWith_encode encodes) loads).bind (arrives_pure _ _ _)
    · exact arrives_pure _ _ _
  rollback ctx w pending signed back mode _ _ last rolls := by
    refine ⟨back.state, rfl, ipaEs10bPrfleRollback_native mode ?_⟩
    simp only [serveWith, iotEuicc, rolls, last rfl]
    rfl
  noRollback ctx w pending signed mode _ _ rolls := by
    refine ⟨_, ipaEs10bPrfleRollback_native mode
      (show _ = some (w, some { cmdResult := resultUndefinedError, eUICCPackageResult := none }) from ?_), ?_⟩
    · simp only [serveWith, iotEuicc, rolls]
    · rintro _ ⟨⟩
      decide

/-- However the device behaves, the loop ends with the queue of packages that can be encoded worked off up to the
first one that leaves it out of reach. Every package before that is executed once, in order, and rolled back where
it has to be; its result arrives. In the end every number that the eUICC has given is that of one result or of one
notification that arrived. -/
theorem pollLoop_worksOff (codec : EimCfgCodec) (asn1c : Asn1c) (nvstate : IpaNvstate) (cfg : IpaConfig) (w : World ν)
    (sound : w.Sound false) (online : device.online w.state)
    (buffered : ∀ req ∈ w.queue, EuiccPackageRequest.buffered req = true) (n : Nat)
    (enough : 3 * w.queue.length + 1 ≤ n) :
    ∃ ctx rc w' t numbers delivered,
      against (serveWith device.online (iotEuicc eimId device))
        (pollLoop codec asn1c false (List.replicate n true) (.fresh false eimId nvstate cfg) 0) w [] =
          some (.ok (.left ctx rc), w', t) ∧
      WorkedOff false eimId device.online w w' w.state w'.state (device.settle w.state w.queue).1
        (device.settle w.state w.queue).2 rc numbers delivered := by
  obtain ⟨ctx, rc, w', numbers, delivered, arrives, worked⟩ :=
    @pollLoop_queue _ _ false eimId w _ _ _ _ _ _ (iotEuicc_hosts eimId device codec) asn1c w.queue
      (.fresh false eimId nvstate cfg) rfl rfl rfl sound online rfl (device.admits_of_forall buffered _) n enough
  obtain ⟨t, runs⟩ := arrives []
  exact ⟨ctx, rc, w', t, numbers, delivered, runs, worked⟩

end

/-- Only with the profile 0 the eIM can be reached. -/
def numberedProfiles : Device UInt8 where
  execute s req :=
    match req.euiccPackage with
    | .psmoList [.enable [profile] _] => (⟨profile, 2⟩, [.enableResult resultOk])
    | _ => (⟨s, 0⟩, [])
  rollback _ := some ⟨0, 2⟩
  online s := s = 0
  encodable s req := by
    split
    · rfl
    · rfl
  steady s req unchanged := by
    split at unchanged
    · cases unchanged
    next other => rfl

def enabling (profile : UInt8) : EuiccPackageRequest where
  counterValue := 1
  transactionId := none
  euiccPackage := .psmoList [.enable [profile] true]

theorem pollLoop_worksOff_rolledBack :
    ∃ ctx w' t, against (serveWith numberedProfiles.online (iotEuicc [] numberedProfiles))
      (pollLoop derCodec oneChunk false (List.replicate 7 true) (.fresh false [] .fresh plainConfig) 0)
        ⟨0, 5, [3], [], none, [enabling 9, enabling 0], [], [], false⟩ [] = some (.ok (.left ctx 0), w', t) ∧
      w'.state = 0 ∧ w'.queue = [] := by
  obtain ⟨ctx, rc, w', t, numbers, delivered, runs, worked⟩ :=
    pollLoop_worksOff [] numberedProfiles derCodec oneChunk .fresh plainConfig
      ⟨0, 5, [3], [], none, [enabling 9, enabling 0], [], [], false⟩
      ⟨by simp, by simp, (nomatch ·)⟩ rfl (by simp [EuiccPackageRequest.buffered, enabling]) 7 (by simp)
  obtain rfl : rc = 0 := worked.code
  exact ⟨ctx, w', t, runs, worked.state rfl, worked.queue⟩

end Ipad.Proc

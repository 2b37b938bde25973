import Ipad.EimCfg.Der
import Ipad.Proc.Installation
import Ipad.Proc.Law

/-!
# Commands of an emulated package
-/

namespace Ipad.Proc
open Lib.Dialogue Lib.Except Lib.KeyedList Ipad.EimCfg Ipad.Nvstate

/-! ## What the commands do -/

/-- The commands are executed one by one, each in the context that the one before it has left. -/
inductive InTurn {α : Type} (Done : IpaContext → α → Trace → IpaContext → EuiccResultData → Prop) :
    IpaContext → List α → Trace → IpaContext → List EuiccResultData → Prop where
  | nil (ctx : IpaContext) : InTurn Done ctx [] [] ctx []
  | cons (ctx : IpaContext) (first : α) (events : Trace) (ctx' : IpaContext) (result : EuiccResultData)
      (done : Done ctx first events ctx' result) (rest : List α) (later : Trace) (ctx'' : IpaContext)
      (results : List EuiccResultData) (others : InTurn Done ctx' rest later ctx'' results) :
      InTurn Done ctx (first :: rest) (later ++ events) ctx'' (result :: results)

inductive PsmoDone : IpaContext → Psmo → Trace → IpaContext → EuiccResultData → Prop where
  | enable (ctx : IpaContext) (iccid : List UInt8) (rollbackFlag : Bool) (ans : Option Int) (events : Trace)
      (sends : Sends (.enableProfile .psmo iccid) (.ok ans) events) :
      PsmoDone ctx (.enable iccid rollbackFlag) events ctx (.enableResult (ans.getD resultUndefinedError))
  | disable (ctx : IpaContext) (iccid : List UInt8) (ans : Option Int) (events : Trace)
      (sends : Sends (.disableProfile iccid) (.ok ans) events) :
      PsmoDone ctx (.disable iccid) events ctx (.disableResult (ans.getD resultUndefinedError))
  | delete (ctx : IpaContext) (iccid : List UInt8) (ans : Option Int) (events : Trace)
      (sends : Sends (.deleteProfile iccid) (.ok ans) events) :
      PsmoDone ctx (.delete iccid) events ctx (.deleteResult (ans.getD resultUndefinedError))
  | listProfileInfo (ctx : IpaContext) (req : List UInt8) (list : List ProfileInfo) (events : Trace)
      (sends : Sends (.getProfilesInfo .psmo) (.ok (some (.profileInfoListOk list))) events) :
      PsmoDone ctx (.listProfileInfo req) events ctx (.listProfileInfoResult (.profileInfoListOk list))
  | listProfileInfoUnanswered (ctx : IpaContext) (req : List UInt8) (events : Trace)
      (sends : Sends (.getProfilesInfo .psmo) (.ok none) events) :
      PsmoDone ctx (.listProfileInfo req) events ctx
        (.listProfileInfoResult (.profileInfoListError resultUndefinedError))
  | getRat (ctx : IpaContext) (ans : Option (List ProfilePolicyAuthorisationRule)) :
      PsmoDone ctx .getRat [⟨.getRat, ans⟩] ctx (.getRatResult (ans.getD []))
  | configureAutoEnable (ctx : IpaContext) (autoEnableFlag : Bool) (smdpOid smdpAddress : Option (List UInt8)) :
      PsmoDone ctx (.configureAutoEnable autoEnableFlag smdpOid smdpAddress) []
        (ctx.setNvstate (configureAutoEnable autoEnableFlag smdpOid smdpAddress ctx.emu.nvstate))
        (.configureAutoEnableResult resultOk)

section
variable (codec : EimCfgCodec)

inductive EcoResult (nv : IpaNvstate) : Eco → IpaNvstate → EuiccResultData → Prop where
  | addEim (addEim : EimConfigurationData) (nv' : IpaNvstate) (res : AddEimResult)
      (done : iotEmoDoAddEimEco codec nv addEim = .ok (nv', res)) :
      EcoResult nv (.addEim addEim) nv' (.addEimResult res)
  | deleteEim (eimId : List UInt8) (nv' : IpaNvstate) (res : Int)
      (done : iotEmoDoDeleteEimEco codec nv eimId = .ok (nv', res)) :
      EcoResult nv (.deleteEim eimId) nv' (.deleteEimResult res)
  | updateEim (above : Bool) (updateEim : EimConfigurationData) (nv' : IpaNvstate) (res : Int)
      (done : iotEmoDoUpdateEimEco codec nv above updateEim = .ok (nv', res)) :
      EcoResult nv (.updateEim above updateEim) nv' (.updateEimResult res)
  | listEim : EcoResult nv .listEim nv (.listEimResult (iotEmoDoListEimEco codec nv))

def EcoDone (ctx : IpaContext) (eco : Eco) (events : Trace) (ctx' : IpaContext) (result : EuiccResultData) : Prop :=
  events = [] ∧ ∃ nv, EcoResult codec ctx.emu.nvstate eco nv result ∧ ctx' = ctx.setNvstate nv

def Eco.Answer : Eco → Option EuiccResultData → Prop
  | .addEim _, some (.addEimResult _) => True
  | .deleteEim _, some (.deleteEimResult _) => True
  | .updateEim _ _, some (.updateEimResult _) => True
  | .listEim, some (.listEimResult _) => True
  | .unsupported, none => True
  | _, _ => False

/-! ## Which packages can be executed -/

def EuiccPackage.Supported : EuiccPackage → Prop
  | .psmoList list => ∀ psmo ∈ list, psmo ≠ .unsupported
  | .ecoList list => ∀ eco ∈ list, eco ≠ .unsupported
  | .nothing => False

/-- The list that the eCO writes can be written, and the entry to update is there. -/
def Eco.Executable (nv : IpaNvstate) : Eco → Prop
  | .addEim cfg => ∀ list, getEimCfgDataIotEmu codec nv = some list →
      cfg.eimId ∉ list.map EimConfigurationData.eimId → Writable nv (list ++ [cfg])
  | .deleteEim eimId => ∀ list, getEimCfgDataIotEmu codec nv = some list →
      eimId ∈ list.map EimConfigurationData.eimId → Writable nv (removeKey EimConfigurationData.eimId eimId list)
  | .updateEim above cfg => ∃ list, getEimCfgDataIotEmu codec nv = some list ∧
      cfg.eimId ∈ list.map EimConfigurationData.eimId ∧
      Writable nv (updateKey EimConfigurationData.eimId cfg.eimId (updateEimItem above cfg) list)
  | .listEim => True
  | .unsupported => True

def EcosExecutable : IpaNvstate → List Eco → Prop
  | _, [] => True
  | nv, eco :: rest => eco.Executable codec nv ∧
      ∀ nv' result, EcoResult codec nv eco nv' result → EcosExecutable nv' rest

/-- An answer that cannot be copied into a result, or a command that cannot be encoded for want of a buffer. -/
inductive Uncopied : Event Req Ans → Prop where
  | profile (list : List ProfileInfo) (unbuffered : list.all ProfileInfo.buffered = false) :
      Uncopied ⟨.getProfilesInfo .psmo, some (.profileInfoListOk list)⟩
  | nothing : Uncopied ⟨.getProfilesInfo .psmo, some .nothing⟩
  | rule (rat : List ProfilePolicyAuthorisationRule)
      (unbuffered : rat.all ProfilePolicyAuthorisationRule.buffered = false) : Uncopied ⟨.getRat, some rat⟩
  | command (req : Req) : Uncopied ⟨.encode req, .aborted⟩

def EuiccPackage.Executable (nv : IpaNvstate) (t : Trace) : EuiccPackage → Prop
  | .psmoList _ => ∀ event ∈ t, ¬ Uncopied event
  | .ecoList list => EcosExecutable codec nv list
  | .nothing => True

def EuiccPackageRequest.Executable (nv : IpaNvstate) (t : Trace) (req : EuiccPackageRequest) : Prop :=
  req.transactionId.all OctetString.buffered = true ∧ req.euiccPackage.Executable codec nv t

/-! ## What an execution answers -/

def EuiccPackage.Answers (ctx : IpaContext) (t : Trace) (ctx' : IpaContext) (results : List EuiccResultData) :
    EuiccPackage → Prop
  | .psmoList list => InTurn PsmoDone ctx list t ctx' results ∧
      List.Forall₂ (fun psmo result => psmo.Answer (some result)) list results
  | .ecoList list => InTurn (EcoDone codec) ctx list t ctx' results ∧
      List.Forall₂ (fun eco result => eco.Answer (some result)) list results
  | .nothing => False

/-- The package is executed after the ICCID for a rollback has been refreshed. -/
def AnswersEach (ctx : IpaContext) (req : EuiccPackageRequest)
    (out : Except Abort (IpaContext × EuiccPackageResult)) (t : Trace) : Prop :=
  ∃ ans later ctx' results, t = later ++ [⟨.getProfilesInfo .rollback, ans⟩] ∧
    req.euiccPackage.Answers codec (ctx.refreshed ans) later ctx' results ∧
    out = .ok (ctx', .euiccPackageResultSigned
      { eimId := ctx.eimId, counterValue := req.counterValue
        transactionId := req.transactionId.map OctetString.bytes, seqNumber := 0, euiccResult := results })

end

theorem InTurn.forall₂ {α : Type} {Done : IpaContext → α → Trace → IpaContext → EuiccResultData → Prop}
    {R : α → EuiccResultData → Prop}
    (each : ∀ ctx command events ctx' result, Done ctx command events ctx' result → R command result)
    {ctx ctx' : IpaContext} {list : List α} {events : Trace} {results : List EuiccResultData}
    (inTurn : InTurn Done ctx list events ctx' results) : List.Forall₂ R list results := by
  induction inTurn with
  | nil => exact .nil
  | cons ctx first events ctx' result done rest later ctx'' results others ih =>
      exact .cons (each _ _ _ _ _ done) ih

theorem PsmoDone.answer {ctx ctx' : IpaContext} {psmo : Psmo} {events : Trace} {result : EuiccResultData}
    (done : PsmoDone ctx psmo events ctx' result) : psmo.Answer (some result) ∧ ctx'.eimId = ctx.eimId := by
  cases done <;> exact ⟨trivial, rfl⟩

theorem EcoDone.answer {codec : EimCfgCodec} {ctx ctx' : IpaContext} {eco : Eco} {events : Trace}
    {result : EuiccResultData} (done : EcoDone codec ctx eco events ctx' result) :
    eco.Answer (some result) ∧ ctx'.eimId = ctx.eimId := by
  obtain ⟨-, nv, done, rfl⟩ := done
  cases done <;> exact ⟨trivial, rfl⟩

theorem InTurn.eimId {α : Type} {Done : IpaContext → α → Trace → IpaContext → EuiccResultData → Prop}
    (each : ∀ ctx command events ctx' result, Done ctx command events ctx' result → ctx'.eimId = ctx.eimId)
    {ctx ctx' : IpaContext} {list : List α} {events : Trace} {results : List EuiccResultData}
    (inTurn : InTurn Done ctx list events ctx' results) : ctx'.eimId = ctx.eimId := by
  induction inTurn with
  | nil => rfl
  | cons ctx first events ctx' result done rest later ctx'' results others ih =>
      exact ih.trans (each _ _ _ _ _ done)

/-! ## PSMOs -/

def Listless (events : Trace) : Prop := ∃ code, ⟨.getProfilesInfo .psmo, some (.profileInfoListError code)⟩ ∈ events

def Copied (events : Trace) : Prop := ∀ event ∈ events, ¬ Uncopied event

theorem copied_append {later earlier : Trace} : Copied (later ++ earlier) ↔ Copied later ∧ Copied earlier :=
  List.forall_mem_append

theorem not_copied_aborted (req : Req) : ¬ Copied [⟨.encode req, .aborted⟩] :=
  fun copied => copied _ List.mem_cons_self (.command req)

theorem Sends.copied {req : Req} {ans : Ans req} {events : Trace} (sends : Sends req (.ok ans) events)
    (plain : ¬ Uncopied ⟨req, ans⟩) : Copied events := by
  intro event member uncopied
  cases sends with
  | answered =>
      rcases List.mem_cons.mp member with rfl | member
      · exact plain uncopied
      · cases List.mem_singleton.mp member
        cases uncopied
  | refused =>
      cases List.mem_singleton.mp member
      cases uncopied

/-- How a command ends: with its result, or at something that cannot be copied. -/
def Commanded (ctx : IpaContext) (psmo : Psmo) (t : Trace) (out : IpaContext × Option EuiccResultData)
    (t' : Trace) : Prop :=
  ∃ events, t' = events ++ t ∧ (Listless events ∨
    Copied events ∧ ∃ result, out.2 = some result ∧ PsmoDone ctx psmo events out.1 result)

def Uncommanded (t t' : Trace) : Prop := ∃ events, t' = events ++ t ∧ (Listless events ∨ ¬ Copied events)

section
variable {t : Trace}

theorem ends_commanded {ctx : IpaContext} {psmo : Psmo} {req : Req} {result : Ans req → EuiccResultData}
    (plain : ∀ ans, ¬ Uncopied ⟨req, ans⟩)
    (done : ∀ ans events, Sends req (.ok ans) events → PsmoDone ctx psmo events ctx (result ans)) :
    Ends (Commanded ctx psmo t) (fun _ => Uncommanded t)
      (send req >>= fun ans => pure (ctx, some (result ans))) t := by
  rw [ends_bind]
  refine (send_sends req t).mono ?_ ?_
  · rintro ans _ ⟨events, sends, rfl⟩
    exact ⟨events, rfl, .inr ⟨sends.copied (plain ans), _, rfl, done ans events sends⟩⟩
  · rintro abort _ ⟨events, sends, rfl⟩
    cases sends with
    | aborted => exact ⟨_, rfl, .inr (not_copied_aborted req)⟩

theorem iotEmoDoListProfileInfoPsmo_ends (ctx : IpaContext) (req : List UInt8) :
    Ends (Commanded ctx (.listProfileInfo req) t) (fun _ => Uncommanded t)
      (iotEmoDoPsmo ctx (.listProfileInfo req)) t := by
  simp only [iotEmoDoPsmo, iotEmoDoListProfileInfoPsmo, ipaEs10cGetPrfleInfo, getProfilesInfo, ends_bind]
  refine (send_sends (.getProfilesInfo .psmo) t).mono ?_ ?_
  · rintro ans _ ⟨events, sends, rfl⟩
    rw [ends_pure]
    rcases ans with _ | (list | code | _)
    · have copied := sends.copied fun uncopied => by cases uncopied
      exact ⟨events, rfl, .inr ⟨copied, _, rfl, .listProfileInfoUnanswered ctx req events sends⟩⟩
    · have same : (decGetPrfleInfoRes ctx.iotEuiccEmuEnabled (.profileInfoListOk list)).sgp32Res =
          .profileInfoListOk list := by
        unfold decGetPrfleInfoRes
        split <;> rfl
      have member : ⟨.getProfilesInfo .psmo, some (.profileInfoListOk list)⟩ ∈ events := by
        cases sends with
        | answered => exact List.mem_cons_self
      simp only [Option.map_some, same, ProfileInfoListResponse.encoding, Utils.Encoding.ofBuffered_eq_encoded]
      split
      next buffered =>
        have copied := sends.copied fun uncopied => by
          cases uncopied with
          | profile _ unbuffered => exact Bool.false_ne_true (unbuffered.symm.trans buffered)
        exact ⟨events, rfl, .inr ⟨copied, _, rfl, .listProfileInfo ctx req list events sends⟩⟩
      next unbuffered =>
        exact ⟨events, rfl, .inr fun copied => copied _ member (.profile list (Bool.eq_false_iff.mpr unbuffered))⟩
    · have listless : Listless events := by
        cases sends with
        | answered => exact ⟨code, List.mem_cons_self⟩
      simp only [Option.map_some]
      split
      · exact ⟨events, rfl, .inl listless⟩
      · exact ⟨events, rfl, .inl listless⟩
    · have same : (decGetPrfleInfoRes ctx.iotEuiccEmuEnabled .nothing).sgp32Res = .nothing := by
        unfold decGetPrfleInfoRes
        split <;> rfl
      have member : ⟨.getProfilesInfo .psmo, some .nothing⟩ ∈ events := by
        cases sends with
        | answered => exact List.mem_cons_self
      simp only [Option.map_some, same]
      exact ⟨events, rfl, .inr fun copied => copied _ member .nothing⟩
  · rintro abort _ ⟨events, sends, rfl⟩
    cases sends with
    | aborted => exact ⟨_, rfl, .inr (not_copied_aborted _)⟩

theorem iotEmoDoGetRatPsmo_ends (ctx : IpaContext) :
    Ends (Commanded ctx .getRat t) (fun _ => Uncommanded t) (iotEmoDoPsmo ctx .getRat) t := by
  simp only [iotEmoDoPsmo, iotEmoDoGetRatPsmo, ends_bind, ends_request]
  intro ans
  split
  next buffered =>
    refine ⟨[⟨.getRat, ans⟩], rfl, .inr ⟨?_, _, rfl, .getRat ctx ans⟩⟩
    rintro event member uncopied
    cases List.mem_singleton.mp member
    cases uncopied with
    | rule rat unbuffered => exact Bool.false_ne_true (unbuffered.symm.trans buffered)
  next unbuffered =>
    refine ⟨[⟨.getRat, ans⟩], rfl, .inr fun copied => ?_⟩
    cases ans with
    | none => exact unbuffered rfl
    | some rat => exact copied _ List.mem_cons_self (.rule rat (Bool.eq_false_iff.mpr unbuffered))

theorem iotEmoDoPsmo_ends (ctx : IpaContext) (psmo : Psmo) (supported : psmo ≠ .unsupported) :
    Ends (Commanded ctx psmo t) (fun _ => Uncommanded t) (iotEmoDoPsmo ctx psmo) t := by
  cases psmo with
  | enable iccid rollbackFlag =>
      refine ends_commanded (fun ans uncopied => ?_) fun ans => .enable ctx iccid rollbackFlag ans
      cases uncopied
  | disable iccid =>
      refine ends_commanded (fun ans uncopied => ?_) fun ans => .disable ctx iccid ans
      cases uncopied
  | delete iccid =>
      refine ends_commanded (fun ans uncopied => ?_) fun ans => .delete ctx iccid ans
      cases uncopied
  | listProfileInfo req => exact iotEmoDoListProfileInfoPsmo_ends ctx req
  | getRat => exact iotEmoDoGetRatPsmo_ends ctx
  | configureAutoEnable autoEnableFlag smdpOid smdpAddress =>
      exact ⟨[], rfl, .inr ⟨by simp [Copied], _, rfl,
        .configureAutoEnable ctx autoEnableFlag smdpOid smdpAddress⟩⟩
  | unsupported => exact absurd rfl supported

theorem Listless.append {events : Trace} (listless : Listless events) (later : Trace) :
    Listless (later ++ events) := by
  obtain ⟨code, member⟩ := listless
  exact ⟨code, List.mem_append_right _ member⟩

theorem psmos_ends (ctx : IpaContext) (list : List Psmo) (supported : ∀ psmo ∈ list, psmo ≠ .unsupported) :
    Ends (fun out t' => ∃ events, t' = events ++ t ∧
        (Listless events ∨ Copied events ∧ InTurn PsmoDone ctx list events out.1 out.2))
      (fun _ => Uncommanded t) (iotEmoDoList iotEmoDoPsmo ctx list) t := by
  induction list generalizing ctx t with
  | nil => exact ⟨[], rfl, .inr ⟨by simp [Copied], .nil ctx⟩⟩
  | cons first rest ih =>
      unfold iotEmoDoList
      rw [List.forall_mem_cons] at supported
      apply Ends.bind ((iotEmoDoPsmo_ends ctx first supported.1).mono (fun _ _ => id) ?_)
      · rintro ⟨ctx', outcome⟩ _ ⟨events, rfl, done⟩
        rw [ends_bind]
        refine (ih ctx' supported.2).mono ?_ ?_
        · rintro ⟨ctx'', results⟩ _ ⟨later, rfl, others⟩
          refine ⟨later ++ events, (List.append_assoc ..).symm, ?_⟩
          rcases done with listless | ⟨copied, result, rfl, done⟩
          · exact .inl (listless.append later)
          rcases others with ⟨code, member⟩ | ⟨copied', others⟩
          · exact .inl ⟨code, List.mem_append_left _ member⟩
          · exact .inr ⟨copied_append.mpr ⟨copied', copied⟩,
              .cons ctx first events ctx' result done rest later ctx'' results others⟩
        · rintro abort _ ⟨later, rfl, crash⟩
          refine ⟨later ++ events, (List.append_assoc ..).symm, ?_⟩
          rcases crash with ⟨code, member⟩ | uncopied
          · exact .inl ⟨code, List.mem_append_left _ member⟩
          · exact .inr fun copied => uncopied (copied_append.mp copied).1
      · exact fun _ _ crash => crash

/-! ## eCOs -/

variable {codec : EimCfgCodec}

theorem EcoResult.deterministic {nv first second : IpaNvstate} {eco : Eco} {result result' : EuiccResultData}
    (one : EcoResult codec nv eco first result) (other : EcoResult codec nv eco second result') :
    first = second ∧ result = result' := by
  cases one with
  | listEim =>
      cases other
      exact ⟨rfl, rfl⟩
  | addEim _ _ _ done | deleteEim _ _ _ done | updateEim _ _ _ _ done =>
      cases other with
      | _ =>
          rename_i done'
          cases done.symm.trans done'
          exact ⟨rfl, rfl⟩

theorem iotEmoDoEco_ends (ctx : IpaContext) (eco : Eco) (supported : eco ≠ .unsupported) :
    Ends (fun out t' => t' = t ∧ eco.Executable codec ctx.emu.nvstate ∧ ∃ nv result,
        EcoResult codec ctx.emu.nvstate eco nv result ∧ out = (ctx.setNvstate nv, some result))
      (fun _ t' => t' = t ∧ ¬ eco.Executable codec ctx.emu.nvstate) (iotEmoDoEco codec ctx eco) t := by
  cases eco with
  | addEim cfg =>
      simp only [iotEmoDoEco, Eco.Executable, ← iotEmoDoAddEimEco_ok_iff]
      cases done : iotEmoDoAddEimEco codec ctx.emu.nvstate cfg with
      | error f => exact ⟨rfl, not_exists_ok⟩
      | ok out => exact ⟨rfl, ⟨_, rfl⟩, _, _, .addEim cfg _ _ done, rfl⟩
  | deleteEim eimId =>
      simp only [iotEmoDoEco, Eco.Executable, ← iotEmoDoDeleteEimEco_ok_iff]
      cases done : iotEmoDoDeleteEimEco codec ctx.emu.nvstate eimId with
      | error f => exact ⟨rfl, not_exists_ok⟩
      | ok out => exact ⟨rfl, ⟨_, rfl⟩, _, _, .deleteEim eimId _ _ done, rfl⟩
  | updateEim above cfg =>
      simp only [iotEmoDoEco, Eco.Executable, ← iotEmoDoUpdateEimEco_ok_iff]
      cases done : iotEmoDoUpdateEimEco codec ctx.emu.nvstate above cfg with
      | error f => exact ⟨rfl, not_exists_ok⟩
      | ok out => exact ⟨rfl, ⟨_, rfl⟩, _, _, .updateEim above cfg _ _ done, rfl⟩
  | listEim => exact ⟨rfl, trivial, _, _, .listEim, rfl⟩
  | unsupported => exact absurd rfl supported

theorem ecos_ends (ctx : IpaContext) (list : List Eco) (supported : ∀ eco ∈ list, eco ≠ .unsupported) :
    Ends (fun out t' => t' = t ∧ EcosExecutable codec ctx.emu.nvstate list ∧
        InTurn (EcoDone codec) ctx list [] out.1 out.2)
      (fun _ t' => t' = t ∧ ¬ EcosExecutable codec ctx.emu.nvstate list)
      (iotEmoDoList (iotEmoDoEco codec) ctx list) t := by
  induction list generalizing ctx with
  | nil => exact ⟨rfl, trivial, .nil ctx⟩
  | cons first rest ih =>
      unfold iotEmoDoList
      rw [List.forall_mem_cons] at supported
      apply Ends.bind ((iotEmoDoEco_ends ctx first supported.1).mono (fun _ _ => id) ?_)
      · rintro _ _ ⟨rfl, executable, nv, result, done, rfl⟩
        rw [ends_bind]
        refine (ih (ctx.setNvstate nv) supported.2).mono ?_ ?_
        · rintro ⟨ctx', results⟩ _ ⟨rfl, others, inTurn⟩
          refine ⟨rfl, ⟨executable, fun nv' result' done' => ?_⟩, ?_⟩
          · rw [← (done.deterministic done').1]
            exact others
          · exact .cons ctx first [] _ result ⟨rfl, nv, done, rfl⟩ rest [] ctx' results inTurn
        · rintro abort _ ⟨rfl, crash⟩
          exact ⟨rfl, fun executable => crash (executable.2 nv result done)⟩
      · rintro abort _ ⟨rfl, crash⟩
        exact ⟨rfl, fun executable => crash executable.1⟩

/-! ## A whole execution -/

/-- Every run that meets the condition answers each command, and no other run does. -/
def Decides (codec : EimCfgCodec) (ctx : IpaContext) (req : EuiccPackageRequest)
    (out : Except Abort (IpaContext × EuiccPackageResult)) (t : Trace) : Prop :=
  (∃ purpose code, ⟨.getProfilesInfo purpose, some (.profileInfoListError code)⟩ ∈ t) ∨
    (AnswersEach codec ctx req out t ∧ req.Executable codec ctx.emu.nvstate t) ∨
      ((∃ abort, out = .error abort) ∧ ¬ req.Executable codec ctx.emu.nvstate t)

theorem AnswersEach.not_error {ctx : IpaContext} {req : EuiccPackageRequest} {abort : Abort} :
    ¬ AnswersEach codec ctx req (.error abort) t := by
  rintro ⟨_, _, _, _, _, _, returned⟩
  cases returned

theorem Listless.listed {later : Trace} (listless : Listless later) (earlier : Trace) :
    ∃ purpose code, ⟨.getProfilesInfo purpose, some (.profileInfoListError code)⟩ ∈ later ++ earlier := by
  obtain ⟨code, member⟩ := listless
  exact ⟨.psmo, code, List.mem_append_left _ member⟩

theorem copied_rollback (ans : Option ProfileInfoListResponse) : Copied [⟨.getProfilesInfo .rollback, ans⟩] := by
  intro event member uncopied
  cases List.mem_singleton.mp member
  cases uncopied

theorem dupTransactionId_ok_iff {transactionId : Option OctetString} {copy : Option (List UInt8)} :
    dupTransactionId transactionId = .ok copy ↔
      transactionId.all OctetString.buffered = true ∧ copy = transactionId.map OctetString.bytes := by
  rcases transactionId with _ | (bytes | _) <;> simp [dupTransactionId, eq_comm]

theorem decides_uncopied {ctx : IpaContext} {req : EuiccPackageRequest} {f : Fault}
    (uncopied : dupTransactionId req.transactionId = .error f) :
    Decides codec ctx req (.error (.fault f)) t := by
  refine .inr (.inr ⟨⟨_, rfl⟩, fun executable => ?_⟩)
  cases uncopied.symm.trans (dupTransactionId_ok_iff.mpr ⟨executable.1, rfl⟩)

theorem psmoList_ends (ctx : IpaContext) (req : EuiccPackageRequest) (list : List Psmo)
    (package : req.euiccPackage = .psmoList list) (supported : req.euiccPackage.Supported) :
    Ends (fun out t' => Decides codec ctx req (.ok out) t') (fun abort t' => Decides codec ctx req (.error abort) t')
      (loadEuiccPkgIotEmu codec ctx req) [] := by
  rw [package] at supported
  unfold loadEuiccPkgIotEmu
  rw [package, ends_bind, ends_updateRollbackIccid]
  intro ans
  cases dup : dupTransactionId req.transactionId with
  | error f => exact decides_uncopied dup
  | ok transactionId =>
      obtain ⟨buffered, rfl⟩ := dupTransactionId_ok_iff.mp dup
      rw [ends_bind]
      show Ends _ _ (iotEmoDoList iotEmoDoPsmo (ctx.refreshed ans) list >>= _) _
      rw [ends_bind]
      refine (psmos_ends (ctx.refreshed ans) list supported).mono ?_ ?_
      · rintro ⟨ctx', results⟩ _ ⟨later, rfl, listless | ⟨copied, inTurn⟩⟩
        · exact .inl (listless.listed _)
        have same : ctx'.eimId = ctx.eimId := inTurn.eimId fun _ _ _ _ _ done => done.answer.2
        refine .inr (.inl ⟨⟨ans, later, ctx', results, rfl, ?_, ?_⟩, buffered, ?_⟩)
        · rw [package]
          exact ⟨inTurn, inTurn.forall₂ fun _ _ _ _ _ done => done.answer.1⟩
        · rw [← same]
          rfl
        · rw [package]
          exact copied_append.mpr ⟨copied, copied_rollback ans⟩
      · rintro abort _ ⟨later, rfl, listless | uncopied⟩
        · exact .inl (listless.listed _)
        · refine .inr (.inr ⟨⟨abort, rfl⟩, fun executable => ?_⟩)
          have copied := executable.2
          rw [package] at copied
          exact uncopied (copied_append.mp copied).1

theorem ecoList_ends (ctx : IpaContext) (req : EuiccPackageRequest) (list : List Eco)
    (package : req.euiccPackage = .ecoList list) (supported : req.euiccPackage.Supported) :
    Ends (fun out t' => Decides codec ctx req (.ok out) t') (fun abort t' => Decides codec ctx req (.error abort) t')
      (loadEuiccPkgIotEmu codec ctx req) [] := by
  rw [package] at supported
  unfold loadEuiccPkgIotEmu
  rw [package, ends_bind, ends_updateRollbackIccid]
  intro ans
  cases dup : dupTransactionId req.transactionId with
  | error f => exact decides_uncopied dup
  | ok transactionId =>
      obtain ⟨buffered, rfl⟩ := dupTransactionId_ok_iff.mp dup
      rw [ends_bind]
      show Ends _ _ (iotEmoDoList (iotEmoDoEco codec) (ctx.refreshed ans) list >>= _) _
      rw [ends_bind]
      refine (ecos_ends (ctx.refreshed ans) list supported).mono ?_ ?_
      · rintro ⟨ctx', results⟩ _ ⟨rfl, executable, inTurn⟩
        have same : ctx'.eimId = ctx.eimId := inTurn.eimId fun _ _ _ _ _ done => done.answer.2
        refine .inr (.inl ⟨⟨ans, [], ctx', results, rfl, ?_, ?_⟩, buffered, ?_⟩)
        · rw [package]
          exact ⟨inTurn, inTurn.forall₂ fun _ _ _ _ _ done => done.answer.1⟩
        · rw [← same]
          rfl
        · rw [package]
          exact executable
      · rintro abort _ ⟨rfl, crash⟩
        refine .inr (.inr ⟨⟨abort, rfl⟩, fun executable => ?_⟩)
        have executes := executable.2
        rw [package] at executes
        exact crash executes

theorem loadEuiccPkgIotEmu_answersEach_iff (ctx : IpaContext) (req : EuiccPackageRequest)
    (supported : req.euiccPackage.Supported) (out : Except Abort (IpaContext × EuiccPackageResult))
    (runs : Runs (loadEuiccPkgIotEmu codec ctx req) [] out t)
    (listed : ∀ purpose code, ⟨.getProfilesInfo purpose, some (.profileInfoListError code)⟩ ∉ t) :
    AnswersEach codec ctx req out t ↔ req.Executable codec ctx.emu.nvstate t := by
  have decides : Decides codec ctx req out t := by
    have ends : Ends (fun out t' => Decides codec ctx req (.ok out) t')
        (fun abort t' => Decides codec ctx req (.error abort) t') (loadEuiccPkgIotEmu codec ctx req) [] := by
      cases package : req.euiccPackage with
      | psmoList list => exact psmoList_ends ctx req list package supported
      | ecoList list => exact ecoList_ends ctx req list package supported
      | nothing =>
          rw [package] at supported
          exact absurd supported id
    have ended := ends.of_runs runs
    cases out with
    | ok out => exact ended.1 out rfl
    | error abort => exact ended.2 abort rfl
  rcases decides with ⟨purpose, code, member⟩ | ⟨answers, executable⟩ | ⟨⟨abort, rfl⟩, crash⟩
  · exact absurd member (listed purpose code)
  · exact iff_of_true answers executable
  · exact iff_of_false AnswersEach.not_error crash

end

def twoCommands : EuiccPackageRequest where
  counterValue := 1
  transactionId := none
  euiccPackage := .psmoList [.enable [7] false, .getRat]

theorem unanswered_answersEach :
    let ended := run (replies fun _ => none) (loadEuiccPkgIotEmu derCodec (freshContext true) twoCommands) []
    ended.2.length = 4 ∧ AnswersEach derCodec (freshContext true) twoCommands ended.1 ended.2 := by
  refine ⟨rfl, (loadEuiccPkgIotEmu_answersEach_iff (freshContext true) twoCommands ?_ _
    (runs_run (replies fun _ => none) _ _) ?_).mpr ?_⟩
  · rintro psmo (_ | ⟨_, _ | ⟨_, ⟨⟩⟩⟩) unsupported
    · cases unsupported
    · cases unsupported
  · rintro purpose code (_ | ⟨_, _ | ⟨_, _ | ⟨_, _ | ⟨_, ⟨⟩⟩⟩⟩⟩)
  · refine ⟨rfl, ?_⟩
    rintro event (_ | ⟨_, _ | ⟨_, _ | ⟨_, _ | ⟨_, ⟨⟩⟩⟩⟩⟩) uncopied
    all_goals cases uncopied

def updateOfAbsent : EuiccPackageRequest where
  counterValue := 1
  transactionId := none
  euiccPackage := .ecoList [.updateEim true someEim]

theorem updateOfAbsent_not_answersEach : ¬ ∀ codec ctx req out t, req.euiccPackage.Supported →
    Runs (loadEuiccPkgIotEmu codec ctx req) [] out t →
    (∀ purpose code, ⟨.getProfilesInfo purpose, some (.profileInfoListError code)⟩ ∉ t) →
    AnswersEach codec ctx req out t := by
  intro answered
  have runs := runs_run (replies fun _ => none) (loadEuiccPkgIotEmu derCodec (freshContext true) updateOfAbsent) []
  refine AnswersEach.not_error (answered derCodec (freshContext true) updateOfAbsent
    (.error (.fault .uninitialised)) _ ?_ runs ?_)
  · rintro eco (_ | ⟨_, ⟨⟩⟩) unsupported
    cases unsupported
  · rintro purpose code (_ | ⟨_, ⟨⟩⟩)

end Ipad.Proc

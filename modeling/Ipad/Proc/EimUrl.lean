import Ipad.Lib.Memory
import Ipad.Nvstate.Restart
import Ipad.Nvstate.Tokens
import Ipad.Proc.EuiccDataReq

/-!
# The URL of the eIM

The name that `eim_init` takes out of the stored configuration, and the URL that every request builds of it.
-/

namespace Ipad.Proc.EimUrl
open Lib.Memory Lib.Except Lib.KeyedList Ipad.EimCfg Ipad.Nvstate

/-! ## The builder -/

def ipaEsipaUrlMaxlen : Nat := 1024

/-- `"http://"`. -/
def schemeHttp : CString where
  chars := [0x68, 0x74, 0x74, 0x70, 0x3a, 0x2f, 0x2f]
  nonzero := by decide

/-- `"https://"`. -/
def schemeHttps : CString where
  chars := [0x68, 0x74, 0x74, 0x70, 0x73, 0x3a, 0x2f, 0x2f]
  nonzero := by decide

/-- `"/gsma/rsp2/asn1"`. -/
def urlSuffix : CString where
  chars := [0x2f, 0x67, 0x73, 0x6d, 0x61, 0x2f, 0x72, 0x73, 0x70, 0x32, 0x2f, 0x61, 0x73, 0x6e, 0x31]
  nonzero := by decide

def scheme (eimDisableSsl : Bool) : CString := if eimDisableSsl then schemeHttp else schemeHttps

abbrev UrlBuffer := Region UInt8 ipaEsipaUrlMaxlen

def ipaEsipaGetEimUrl (eimDisableSsl : Bool) (eimFqdn : Option CString) : Except Fault (Option UrlBuffer) := do
  let eimUrl ← strcpy .outOfBounds (.filled ipaEsipaUrlMaxlen 0) (scheme eimDisableSsl)
  match eimFqdn with
  | none => return none
  | some eimFqdn =>
      let urlLen := (stringAt eimUrl.cells).length + eimFqdn.chars.length + urlSuffix.chars.length
      if urlLen < ipaEsipaUrlMaxlen then
        let eimUrl ← strcat .outOfBounds eimUrl eimFqdn
        let eimUrl ← strcat .outOfBounds eimUrl urlSuffix
        return some eimUrl
      else .error .assertion

def urlOf (eimDisableSsl : Bool) (eimFqdn : CString) : CString :=
  ((scheme eimDisableSsl).append eimFqdn).append urlSuffix

theorem length_urlOf (eimDisableSsl : Bool) (eimFqdn : CString) :
    (urlOf eimDisableSsl eimFqdn).chars.length =
      (scheme eimDisableSsl).chars.length + eimFqdn.chars.length + urlSuffix.chars.length := by
  rw [urlOf, CString.append, CString.append, List.length_append, List.length_append]

theorem ipaEsipaGetEimUrl_ok (eimDisableSsl : Bool) (eimFqdn : CString)
    (room : (urlOf eimDisableSsl eimFqdn).chars.length < ipaEsipaUrlMaxlen) :
    ∃ eimUrl, ipaEsipaGetEimUrl eimDisableSsl (some eimFqdn) = .ok (some eimUrl) ∧
      eimUrl.Holds (urlOf eimDisableSsl eimFqdn) := by
  rw [length_urlOf] at room
  obtain ⟨copied, copy, holds⟩ := strcpy_ok Fault.outOfBounds (Region.filled ipaEsipaUrlMaxlen 0)
    (scheme eimDisableSsl) (by omega)
  obtain ⟨named, append, holds'⟩ := strcat_ok Fault.outOfBounds holds eimFqdn (by omega)
  obtain ⟨whole, append', holds''⟩ := strcat_ok Fault.outOfBounds holds' urlSuffix
    (by rw [CString.append, List.length_append]; exact room)
  refine ⟨whole, ?_, holds''⟩
  rw [ipaEsipaGetEimUrl, copy]
  simp only [bind, Except.bind, holds.stringAt_eq, if_pos room, append, append']
  rfl

theorem ipaEsipaGetEimUrl_assertion (eimDisableSsl : Bool) (eimFqdn : CString)
    (long : ipaEsipaUrlMaxlen ≤ (urlOf eimDisableSsl eimFqdn).chars.length) :
    ipaEsipaGetEimUrl eimDisableSsl (some eimFqdn) = .error .assertion := by
  rw [length_urlOf] at long
  have short : (scheme eimDisableSsl).chars.length < ipaEsipaUrlMaxlen := by cases eimDisableSsl <;> decide
  obtain ⟨copied, copy, holds⟩ := strcpy_ok Fault.outOfBounds (Region.filled ipaEsipaUrlMaxlen 0)
    (scheme eimDisableSsl) short
  rw [ipaEsipaGetEimUrl, copy]
  simp only [bind, Except.bind, holds.stringAt_eq]
  rw [if_neg (by omega)]

/-! ## A process -/

structure IpaProcess where
  ctx : EmuCtx
  eimDisableSsl : Bool
  eimId : Option CString
  eimFqdn : Option CString

def IpaProcess.started (ctx : EmuCtx) (eimDisableSsl : Bool) : IpaProcess where
  ctx
  eimDisableSsl
  eimId := none
  eimFqdn := none

section
variable (codec : EimCfgCodec)

def eimCfgDataItem (process : IpaProcess) (preferredEimId : Option CString) : Option EimConfigurationData :=
  (getEimCfgDataIotEmu codec process.ctx.nvstate).bind fun list =>
    ipaEs10bGetEimCfgDataFilter list ((preferredEimId.map CString.chars).getD [])

def eimInit (process : IpaProcess) (preferredEimId : Option CString) : IpaProcess × Int :=
  match eimCfgDataItem codec process preferredEimId with
  | none => (process, Errno.einval.code)
  | some item =>
      let process := { process with eimId := some (.ofBytes item.eimId) }
      match item.eimFqdn with
      | none => (process, Errno.einval.code)
      | some eimFqdn => ({ process with eimFqdn := some (.ofBytes eimFqdn.bytes) }, 0)

end

/-! ## What is stored -/

def EachFqdn (P : List UInt8 → Prop) (list : List EimConfigurationData) : Prop :=
  ∀ cfg ∈ list, ∀ eimFqdn, cfg.eimFqdn = some eimFqdn → P eimFqdn.bytes

def Brings (P : List UInt8 → Prop) : EmuOp → Prop
  | .eim (.addInitialEim req) => EachFqdn P req
  | .eim (.addEim addEimEco) => EachFqdn P [addEimEco]
  | .eim (.updateEim _ updateEimEco) => EachFqdn P [updateEimEco]
  | _ => True

structure Keeps (codec : EimCfgCodec) (P : List UInt8 → Prop) (nv : IpaNvstate) : Prop where
  version : nv.version = ipaNvstateVersion
  counter : 0 ≤ nv.iotEuiccEmu.associationTokenCounter.toInt
  nonempty : ∀ buf, nv.iotEuiccEmu.eimCfgBer = some buf → buf.len ≠ 0
  stored : ∃ list, getEimCfgDataIotEmu codec nv = some list ∧ EachFqdn P list

section
variable {codec : EimCfgCodec} {P : List UInt8 → Prop} {nv nv' : IpaNvstate}

theorem keeps_fresh : Keeps codec P .fresh :=
  ⟨rfl, by decide, by simp [IpaNvstate.fresh], [], codec.dec_empty, by simp [EachFqdn]⟩

theorem eachFqdn_stored {req stored : List EimConfigurationData} (each : List.Forall₂ Stored req stored)
    (all : EachFqdn P req) : EachFqdn P stored := by
  refine forall_of_stored (fun cfg kept stores brought => ?_) each all
  unfold Stored at stores
  split at stores
  · obtain ⟨token, rfl⟩ := stores
    exact brought
  · exact stores ▸ brought

theorem eachFqdn_updateEimItem (above : Bool) {updateEimEco item : EimConfigurationData}
    (update : EachFqdn P [updateEimEco]) (kept : ∀ eimFqdn, item.eimFqdn = some eimFqdn → P eimFqdn.bytes)
    (eimFqdn : OctetString) (updated : (updateEimItem above updateEimEco item).eimFqdn = some eimFqdn) :
    P eimFqdn.bytes := by
  rw [EachFqdn, List.forall_mem_singleton] at update
  cases brought : updateEimEco.eimFqdn with
  | none =>
      simp only [updateEimItem, brought, Option.orElse_eq_orElse, Option.orElse_none] at updated
      exact kept eimFqdn updated
  | some other =>
      simp only [updateEimItem, brought, Option.orElse_eq_orElse, Option.orElse_some] at updated
      exact update eimFqdn (brought.trans updated)

theorem eachFqdn_written {op : EimOp} {list req : List EimConfigurationData}
    (kept : getEimCfgDataIotEmu codec nv = some list) (all : EachFqdn P list) (brings : Brings P (.eim op))
    (written : op.written codec nv = some req) : EachFqdn P req := by
  cases op with
  | addInitialEim _ =>
      cases written
      exact brings
  | addEim addEimEco =>
      simp only [EimOp.written, kept] at written
      split at written
      · cases written
      · cases written
        intro cfg member
        rcases List.mem_append.mp member with old | new
        · exact all cfg old
        · exact brings cfg new
  | deleteEim eimId =>
      simp only [EimOp.written, kept] at written
      split at written
      · cases written
        exact fun cfg member => all cfg (List.mem_of_mem_filter member)
      · cases written
  | updateEim above updateEimEco =>
      simp only [EimOp.written, kept] at written
      split at written
      · cases written
        exact forall_updateKey EimConfigurationData.eimId
          (fun cfg => ∀ eimFqdn, cfg.eimFqdn = some eimFqdn → P eimFqdn.bytes) _ _ list
          (fun cfg member => eachFqdn_updateEimItem above brings (all cfg member)) all
      · cases written
  | listEim => cases written

theorem Keeps.addInitEim (keeps : Keeps codec P nv) {req : List EimConfigurationData} (all : EachFqdn P req)
    {answer : AddInitialEimResponse} (run : addInitEimIotEmu codec nv req = .ok (nv', answer)) :
    Keeps codec P nv' := by
  have step := addInitEimIotEmu_step codec nv nv' req answer run
  have result := addInitEimIotEmu_addInitialEim codec nv keeps.counter req
  have nonempty : ∀ buf, nv'.iotEuiccEmu.eimCfgBer = some buf → buf.len ≠ 0 := by
    intro buf stored
    rcases step.eimCfgBer with same | ⟨written, same, filled⟩
    · exact keeps.nonempty buf (same ▸ stored)
    · cases same.symm.trans stored
      exact filled
  rw [run] at result
  cases result with
  | rejected _ _ _ counter same _ =>
      obtain ⟨list, kept, each⟩ := keeps.stored
      exact ⟨step.version.trans keeps.version, counter, nonempty, list, same.trans kept, each⟩
  | accepted _ _ _ counter _ stored each _ list =>
      exact ⟨step.version.trans keeps.version, counter, nonempty, stored, list, eachFqdn_stored each all⟩

theorem Keeps.eimOp (keeps : Keeps codec P nv) {op : EimOp} {res : EimOpResult} (brings : Brings P (.eim op))
    (run : EimCfg.eimOp codec nv op = .ok (nv', res)) : Keeps codec P nv' := by
  have writes := eimOp_writes run
  cases written : op.written codec nv with
  | none =>
      rw [written] at writes
      rw [show nv' = nv from writes]
      exact keeps
  | some req =>
      rw [written] at writes
      obtain ⟨answer, added⟩ := writes
      obtain ⟨list, kept, each⟩ := keeps.stored
      exact keeps.addInitEim (eachFqdn_written kept each brings written) added

theorem Keeps.emuOp {ctx ctx' : EmuCtx} (keeps : Keeps codec P ctx.nvstate) {op : EmuOp} {res : EmuRes}
    (brings : Brings P op) (run : Nvstate.emuOp codec ctx op = .ok (ctx', res)) : Keeps codec P ctx'.nvstate := by
  cases op with
  | eim op =>
      obtain ⟨⟨after, answer⟩, done, same⟩ := (map_eq_ok _ _ _).mp run
      cases same
      exact keeps.eimOp brings done
  | configureAutoEnable =>
      cases run
      exact ⟨keeps.version, keeps.counter, keeps.nonempty, keeps.stored⟩
  | euiccMemRst eimCfgData autoEnableCfg rc =>
      cases run
      cases eimCfgData with
      | false =>
          cases autoEnableCfg <;> exact ⟨keeps.version, keeps.counter, keeps.nonempty, keeps.stored⟩
      | true =>
          have none_stored : EachFqdn P [] := by simp [EachFqdn]
          cases autoEnableCfg <;>
            exact ⟨keeps.version, keeps.counter, by simp [euiccMemRstEmu], [], codec.dec_empty, none_stored⟩
  | getEimCfgData =>
      cases run
      exact keeps
  | loadBndPrflePkg answer =>
      cases run
      exact keeps
  | enableUsingDd card =>
      cases run
      exact keeps

theorem Keeps.reloaded (keeps : Keeps codec P nv) : Keeps codec P nv.reloaded := by
  have same : nv.iotEuiccEmu.eimCfgBer.bind restored = nv.iotEuiccEmu.eimCfgBer := by
    apply bind_restored
    intro stored
    exact keeps.nonempty _ stored rfl
  have list : getEimCfgDataIotEmu codec nv.reloaded = getEimCfgDataIotEmu codec nv := by
    simp only [getEimCfgDataIotEmu, IpaNvstate.reloaded, same]
  refine ⟨keeps.version, keeps.counter, ?_, ?_⟩
  · simp only [IpaNvstate.reloaded, same]
    exact keeps.nonempty
  · rw [list]
    exact keeps.stored

end

/-! ## Runs -/

section
variable (codec : EimCfgCodec)

/-- The operations so far, and the process that they, restarts and `eim_init` lead to. A restart is one of a state
whose buffers can be allocated. -/
inductive Reached : List EmuOp → IpaProcess → Prop where
  | start (eimDisableSsl : Bool) : Reached [] (.started .fresh eimDisableSsl)
  | step (ops : List EmuOp) (process : IpaProcess) (reached : Reached ops process) (op : EmuOp) (ctx : EmuCtx)
      (res : EmuRes) (run : emuOp codec process.ctx op = .ok (ctx, res)) :
      Reached (ops ++ [op]) { process with ctx }
  | eimInit (ops : List EmuOp) (process : IpaProcess) (reached : Reached ops process)
      (preferredEimId : Option CString) : Reached ops (eimInit codec process preferredEimId).1
  | restart (ops : List EmuOp) (process : IpaProcess) (reached : Reached ops process)
      (fits : ∀ buf, some buf ∈ process.ctx.nvstate.buffers → InMemory buf) (addresses : Addresses) (ctx : EmuCtx)
      (run : restart addresses process.ctx = .ok ctx) (eimDisableSsl : Bool) :
      Reached ops (.started ctx eimDisableSsl)

inductive Later (process : IpaProcess) : IpaProcess → Prop where
  | refl : Later process process
  | step (process' : IpaProcess) (later : Later process process') (op : EmuOp) (ctx : EmuCtx) (res : EmuRes)
      (run : emuOp codec process'.ctx op = .ok (ctx, res)) : Later process { process' with ctx }

/-- `eim_init` takes an entry with this name. -/
def Selects (process : IpaProcess) (preferredEimId : Option CString) (eimFqdn : List UInt8) : Prop :=
  ∃ item st, eimCfgDataItem codec process preferredEimId = some item ∧ item.eimFqdn = some st ∧ st.bytes = eimFqdn

end

def UrlBuilt (process : IpaProcess) (eimFqdn : List UInt8) : Prop :=
  ∃ eimUrl, ipaEsipaGetEimUrl process.eimDisableSsl process.eimFqdn = .ok (some eimUrl) ∧
    ∃ url : CString, url.chars = (scheme process.eimDisableSsl).chars ++ eimFqdn ++ urlSuffix.chars ∧ eimUrl.Holds url

/-- A name without a zero byte that leaves room for the rest of the URL. -/
def Fits (eimDisableSsl : Bool) (eimFqdn : List UInt8) : Prop :=
  0 ∉ eimFqdn ∧
    (scheme eimDisableSsl).chars.length + eimFqdn.length + urlSuffix.chars.length < ipaEsipaUrlMaxlen

theorem urlBuilt_iff {process : IpaProcess} {eimFqdn : List UInt8} (taken : process.eimFqdn = some (.ofBytes eimFqdn)) :
    UrlBuilt process eimFqdn ↔ Fits process.eimDisableSsl eimFqdn := by
  rw [UrlBuilt, taken]
  constructor
  · rintro ⟨eimUrl, built, url, chars, holds⟩
    have nonzero : 0 ∉ eimFqdn := by
      have whole := url.nonzero
      rw [chars, List.mem_append, List.mem_append, not_or, not_or] at whole
      exact whole.1.2
    have same : (CString.ofBytes eimFqdn).chars = eimFqdn := stringAt_of_nonzero nonzero
    refine ⟨nonzero, ?_⟩
    by_contra long
    rw [ipaEsipaGetEimUrl_assertion] at built
    · cases built
    · rw [length_urlOf, same]
      exact Nat.not_lt.mp long
  · rintro ⟨nonzero, room⟩
    have same : (CString.ofBytes eimFqdn).chars = eimFqdn := stringAt_of_nonzero nonzero
    obtain ⟨eimUrl, built, holds⟩ := ipaEsipaGetEimUrl_ok process.eimDisableSsl (.ofBytes eimFqdn)
      (by rw [length_urlOf, same]; exact room)
    refine ⟨eimUrl, built, _, ?_, holds⟩
    simp only [urlOf, CString.append, same]

section
variable {codec : EimCfgCodec} {process process' : IpaProcess} {preferredEimId : Option CString}
  {eimFqdn : List UInt8}

theorem eimInit_selects (selects : Selects codec process preferredEimId eimFqdn) :
    (eimInit codec process preferredEimId).2 = 0 ∧
      (eimInit codec process preferredEimId).1.eimFqdn = some (.ofBytes eimFqdn) := by
  obtain ⟨item, st, found, named, rfl⟩ := selects
  simp only [eimInit, found, named, and_self]

theorem eimInit_same : (eimInit codec process preferredEimId).1.ctx = process.ctx ∧
    (eimInit codec process preferredEimId).1.eimDisableSsl = process.eimDisableSsl := by
  unfold eimInit
  split
  · exact ⟨rfl, rfl⟩
  · simp only
    split <;> exact ⟨rfl, rfl⟩

theorem Later.same (later : Later codec process process') :
    process'.eimFqdn = process.eimFqdn ∧ process'.eimDisableSsl = process.eimDisableSsl := by
  induction later with
  | refl => exact ⟨rfl, rfl⟩
  | step process' later op ctx res run ih => exact ih

theorem keeps_of_reached {P : List UInt8 → Prop} {ops : List EmuOp} (reached : Reached codec ops process)
    (brings : ∀ op ∈ ops, Brings P op) : Keeps codec P process.ctx.nvstate := by
  induction reached with
  | start => exact keeps_fresh
  | step ops process reached op ctx res run ih =>
      rw [List.forall_mem_append, List.forall_mem_singleton] at brings
      exact (ih brings.1).emuOp brings.2 run
  | eimInit ops process reached preferredEimId ih =>
      rw [eimInit_same.1]
      exact ih brings
  | restart ops process reached fits addresses ctx run eimDisableSsl ih =>
      have keeps := ih brings
      rw [restart_eq addresses process.ctx keeps.version fits] at run
      cases run
      exact keeps.reloaded

theorem Selects.stored {P : List UInt8 → Prop} (selects : Selects codec process preferredEimId eimFqdn)
    (keeps : Keeps codec P process.ctx.nvstate) : P eimFqdn := by
  obtain ⟨item, st, found, named, rfl⟩ := selects
  obtain ⟨list, kept, each⟩ := keeps.stored
  rw [eimCfgDataItem, kept, Option.bind_some, ipaEs10bGetEimCfgDataFilter] at found
  refine each item ?_ st named
  split at found
  · exact List.mem_of_head? found
  · exact List.mem_of_find?_eq_some found

end

theorem requests_of_run {codec : EimCfgCodec} {ops : List EmuOp} {process process' : IpaProcess}
    (reached : Reached codec ops process) {preferredEimId : Option CString} {eimFqdn : List UInt8}
    (selects : Selects codec process preferredEimId eimFqdn)
    (later : Later codec (eimInit codec process preferredEimId).1 process') :
    (UrlBuilt process' eimFqdn ↔ Fits process'.eimDisableSsl eimFqdn) ∧
      ((∀ op ∈ ops, Brings (Fits process'.eimDisableSsl) op) → UrlBuilt process' eimFqdn) := by
  have taken : process'.eimFqdn = some (.ofBytes eimFqdn) := later.same.1.trans (eimInit_selects selects).2
  have exact' := urlBuilt_iff taken
  exact ⟨exact', fun brings => exact'.mpr (selects.stored (keeps_of_reached reached brings))⟩

def addNamed (eimFqdn : List UInt8) : EmuOp :=
  .eim (.addInitialEim [{ someEim with eimFqdn := some (.octets eimFqdn) }])

theorem reached_named (codec : EimCfgCodec) (eimDisableSsl : Bool) (eimFqdn : List UInt8) :
    ∃ process, Reached codec [addNamed eimFqdn] process ∧ process.eimDisableSsl = eimDisableSsl ∧
      Selects codec process none eimFqdn := by
  obtain ⟨after, res, run, written⟩ := (fresh_holds codec).written.rewrites
    [{ someEim with eimFqdn := some (.octets eimFqdn) }]
    (by simp [someEim, EimConfigurationData.encodable_iff, EimConfigurationData.MembersEncodable,
      EimConfigurationData.keysEncoding, EimConfigurationData.membersBuffered])
    (by simp [someEim, EimConfigurationData.Complete]) (by simp [someEim])
  refine ⟨_, .step [] _ (.start eimDisableSsl) (addNamed eimFqdn) { nvstate := after, session := .cleared }
    (.eim (.addInitialEim res)) ?_, rfl, { someEim with eimFqdn := some (.octets eimFqdn) }, .octets eimFqdn, ?_, rfl,
    rfl⟩
  · simp only [emuOp, addNamed, IpaProcess.started, EmuCtx.fresh, eimOp, run, Except.map]
  · rw [eimCfgDataItem, written.stored]
    rfl

theorem requests_of_named : ∃ process, Reached derCodec [addNamed [0x61]] process ∧
    Selects derCodec process none [0x61] ∧
      ((UrlBuilt (eimInit derCodec process none).1 [0x61] ↔
          Fits (eimInit derCodec process none).1.eimDisableSsl [0x61]) ∧
        ((∀ op ∈ [addNamed [0x61]], Brings (Fits (eimInit derCodec process none).1.eimDisableSsl) op) →
          UrlBuilt (eimInit derCodec process none).1 [0x61])) := by
  obtain ⟨process, reached, -, selects⟩ := reached_named derCodec false [0x61]
  exact ⟨process, reached, selects, requests_of_run reached selects .refl⟩

/-- A name of 1001 bytes is accepted, and the next request stops the program. -/
theorem longName_assertion : ∃ process, Reached derCodec [addNamed (List.replicate 1001 0x61)] process ∧
    (eimInit derCodec process none).2 = 0 ∧
      ipaEsipaGetEimUrl (eimInit derCodec process none).1.eimDisableSsl (eimInit derCodec process none).1.eimFqdn =
        .error .assertion := by
  obtain ⟨process, reached, ssl, selects⟩ := reached_named derCodec false (List.replicate 1001 0x61)
  obtain ⟨done, taken⟩ := eimInit_selects selects
  refine ⟨process, reached, done, ?_⟩
  have nonzero : (0 : UInt8) ∉ List.replicate 1001 0x61 :=
    fun member => absurd (List.eq_of_mem_replicate member) (by decide)
  have chars : (CString.ofBytes (List.replicate 1001 0x61)).chars = List.replicate 1001 0x61 :=
    stringAt_of_nonzero nonzero
  rw [taken, eimInit_same.2, ssl]
  apply ipaEsipaGetEimUrl_assertion
  rw [length_urlOf, chars, List.length_replicate]
  exact Nat.le_refl 1024

end Ipad.Proc.EimUrl

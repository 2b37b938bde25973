import Ipad.Nvstate.Load
import Ipad.Nvstate.Emu

/-!
# Restarts

The image that is written when a context is freed, and the context that is made of it.
-/

namespace Ipad.Nvstate
open Lib.LittleEndian Lib.Except Ipad.EimCfg

def ipaNewCtx (image : Option IpaBuf) : Except Fault EmuCtx :=
  (nvstateDeserialize image).map fun loaded => { nvstate := loaded.nvstate, session := .cleared }

def ipaFreeCtx (addresses : Addresses) (ctx : EmuCtx) : Except Fault IpaBuf :=
  nvstateSerialize addresses ctx.nvstate

def restart (addresses : Addresses) (ctx : EmuCtx) : Except Fault EmuCtx := do
  let image ← ipaFreeCtx addresses ctx
  ipaNewCtx (some image)

/-! ## Round trip -/

theorem length_nvstateBytes (raw : RawNvstate) : (nvstateBytes raw).length = sizeofNvstate := by
  simp [nvstateBytes, sizeofNvstate]

theorem drop_littleEndian (width n k : Nat) (beyond : width ≤ k) : (littleEndian width n).drop k = [] :=
  List.drop_eq_nil_of_le (by rw [length_littleEndian]; exact beyond)

theorem readNvstate_nvstateBytes (raw : RawNvstate) : readNvstate (nvstateBytes raw) = raw := by
  have four (x : UInt32) : ofLittleEndian (littleEndian 4 x.toNat) = x.toNat :=
    ofLittleEndian_littleEndian 4 _ x.toNat_lt
  have eight (x : UInt64) : ofLittleEndian (littleEndian 8 x.toNat) = x.toNat :=
    ofLittleEndian_littleEndian 8 _ x.toNat_lt
  have whole (x : UInt64) : (littleEndian 8 x.toNat).take 8 = littleEndian 8 x.toNat :=
    List.take_of_length_le (by simp)
  obtain ⟨version, counter, eimCfgBer, flag, smdpOid, smdpAddress⟩ := raw
  simp only [readNvstate, nvstateBytes, field]
  simp [List.drop_append, drop_littleEndian, four, eight, whole]
  cases flag <;> rfl

theorem nvstateSerializeIpaBuf_ofBytes (address : UInt64) (bytes : List UInt8) (buf : Option IpaBuf) :
    nvstateSerializeIpaBuf address (.ofBytes bytes) buf =
      .ok (.ofBytes (bytes ++ ipaBufBytes (address + 24) (buf.getD (.alloc 0)))) := by
  have size := length_ipaBufBytes (address + 24) (buf.getD (.alloc 0))
  obtain ⟨grown, done, kept, len, room⟩ := (IpaBuf.ofBytes bytes).realloc_ok
    (bytes.length + (buf.getD (.alloc 0)).dataLen + sizeofIpaBuf) (IpaBuf.ofBytes_valid bytes)
    (by rw [IpaBuf.ofBytes_len]; omega)
  obtain ⟨stored, copied, content, valid, area⟩ := grown.store_ok (ipaBufBytes (address + 24) (buf.getD (.alloc 0)))
    (by rw [len, size, room, IpaBuf.ofBytes_len]; omega)
  rw [kept, IpaBuf.ofBytes_bytes] at content
  have full : stored.len = stored.dataLen := by
    rw [← stored.length_bytes valid, content, List.length_append, size, area, room]
    omega
  rw [nvstateSerializeIpaBuf]
  simp only [IpaBuf.ofBytes_len, done, bind, Except.bind, copied]
  rw [stored.eq_ofBytes full, content]

def IpaNvstate.reloaded (nv : IpaNvstate) : IpaNvstate :=
  { nv with
    iotEuiccEmu :=
      { nv.iotEuiccEmu with
        eimCfgBer := nv.iotEuiccEmu.eimCfgBer.bind restored
        autoEnable :=
          { nv.iotEuiccEmu.autoEnable with
            smdpOid := nv.iotEuiccEmu.autoEnable.smdpOid.bind restored
            smdpAddress := nv.iotEuiccEmu.autoEnable.smdpAddress.bind restored } } }

theorem restored_getD (buf : Option IpaBuf) : restored (buf.getD (.alloc 0)) = buf.bind restored := by
  cases buf <;> rfl

theorem restart_eq (addresses : Addresses) (ctx : EmuCtx) (version : ctx.nvstate.version = ipaNvstateVersion)
    (fits : ∀ buf, some buf ∈ ctx.nvstate.buffers → InMemory buf) :
    restart addresses ctx = .ok { nvstate := ctx.nvstate.reloaded, session := .cleared } := by
  have fitsAll (buf : Option IpaBuf) (member : buf ∈ ctx.nvstate.buffers) : InMemory (buf.getD (.alloc 0)) := by
    cases buf with
    | none => exact ⟨by decide, by decide⟩
    | some buf => exact fits buf member
  have loads := Loads.current _ (length_nvstateBytes (ctx.nvstate.raw addresses))
    (by rw [readNvstate_nvstateBytes]; exact version) _ _ _ (addresses.eimCfgBer + 24) (addresses.smdpOid + 24)
    (addresses.smdpAddress + 24)
    ⟨fitsAll ctx.nvstate.iotEuiccEmu.eimCfgBer (by simp [IpaNvstate.buffers]),
      fitsAll ctx.nvstate.iotEuiccEmu.autoEnable.smdpOid (by simp [IpaNvstate.buffers]),
      fitsAll ctx.nvstate.iotEuiccEmu.autoEnable.smdpAddress (by simp [IpaNvstate.buffers])⟩ _ _ [] rfl rfl
  have read := (nvstateDeserialize_eq_ok _ _).mpr loads
  rw [readNvstate_nvstateBytes, List.append_nil] at read
  simp only [restored_getD] at read
  simp only [restart, ipaFreeCtx, nvstateSerialize, nvstateSerializeIpaBuf_ofBytes, bind, Except.bind,
    ipaNewCtx, List.append_assoc, read, Except.map]
  rfl

/-! ## Transparency -/

def SameBuf : Option IpaBuf → Option IpaBuf → Prop
  | none, none => True
  | some buf, some buf' => buf.len = buf'.len ∧ buf.bytes = buf'.bytes
  | _, _ => False

theorem SameBuf.refl (buf : Option IpaBuf) : SameBuf buf buf := by
  cases buf with
  | none => trivial
  | some buf => exact ⟨rfl, rfl⟩

structure Restores (nv nv' : IpaNvstate) : Prop where
  version : nv.version = nv'.version
  associationTokenCounter :
    nv.iotEuiccEmu.associationTokenCounter = nv'.iotEuiccEmu.associationTokenCounter
  flag : nv.iotEuiccEmu.autoEnable.flag = nv'.iotEuiccEmu.autoEnable.flag
  eimCfgBer : SameBuf nv.iotEuiccEmu.eimCfgBer nv'.iotEuiccEmu.eimCfgBer
  smdpOid : SameBuf nv.iotEuiccEmu.autoEnable.smdpOid nv'.iotEuiccEmu.autoEnable.smdpOid
  smdpAddress : SameBuf nv.iotEuiccEmu.autoEnable.smdpAddress nv'.iotEuiccEmu.autoEnable.smdpAddress

section
variable (codec : EimCfgCodec)

/-- A restart restores the state, and no later operation tells the difference. -/
def Transparent (ctx : EmuCtx) : Prop :=
  ∀ addresses, ∃ ctx', restart addresses ctx = .ok ctx' ∧ Restores ctx.nvstate ctx'.nvstate ∧
    ∀ ops, emuResults codec ctx' ops = emuResults codec ctx ops

def EmuOp.Configures : EmuOp → Prop
  | .eim _ => True
  | .configureAutoEnable _ _ _ => True
  | .euiccMemRst _ _ _ => True
  | _ => False

def EmuOp.Nonempty : EmuOp → Prop
  | .configureAutoEnable _ smdpOid smdpAddress => smdpOid ≠ some [] ∧ smdpAddress ≠ some []
  | _ => True

/-- The contexts that operations and restarts lead to, as long as every buffer can be allocated. -/
inductive Reached : List EmuOp → EmuCtx → Prop where
  | new : Reached [] .fresh
  | step (ops : List EmuOp) (ctx : EmuCtx) (reached : Reached ops ctx) (op : EmuOp) (configures : op.Configures)
      (ctx' : EmuCtx) (res : EmuRes) (run : emuOp codec ctx op = .ok (ctx', res))
      (fits : ∀ buf, some buf ∈ ctx'.nvstate.buffers → InMemory buf) : Reached (ops ++ [op]) ctx'
  | restart (ops : List EmuOp) (ctx : EmuCtx) (reached : Reached ops ctx) (addresses : Addresses)
      (ctx' : EmuCtx) (run : restart addresses ctx = .ok ctx') : Reached ops ctx'

def SmdpNonempty (nv : IpaNvstate) : Prop :=
  nv.iotEuiccEmu.autoEnable.smdpOid ≠ some (.ofBytes []) ∧
    nv.iotEuiccEmu.autoEnable.smdpAddress ≠ some (.ofBytes [])

structure Kept (ctx : EmuCtx) : Prop where
  version : ctx.nvstate.version = ipaNvstateVersion
  fits : ∀ buf, some buf ∈ ctx.nvstate.buffers → InMemory buf
  eimCfgBer : ∀ buf, ctx.nvstate.iotEuiccEmu.eimCfgBer = some buf → buf.len ≠ 0
  session : ctx.session = .cleared

theorem bind_restored (buf : Option IpaBuf) (nonempty : buf ≠ some (.ofBytes [])) :
    buf.bind restored = buf := by
  cases buf with
  | none => rfl
  | some buf =>
      obtain ⟨data, len⟩ := buf
      rw [Option.bind_some, restored, if_neg]
      rintro ⟨rfl, none⟩
      have empty : data = [] := List.length_eq_zero_iff.mp none
      exact nonempty (by rw [empty]; rfl)

theorem bind_restored_mem {buf : Option IpaBuf} {kept : IpaBuf} (same : some kept = buf.bind restored) :
    some kept = buf := by
  cases buf with
  | none => exact same
  | some buf => rw [restored_eq_some same]

theorem kept_fresh : Kept .fresh :=
  ⟨rfl, by simp [EmuCtx.fresh, IpaNvstate.fresh, IpaNvstate.buffers], by simp [EmuCtx.fresh, IpaNvstate.fresh],
    rfl⟩

theorem kept_emuOp {ctx ctx' : EmuCtx} (kept : Kept ctx) (op : EmuOp) (configures : op.Configures) (res : EmuRes)
    (run : emuOp codec ctx op = .ok (ctx', res))
    (fits : ∀ buf, some buf ∈ ctx'.nvstate.buffers → InMemory buf) : Kept ctx' := by
  refine ⟨?_, fits, ?_, ?_⟩ <;> cases op <;> try exact configures.elim
  case refine_1.eim op =>
    obtain ⟨⟨after, answer⟩, done, same⟩ := (map_eq_ok _ _ _).mp run
    cases same
    rw [(eimOp_step codec _ _ op answer done).version]
    exact kept.version
  case refine_2.eim op =>
    obtain ⟨⟨after, answer⟩, done, same⟩ := (map_eq_ok _ _ _).mp run
    cases same
    intro buf stored
    rcases (eimOp_step codec _ _ op answer done).eimCfgBer with same | ⟨written, same, nonempty⟩
    · exact kept.eimCfgBer buf (same ▸ stored)
    · rw [same] at stored
      cases stored
      exact nonempty
  case refine_3.eim op =>
    obtain ⟨⟨after, answer⟩, done, same⟩ := (map_eq_ok _ _ _).mp run
    cases same
    exact kept.session
  case refine_1.configureAutoEnable => cases run; exact kept.version
  case refine_2.configureAutoEnable => cases run; exact kept.eimCfgBer
  case refine_3.configureAutoEnable => cases run; exact kept.session
  case refine_1.euiccMemRst => cases run; exact kept.version
  case refine_2.euiccMemRst eimCfgData autoEnableCfg rc =>
    cases run
    intro buf stored
    cases eimCfgData <;> cases autoEnableCfg <;> simp [euiccMemRstEmu] at stored <;>
      exact kept.eimCfgBer buf stored
  case refine_3.euiccMemRst => cases run; exact kept.session

theorem kept_restart {ctx ctx' : EmuCtx} (kept : Kept ctx) (addresses : Addresses)
    (run : restart addresses ctx = .ok ctx') : Kept ctx' := by
  rw [restart_eq addresses ctx kept.version kept.fits] at run
  cases run
  refine ⟨kept.version, ?_, ?_, rfl⟩
  · intro buf member
    apply kept.fits buf
    simp only [IpaNvstate.buffers, IpaNvstate.reloaded, List.mem_cons, List.not_mem_nil, or_false] at member ⊢
    rcases member with same | same | same
    · exact .inl (bind_restored_mem same)
    · exact .inr (.inl (bind_restored_mem same))
    · exact .inr (.inr (bind_restored_mem same))
  · intro buf stored
    exact kept.eimCfgBer buf (bind_restored_mem stored.symm).symm

theorem kept_of_reached {ops : List EmuOp} {ctx : EmuCtx} (reached : Reached codec ops ctx) : Kept ctx := by
  induction reached with
  | new => exact kept_fresh
  | step ops ctx reached op configures ctx' res run fits ih => exact kept_emuOp codec ih op configures res run fits
  | restart ops ctx reached addresses ctx' run ih => exact kept_restart ih addresses run

theorem reloaded_eq {ctx : EmuCtx} (kept : Kept ctx) (nonempty : SmdpNonempty ctx.nvstate) :
    ctx.nvstate.reloaded = ctx.nvstate := by
  have eimCfgBer : ctx.nvstate.iotEuiccEmu.eimCfgBer ≠ some (.ofBytes []) :=
    fun stored => kept.eimCfgBer _ stored rfl
  rw [IpaNvstate.reloaded, bind_restored _ eimCfgBer, bind_restored _ nonempty.1, bind_restored _ nonempty.2]

theorem transparent_iff {ctx : EmuCtx} (kept : Kept ctx) :
    Transparent codec ctx ↔ SmdpNonempty ctx.nvstate := by
  constructor
  · intro transparent
    obtain ⟨ctx', run, restores, -⟩ := transparent ⟨0, 0, 0⟩
    rw [restart_eq _ ctx kept.version kept.fits] at run
    cases run
    have smdpOid := restores.smdpOid
    have smdpAddress := restores.smdpAddress
    constructor
    · intro empty
      simp only [IpaNvstate.reloaded, empty] at smdpOid
      exact smdpOid
    · intro empty
      simp only [IpaNvstate.reloaded, empty] at smdpAddress
      exact smdpAddress
  · intro nonempty addresses
    have same : { nvstate := ctx.nvstate.reloaded, session := .cleared } = ctx := by
      rw [reloaded_eq kept nonempty, ← kept.session]
    refine ⟨ctx, ?_, ⟨rfl, rfl, rfl, .refl _, .refl _, .refl _⟩, fun ops => rfl⟩
    rw [restart_eq addresses ctx kept.version kept.fits, same]

theorem ofBytes_map_ne {bytes : Option (List UInt8)} (nonempty : bytes ≠ some []) :
    bytes.map IpaBuf.ofBytes ≠ some (.ofBytes []) := by
  intro empty
  obtain ⟨content, rfl, same⟩ := Option.map_eq_some_iff.mp empty
  exact nonempty (by rw [show content = [] from congrArg IpaBuf.data same])

theorem smdpNonempty_emuOp {ctx ctx' : EmuCtx} (nonempty : SmdpNonempty ctx.nvstate) (op : EmuOp)
    (configures : op.Configures) (filled : op.Nonempty) (res : EmuRes)
    (run : emuOp codec ctx op = .ok (ctx', res)) : SmdpNonempty ctx'.nvstate := by
  cases op <;> try exact configures.elim
  case eim op =>
    obtain ⟨⟨after, answer⟩, done, same⟩ := (map_eq_ok _ _ _).mp run
    cases same
    rw [SmdpNonempty, (eimOp_step codec _ _ op answer done).autoEnable]
    exact nonempty
  case configureAutoEnable autoEnableFlag smdpOid smdpAddress =>
    cases run
    exact ⟨ofBytes_map_ne filled.1, ofBytes_map_ne filled.2⟩
  case euiccMemRst eimCfgData autoEnableCfg rc =>
    cases run
    cases eimCfgData <;> cases autoEnableCfg
    · exact nonempty
    · exact ⟨nofun, nofun⟩
    · exact nonempty
    · exact ⟨nofun, nofun⟩

theorem smdpNonempty_of_reached {ops : List EmuOp} {ctx : EmuCtx} (reached : Reached codec ops ctx)
    (filled : ∀ op ∈ ops, op.Nonempty) : SmdpNonempty ctx.nvstate := by
  induction reached with
  | new => exact ⟨nofun, nofun⟩
  | step ops ctx reached op configures ctx' res run fits ih =>
      rw [List.forall_mem_append, List.forall_mem_singleton] at filled
      exact smdpNonempty_emuOp codec (ih filled.1) op configures filled.2 res run
  | restart ops ctx reached addresses ctx' run ih =>
      have kept := kept_of_reached codec reached
      rw [restart_eq addresses ctx kept.version kept.fits] at run
      cases run
      simp only [reloaded_eq kept (ih filled)]
      exact ih filled

/-- In every context that is reached a restart goes unnoticed exactly when no configured value is empty,
and so it does in every run that configures no empty value. -/
theorem restart_transparent_iff {ops : List EmuOp} {ctx : EmuCtx} (reached : Reached codec ops ctx) :
    (Transparent codec ctx ↔ SmdpNonempty ctx.nvstate) ∧
      ((∀ op ∈ ops, op.Nonempty) → Transparent codec ctx) := by
  have iff := transparent_iff codec (kept_of_reached codec reached)
  exact ⟨iff, fun filled => iff.mpr (smdpNonempty_of_reached codec reached filled)⟩

end

def configureOid (smdpOid : List UInt8) : EmuOp := .configureAutoEnable true (some smdpOid) (some [0x61])

def configured (smdpOid : List UInt8) : EmuCtx :=
  { nvstate := configureAutoEnable true (some smdpOid) (some [0x61]) .fresh, session := .cleared }

theorem reached_configured (smdpOid : List UInt8) (short : smdpOid.length < 2 ^ 64) :
    Reached derCodec [configureOid smdpOid] (configured smdpOid) := by
  refine .step [] .fresh .new (configureOid smdpOid) trivial _ .configureAutoEnable rfl ?_
  intro buf stored
  simp only [IpaNvstate.buffers, List.mem_cons, List.not_mem_nil, or_false] at stored
  rcases stored with same | same | same <;> cases same
  · exact ⟨short, short⟩
  · exact ⟨by decide, by decide⟩

theorem configured_transparent_iff :
    (Transparent derCodec (configured [0x2A]) ↔ SmdpNonempty (configured [0x2A]).nvstate) ∧
      ((∀ op ∈ [configureOid [0x2A]], op.Nonempty) → Transparent derCodec (configured [0x2A])) :=
  restart_transparent_iff derCodec (reached_configured [0x2A] (by decide))

def installAndEnable : List EmuOp :=
  [.loadBndPrflePkg (.installed
      { seqNumber := 1, smdpOid := [0x2A], notificationAddress := [0x61], aid := some [0xA0] }),
    .enableUsingDd fun _ => some 0]

theorem emptyOid_not_transparent :
    Reached derCodec [configureOid []] (configured []) ∧ ¬ Transparent derCodec (configured []) ∧
      emuResults derCodec (configured []) installAndEnable =
        [.ok (.loadBndPrflePkg true), .ok (.enableUsingDd autoEnableNotAvailable none)] ∧
      (restart ⟨0x1000, 0x2000, 0x3000⟩ (configured [])).map
          (fun ctx => emuResults derCodec ctx installAndEnable) =
        .ok [.ok (.loadBndPrflePkg true), .ok (.enableUsingDd enableUsingDdOk (some [0xA0]))] := by
  have reached := reached_configured [] (by decide)
  have kept := kept_of_reached derCodec reached
  refine ⟨reached, ?_, rfl, ?_⟩
  · rw [transparent_iff derCodec kept]
    exact fun nonempty => nonempty.1 rfl
  · rw [restart_eq _ _ kept.version kept.fits]
    rfl

end Ipad.Nvstate

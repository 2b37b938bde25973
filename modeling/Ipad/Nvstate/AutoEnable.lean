import Ipad.Nvstate.Restart

/-!
# Automatic enabling of profiles

What EnableUsingDD may do in the emulation, over every run of the operations.
-/

namespace Ipad.Nvstate
open Lib.Except Ipad.EimCfg

/-- An operation with the context it began in. -/
structure EmuEvent where
  ctx : EmuCtx
  op : EmuOp
  res : EmuRes

/-! ## What an authorised EnableProfile needs -/

def EmuOp.KeepsSession : EmuOp → Prop
  | .loadBndPrflePkg _ => False
  | .enableUsingDd _ => False
  | _ => True

/-- The latest LoadBoundProfilePackage returned this result, and EnableUsingDD has not been called since. The
history has the latest event first. -/
def Installed (h : List EmuEvent) (result : PrfleInstRslt) : Prop :=
  ∃ later event earlier, h = later ++ event :: earlier ∧
    event.op = .loadBndPrflePkg (.installed result) ∧ ∀ other ∈ later, other.op.KeepsSession

def Matches (configured : Option IpaBuf) (bytes : List UInt8) : Prop :=
  ∀ buf, configured = some buf → buf.len = bytes.length ∧ buf.bytes = bytes

structure Authorised (h : List EmuEvent) (nv : IpaNvstate) (aid : List UInt8) : Prop where
  flag : nv.iotEuiccEmu.autoEnable.flag = true
  configured : nv.iotEuiccEmu.autoEnable.smdpOid ≠ none ∨ nv.iotEuiccEmu.autoEnable.smdpAddress ≠ none
  installed : ∃ result, Installed h result ∧ result.aid = some aid ∧
    Matches nv.iotEuiccEmu.autoEnable.smdpOid result.smdpOid ∧
    Matches nv.iotEuiccEmu.autoEnable.smdpAddress result.notificationAddress

def Session.Whole (session : Session) : Prop :=
  session.smdpOid.isSome = session.smdpAddress.isSome ∧ session.smdpAddress.isSome = session.profileAid.isSome

/-- The EnableProfile requests of two calls, with what lies between them. -/
def SingleUse (h : List EmuEvent) : Prop :=
  ∀ later second between first earlier card card' rc rc' aid aid',
    h = later ++ second :: (between ++ first :: earlier) →
    first.op = .enableUsingDd card → first.res = .enableUsingDd rc (some aid) →
    second.op = .enableUsingDd card' → second.res = .enableUsingDd rc' (some aid') →
    ∃ event ∈ between, ∃ result, event.op = .loadBndPrflePkg (.installed result) ∧ result.aid = some aid'

def AllAuthorised (h : List EmuEvent) : Prop :=
  ∀ later event earlier card rc aid, h = later ++ event :: earlier → event.op = .enableUsingDd card →
    event.res = .enableUsingDd rc (some aid) → Authorised earlier event.ctx.nvstate aid

/-! ## The session data and the latest installation -/

def sessionOf (result : PrfleInstRslt) (aid : List UInt8) : Session where
  smdpOid := some (.ofBytes result.smdpOid)
  smdpAddress := some (.ofBytes result.notificationAddress)
  profileAid := some (.ofBytes aid)

inductive Cached (h : List EmuEvent) : Session → Prop where
  | cleared : Cached h .cleared
  | collected (result : PrfleInstRslt) (installed : Installed h result) (aid : List UInt8)
      (success : result.aid = some aid) : Cached h (sessionOf result aid)

theorem Installed.now {h : List EmuEvent} {event : EmuEvent} {result : PrfleInstRslt}
    (load : event.op = .loadBndPrflePkg (.installed result)) : Installed (event :: h) result :=
  ⟨[], event, h, rfl, load, by simp⟩

theorem Installed.later {h : List EmuEvent} {result : PrfleInstRslt} (installed : Installed h result)
    {event : EmuEvent} (keeps : event.op.KeepsSession) : Installed (event :: h) result := by
  obtain ⟨later, load, earlier, rfl, loads, quiet⟩ := installed
  refine ⟨event :: later, load, earlier, rfl, loads, ?_⟩
  rw [List.forall_mem_cons]
  exact ⟨keeps, quiet⟩

theorem Cached.later {h : List EmuEvent} {session : Session} (cached : Cached h session) {event : EmuEvent}
    (keeps : event.op.KeepsSession) : Cached (event :: h) session := by
  cases cached with
  | cleared => exact .cleared
  | collected result installed aid success => exact .collected result (installed.later keeps) aid success

theorem Cached.whole {h : List EmuEvent} {session : Session} (cached : Cached h session) : session.Whole := by
  cases cached with
  | cleared => exact ⟨rfl, rfl⟩
  | collected => exact ⟨rfl, rfl⟩

theorem cached_loadBndPrflePkg (h : List EmuEvent) (ctx : EmuCtx) (answer : SegmentAnswer) (res : EmuRes) :
    Cached (⟨ctx, .loadBndPrflePkg answer, res⟩ :: h) (loadBndPrflePkg answer).1 := by
  cases answer with
  | noResponse => exact .cleared
  | empty => exact .cleared
  | undecodable => exact .cleared
  | installed result =>
      show Cached _ (collectAutoEnableData result)
      unfold collectAutoEnableData
      split
      next => exact .cleared
      next aid success => exact .collected result (.now rfl) aid success

section
variable (codec : EimCfgCodec)

theorem cached_emuOp {h : List EmuEvent} {ctx ctx' : EmuCtx} (cached : Cached h ctx.session) (op : EmuOp)
    (res : EmuRes) (run : emuOp codec ctx op = .ok (ctx', res)) :
    Cached (⟨ctx, op, res⟩ :: h) ctx'.session := by
  cases op with
  | eim op =>
      obtain ⟨out, -, same⟩ := (map_eq_ok _ _ _).mp run
      cases same
      exact cached.later trivial
  | configureAutoEnable => cases run; exact cached.later trivial
  | euiccMemRst => cases run; exact cached.later trivial
  | getEimCfgData => cases run; exact cached.later trivial
  | loadBndPrflePkg answer => cases run; exact cached_loadBndPrflePkg h ctx answer _
  | enableUsingDd card => cases run; exact .cleared

end

/-! ## The grant -/

theorem verifies_ofBytes {configured : Option IpaBuf} {bytes : List UInt8}
    (verified : verifies configured (.ofBytes bytes) = true) : Matches configured bytes := by
  rintro buf rfl
  obtain ⟨len, content⟩ := of_decide_eq_true verified
  have whole : (IpaBuf.ofBytes bytes).bytes = bytes := IpaBuf.ofBytes_bytes bytes
  exact ⟨len, by rw [IpaBuf.bytes, len, content]; exact whole⟩

theorem enableUsingDdGrant_authorised {h : List EmuEvent} {ctx : EmuCtx} (cached : Cached h ctx.session)
    {aid : List UInt8} (granted : enableUsingDdGrant ctx = .ok aid) : Authorised h ctx.nvstate aid := by
  obtain ⟨nv, session⟩ := ctx
  unfold enableUsingDdGrant at granted
  simp only at granted
  split at granted
  next => cases granted
  next flag =>
    split at granted
    next => cases granted
    next configured =>
      cases cached with
      | cleared => cases granted
      | collected result installed installedAid success =>
          simp only at granted
          split at granted
          next verified =>
            cases granted
            obtain ⟨smdpOid, smdpAddress⟩ := (Bool.and_eq_true _ _).mp verified
            refine ⟨by simpa using flag, ?_, result, installed, ?_, verifies_ofBytes smdpOid,
              verifies_ofBytes smdpAddress⟩
            · exact Decidable.not_and_iff_not_or_not.mp configured
            · rw [success, IpaBuf.ofBytes_bytes]
          next => cases granted

theorem enableUsingDdEmu_authorised {h : List EmuEvent} {ctx : EmuCtx} (cached : Cached h ctx.session)
    {card : List UInt8 → Option Int} {rc : Int} {aid : List UInt8}
    (sent : enableUsingDdEmu card ctx = (rc, some aid)) : Authorised h ctx.nvstate aid := by
  unfold enableUsingDdEmu at sent
  split at sent
  next => cases sent
  next granted =>
    cases sent
    exact enableUsingDdGrant_authorised cached granted

/-! ## Runs -/

section
variable (codec : EimCfgCodec)

/-- The contexts that operations and restarts lead to, whatever the loaded state is, and what happened. -/
inductive Operated : List EmuEvent → EmuCtx → Prop where
  | new (nvstate : IpaNvstate) : Operated [] { nvstate, session := .cleared }
  | step (h : List EmuEvent) (ctx : EmuCtx) (operated : Operated h ctx) (op : EmuOp) (ctx' : EmuCtx)
      (res : EmuRes) (run : emuOp codec ctx op = .ok (ctx', res)) : Operated (⟨ctx, op, res⟩ :: h) ctx'
  | restart (h : List EmuEvent) (ctx : EmuCtx) (operated : Operated h ctx) (addresses : Addresses)
      (ctx' : EmuCtx) (run : restart addresses ctx = .ok ctx') : Operated h ctx'

theorem session_restart {addresses : Addresses} {ctx ctx' : EmuCtx} (run : restart addresses ctx = .ok ctx') :
    ctx'.session = .cleared := by
  obtain ⟨image, -, loads⟩ := (bind_eq_ok _ _ _).mp run
  obtain ⟨loaded, -, rfl⟩ := (map_eq_ok _ _ _).mp loads
  rfl

theorem cached_of_operated {h : List EmuEvent} {ctx : EmuCtx} (operated : Operated codec h ctx) :
    Cached h ctx.session := by
  induction operated with
  | new nvstate => exact .cleared
  | step h ctx operated op ctx' res run ih => exact cached_emuOp codec ih op res run
  | restart h ctx operated addresses ctx' run ih =>
      rw [session_restart run]
      exact .cleared

theorem allAuthorised_of_operated {h : List EmuEvent} {ctx : EmuCtx} (operated : Operated codec h ctx) :
    AllAuthorised h := by
  induction operated with
  | new nvstate =>
      intro later event earlier card rc aid split
      simp at split
  | restart h ctx operated addresses ctx' run ih => exact ih
  | step h ctx operated op ctx' res run ih =>
      intro later event earlier card rc aid split called sent
      cases later with
      | cons _ later =>
          obtain ⟨-, rfl⟩ := List.cons.inj split
          exact ih later event earlier card rc aid rfl called sent
      | nil =>
          obtain ⟨rfl, rfl⟩ := List.cons.inj split
          simp only at called sent
          subst called
          obtain ⟨rfl, same⟩ := Prod.mk.inj (Except.ok.inj run)
          rw [← same] at sent
          injection sent with code enabled
          exact enableUsingDdEmu_authorised (cached_of_operated codec operated) (Prod.ext code enabled)

theorem singleUse_of_allAuthorised {h : List EmuEvent} (authorised : AllAuthorised h) : SingleUse h := by
  rintro later second between first earlier card card' rc rc' aid aid' rfl called - called' sent
  obtain ⟨result, ⟨quiet, load, before, split, loads, keeps⟩, success, -, -⟩ :=
    (authorised later second _ card' rc' aid' rfl called' sent).installed
  refine ⟨load, ?_, result, loads, success⟩
  rcases List.append_eq_append_iff.mp split with ⟨rest, rfl, same⟩ | ⟨rest, rfl, same⟩
  · -- the call would lie behind the installation
    cases rest with
    | nil =>
        obtain ⟨rfl, -⟩ := List.cons.inj same
        rw [loads] at called
        cases called
    | cons _ rest =>
        obtain ⟨rfl, -⟩ := List.cons.inj same
        have kept := keeps first (by simp)
        rw [called] at kept
        exact kept.elim
  · cases rest with
    | nil =>
        obtain ⟨rfl, -⟩ := List.cons.inj same
        rw [loads] at called
        cases called
    | cons _ rest =>
        obtain ⟨rfl, -⟩ := List.cons.inj same
        simp

/-- EnableUsingDD enables what was installed last, as the configuration allows, and at most once. -/
structure AutoEnabled (h : List EmuEvent) (ctx : EmuCtx) : Prop where
  authorised : AllAuthorised h
  singleUse : SingleUse h
  whole : ctx.session.Whole

theorem operated_autoEnabled {h : List EmuEvent} {ctx : EmuCtx} (operated : Operated codec h ctx) :
    AutoEnabled h ctx :=
  have authorised := allAuthorised_of_operated codec operated
  ⟨authorised, singleUse_of_allAuthorised authorised, (cached_of_operated codec operated).whole⟩

end

/-! An installed profile that is enabled, and the call after that. -/

def grantingNvstate : IpaNvstate := configureAutoEnable true (some [0x2A]) none .fresh

def installedResult : PrfleInstRslt where
  seqNumber := 1
  smdpOid := [0x2A]
  notificationAddress := [0x61]
  aid := some [0xA0]

def installedCtx : EmuCtx := { nvstate := grantingNvstate, session := sessionOf installedResult [0xA0] }

def enabledOnce : List EmuEvent :=
  [⟨{ nvstate := grantingNvstate, session := .cleared }, .enableUsingDd fun _ => some 0,
      .enableUsingDd noSessionContext none⟩,
    ⟨installedCtx, .enableUsingDd fun _ => some 0, .enableUsingDd enableUsingDdOk (some [0xA0])⟩,
    ⟨{ nvstate := grantingNvstate, session := .cleared }, .loadBndPrflePkg (.installed installedResult),
      .loadBndPrflePkg true⟩]

theorem enabledOnce_autoEnabled :
    AutoEnabled enabledOnce { nvstate := grantingNvstate, session := .cleared } := by
  apply operated_autoEnabled derCodec
  apply Operated.step _ _ _ _ _ _ rfl
  apply Operated.step _ _ _ _ _ _ rfl
  apply Operated.step _ _ _ _ _ _ rfl
  exact .new grantingNvstate

end Ipad.Nvstate

import Ipad.EimCfg.Counter

/-!
# Initial eIM configuration

`ipa_add_init_eim_cfg`, with AddInitialEim of the emulation and of the eUICC.
-/

namespace Ipad.EimCfg.InitEim
open Ipad.Nvstate Lib.Except

/-- The tokens of an accepted list are not used. -/
inductive AddInitialEimAnswer where
  | addInitialEimOk
  | addInitialEimError (code : Int)
  | nothing

structure AddInitEimRes where
  addInitEimErr : Int
  res : AddInitialEimAnswer

def decAddInitEimRes : AddInitialEimAnswer → AddInitEimRes
  | .addInitialEimOk => { addInitEimErr := 0, res := .addInitialEimOk }
  | .addInitialEimError code => { addInitEimErr := code, res := .addInitialEimError code }
  | .nothing => { addInitEimErr := -1, res := .nothing }

def emulatedRes : AddInitialEimResponse → AddInitEimRes
  | .addInitialEimOk _ => { addInitEimErr := 0, res := .addInitialEimOk }
  | .addInitialEimError code => { addInitEimErr := code, res := .addInitialEimError code }

/-- The first two bytes are read whatever the length. The tag of GetEimConfigurationDataResponse becomes
the tag of AddInitialEimRequest. -/
def patchTag (cfg : IpaBuf) : Except Fault IpaBuf :=
  match cfg.data with
  | [] => .error .outOfBounds
  | first :: rest =>
      if first = 0xBF then
        match rest with
        | [] => .error .outOfBounds
        | second :: rest => .ok (if second = 0x55 then { cfg with data := 0xBF :: 0x57 :: rest } else cfg)
      else .ok cfg

section
variable (codec : EimCfgCodec) (euicc : List UInt8 → Option AddInitialEimAnswer)

/-- `euicc` answers a request, if the answer decodes. -/
def addInitEim (req : List EimConfigurationData) : Except Fault (Option AddInitEimRes) :=
  (codec.encAddInitialEimRequest req).map fun es10bReq =>
    es10bReq.bind fun es10bReq => (euicc es10bReq.bytes).map decAddInitEimRes

def ipaEs10bAddInitEim (iotEuiccEmuEnabled : Bool) (nv : IpaNvstate) (req : List EimConfigurationData) :
    Except Fault (IpaNvstate × Option AddInitEimRes) :=
  if iotEuiccEmuEnabled then
    match addInitEimIotEmu codec nv req with
    | .error f => .error f
    | .ok (nv, res) => .ok (nv, some (emulatedRes res))
  else (addInitEim codec euicc req).map fun res => (nv, res)

/-- The result of AddInitialEim is released without a look at it. -/
def ipaAddInitEimCfg (iotEuiccEmuEnabled : Bool) (nv : IpaNvstate) (cfg : IpaBuf) : Except Fault (IpaNvstate × Int) :=
  match patchTag cfg with
  | .error f => .error f
  | .ok cfg =>
      match codec.decAddInitialEimRequest cfg.bytes with
      | none => .ok (nv, Errno.einval.code)
      | some eimCfgDecoded =>
          match ipaEs10bAddInitEim codec euicc iotEuiccEmuEnabled nv eimCfgDecoded with
          | .error f => .error f
          | .ok (nv, _) => .ok (nv, 0)

end

/-! ## Numbered tokens -/

/-- Requested tokens are replaced by the numbers after `counter`. -/
def numbered : Int → List EimConfigurationData → List EimConfigurationData
  | _, [] => []
  | counter, cfg :: list =>
      if cfg.associationToken = some (-1) then
        { cfg with associationToken := some (counter + 1) } :: numbered (counter + 1) list
      else cfg :: numbered counter list

theorem numbered_encodable (counter : Int) (list : List EimConfigurationData) (encodable : ∀ cfg ∈ list, cfg.Encodable) :
    ∀ cfg ∈ numbered counter list, cfg.Encodable := by
  induction list generalizing counter with
  | nil => exact encodable
  | cons cfg list ih =>
      rw [List.forall_mem_cons] at encodable
      rw [numbered]
      split
      · rw [List.forall_mem_cons]
        exact ⟨encodable.1, ih _ encodable.2⟩
      · rw [List.forall_mem_cons]
        exact ⟨encodable.1, ih _ encodable.2⟩

theorem completeEimCfgs_numbered (counter : Int32) (list : List EimConfigurationData)
    (complete : ∀ cfg ∈ list, cfg.Complete) (room : TokenRoom counter list) :
    ∃ after, completeEimCfgs counter list = .ok (after, some (numbered counter.toInt list)) := by
  induction list generalizing counter with
  | nil => exact ⟨counter, rfl⟩
  | cons cfg list ih =>
      rw [List.forall_mem_cons] at complete
      rw [TokenRoom, tokensRequested, if_pos complete.1] at room
      by_cases requested : cfg.associationToken = some (-1)
      · rw [if_pos requested] at room
        have below : counter.toInt + 1 < 2 ^ 31 := by omega
        have token := completeEimCfg_token counter cfg complete.1 requested
        rw [if_pos below] at token
        have next := toInt_succ counter below
        obtain ⟨after, rest⟩ := ih (counter + 1) complete.2 (by rw [TokenRoom, next]; omega)
        refine ⟨after, ?_⟩
        rw [completeEimCfgs, token]
        simp only [rest]
        rw [numbered, if_pos requested, next]
      · rw [if_neg requested, Nat.zero_add] at room
        obtain ⟨after, rest⟩ := ih counter complete.2 room
        refine ⟨after, ?_⟩
        rw [completeEimCfgs, completeEimCfg_complete counter cfg complete.1 requested]
        simp only [rest]
        rw [numbered, if_neg requested]

theorem addInitEimIotEmu_numbered (codec : EimCfgCodec) (nv : IpaNvstate) (req : List EimConfigurationData)
    (encodable : ∀ cfg ∈ req, cfg.Encodable) (complete : ∀ cfg ∈ req, cfg.Complete)
    (room : TokenRoom nv.iotEuiccEmu.associationTokenCounter req) :
    ∃ nv' res, addInitEimIotEmu codec nv req = .ok (nv', res) ∧
      getEimCfgDataIotEmu codec nv' =
        some (numbered nv.iotEuiccEmu.associationTokenCounter.toInt req) := by
  obtain ⟨after, completed⟩ := completeEimCfgs_numbered _ req complete room
  have storable := numbered_encodable nv.iotEuiccEmu.associationTokenCounter.toInt req encodable
  have patched (buf : IpaBuf) : ({ buf with data := buf.data.set 1 0x55 } : IpaBuf).bytes =
      buf.bytes.set 1 0x55 := List.take_set ..
  rw [addInitEimIotEmu, completeEimCfgList_encodable codec _ encodable]
  simp only [completed, codec.encAddInitialEimRequest_encodable storable]
  refine ⟨_, _, rfl, ?_⟩
  simp only [getEimCfgDataIotEmu, patched]
  exact codec.dec_der_patched _ storable

/-! ## The configuration as a whole -/

/-- Either form as an AddInitialEimRequest. -/
def asRequest : List UInt8 → List UInt8
  | 0xBF :: 0x55 :: rest => 0xBF :: 0x57 :: rest
  | bytes => bytes

def Readable (cfg : IpaBuf) : Prop := cfg.data ≠ [] ∧ cfg.data ≠ [0xBF]

theorem patchTag_ok_iff (cfg : IpaBuf) : (∃ patched, patchTag cfg = .ok patched) ↔ Readable cfg := by
  obtain ⟨data, len⟩ := cfg
  unfold patchTag Readable
  cases data with
  | nil => exact iff_of_false not_exists_ok fun readable => readable.1 rfl
  | cons first rest =>
      simp only
      split
      next start =>
        subst start
        cases rest with
        | nil => exact iff_of_false not_exists_ok fun readable => readable.2 rfl
        | cons second rest => exact iff_of_true ⟨_, rfl⟩ ⟨nofun, nofun⟩
      next other =>
        refine iff_of_true ⟨_, rfl⟩ ⟨nofun, fun same => ?_⟩
        cases same
        exact other rfl

theorem patchTag_bytes {cfg patched : IpaBuf} (patches : patchTag cfg = .ok patched) :
    patched.bytes = asRequest cfg.bytes := by
  obtain ⟨data, len⟩ := cfg
  unfold patchTag at patches
  cases data with
  | nil => cases patches
  | cons first rest =>
      simp only at patches
      split at patches
      next start =>
        subst start
        cases rest with
        | nil => cases patches
        | cons second rest =>
            cases patches
            -- a tag that is cut off stays as it is
            match len with
            | 0 => split <;> rfl
            | 1 => split <;> rfl
            | len + 2 =>
                split
                next response =>
                  subst response
                  rfl
                next other =>
                  simp only [IpaBuf.bytes, List.take_succ_cons]
                  rw [asRequest]
                  rintro _ ⟨⟩
                  exact other rfl
      next other =>
        cases patches
        cases len with
        | zero => rfl
        | succ len =>
            simp only [IpaBuf.bytes, List.take_succ_cons]
            rw [asRequest]
            exact fun _ same => other (List.cons.inj same).1

section
variable (codec : EimCfgCodec) (euicc : List UInt8 → Option AddInitialEimAnswer)

/-- What the buffer decodes to. -/
def requested (cfg : IpaBuf) : Option (List EimConfigurationData) :=
  codec.decAddInitialEimRequest (asRequest cfg.bytes)

structure StoresAll (nv nv' : IpaNvstate) (list : List EimConfigurationData) : Prop where
  complete : ∀ cfg ∈ list, cfg.Complete
  stored : getEimCfgDataIotEmu codec nv' = some (numbered nv.iotEuiccEmu.associationTokenCounter.toInt list)

structure Unchanged (nv nv' : IpaNvstate) : Prop where
  eimCfgBer : nv'.iotEuiccEmu.eimCfgBer = nv.iotEuiccEmu.eimCfgBer
  counter : nv'.iotEuiccEmu.associationTokenCounter = nv.iotEuiccEmu.associationTokenCounter

def Accepts (list : List EimConfigurationData) : Prop :=
  (∀ cfg ∈ list, cfg.Encodable) ∧ euicc (codec.der list).bytes = some .addInitialEimOk

/-- The call returns, and what it returns is what happened. -/
structure AllOrNothing (iotEuiccEmuEnabled : Bool) (nv : IpaNvstate) (cfg : IpaBuf) (nv' : IpaNvstate) (rc : Int) :
    Prop where
  returned : ipaAddInitEimCfg codec euicc iotEuiccEmuEnabled nv cfg = .ok (nv', rc)
  emulated : iotEuiccEmuEnabled = true →
    (rc = 0 ∧ ∃ list, requested codec cfg = some list ∧ StoresAll codec nv nv' list) ∨ (rc < 0 ∧ Unchanged nv nv')
  native : iotEuiccEmuEnabled = false → rc = 0 →
    ∃ list, requested codec cfg = some list ∧ Accepts codec euicc list

/-- A list that AddInitialEim can store, or that the eUICC accepts. -/
def Acceptable (iotEuiccEmuEnabled : Bool) (nv : IpaNvstate) (list : List EimConfigurationData) : Prop :=
  if iotEuiccEmuEnabled then
    (∀ cfg ∈ list, cfg.Complete) ∧ (∀ cfg ∈ list, cfg.Encodable) ∧
      TokenRoom nv.iotEuiccEmu.associationTokenCounter list
  else Accepts codec euicc list

theorem ipaAddInitEimCfg_readable (iotEuiccEmuEnabled : Bool) (nv : IpaNvstate) (cfg : IpaBuf)
    (readable : Readable cfg) :
    ipaAddInitEimCfg codec euicc iotEuiccEmuEnabled nv cfg =
      match requested codec cfg with
      | none => .ok (nv, Errno.einval.code)
      | some list => (ipaEs10bAddInitEim codec euicc iotEuiccEmuEnabled nv list).map fun out => (out.1, 0) := by
  obtain ⟨patched, patches⟩ := (patchTag_ok_iff cfg).mpr readable
  rw [ipaAddInitEimCfg, patches, requested, ← patchTag_bytes patches]
  simp only
  cases codec.decAddInitialEimRequest patched.bytes with
  | none => rfl
  | some list =>
      simp only
      cases ipaEs10bAddInitEim codec euicc iotEuiccEmuEnabled nv list <;> rfl

theorem readable_of_ok {codec : EimCfgCodec} {euicc : List UInt8 → Option AddInitialEimAnswer}
    {iotEuiccEmuEnabled : Bool} {nv : IpaNvstate} {cfg : IpaBuf} {out : IpaNvstate × Int}
    (run : ipaAddInitEimCfg codec euicc iotEuiccEmuEnabled nv cfg = .ok out) : Readable cfg := by
  rw [ipaAddInitEimCfg] at run
  cases patches : patchTag cfg with
  | error f =>
      rw [patches] at run
      cases run
  | ok patched => exact (patchTag_ok_iff cfg).mp ⟨patched, patches⟩

theorem allOrNothing_undecodable (iotEuiccEmuEnabled : Bool) (nv : IpaNvstate) (cfg : IpaBuf)
    (readable : Readable cfg) (undecodable : requested codec cfg = none) :
    AllOrNothing codec euicc iotEuiccEmuEnabled nv cfg nv Errno.einval.code where
  returned := by rw [ipaAddInitEimCfg_readable codec euicc _ nv cfg readable, undecodable]
  emulated _ := .inr ⟨by decide, rfl, rfl⟩
  native _ zero := absurd zero (by decide)

/-- The eUICC is asked, and 0 is returned. -/
theorem allOrNothing_native_iff (nv : IpaNvstate) (cfg : IpaBuf) (readable : Readable cfg)
    {list : List EimConfigurationData} (decoded : requested codec cfg = some list) :
    (∃ nv' rc, AllOrNothing codec euicc false nv cfg nv' rc) ↔ Accepts codec euicc list := by
  have returned := ipaAddInitEimCfg_readable codec euicc false nv cfg readable
  rw [decoded] at returned
  constructor
  · rintro ⟨nv', rc, outcome⟩
    have same := outcome.returned
    rw [returned] at same
    obtain ⟨out, _, result⟩ := (map_eq_ok _ _ _).mp same
    cases result
    obtain ⟨list', decoded', accepts⟩ := outcome.native rfl rfl
    rw [decoded] at decoded'
    cases decoded'
    exact accepts
  · intro accepts
    have asked : ipaEs10bAddInitEim codec euicc false nv list =
        .ok (nv, some { addInitEimErr := 0, res := .addInitialEimOk }) := by
      simp [ipaEs10bAddInitEim, addInitEim, codec.encAddInitialEimRequest_encodable accepts.1, Except.map, accepts.2,
        decAddInitEimRes]
    simp only [asked] at returned
    exact ⟨nv, 0, returned, nofun, fun _ _ => ⟨list, decoded, accepts⟩⟩

theorem allOrNothing_emulated_iff (nv : IpaNvstate) (cfg : IpaBuf) (readable : Readable cfg)
    {list : List EimConfigurationData} (decoded : requested codec cfg = some list) :
    (∃ nv' rc, AllOrNothing codec euicc true nv cfg nv' rc) ↔ Acceptable codec euicc true nv list := by
  have returned := ipaAddInitEimCfg_readable codec euicc true nv cfg readable
  simp only [decoded, ipaEs10bAddInitEim, if_true] at returned
  rw [Acceptable, if_pos rfl]
  constructor
  · rintro ⟨nv', rc, outcome⟩
    have same := outcome.returned
    rw [returned] at same
    cases run : addInitEimIotEmu codec nv list with
    | error f =>
        rw [run] at same
        cases same
    | ok out =>
        rw [run] at same
        cases same
        have writable := (addInitEimIotEmu_ok_iff codec nv list).mp ⟨out, run⟩
        rcases outcome.emulated rfl with ⟨-, list', decoded', stores⟩ | ⟨negative, -⟩
        · rw [decoded] at decoded'
          cases decoded'
          exact ⟨stores.complete, writable.encodable, writable.room⟩
        · exact absurd negative (Int.lt_irrefl 0)
  · rintro ⟨complete, encodable, room⟩
    obtain ⟨nv', res, run, stored⟩ := addInitEimIotEmu_numbered codec nv list encodable complete room
    rw [run] at returned
    exact ⟨nv', 0, returned, fun _ => .inl ⟨rfl, list, decoded, complete, stored⟩, nofun⟩

end

/-- One entry with an eimId and nothing else. -/
def eimIdOnly : IpaBuf := .ofBytes [0xBF, 0x57, 0x07, 0xA0, 0x05, 0x30, 0x03, 0x80, 0x01, 0x65]

end Ipad.EimCfg.InitEim

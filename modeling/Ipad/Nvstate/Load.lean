import Ipad.Lib.Except
import Ipad.Nvstate.Image

/-!
# Loading an image
-/

namespace Ipad.Nvstate
open Lib.LittleEndian Lib.Except

/-! ## Fields -/

theorem field_append_left (width : Nat) (front rest : List UInt8) (whole : front.length = width) :
    field 0 width (front ++ rest) = ofLittleEndian front := by
  rw [field, List.drop_zero, List.take_left' whole]

theorem field_append_right (offset width : Nat) (front rest : List UInt8) (beyond : front.length ≤ offset) :
    field offset width (front ++ rest) = field (offset - front.length) width rest := by
  rw [field, List.drop_append, List.drop_eq_nil_of_le beyond, List.nil_append, field]

theorem field_lt (offset width : Nat) (bytes : List UInt8) : field offset width bytes < 256 ^ width := by
  calc field offset width bytes < 256 ^ ((bytes.drop offset).take width).length := ofLittleEndian_lt _
    _ ≤ 256 ^ width := Nat.pow_le_pow_right (by decide) (List.length_take_le _ _)

theorem littleEndian_field (offset width : Nat) (bytes : List UInt8) (inside : offset + width ≤ bytes.length) :
    littleEndian width (field offset width bytes) = (bytes.drop offset).take width := by
  have size : ((bytes.drop offset).take width).length = width := by
    rw [List.length_take, List.length_drop]
    omega
  calc littleEndian width (field offset width bytes)
      = littleEndian ((bytes.drop offset).take width).length (field offset width bytes) := by rw [size]
    _ = (bytes.drop offset).take width := littleEndian_ofLittleEndian _

theorem readBytes_eq_ok (n : Nat) (bytes out : List UInt8) :
    readBytes n bytes = .ok out ↔ n ≤ bytes.length ∧ out = bytes.take n := by
  unfold readBytes
  by_cases inside : n ≤ bytes.length
  · simp [inside, eq_comm]
  · simp [inside]

/-! ## Serialized buffers -/

def InMemory (buf : IpaBuf) : Prop := buf.dataLen < 2 ^ 64 ∧ buf.len < 2 ^ 64

theorem length_ipaBufBytes (address : UInt64) (buf : IpaBuf) :
    (ipaBufBytes address buf).length = buf.dataLen + sizeofIpaBuf := by
  simp [ipaBufBytes, IpaBuf.dataLen, sizeofIpaBuf]
  omega

theorem ipaBufDeserialize_ipaBufBytes (address : UInt64) (buf : IpaBuf) (fits : InMemory buf)
    (rest : List UInt8) : ipaBufDeserialize (ipaBufBytes address buf ++ rest) = .ok buf := by
  have header : readBytes sizeofIpaBuf (ipaBufBytes address buf ++ rest) =
      .ok (littleEndian 8 address.toNat ++ littleEndian 8 buf.dataLen ++ littleEndian 8 buf.len) := by
    rw [readBytes_eq_ok]
    constructor
    · rw [List.length_append, length_ipaBufBytes]
      omega
    · rw [ipaBufBytes, List.append_assoc _ buf.data rest, List.take_left' (by simp [sizeofIpaBuf])]
  have behind : (ipaBufBytes address buf ++ rest).drop sizeofIpaBuf = buf.data ++ rest := by
    rw [ipaBufBytes, List.append_assoc _ buf.data rest, List.drop_left' (by simp [sizeofIpaBuf])]
  have size : field 8 8 (littleEndian 8 address.toNat ++ littleEndian 8 buf.dataLen ++ littleEndian 8 buf.len) =
      buf.dataLen := by
    rw [List.append_assoc, field_append_right _ _ _ _ (Nat.le_of_eq (length_littleEndian _ _)), length_littleEndian,
      field_append_left _ _ _ (length_littleEndian _ _), ofLittleEndian_littleEndian _ _ fits.1]
  have len : field 16 8 (littleEndian 8 address.toNat ++ littleEndian 8 buf.dataLen ++ littleEndian 8 buf.len) =
      buf.len := by
    rw [field_append_right _ _ _ _ (by simp), List.length_append, length_littleEndian, length_littleEndian,
      field, List.drop_zero, List.take_of_length_le (by simp), ofLittleEndian_littleEndian _ _ fits.2]
  have area : readBytes buf.dataLen (buf.data ++ rest) = .ok buf.data := by
    rw [readBytes_eq_ok]
    exact ⟨by simp [IpaBuf.dataLen], by rw [IpaBuf.dataLen, List.take_left]⟩
  simp only [ipaBufDeserialize, header, behind, bind, Except.bind, size, len, area]
  rfl

theorem ipaBufDeserialize_eq_ok (data : List UInt8) (buf : IpaBuf) :
    ipaBufDeserialize data = .ok buf ↔
      InMemory buf ∧ ∃ address rest, data = ipaBufBytes address buf ++ rest := by
  constructor
  · intro read
    simp only [ipaBufDeserialize, bind_eq_ok, pure_eq_ok, readBytes_eq_ok] at read
    obtain ⟨header, ⟨room, rfl⟩, area, ⟨inside, rfl⟩, rfl⟩ := read
    have size := field_lt 8 8 (data.take sizeofIpaBuf)
    have len := field_lt 16 8 (data.take sizeofIpaBuf)
    have width : (data.take sizeofIpaBuf).length = 24 := by
      rw [List.length_take]
      exact Nat.min_eq_left room
    have areaLength : ((data.drop sizeofIpaBuf).take (field 8 8 (data.take sizeofIpaBuf))).length =
        field 8 8 (data.take sizeofIpaBuf) := by
      rw [List.length_take]
      exact Nat.min_eq_left inside
    refine ⟨⟨by rw [IpaBuf.dataLen, areaLength]; exact size, len⟩,
      UInt64.ofNat (field 0 8 (data.take sizeofIpaBuf)),
      (data.drop sizeofIpaBuf).drop (field 8 8 (data.take sizeofIpaBuf)), ?_⟩
    have address : (UInt64.ofNat (field 0 8 (data.take sizeofIpaBuf))).toNat =
        field 0 8 (data.take sizeofIpaBuf) := by
      rw [UInt64.toNat_ofNat']
      exact Nat.mod_eq_of_lt (field_lt 0 8 _)
    have fields : littleEndian 8 (field 0 8 (data.take sizeofIpaBuf)) ++
        littleEndian 8 (field 8 8 (data.take sizeofIpaBuf)) ++
          littleEndian 8 (field 16 8 (data.take sizeofIpaBuf)) = data.take sizeofIpaBuf := by
      rw [littleEndian_field _ _ _ (by omega), littleEndian_field _ _ _ (by omega),
        littleEndian_field _ _ _ (by omega), List.drop_zero, ← List.take_add,
        show (data.take sizeofIpaBuf).drop 16 = (data.take sizeofIpaBuf).drop (8 + 8) from rfl,
        ← List.take_add, List.take_of_length_le (by omega)]
    rw [ipaBufBytes, IpaBuf.dataLen, areaLength, address, fields, List.append_assoc, List.take_append_drop,
      List.take_append_drop]
  · rintro ⟨fits, address, rest, rfl⟩
    exact ipaBufDeserialize_ipaBufBytes address buf fits rest

def Cursor.on (data : List UInt8) : Cursor := { data, len := data.length }

theorem nvstateDeserializeIpaBuf_eq_ok (data : List UInt8) (kept : Option IpaBuf) (next : Cursor) :
    nvstateDeserializeIpaBuf (.on data) = .ok (kept, next) ↔
      ∃ address buf rest, InMemory buf ∧ data = ipaBufBytes address buf ++ rest ∧ kept = restored buf ∧
        next = .on rest := by
  have behind (address : UInt64) (buf : IpaBuf) (rest : List UInt8) :
      (ipaBufBytes address buf ++ rest).drop (buf.dataLen + sizeofIpaBuf) = rest :=
    List.drop_left' (length_ipaBufBytes address buf)
  have left (address : UInt64) (buf : IpaBuf) (rest : List UInt8) :
      ((ipaBufBytes address buf ++ rest).length : Int) - (buf.dataLen + sizeofIpaBuf : Nat) = rest.length := by
    rw [List.length_append, length_ipaBufBytes]
    omega
  simp only [nvstateDeserializeIpaBuf, bind_eq_ok, pure_eq_ok, ipaBufDeserialize_eq_ok, Prod.mk.injEq,
    Cursor.on]
  constructor
  · rintro ⟨buf, ⟨fits, address, rest, rfl⟩, rfl, rfl⟩
    exact ⟨address, buf, rest, fits, rfl, rfl, by rw [behind, left]⟩
  · rintro ⟨address, buf, rest, fits, rfl, rfl, rfl⟩
    exact ⟨buf, ⟨fits, address, rest, rfl⟩, rfl, by rw [behind, left]⟩

theorem valid_of_restored {buf : IpaBuf} (valid : ∀ kept, restored buf = some kept → kept.Valid) : buf.Valid := by
  unfold restored at valid
  split at valid
  next empty =>
    rw [IpaBuf.Valid, empty.1]
    exact Nat.zero_le _
  next => exact valid buf rfl

theorem restored_eq_some {buf kept : IpaBuf} (same : some kept = restored buf) : kept = buf := by
  unfold restored at same
  split at same
  · cases same
  · exact Option.some.inj same

/-! ## Loading -/

/-- What the deserializer gets from the bytes of an image when nothing stops it. -/
inductive Loads : List UInt8 → Loaded → Prop where
  | otherVersion (front rest : List UInt8) (whole : front.length = sizeofNvstate)
      (version : (readNvstate front).version ≠ ipaNvstateVersion)
      (noAddress : (readNvstate front).eimCfgBer = 0 ∧ (readNvstate front).smdpOid = 0 ∧
        (readNvstate front).smdpAddress = 0) :
      Loads (front ++ rest) { nvstate := .fresh, lens := [rest.length] }
  | current (front : List UInt8) (whole : front.length = sizeofNvstate)
      (version : (readNvstate front).version = ipaNvstateVersion)
      (eimCfgBer smdpOid smdpAddress : IpaBuf) (address₁ address₂ address₃ : UInt64)
      (fits : InMemory eimCfgBer ∧ InMemory smdpOid ∧ InMemory smdpAddress) (rest₁ rest₂ rest₃ : List UInt8)
      (second : rest₁ = ipaBufBytes address₂ smdpOid ++ rest₂)
      (third : rest₂ = ipaBufBytes address₃ smdpAddress ++ rest₃) :
      Loads (front ++ (ipaBufBytes address₁ eimCfgBer ++ rest₁))
        { nvstate :=
            { version := (readNvstate front).version
              iotEuiccEmu :=
                { associationTokenCounter := (readNvstate front).associationTokenCounter
                  eimCfgBer := restored eimCfgBer
                  autoEnable :=
                    { flag := (readNvstate front).flag, smdpOid := restored smdpOid
                      smdpAddress := restored smdpAddress } } }
          lens := [((ipaBufBytes address₁ eimCfgBer ++ rest₁).length : Nat), rest₁.length, rest₂.length,
            rest₃.length] }

theorem nvstateDeserialize_whole (front rest : List UInt8) (whole : front.length = sizeofNvstate) :
    readBytes sizeofNvstate (front ++ rest) = .ok front ∧ (front ++ rest).drop sizeofNvstate = rest ∧
      ((front ++ rest).length : Int) - sizeofNvstate = rest.length := by
  refine ⟨?_, List.drop_left' whole, ?_⟩
  · rw [readBytes_eq_ok]
    exact ⟨by rw [List.length_append, whole]; exact Nat.le_add_right _ _, (List.take_left' whole).symm⟩
  · rw [List.length_append, whole]
    omega

theorem nvstateDeserialize_eq_ok (bytes : List UInt8) (loaded : Loaded) :
    nvstateDeserialize (some (.ofBytes bytes)) = .ok loaded ↔ Loads bytes loaded := by
  constructor
  · intro read
    simp only [nvstateDeserialize, IpaBuf.ofBytes, bind_eq_ok] at read
    obtain ⟨front, taken, read⟩ := read
    obtain ⟨room, rfl⟩ := (readBytes_eq_ok _ _ _).mp taken
    have whole : (bytes.take sizeofNvstate).length = sizeofNvstate := by
      rw [List.length_take]
      exact Nat.min_eq_left room
    obtain ⟨-, -, left⟩ := nvstateDeserialize_whole _ (bytes.drop sizeofNvstate) whole
    rw [List.take_append_drop] at left
    rw [left] at read
    split at read
    next version =>
      simp only [bind_eq_ok, pure_eq_ok, nvstateFreeContents] at read
      obtain ⟨_, freed, rfl⟩ := read
      split at freed
      next noAddress =>
        have loads := Loads.otherVersion _ (bytes.drop sizeofNvstate) whole version noAddress
        rw [List.take_append_drop] at loads
        exact loads
      next => cases freed
    next version =>
      simp only [bind_eq_ok, pure_eq_ok, Prod.exists] at read
      obtain ⟨kept₁, next₁, read₁, kept₂, next₂, read₂, kept₃, next₃, read₃, rfl⟩ := read
      obtain ⟨address₁, buf₁, rest₁, fits₁, split₁, rfl, rfl⟩ :=
        (nvstateDeserializeIpaBuf_eq_ok _ _ _).mp read₁
      obtain ⟨address₂, buf₂, rest₂, fits₂, split₂, rfl, rfl⟩ :=
        (nvstateDeserializeIpaBuf_eq_ok _ _ _).mp read₂
      obtain ⟨address₃, buf₃, rest₃, fits₃, split₃, rfl, rfl⟩ :=
        (nvstateDeserializeIpaBuf_eq_ok _ _ _).mp read₃
      have loads := Loads.current _ whole (not_not.mp version) buf₁ buf₂ buf₃ address₁ address₂ address₃
        ⟨fits₁, fits₂, fits₃⟩ rest₁ rest₂ rest₃ split₂ split₃
      rw [← split₁, List.take_append_drop] at loads
      exact loads
  · intro loads
    cases loads with
    | otherVersion front rest whole version noAddress =>
        obtain ⟨read, behind, left⟩ := nvstateDeserialize_whole front rest whole
        simp only [nvstateDeserialize, IpaBuf.ofBytes, bind_eq_ok]
        refine ⟨front, read, ?_⟩
        rw [left, if_pos version, nvstateFreeContents, if_pos noAddress]
        rfl
    | current front whole version buf₁ buf₂ buf₃ address₁ address₂ address₃ fits rest₁ rest₂ rest₃ second third =>
        obtain ⟨read, behind, left⟩ := nvstateDeserialize_whole front (ipaBufBytes address₁ buf₁ ++ rest₁) whole
        simp only [nvstateDeserialize, IpaBuf.ofBytes, bind_eq_ok]
        refine ⟨front, read, ?_⟩
        rw [left, behind, if_neg (not_not.mpr version)]
        have read₁ := (nvstateDeserializeIpaBuf_eq_ok _ _ _).mpr
          ⟨address₁, buf₁, rest₁, fits.1, rfl, rfl, rfl⟩
        have read₂ := (nvstateDeserializeIpaBuf_eq_ok _ _ _).mpr
          ⟨address₂, buf₂, rest₂, fits.2.1, second, rfl, rfl⟩
        have read₃ := (nvstateDeserializeIpaBuf_eq_ok _ _ _).mpr
          ⟨address₃, buf₃, rest₃, fits.2.2, third, rfl, rfl⟩
        simp only [Cursor.on] at read₁ read₂ read₃
        simp only [bind, Except.bind, read₁, read₂, read₃]
        rfl

/-! ## Safety -/

def IpaNvstate.buffers (nv : IpaNvstate) : List (Option IpaBuf) :=
  [nv.iotEuiccEmu.eimCfgBer, nv.iotEuiccEmu.autoEnable.smdpOid, nv.iotEuiccEmu.autoEnable.smdpAddress]

/-- An image is read without a fault, the length that is counted down does not wrap, and the outcome is
the reset state or one with sound buffers from inside the image. -/
def LoadsSafely (image : Option (List UInt8)) : Prop :=
  ∃ loaded, nvstateDeserialize (image.map .ofBytes) = .ok loaded ∧ (∀ len ∈ loaded.lens, 0 ≤ len) ∧
    (loaded.nvstate = .fresh ∨ ∃ bytes, image = some bytes ∧
      ∀ buf, some buf ∈ loaded.nvstate.buffers → buf.Valid ∧ buf.data <:+: bytes)

def Serialized (bytes : List UInt8) : Prop :=
  ∃ address buf, InMemory buf ∧ buf.Valid ∧ bytes = ipaBufBytes address buf

inductive WellFormed : Option (List UInt8) → Prop where
  | absent : WellFormed none
  | otherVersion (front rest : List UInt8) (whole : front.length = sizeofNvstate)
      (version : (readNvstate front).version ≠ ipaNvstateVersion)
      (noAddress : (readNvstate front).eimCfgBer = 0 ∧ (readNvstate front).smdpOid = 0 ∧
        (readNvstate front).smdpAddress = 0) : WellFormed (some (front ++ rest))
  | current (front eimCfgBer smdpOid smdpAddress rest : List UInt8) (whole : front.length = sizeofNvstate)
      (version : (readNvstate front).version = ipaNvstateVersion)
      (buffers : Serialized eimCfgBer ∧ Serialized smdpOid ∧ Serialized smdpAddress) :
      WellFormed (some (front ++ (eimCfgBer ++ (smdpOid ++ (smdpAddress ++ rest)))))

theorem data_infix (before : List UInt8) (address : UInt64) (buf : IpaBuf) (rest : List UInt8) :
    buf.data <:+: before ++ (ipaBufBytes address buf ++ rest) := by
  refine ⟨before ++ (littleEndian 8 address.toNat ++ littleEndian 8 buf.dataLen ++ littleEndian 8 buf.len),
    rest, ?_⟩
  simp only [ipaBufBytes, List.append_assoc]

theorem Loads.lens_nonneg {bytes : List UInt8} {loaded : Loaded} (loads : Loads bytes loaded) :
    ∀ len ∈ loaded.lens, 0 ≤ len := by
  intro len member
  cases loads <;> simp only [List.mem_cons, List.not_mem_nil, or_false] at member <;> omega

theorem loadsSafely_of_wellFormed (image : Option (List UInt8)) (wellFormed : WellFormed image) :
    LoadsSafely image := by
  cases wellFormed with
  | absent => exact ⟨_, rfl, by simp, .inl rfl⟩
  | otherVersion front rest whole version noAddress =>
      have loads := Loads.otherVersion front rest whole version noAddress
      exact ⟨_, (nvstateDeserialize_eq_ok _ _).mpr loads, loads.lens_nonneg, .inl rfl⟩
  | current front eimCfgBer smdpOid smdpAddress rest whole version buffers =>
      obtain ⟨⟨address₁, buf₁, fits₁, valid₁, rfl⟩, ⟨address₂, buf₂, fits₂, valid₂, rfl⟩,
        ⟨address₃, buf₃, fits₃, valid₃, rfl⟩⟩ := buffers
      have loads := Loads.current front whole version buf₁ buf₂ buf₃ address₁ address₂ address₃
        ⟨fits₁, fits₂, fits₃⟩ _ _ rest rfl rfl
      refine ⟨_, (nvstateDeserialize_eq_ok _ _).mpr loads, loads.lens_nonneg, .inr ⟨_, rfl, ?_⟩⟩
      intro buf member
      simp only [IpaNvstate.buffers, List.mem_cons, List.not_mem_nil, or_false] at member
      rcases member with same | same | same <;> rw [restored_eq_some same]
      · exact ⟨valid₁, data_infix front address₁ buf₁ _⟩
      · refine ⟨valid₂, ?_⟩
        rw [← List.append_assoc front]
        exact data_infix _ address₂ buf₂ _
      · refine ⟨valid₃, ?_⟩
        rw [← List.append_assoc (ipaBufBytes address₁ buf₁), ← List.append_assoc front]
        exact data_infix _ address₃ buf₃ _

theorem loadsSafely_iff (image : Option (List UInt8)) : LoadsSafely image ↔ WellFormed image := by
  refine ⟨?_, loadsSafely_of_wellFormed image⟩
  rintro ⟨loaded, read, -, sound⟩
  cases image with
  | none => exact .absent
  | some bytes =>
      cases (nvstateDeserialize_eq_ok bytes loaded).mp read with
      | otherVersion front rest whole version noAddress => exact .otherVersion front rest whole version noAddress
      | current front whole version buf₁ buf₂ buf₃ address₁ address₂ address₃ fits rest₁ rest₂ rest₃ second third =>
          subst second third
          have valid : ∀ buf, restored buf ∈ [restored buf₁, restored buf₂, restored buf₃] → buf.Valid := by
            intro buf member
            apply valid_of_restored
            intro kept same
            rcases sound with reset | ⟨_, -, sound⟩
            · have gone : [restored buf₁, restored buf₂, restored buf₃] = IpaNvstate.fresh.buffers :=
                congrArg IpaNvstate.buffers reset
              rw [gone, same] at member
              simp [IpaNvstate.buffers, IpaNvstate.fresh] at member
            · exact (sound kept (same ▸ member)).1
          exact .current front _ _ _ rest₃ whole version
            ⟨⟨address₁, buf₁, fits.1, valid _ (by simp), rfl⟩,
              ⟨address₂, buf₂, fits.2.1, valid _ (by simp), rfl⟩,
              ⟨address₃, buf₃, fits.2.2, valid _ (by simp), rfl⟩⟩

def previousVersion : RawNvstate where
  version := 2
  associationTokenCounter := 0
  eimCfgBer := 0x1000
  flag := false
  smdpOid := 0
  smdpAddress := 0

theorem images_not_loadsSafely :
    ¬ LoadsSafely (some [3, 0, 0, 0]) ∧ ¬ LoadsSafely (some (nvstateBytes previousVersion)) := by
  constructor
  · rintro ⟨loaded, read, -⟩
    cases read
  · rintro ⟨loaded, read, -⟩
    cases read

end Ipad.Nvstate

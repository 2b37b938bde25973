import Mathlib.Data.List.TakeWhile

/-!
# Memory

Cells of a fixed number that are read one at a time and written in runs, and the strings that end at a zero
byte. An access outside of the region fails.
-/

namespace Lib.Memory

section
variable {α ε : Type} (outside : ε)

def load (cells : List α) (i : Nat) : Except ε α :=
  match cells[i]? with
  | none => .error outside
  | some cell => .ok cell

theorem load_append_cons (before after : List α) (cell : α) :
    load outside (before ++ cell :: after) before.length = .ok cell := by
  simp [load]

theorem load_ok {cells : List α} {i : Nat} (inside : i < cells.length) : load outside cells i = .ok cells[i] := by
  simp [load, inside]

def loadRun (cells : List α) (i count : Nat) : Except ε (List α) :=
  if i + count ≤ cells.length then .ok ((cells.drop i).take count) else .error outside

theorem loadRun_ok {cells : List α} {i count : Nat} (inside : i + count ≤ cells.length) :
    loadRun outside cells i count = .ok ((cells.drop i).take count) :=
  if_pos inside

structure Region (α : Type) (size : Nat) where
  cells : List α
  length_cells : cells.length = size

variable {size : Nat}

def Region.filled (size : Nat) (cell : α) : Region α size where
  cells := List.replicate size cell
  length_cells := List.length_replicate

def Region.store (region : Region α size) (i : Nat) (run : List α) : Except ε (Region α size) :=
  if room : i + run.length ≤ size then
    .ok
      { cells := region.cells.take i ++ run ++ region.cells.drop (i + run.length)
        length_cells := by
          have whole := region.length_cells
          simp only [List.length_append, List.length_take, List.length_drop]
          omega }
  else .error outside

def Region.fill (region : Region α size) (i count : Nat) (cell : α) : Except ε (Region α size) :=
  if i + count ≤ size then region.store outside i (List.replicate count cell) else .error outside

theorem Region.store_ok (region : Region α size) (i : Nat) (run : List α) (room : i + run.length ≤ size) :
    ∃ stored, region.store outside i run = .ok stored ∧
      stored.cells = region.cells.take i ++ run ++ region.cells.drop (i + run.length) :=
  ⟨_, dif_pos room, rfl⟩

theorem Region.store_error (region : Region α size) {i : Nat} {run : List α} (beyond : size < i + run.length) :
    region.store outside i run = .error outside :=
  dif_neg (Nat.not_le.mpr beyond)

theorem Region.fill_ok (region : Region α size) (i count : Nat) (cell : α) (room : i + count ≤ size) :
    ∃ filled, region.fill outside i count cell = .ok filled ∧
      filled.cells = region.cells.take i ++ List.replicate count cell ++ region.cells.drop (i + count) := by
  obtain ⟨filled, done, cells⟩ := region.store_ok outside i (List.replicate count cell)
    (by rw [List.length_replicate]; exact room)
  rw [List.length_replicate] at cells
  refine ⟨filled, ?_, cells⟩
  rw [fill, if_pos room, done]

theorem Region.fill_error (region : Region α size) {i count : Nat} (cell : α) (beyond : size < i + count) :
    region.fill outside i count cell = .error outside :=
  if_neg (Nat.not_le.mpr beyond)

/-- What is written stands behind what stood before it. -/
theorem Region.store_front (region : Region α size) (i : Nat) (run : List α) (room : i + run.length ≤ size) :
    ∃ stored, region.store outside i run = .ok stored ∧
      stored.cells.take (i + run.length) = region.cells.take i ++ run := by
  obtain ⟨stored, done, cells⟩ := region.store_ok outside i run room
  have width : (region.cells.take i ++ run).length = i + run.length := by
    have whole := region.length_cells
    simp only [List.length_append, List.length_take]
    omega
  refine ⟨stored, done, ?_⟩
  rw [cells]
  exact List.take_left' width

end

/-! ## Strings -/

structure CString where
  chars : List UInt8
  nonzero : 0 ∉ chars

def CString.memory (str : CString) : List UInt8 := str.chars ++ [0]

/-- The characters up to the first zero byte. -/
def stringAt (cells : List UInt8) : List UInt8 := cells.takeWhile (· ≠ 0)

theorem stringAt_nonzero (cells : List UInt8) : 0 ∉ stringAt cells := by
  intro member
  have nonzero := List.mem_takeWhile_imp member
  simp at nonzero

theorem stringAt_append (chars rest : List UInt8) (nonzero : 0 ∉ chars) :
    stringAt (chars ++ 0 :: rest) = chars := by
  induction chars with
  | nil => simp [stringAt]
  | cons c chars ih =>
      rw [List.mem_cons, not_or] at nonzero
      have kept := ih nonzero.2
      rw [stringAt] at kept ⊢
      rw [List.cons_append, List.takeWhile_cons_of_pos (by simpa using Ne.symm nonzero.1), kept]

theorem stringAt_eq {cells chars : List UInt8} (written : cells.take (chars.length + 1) = chars ++ [0])
    (nonzero : 0 ∉ chars) : stringAt cells = chars := by
  rw [← List.take_append_drop (chars.length + 1) cells, written, List.append_assoc]
  exact stringAt_append chars _ nonzero

def CString.append (first second : CString) : CString where
  chars := first.chars ++ second.chars
  nonzero := by
    rw [List.mem_append, not_or]
    exact ⟨first.nonzero, second.nonzero⟩

/-- The string in an object that is `bytes` and a zero byte behind them. -/
def CString.ofBytes (bytes : List UInt8) : CString where
  chars := stringAt bytes
  nonzero := stringAt_nonzero bytes

theorem stringAt_of_nonzero {bytes : List UInt8} (nonzero : 0 ∉ bytes) : stringAt bytes = bytes := by
  rw [stringAt, List.takeWhile_eq_self_iff]
  intro byte member
  have other : byte ≠ 0 := by
    rintro rfl
    exact nonzero member
  simpa using other

section
variable {ε : Type} (outside : ε) {size : Nat}

def strcpy (dest : Region UInt8 size) (str : CString) : Except ε (Region UInt8 size) :=
  dest.store outside 0 str.memory

def strcat (dest : Region UInt8 size) (str : CString) : Except ε (Region UInt8 size) :=
  dest.store outside (stringAt dest.cells).length str.memory

/-- A region with a string at its front. -/
def Region.Holds (region : Region UInt8 size) (str : CString) : Prop :=
  region.cells.take (str.chars.length + 1) = str.memory

theorem Region.Holds.stringAt_eq {region : Region UInt8 size} {str : CString} (holds : region.Holds str) :
    stringAt region.cells = str.chars :=
  Memory.stringAt_eq holds str.nonzero

theorem length_memory (str : CString) : str.memory.length = str.chars.length + 1 := by
  rw [CString.memory, List.length_append, List.length_singleton]

theorem strcpy_ok (dest : Region UInt8 size) (str : CString) (room : str.chars.length < size) :
    ∃ copied, strcpy outside dest str = .ok copied ∧ copied.Holds str := by
  obtain ⟨copied, done, cells⟩ := dest.store_front outside 0 str.memory
    (by rw [Nat.zero_add, length_memory]; exact room)
  refine ⟨copied, done, ?_⟩
  rw [Nat.zero_add, length_memory, List.take_zero, List.nil_append] at cells
  exact cells

theorem strcat_ok {dest : Region UInt8 size} {before : CString} (holds : dest.Holds before) (str : CString)
    (room : before.chars.length + str.chars.length < size) :
    ∃ appended, strcat outside dest str = .ok appended ∧ appended.Holds (before.append str) := by
  obtain ⟨appended, done, cells⟩ := dest.store_front outside before.chars.length str.memory
    (by rw [length_memory]; exact room)
  have kept : dest.cells.take before.chars.length = before.chars := by
    have whole := congrArg (List.take before.chars.length) holds
    rw [List.take_take, Nat.min_eq_left (Nat.le_succ _), CString.memory, List.take_left] at whole
    exact whole
  refine ⟨appended, ?_, ?_⟩
  · rw [strcat, holds.stringAt_eq]
    exact done
  · rw [length_memory, kept, ← Nat.add_assoc] at cells
    rw [Region.Holds, CString.append, List.length_append, cells, CString.memory, CString.memory, List.append_assoc]

end

end Lib.Memory

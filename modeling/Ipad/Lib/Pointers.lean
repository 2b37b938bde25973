import Ipad.Lib.Except
import Mathlib.Logic.Function.Basic

/-!
# Pointers

Blocks of memory and the pointers to them. The pointer of a released block never comes back.
-/

namespace Lib.Pointers

abbrev Pointer := Nat

@[ext]
structure Heap (β : Type) where
  next : Pointer
  block : Pointer → Option β
  fresh : ∀ p, next ≤ p → block p = none

namespace Heap
variable {β γ : Type}

def empty : Heap β where
  next := 0
  block _ := none
  fresh _ _ := rfl

def grown (heap : Heap β) (value : β) : Heap β where
  next := heap.next + 1
  block := Function.update heap.block heap.next (some value)
  fresh p beyond := by
    rw [Function.update_of_ne (Nat.ne_of_gt beyond)]
    exact heap.fresh p (Nat.le_of_succ_le beyond)

/-- The block under `p` is written; there is nothing to write where no block is. -/
def set (heap : Heap β) (p : Pointer) (value : β) : Heap β where
  next := heap.next
  block := Function.update heap.block p ((heap.block p).map fun _ => value)
  fresh q beyond := by
    by_cases same : q = p
    · subst q
      simp [heap.fresh p beyond]
    · rw [Function.update_of_ne same]
      exact heap.fresh q beyond

def erase (heap : Heap β) (p : Pointer) : Heap β where
  next := heap.next
  block := Function.update heap.block p none
  fresh q beyond := by
    by_cases same : q = p
    · simp [same]
    · rw [Function.update_of_ne same]
      exact heap.fresh q beyond

def moved (heap : Heap β) (stays : Bool) (p : Pointer) : Pointer := if stays then p else heap.next

/-- A block that gets another size stays where it is, or it is released and there is a new one. -/
def resized (heap : Heap β) (stays : Bool) (p : Pointer) (value : β) : Heap β :=
  if stays then heap.set p value else (heap.erase p).grown value

def map (f : β → γ) (heap : Heap β) : Heap γ where
  next := heap.next
  block p := (heap.block p).map f
  fresh p beyond := by rw [heap.fresh p beyond, Option.map_none]

@[simp] theorem map_block (f : β → γ) (heap : Heap β) (p : Pointer) :
    (heap.map f).block p = (heap.block p).map f := rfl
@[simp] theorem grown_block (heap : Heap β) (value : β) : (heap.grown value).block heap.next = some value :=
  Function.update_self ..

theorem grown_block_of_ne (heap : Heap β) (value : β) {p : Pointer} (other : p ≠ heap.next) :
    (heap.grown value).block p = heap.block p :=
  Function.update_of_ne other ..

theorem set_block {heap : Heap β} {p : Pointer} {old : β} (live : heap.block p = some old) (value : β) :
    (heap.set p value).block p = some value := by
  show Function.update heap.block p _ p = some value
  rw [Function.update_self, live, Option.map_some]

theorem set_block_of_ne (heap : Heap β) {p q : Pointer} (value : β) (other : q ≠ p) :
    (heap.set p value).block q = heap.block q :=
  Function.update_of_ne other ..

theorem lt_next {heap : Heap β} {p : Pointer} {value : β} (live : heap.block p = some value) : p < heap.next := by
  by_contra beyond
  rw [heap.fresh p (Nat.le_of_not_lt beyond)] at live
  cases live

theorem map_grown (f : β → γ) (heap : Heap β) (value : β) :
    (heap.grown value).map f = (heap.map f).grown (f value) := by
  refine Heap.ext rfl ?_
  funext p
  by_cases new : p = heap.next
  · simp [map, grown, new]
  · simp [map, grown, new]

theorem map_set (f : β → γ) (heap : Heap β) (p : Pointer) (value : β) :
    (heap.set p value).map f = (heap.map f).set p (f value) := by
  refine Heap.ext rfl ?_
  funext q
  by_cases same : q = p
  · cases held : heap.block p <;> simp [map, set, same, held]
  · simp [map, set, same]

theorem map_erase (f : β → γ) (heap : Heap β) (p : Pointer) : (heap.erase p).map f = (heap.map f).erase p := by
  refine Heap.ext rfl ?_
  funext q
  by_cases same : q = p
  · simp [map, erase, same]
  · simp [map, erase, same]

theorem map_resized (f : β → γ) (heap : Heap β) (stays : Bool) (p : Pointer) (value : β) :
    (heap.resized stays p value).map f = (heap.map f).resized stays p (f value) := by
  cases stays with
  | false =>
      show ((heap.erase p).grown value).map f = ((heap.map f).erase p).grown (f value)
      rw [map_grown, map_erase]
  | true => exact map_set f heap p value

theorem set_grown (heap : Heap β) (first second : β) :
    (heap.grown first).set heap.next second = heap.grown second := by
  refine Heap.ext rfl ?_
  funext p
  by_cases new : p = heap.next
  · simp [set, grown, new]
  · simp [set, grown, new]

theorem set_set (heap : Heap β) (p : Pointer) (first second : β) :
    (heap.set p first).set p second = heap.set p second := by
  refine Heap.ext rfl ?_
  funext q
  by_cases same : q = p
  · cases held : heap.block p <;> simp [set, same, held]
  · simp [set, same]

theorem set_resized (heap : Heap β) (stays : Bool) (p : Pointer) (first second : β) :
    (heap.resized stays p first).set (heap.moved stays p) second = heap.resized stays p second := by
  cases stays with
  | false => exact set_grown (heap.erase p) first second
  | true => exact set_set heap p first second

theorem resized_block {heap : Heap β} {p : Pointer} {old : β} (live : heap.block p = some old) (stays : Bool)
    (value : β) : (heap.resized stays p value).block (heap.moved stays p) = some value := by
  cases stays with
  | false => exact grown_block (heap.erase p) value
  | true => exact set_block live value

theorem resized_block_of_ne (heap : Heap β) (stays : Bool) {p q : Pointer} (value : β) (other : q ≠ p)
    (elsewhere : q ≠ heap.moved stays p) : (heap.resized stays p value).block q = heap.block q := by
  cases stays with
  | false =>
      show ((heap.erase p).grown value).block q = heap.block q
      rw [grown_block_of_ne (heap.erase p) value elsewhere]
      exact Function.update_of_ne other ..
  | true => exact set_block_of_ne heap value other

theorem resized_block_old {heap : Heap β} (stays : Bool) {p : Pointer} {old : β} (live : heap.block p = some old)
    (value : β) (away : p ≠ heap.moved stays p) : (heap.resized stays p value).block p = none := by
  cases stays with
  | false =>
      show ((heap.erase p).grown value).block p = none
      have before : p < heap.next := lt_next live
      have other : p ≠ (heap.erase p).next := Nat.ne_of_lt before
      rw [grown_block_of_ne _ value other]
      exact Function.update_self ..
  | true => exact absurd rfl away

end Heap

/-! ## Programs -/

abbrev Prog (β ε α : Type) := StateT (Heap β) (Except ε) α

section
variable {β ε α : Type}

def fail (reason : ε) : Prog β ε α := fun _ => .error reason

def lift : Except ε α → Prog β ε α
  | .error reason => fail reason
  | .ok value => pure value

/-- A new block; what is in it may depend on where it lies. -/
def new (value : Pointer → β) : Prog β ε Pointer := fun heap => .ok (heap.next, heap.grown (value heap.next))

section
variable (dangling : ε)

def read (p : Pointer) : Prog β ε β := fun heap =>
  match heap.block p with
  | none => .error dangling
  | some value => .ok (value, heap)

def write (p : Pointer) (value : β) : Prog β ε Unit := fun heap =>
  match heap.block p with
  | none => .error dangling
  | some _ => .ok ((), heap.set p value)

def resize (stays : Bool) (p : Pointer) (value : Pointer → β) : Prog β ε Pointer := fun heap =>
  match heap.block p with
  | none => .error dangling
  | some _ => .ok (heap.moved stays p, heap.resized stays p (value (heap.moved stays p)))

variable {heap : Heap β} {p : Pointer} {old : β}

theorem read_eq (live : heap.block p = some old) : read dangling p heap = .ok (old, heap) := by
  simp only [read, live]

theorem write_eq (live : heap.block p = some old) (value : β) :
    write dangling p value heap = .ok ((), heap.set p value) := by
  simp only [write, live]

theorem resize_eq (live : heap.block p = some old) (stays : Bool) (value : Pointer → β) :
    resize dangling stays p value heap =
      .ok (heap.moved stays p, heap.resized stays p (value (heap.moved stays p))) := by
  simp only [resize, live]

end

theorem bind_ok {first : Prog β ε α} {heap heap' : Heap β} {value : α} (done : first heap = .ok (value, heap'))
    {γ : Type} (next : α → Prog β ε γ) : (first >>= next) heap = next value heap' := by
  show (first heap >>= fun out => next out.1 out.2) = next value heap'
  rw [done]
  rfl

theorem bind_error {first : Prog β ε α} {heap : Heap β} {reason : ε} (failed : first heap = .error reason)
    {γ : Type} (next : α → Prog β ε γ) : (first >>= next) heap = .error reason := by
  show (first heap >>= fun out => next out.1 out.2) = .error reason
  rw [failed]
  rfl

theorem bind_cases {first : Prog β ε α} {γ : Type} {next : α → Prog β ε γ} {heap after : Heap β} {out : γ}
    (done : (first >>= next) heap = .ok (out, after)) :
    ∃ value mid, first heap = .ok (value, mid) ∧ next value mid = .ok (out, after) := by
  cases ran : first heap with
  | error reason =>
      rw [bind_error ran] at done
      cases done
  | ok result =>
      obtain ⟨value, mid⟩ := result
      rw [bind_ok ran] at done
      exact ⟨value, mid, rfl, done⟩

theorem read_cases {dangling : ε} {p : Pointer} {heap after : Heap β} {value : β}
    (done : read dangling p heap = .ok (value, after)) : heap.block p = some value ∧ after = heap := by
  cases live : heap.block p with
  | none =>
      have dead : read dangling p heap = .error dangling := by simp only [read, live]
      rw [dead] at done
      cases done
  | some block =>
      rw [read_eq dangling live] at done
      cases done
      exact ⟨rfl, rfl⟩

end

/-! ## Runs -/

section
variable {κ β ε α : Type} (step : κ → Prog β ε α)

def run (calls : List κ) : Prog β ε (List α) := calls.mapM step

theorem run_nil (heap : Heap β) : run step [] heap = .ok ([], heap) := rfl

theorem run_cons (call : κ) (calls : List κ) :
    run step (call :: calls) = step call >>= fun value => run step calls >>= fun values =>
      pure (value :: values) :=
  List.mapM_cons

theorem run_cons_cases {call : κ} {calls : List κ} {heap after : Heap β} {values : List α}
    (done : run step (call :: calls) heap = .ok (values, after)) :
    ∃ value mid rest, step call heap = .ok (value, mid) ∧ run step calls mid = .ok (rest, after) ∧
      values = value :: rest := by
  rw [run_cons] at done
  obtain ⟨value, mid, first, done⟩ := bind_cases done
  obtain ⟨rest, last, ran, done⟩ := bind_cases done
  cases done
  exact ⟨value, mid, rest, first, ran, rfl⟩

theorem run_cons_ok {call : κ} {calls : List κ} {heap mid after : Heap β} {value : α} {values : List α}
    (first : step call heap = .ok (value, mid)) (ran : run step calls mid = .ok (values, after)) :
    run step (call :: calls) heap = .ok (value :: values, after) := by
  rw [run_cons, bind_ok first, bind_ok ran]
  rfl

theorem run_append_cases {before later : List κ} {heap after : Heap β} {values : List α}
    (done : run step (before ++ later) heap = .ok (values, after)) :
    ∃ first mid, run step before heap = .ok (first, mid) := by
  induction before generalizing heap values with
  | nil => exact ⟨[], heap, rfl⟩
  | cons call before ih =>
      obtain ⟨value, mid, rest, called, onwards, -⟩ := run_cons_cases step done
      obtain ⟨first, last, ran⟩ := ih onwards
      exact ⟨value :: first, last, run_cons_ok step called ran⟩

/-- `holds` of every call of a run and the heap that the call finds. -/
def Along (holds : κ → Heap β → Prop) (calls : List κ) (heap : Heap β) : Prop :=
  ∀ before call later, calls = before ++ call :: later →
    ∀ values mid, run step before heap = .ok (values, mid) → holds call mid

variable {step} {holds : κ → Heap β → Prop} {call : κ} {calls : List κ} {heap mid : Heap β} {value : α}

theorem Along.head (along : Along step holds (call :: calls) heap) : holds call heap :=
  along [] call calls rfl [] heap (run_nil step heap)

theorem Along.tail (along : Along step holds (call :: calls) heap) (first : step call heap = .ok (value, mid)) :
    Along step holds calls mid := by
  intro before next later split values reached ran
  exact along (call :: before) next later (congrArg (call :: ·) split) _ _ (run_cons_ok step first ran)

theorem along_cons (head : holds call heap) (first : step call heap = .ok (value, mid))
    (tail : Along step holds calls mid) : Along step holds (call :: calls) heap := by
  intro before next later split values reached ran
  cases before with
  | nil =>
      cases split
      cases ran
      exact head
  | cons start before =>
      cases split
      obtain ⟨value', mid', rest, first', ran', -⟩ := run_cons_cases step ran
      rw [first] at first'
      cases first'
      exact tail before next later rfl rest reached ran'

theorem along_front {before later : List κ} (along : Along step holds (before ++ later) heap) :
    Along step holds before heap := by
  intro first call rest split values reached ran
  refine along first call (rest ++ later) ?_ values reached ran
  rw [split, List.append_assoc, List.cons_append]

section
variable {γ ε' : Type} {concrete : κ → Prog γ ε' α} (image : Heap β → Heap γ) {values : List α}
  {after : Heap β} (abstract : run step calls heap = .ok (values, after))
include abstract

/-- A program that does what an abstract one does as long as `holds` does so in a run. -/
theorem run_follows
    (follows : ∀ call heap value mid, step call heap = .ok (value, mid) → holds call heap →
      concrete call (image heap) = .ok (value, image mid))
    (along : Along step holds calls heap) : run concrete calls (image heap) = .ok (values, image after) := by
  induction calls generalizing heap values with
  | nil =>
      cases abstract
      rfl
  | cons call calls ih =>
      obtain ⟨value, mid, rest, first, onwards, rfl⟩ := run_cons_cases step abstract
      have followed := follows call heap value mid first along.head
      exact run_cons_ok concrete followed (ih onwards (along.tail first))

/-- Where it fails as soon as `holds` does not, a run that ends has met it all along. -/
theorem along_of_run
    (follows : ∀ call heap value mid, step call heap = .ok (value, mid) → holds call heap →
      concrete call (image heap) = .ok (value, image mid))
    (stops : ∀ call heap value mid, step call heap = .ok (value, mid) → ¬ holds call heap →
      ∃ reason, concrete call (image heap) = .error reason)
    {out : List α × Heap γ} (ran : run concrete calls (image heap) = .ok out) : Along step holds calls heap := by
  induction calls generalizing heap values out with
  | nil =>
      intro before call later split
      cases before <;> cases split
  | cons call calls ih =>
      obtain ⟨value, mid, rest, first, onwards, rfl⟩ := run_cons_cases step abstract
      obtain ⟨value', mid', rest', first', ran, -⟩ := run_cons_cases concrete ran
      by_cases good : holds call heap
      · rw [follows call heap value mid first good] at first'
        cases first'
        exact along_cons good first (ih onwards ran)
      · obtain ⟨reason, stopped⟩ := stops call heap value mid first good
        rw [stopped] at first'
        cases first'

end

end

end Lib.Pointers

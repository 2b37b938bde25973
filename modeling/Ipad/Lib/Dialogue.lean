/-!
# Programs in dialogue with an environment

A program makes requests and goes on with the answers. Its runs are those with any answers whatever. The
trace holds the requests with their answers, newest first.
-/

namespace Lib.Dialogue

inductive Program (Req : Type) (Ans : Req → Type) (ε α : Type) where
  | done (out : Except ε α)
  | ask (req : Req) (next : Ans req → Program Req Ans ε α)

structure Event (Req : Type) (Ans : Req → Type) where
  req : Req
  ans : Ans req

section
variable {Req : Type} {Ans : Req → Type} {ε α β : Type}

def Program.bind : Program Req Ans ε α → (α → Program Req Ans ε β) → Program Req Ans ε β
  | .done (.error e), _ => .done (.error e)
  | .done (.ok a), next => next a
  | .ask req rest, next => .ask req fun ans => (rest ans).bind next

instance : Monad (Program Req Ans ε) where
  pure a := .done (.ok a)
  bind := Program.bind

def request (req : Req) : Program Req Ans ε (Ans req) := .ask req fun ans => .done (.ok ans)

def stop (e : ε) : Program Req Ans ε α := .done (.error e)

inductive Runs : Program Req Ans ε α → List (Event Req Ans) → Except ε α → List (Event Req Ans) → Prop where
  | done (out : Except ε α) (t : List (Event Req Ans)) : Runs (.done out) t out t
  | ask (req : Req) (next : Ans req → Program Req Ans ε α) (t : List (Event Req Ans)) (ans : Ans req)
      (out : Except ε α) (t' : List (Event Req Ans)) (rest : Runs (next ans) (⟨req, ans⟩ :: t) out t') :
      Runs (.ask req next) t out t'

def run (env : List (Event Req Ans) → (req : Req) → Ans req) :
    Program Req Ans ε α → List (Event Req Ans) → Except ε α × List (Event Req Ans)
  | .done out, t => (out, t)
  | .ask req next, t => run env (next (env t req)) (⟨req, env t req⟩ :: t)

/-- Every run returns in `Q` or stops in `E`. -/
def Ends (Q : α → List (Event Req Ans) → Prop) (E : ε → List (Event Req Ans) → Prop) :
    Program Req Ans ε α → List (Event Req Ans) → Prop
  | .done (.ok a), t => Q a t
  | .done (.error e), t => E e t
  | .ask req next, t => ∀ ans, Ends Q E (next ans) (⟨req, ans⟩ :: t)

variable {Q : α → List (Event Req Ans) → Prop} {E : ε → List (Event Req Ans) → Prop}

theorem runs_run (env : List (Event Req Ans) → (req : Req) → Ans req) (program : Program Req Ans ε α)
    (t : List (Event Req Ans)) : Runs program t (run env program t).1 (run env program t).2 := by
  induction program generalizing t with
  | done out => exact .done out t
  | ask req next ih => exact .ask req next t _ _ _ (ih _ _)

@[simp] theorem ends_pure (a : α) (t : List (Event Req Ans)) :
    Ends Q E (pure a : Program Req Ans ε α) t ↔ Q a t := Iff.rfl

@[simp] theorem ends_request (req : Req) (Q : Ans req → List (Event Req Ans) → Prop) (t : List (Event Req Ans)) :
    Ends Q E (request req : Program Req Ans ε (Ans req)) t ↔ ∀ ans, Q ans (⟨req, ans⟩ :: t) := Iff.rfl

@[simp] theorem ends_bind (program : Program Req Ans ε α) (next : α → Program Req Ans ε β)
    (Q : β → List (Event Req Ans) → Prop) (t : List (Event Req Ans)) :
    Ends Q E (program >>= next) t ↔ Ends (fun a => Ends Q E (next a)) E program t := by
  induction program generalizing t with
  | done out => cases out <;> exact Iff.rfl
  | ask req rest ih => exact forall_congr' fun ans => ih ans _

theorem Ends.mono {Q' : α → List (Event Req Ans) → Prop} {E' : ε → List (Event Req Ans) → Prop}
    {program : Program Req Ans ε α} {t : List (Event Req Ans)} (ends : Ends Q E program t)
    (returns : ∀ a t, Q a t → Q' a t) (stops : ∀ e t, E e t → E' e t) : Ends Q' E' program t := by
  induction program generalizing t with
  | done out =>
      cases out with
      | ok a => exact returns a t ends
      | error e => exact stops e t ends
  | ask req next ih => exact fun ans => ih ans (ends ans)

theorem Ends.imp {Q' : α → List (Event Req Ans) → Prop} {program : Program Req Ans ε α}
    {t : List (Event Req Ans)} (ends : Ends Q E program t) (weaken : ∀ a t, Q a t → Q' a t) :
    Ends Q' E program t := ends.mono weaken fun _ _ => id

theorem Ends.bind {R : β → List (Event Req Ans) → Prop} {program : Program Req Ans ε α}
    {next : α → Program Req Ans ε β} {t : List (Event Req Ans)} (ends : Ends Q E program t)
    (rest : ∀ a t, Q a t → Ends R E (next a) t) : Ends R E (program >>= next) t := by
  rw [ends_bind]
  exact ends.imp rest

theorem Ends.of_runs {program : Program Req Ans ε α} {t t' : List (Event Req Ans)} {out : Except ε α}
    (runs : Runs program t out t') (ends : Ends Q E program t) :
    (∀ a, out = .ok a → Q a t') ∧ ∀ e, out = .error e → E e t' := by
  induction runs with
  | done out t =>
      constructor
      · rintro a rfl
        exact ends
      · rintro e rfl
        exact ends
  | ask req next t ans out t' rest ih => exact ih (ends ans)

theorem Ends.and {Q' : α → List (Event Req Ans) → Prop} {E' : ε → List (Event Req Ans) → Prop}
    {program : Program Req Ans ε α} {t : List (Event Req Ans)} (first : Ends Q E program t)
    (second : Ends Q' E' program t) :
    Ends (fun a t' => Q a t' ∧ Q' a t') (fun e t' => E e t' ∧ E' e t') program t := by
  induction program generalizing t with
  | done out =>
      cases out with
      | ok a => exact ⟨first, second⟩
      | error e => exact ⟨first, second⟩
  | ask req next ih => exact fun ans => ih ans (first ans) (second ans)

theorem ends_always {program : Program Req Ans ε α} {t : List (Event Req Ans)} (always : ∀ a t', Q a t')
    (fails : ∀ e t', E e t') : Ends Q E program t := by
  induction program generalizing t with
  | done out =>
      cases out with
      | ok a => exact always a t
      | error e => exact fails e t
  | ask req next ih => exact fun ans => ih ans

theorem ends_suffix (program : Program Req Ans ε α) (t : List (Event Req Ans)) :
    Ends (fun _ t' => t <:+ t') (fun _ t' => t <:+ t') program t := by
  induction program generalizing t with
  | done out =>
      cases out with
      | ok a => exact List.suffix_rfl
      | error e => exact List.suffix_rfl
  | ask req next ih =>
      exact fun ans => (ih ans _).mono (fun _ _ suffix => (List.suffix_cons ..).trans suffix)
        fun _ _ suffix => (List.suffix_cons ..).trans suffix

theorem Runs.suffix {program : Program Req Ans ε α} {t t' : List (Event Req Ans)} {out : Except ε α}
    (runs : Runs program t out t') : t <:+ t' := by
  have ends := (ends_suffix program t).of_runs runs
  cases out with
  | ok a => exact ends.1 a rfl
  | error e => exact ends.2 e rfl

/-- The answers in the trace determine how a program ends. -/
theorem Runs.unique {program : Program Req Ans ε α} {t t' : List (Event Req Ans)} {out out' : Except ε α}
    (first : Runs program t out t') (second : Runs program t out' t') : out = out' := by
  induction first with
  | done out t =>
      cases second
      rfl
  | ask req next t ans out t' rest ih =>
      cases second with
      | ask _ _ _ ans' _ _ rest' =>
          obtain ⟨later, said⟩ := rest.suffix
          obtain ⟨later', said'⟩ := rest'.suffix
          have same := List.append_inj_right' (said.trans said'.symm) rfl
          cases same
          exact ih rest'

theorem Runs.of_pure {a b : α} {t t' : List (Event Req Ans)}
    (runs : Runs (pure a : Program Req Ans ε α) t (.ok b) t') : b = a ∧ t' = t := by
  cases runs
  exact ⟨rfl, rfl⟩

theorem Runs.of_bind {program : Program Req Ans ε α} {next : α → Program Req Ans ε β}
    {t t' : List (Event Req Ans)} {b : β} (runs : Runs (program >>= next) t (.ok b) t') :
    ∃ a t₁, Runs program t (.ok a) t₁ ∧ Runs (next a) t₁ (.ok b) t' := by
  induction program generalizing t with
  | done out =>
      cases out with
      | ok a => exact ⟨a, t, .done _ t, runs⟩
      | error e => cases runs
  | ask req rest ih =>
      cases runs with
      | ask _ _ _ ans _ _ runs =>
          obtain ⟨a, t₁, before, after⟩ := ih ans runs
          exact ⟨a, t₁, .ask req rest t ans _ t₁ before, after⟩

/-- What is said of the result alone does not depend on what was said before. -/
theorem Ends.anywhere {P : α → Prop} {program : Program Req Ans ε α} {t : List (Event Req Ans)}
    (ends : Ends Q E program t) (forget : ∀ a t, Q a t → P a) (t' : List (Event Req Ans)) :
    Ends (fun a _ => P a) (fun _ _ => True) program t' := by
  induction program generalizing t t' with
  | done out =>
      cases out with
      | ok a => exact forget a t ends
      | error e => trivial
  | ask req next ih => exact fun ans => ih ans (ends ans) _

/-- Every request that it can make is in `P`, and it stops in `F` only. -/
def Asks (P : Req → Prop) (F : ε → Prop) : Program Req Ans ε α → Prop
  | .done (.ok _) => True
  | .done (.error e) => F e
  | .ask req next => P req ∧ ∀ ans, Asks P F (next ans)

section
variable {P : Req → Prop} {F : ε → Prop}

@[simp] theorem asks_request (req : Req) : Asks P F (request req : Program Req Ans ε (Ans req)) ↔ P req :=
  ⟨And.left, fun asked => ⟨asked, fun _ => trivial⟩⟩

theorem Asks.bind {program : Program Req Ans ε α} {next : α → Program Req Ans ε β} (asks : Asks P F program)
    (rest : ∀ a, Asks P F (next a)) : Asks P F (program >>= next) := by
  induction program with
  | done out =>
      cases out with
      | ok a => exact rest a
      | error e => exact asks
  | ask req next ih => exact ⟨asks.1, fun ans => ih ans (asks.2 ans)⟩

theorem Asks.imp {P' : Req → Prop} {F' : ε → Prop} {program : Program Req Ans ε α} (asks : Asks P F program)
    (requests : ∀ req, P req → P' req) (stops : ∀ e, F e → F' e) : Asks P' F' program := by
  induction program with
  | done out =>
      cases out with
      | ok a => trivial
      | error e => exact stops e asks
  | ask req next ih => exact ⟨requests req asks.1, fun ans => ih ans (asks.2 ans)⟩

theorem Asks.ends {program : Program Req Ans ε α} (asks : Asks P F program)
    {Keeps : List (Event Req Ans) → Prop}
    (step : ∀ req ans t, P req → Keeps t → Keeps (⟨req, ans⟩ :: t))
    (stops : ∀ e t, F e → Keeps t → E e t) {t : List (Event Req Ans)} (keeps : Keeps t) :
    Ends (fun _ t' => Keeps t') E program t := by
  induction program generalizing t with
  | done out =>
      cases out with
      | ok a => exact keeps
      | error e => exact stops e t asks keeps
  | ask req next ih => exact fun ans => ih ans (asks.2 ans) (step req ans t asks.1 keeps)

end

/-- Something was said in between, with requests in `P` only. -/
def Adds (P : Req → Prop) (t t' : List (Event Req Ans)) : Prop :=
  ∃ later, t' = later ++ t ∧ ∀ event ∈ later, P event.req

section
variable {P : Req → Prop} {t t' t'' : List (Event Req Ans)}

theorem Adds.refl (P : Req → Prop) (t : List (Event Req Ans)) : Adds P t t :=
  ⟨[], rfl, fun _ member => absurd member List.not_mem_nil⟩

theorem Adds.cons (adds : Adds P t t') (req : Req) (ans : Ans req) (allowed : P req) :
    Adds P t (⟨req, ans⟩ :: t') := by
  obtain ⟨later, rfl, each⟩ := adds
  exact ⟨⟨req, ans⟩ :: later, rfl, List.forall_mem_cons.mpr ⟨allowed, each⟩⟩

theorem Adds.trans (first : Adds P t t') (second : Adds P t' t'') : Adds P t t'' := by
  obtain ⟨later, rfl, each⟩ := first
  obtain ⟨later', rfl, each'⟩ := second
  exact ⟨later' ++ later, (List.append_assoc ..).symm, List.forall_mem_append.mpr ⟨each', each⟩⟩

theorem Adds.imp {P' : Req → Prop} (adds : Adds P t t') (weaken : ∀ req, P req → P' req) : Adds P' t t' := by
  obtain ⟨later, rfl, each⟩ := adds
  exact ⟨later, rfl, fun event member => weaken _ (each event member)⟩

theorem Asks.adds {F : ε → Prop} {program : Program Req Ans ε α} (asks : Asks P F program)
    (t : List (Event Req Ans)) :
    Ends (fun _ t' => Adds P t t') (fun _ t' => Adds P t t') program t :=
  asks.ends (fun req ans _ allowed adds => adds.cons req ans allowed) (fun _ _ _ adds => adds) (.refl P t)

end

/-- Something was said that is in `P`. -/
def Said (P : Event Req Ans → Prop) (t : List (Event Req Ans)) : Prop := ∃ event ∈ t, P event

section
variable {P : Event Req Ans → Prop} {t : List (Event Req Ans)}

@[simp] theorem not_said_nil : ¬ Said P [] := by
  rintro ⟨event, member, -⟩
  exact List.not_mem_nil member

@[simp] theorem said_cons (event : Event Req Ans) (t : List (Event Req Ans)) :
    Said P (event :: t) ↔ P event ∨ Said P t := by
  simp only [Said, List.mem_cons, or_and_right, exists_or, exists_eq_left]

@[simp] theorem said_append (later t : List (Event Req Ans)) : Said P (later ++ t) ↔ Said P later ∨ Said P t := by
  simp only [Said, List.mem_append, or_and_right, exists_or]

theorem not_said_of_forall {R : Req → Prop} (apart : ∀ req ans, R req → ¬ P ⟨req, ans⟩)
    (each : ∀ event ∈ t, R event.req) : ¬ Said P t := by
  rintro ⟨event, member, holds⟩
  exact apart event.req event.ans (each event member) holds

end

def Every (P : Event Req Ans → List (Event Req Ans) → Prop) : List (Event Req Ans) → Prop
  | [] => True
  | event :: t => P event t ∧ Every P t

theorem Every.suffix {P : Event Req Ans → List (Event Req Ans) → Prop} {t t' : List (Event Req Ans)}
    (every : Every P t') (earlier : t <:+ t') : Every P t := by
  obtain ⟨later, rfl⟩ := earlier
  induction later with
  | nil => exact every
  | cons _ later ih => exact ih every.2

theorem Every.before {P : Event Req Ans → List (Event Req Ans) → Prop} {later : List (Event Req Ans)}
    {event : Event Req Ans} {earlier : List (Event Req Ans)}
    (every : Every P (later ++ event :: earlier)) : P event earlier :=
  (every.suffix (List.suffix_append ..)).1

end

end Lib.Dialogue

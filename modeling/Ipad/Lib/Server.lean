import Ipad.Lib.Dialogue

/-!
# Programs against servers

A server answers each request from its state, or gives no answer at all and the program hangs.
-/

namespace Lib.Dialogue

section
variable {Req : Type} {Ans : Req → Type} {ε α β σ τ : Type}

abbrev Server (σ : Type) (Req : Type) (Ans : Req → Type) := σ → (req : Req) → Option (σ × Ans req)

def against (server : Server σ Req Ans) :
    Program Req Ans ε α → σ → List (Event Req Ans) → Option (Except ε α × σ × List (Event Req Ans))
  | .done out, s, t => some (out, s, t)
  | .ask req next, s, t =>
      match server s req with
      | none => none
      | some (s, ans) => against server (next ans) s (⟨req, ans⟩ :: t)

variable {server : Server σ Req Ans} {program : Program Req Ans ε α} {s s' : σ} {t t' : List (Event Req Ans)}
  {out : Except ε α}

theorem against_ask {req : Req} {next : Ans req → Program Req Ans ε α} {ans : Ans req}
    (answers : server s req = some (s', ans)) :
    against server (.ask req next) s t = against server (next ans) s' (⟨req, ans⟩ :: t) := by
  simp only [against, answers]

theorem against_runs (runs : against server program s t = some (out, s', t')) : Runs program t out t' := by
  induction program generalizing s t with
  | done out =>
      cases runs
      exact .done _ _
  | ask req next ih =>
      unfold against at runs
      split at runs
      · cases runs
      next answers => exact .ask _ _ _ _ _ _ (ih _ runs)

/-- What each answer does to the state of the server, the whole run does. -/
theorem against_keeps {R : List (Event Req Ans) → σ → Prop}
    (step : ∀ t s req s' ans, R t s → server s req = some (s', ans) → R (⟨req, ans⟩ :: t) s')
    (keeps : R t s) (runs : against server program s t = some (out, s', t')) : R t' s' := by
  induction program generalizing s t with
  | done out =>
      cases runs
      exact keeps
  | ask req next ih =>
      unfold against at runs
      split at runs
      · cases runs
      next answers => exact ih _ (step _ _ _ _ _ keeps answers) runs

/-- A server that always answers does not let a program hang. -/
theorem against_total (answers : ∀ s req, (server s req).isSome) (program : Program Req Ans ε α) (s : σ)
    (t : List (Event Req Ans)) : ∃ out s' t', against server program s t = some (out, s', t') := by
  induction program generalizing s t with
  | done out => exact ⟨out, s, t, rfl⟩
  | ask req next ih =>
      obtain ⟨⟨s', ans⟩, answered⟩ := Option.isSome_iff_exists.mp (answers s req)
      obtain ⟨out, s'', t', runs⟩ := ih ans s' (⟨req, ans⟩ :: t)
      exact ⟨out, s'', t', by rw [against_ask answered, runs]⟩

/-- A server that needs fuel for its answers, against one that has them at once. -/
theorem against_simulates {concrete : Nat → Server τ Req Ans} {R : τ → σ → Prop}
    (step : ∀ s req s' ans, server s req = some (s', ans) →
      ∃ least, ∀ fuel, least ≤ fuel → ∀ u, R u s → ∃ u', concrete fuel u req = some (u', ans) ∧ R u' s')
    (runs : against server program s t = some (out, s', t')) :
    ∃ least, ∀ fuel, least ≤ fuel → ∀ u, R u s →
      ∃ u', against (concrete fuel) program u t = some (out, u', t') ∧ R u' s' := by
  induction program generalizing s t with
  | done out =>
      cases runs
      exact ⟨0, fun _ _ u related => ⟨u, rfl, related⟩⟩
  | ask req next ih =>
      unfold against at runs
      split at runs
      · cases runs
      next next answers =>
        obtain ⟨first, stepped⟩ := step _ _ _ _ answers
        obtain ⟨least, rest⟩ := ih _ runs
        refine ⟨max first least, fun fuel enough u related => ?_⟩
        obtain ⟨u', answered, related'⟩ := stepped fuel (Nat.le_trans (Nat.le_max_left ..) enough) u related
        obtain ⟨u'', served, final⟩ := rest fuel (Nat.le_trans (Nat.le_max_right ..) enough) u' related'
        exact ⟨u'', by rw [against_ask answered, served], final⟩

/-! ## What a program comes to -/

/-- The result and the state of the server at the end. -/
def Arrives (server : Server σ Req Ans) (program : Program Req Ans ε α) (s : σ) (out : Except ε α) (s' : σ) : Prop :=
  ∀ t, ∃ t', against server program s t = some (out, s', t')

theorem arrives_pure (server : Server σ Req Ans) (a : α) (s : σ) :
    Arrives server (pure a : Program Req Ans ε α) s (.ok a) s := fun t => ⟨t, rfl⟩

theorem arrives_request {req : Req} {ans : Ans req} (answers : server s req = some (s', ans)) :
    Arrives server (request req : Program Req Ans ε (Ans req)) s (.ok ans) s' :=
  fun t => ⟨⟨req, ans⟩ :: t, by rw [request, against_ask answers, against]⟩

theorem against_bind {a : α} {next : α → Program Req Ans ε β}
    (first : against server program s t = some (.ok a, s', t')) :
    against server (program >>= next) s t = against server (next a) s' t' := by
  induction program generalizing s t with
  | done out =>
      cases first
      rfl
  | ask req rest ih =>
      unfold against at first
      split at first
      · cases first
      next answers =>
        change against server (.ask req fun ans => rest ans >>= next) s t = _
        rw [against_ask answers, ih _ first]

theorem Arrives.bind {a : α} {next : α → Program Req Ans ε β} {out : Except ε β} {s'' : σ}
    (first : Arrives server program s (.ok a) s') (rest : Arrives server (next a) s' out s'') :
    Arrives server (program >>= next) s out s'' := by
  intro t
  obtain ⟨t', ran⟩ := first t
  obtain ⟨t'', ended⟩ := rest t'
  exact ⟨t'', by rw [against_bind ran, ended]⟩

end

end Lib.Dialogue

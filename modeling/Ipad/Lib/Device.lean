import Mathlib.Data.List.Basic

/-!
# Devices

A device answers every command from its state. Seen from outside it is a function of the commands that it was
given.
-/

namespace Lib.Device

variable {σ α β : Type*} (step : σ → α → σ × β)

def after (s : σ) (commands : List α) : σ := commands.foldl (fun s command => (step s command).1) s

/-- The answer to the last command. -/
def answer (s : σ) (commands : List α) : Option β :=
  commands.getLast?.map fun command => (step (after step s commands.dropLast) command).2

@[simp] theorem after_nil (s : σ) : after step s [] = s := rfl

theorem after_append (s : σ) (commands later : List α) :
    after step s (commands ++ later) = after step (after step s commands) later :=
  List.foldl_append

theorem after_concat (s : σ) (commands : List α) (command : α) :
    after step s (commands ++ [command]) = (step (after step s commands) command).1 :=
  after_append step s commands [command]

theorem answer_concat (s : σ) (commands : List α) (command : α) :
    answer step s (commands ++ [command]) = some (step (after step s commands) command).2 := by
  simp [answer]

end Lib.Device

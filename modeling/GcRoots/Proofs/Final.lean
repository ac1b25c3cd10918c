import GcRoots.Action

namespace GcRoots
namespace Action

/-!
# The state a run leaves

An action that stops with a fault keeps the state it reached, so most facts about the library
are facts about the state a run ends in, whichever way it ends. `Action.final` names that
state. The lemmas here follow it through the primitive actions, through `bind` and through
`focus`, so that what an operation does to the state can be read off without its results.
-/

variable {σ τ α β : Type}

/-- The state a run ends in, whether it returns or stops. -/
def final : EStateM.Result Fault (σ × Journal) α → σ
  | .ok _ s => s.1
  | .error _ s => s.1

@[simp] theorem final_ok (a : α) (s : σ × Journal) :
    final (.ok a s : EStateM.Result Fault (σ × Journal) α) = s.1 := rfl

@[simp] theorem final_error (e : Fault) (s : σ × Journal) :
    final (.error e s : EStateM.Result Fault (σ × Journal) α) = s.1 := rfl

/-- A sequenced run ends where the second action ends, or where the first one stopped. -/
theorem final_bind (x : Action σ α) (f : α → Action σ β) (s : σ × Journal) :
    final ((x >>= f) s) =
      match x s with
      | .ok a s' => final (f a s')
      | .error _ s' => s'.1 := by
  show final (EStateM.bind x f s) = _
  unfold EStateM.bind
  cases x s <;> rfl

/-- A run that only returns a value after an action ends where the action ends. -/
theorem final_bind_pure (x : Action σ α) (f : α → β) (s : σ × Journal) :
    final ((x >>= fun a => pure (f a)) s) = final (x s) := by
  rw [final_bind]
  cases x s <;> rfl

theorem bind_ok {x : Action σ α} {f : α → Action σ β} {s s' : σ × Journal} {a : α}
    (h : x s = .ok a s') : (x >>= f) s = f a s' := by
  show EStateM.bind x f s = _
  simp only [EStateM.bind, h]

theorem bind_error {x : Action σ α} {f : α → Action σ β} {s s' : σ × Journal} {e : Fault}
    (h : x s = .error e s') : (x >>= f) s = .error e s' := by
  show EStateM.bind x f s = _
  simp only [EStateM.bind, h]

@[simp] theorem read_run (s : σ × Journal) : (read : Action σ σ) s = .ok s.1 s := rfl

@[simp] theorem write_run (x : σ) (s : σ × Journal) :
    (write x : Action σ Unit) s = .ok () (x, s.2) := rfl

@[simp] theorem update_run (f : σ → σ) (s : σ × Journal) :
    (update f : Action σ Unit) s = .ok () (f s.1, s.2) := rfl

@[simp] theorem emit_run (e : TraceEntry) (s : σ × Journal) :
    (emit e : Action σ Unit) s = .ok () (s.1, { s.2 with entries := s.2.entries.push e }) := rfl

@[simp] theorem nextScan_run (s : σ × Journal) :
    (nextScan : Action σ Nat) s = .ok (s.2.scans + 1) (s.1, { s.2 with scans := s.2.scans + 1 }) :=
  rfl

@[simp] theorem fail_run (f : Fault) (s : σ × Journal) :
    (fail f : Action σ α) s = .error f s := rfl

@[simp] theorem pure_run (a : α) (s : σ × Journal) : (pure a : Action σ α) s = .ok a s := rfl

/-- A focused action puts the part it changed back, whichever way it ends. -/
theorem final_focus (get : τ → σ) (put : τ → σ → τ) (m : Action σ α) (s : τ × Journal) :
    final (focus get put m s) = put s.1 (final (m (get s.1, s.2))) := by
  unfold focus
  cases m (get s.1, s.2) <;> rfl

theorem focus_ok {get : τ → σ} {put : τ → σ → τ} {m : Action σ α} {s : τ × Journal} {a : α}
    {x : σ} {j : Journal} (h : m (get s.1, s.2) = .ok a (x, j)) :
    focus get put m s = .ok a (put s.1 x, j) := by
  unfold focus
  rw [h]

theorem focus_error {get : τ → σ} {put : τ → σ → τ} {m : Action σ α} {s : τ × Journal}
    {e : Fault} {x : σ} {j : Journal} (h : m (get s.1, s.2) = .error e (x, j)) :
    focus get put m s = .error e (put s.1 x, j) := by
  unfold focus
  rw [h]

@[simp] theorem ofExcept_ok (a : α) (s : σ × Journal) :
    (ofExcept (.ok a) : Action σ α) s = .ok a s := rfl

@[simp] theorem ofExcept_error (e : Fault) (s : σ × Journal) :
    (ofExcept (.error e) : Action σ α) s = .error e s := rfl

end Action
end GcRoots

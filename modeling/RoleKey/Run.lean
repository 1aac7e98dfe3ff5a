import RoleKey.Diagnostics.Event
import RoleKey.Failure

/-!
A run of a command: what it comes to, and the events on the way.

A run ends at its first failure; the events before it stay. The result of runs in sequence is the
sequence of their results (`result_bind`), so that events have no part in it; the events of runs
in sequence are those of the first and then those of the second (`events_bind`).
-/

set_option autoImplicit false
set_option relaxedAutoImplicit false

namespace RoleKey

open Diagnostics (Event)

/-- What a run comes to, and the events on the way. -/
structure Run (α : Type) where
  result : Except Failure α
  events : List Event

namespace Run

/-- One run after the other, if the first does not fail. -/
def andThen {α β : Type} (x : Run α) (f : α → Run β) : Run β :=
  match x.result with
  | .ok a => ⟨(f a).result, x.events ++ (f a).events⟩
  | .error e => ⟨.error e, x.events⟩

instance : Monad Run where
  pure a := ⟨.ok a, []⟩
  bind := andThen

/-- The run that comes to an outcome without an event. -/
def of {α : Type} (outcome : Except Failure α) : Run α := ⟨outcome, []⟩

/-- The run that is one event. -/
def emit (e : Event) : Run Unit := ⟨.ok (), [e]⟩

@[simp]
theorem result_pure {α : Type} (a : α) : (pure a : Run α).result = .ok a := rfl

@[simp]
theorem result_bind {α β : Type} (x : Run α) (f : α → Run β) :
    (x >>= f).result = x.result >>= fun a => (f a).result := by
  change (andThen x f).result = _
  unfold andThen
  cases x.result <;> rfl

@[simp]
theorem result_of {α : Type} (outcome : Except Failure α) : (of outcome).result = outcome := rfl

@[simp]
theorem result_emit (e : Event) : (emit e).result = .ok () := rfl

@[simp]
theorem events_pure {α : Type} (a : α) : (pure a : Run α).events = [] := rfl

theorem events_bind {α β : Type} (x : Run α) (f : α → Run β) :
    (x >>= f).events =
      match x.result with
      | .ok a => x.events ++ (f a).events
      | .error _ => x.events := by
  change (andThen x f).events = _
  unfold andThen
  cases x.result <;> rfl

end Run

end RoleKey

import RoleKey.Diagnostics.Event

/-!
What the program asks of a reader of filters.

Which events are written is said by a text, and the program has a library read it,
tracing-subscriber. It takes any `FilterReader` and says nothing about how filters are written. Such
a reader can give up, and the program with it; that is not documented, and `FilterReader.Lawful`
assumes that it does not: a text is read, refused, or read as far as it goes. Of what texts mean one
thing is assumed, which is that the level `warn` lets through what matters at least as much as a
warning.
-/

set_option autoImplicit false
set_option relaxedAutoImplicit false

namespace RoleKey.Diagnostics

/-- That reading a filter is given up, and the program with it. -/
structure Abandonment where
  reason : String
deriving DecidableEq

/-- A reader of filters. A filter tells whether an event passes. -/
structure FilterReader where
  /-- The filter of a text, if all of the text is well formed. -/
  strict : String → Except Abandonment (Option (Event → Bool))
  /-- The filter of what is well formed in a text, and a note on each part that is passed over. -/
  lenient : String → Except Abandonment ((Event → Bool) × List String)

namespace FilterReader

/-- Whether reading a text is not given up. -/
structure Returns (F : FilterReader) (text : String) : Prop where
  strict : ∃ outcome, F.strict text = .ok outcome
  lenient : ∃ outcome, F.lenient text = .ok outcome

/-- Whether an event passes the filter of the level `warn` exactly if it matters at least as much as
a warning. -/
def WarnsOnly (F : FilterReader) : Prop :=
  ∀ passes notes, F.lenient "warn" = .ok (passes, notes) →
    ∀ e : Event, passes e = true ↔ e.level.rank ≤ Level.warn.rank

/-- What is assumed of a reader of filters. -/
structure Lawful (F : FilterReader) : Prop where
  returns : ∀ text, F.Returns text
  warnsOnly : F.WarnsOnly

end FilterReader

end RoleKey.Diagnostics

/-!
# The clock

Points in time are counted in milliseconds since the system started. The clock cannot show every
point: a span that reaches beyond the last one cannot be added to the present.

Main statement: `after?_eq_some_iff`.
-/

namespace PtyHost.Clock

/-- The last point in time that the clock can show. -/
def latest : Nat := (Nat.pow 2 63 - 1) * 1000 + 999

/-- The point in time that comes a span after another, if the clock can show it. -/
def after? (now span : Nat) : Option Nat := if now + span ≤ latest then some (now + span) else none

/-- The clock can show the sum, or it can show nothing. -/
theorem after?_eq_some_iff {now span t : Nat} :
    after? now span = some t ↔ now + span = t ∧ t ≤ latest := by
  unfold after?
  split <;> simp_all
  · rintro rfl
    assumption
  · rintro rfl
    assumption

end PtyHost.Clock

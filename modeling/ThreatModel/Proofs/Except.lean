/-!
# Steps that may fail

A run of steps ends well exactly if each of its steps does, and stops at the first that does not.
-/

namespace ThreatModel

theorem Except.bind_eq_ok {fault α β : Type} {first : Except fault α} {more : α → Except fault β} {result : β} :
    (first >>= more) = .ok result ↔ ∃ found, first = .ok found ∧ more found = .ok result := by
  cases first with
  | error fault => simp [bind, Except.bind]
  | ok found => simp [bind, Except.bind]

theorem Except.bind_eq_error {fault α β : Type} {first : Except fault α} {more : α → Except fault β} {stop : fault} :
    (first >>= more) = .error stop ↔ first = .error stop ∨ ∃ found, first = .ok found ∧ more found = .error stop := by
  cases first with
  | error fault => simp [bind, Except.bind]
  | ok found => simp [bind, Except.bind]

theorem Except.map_eq_ok {fault α β : Type} {first : Except fault α} {change : α → β} {result : β} :
    first.map change = .ok result ↔ ∃ found, first = .ok found ∧ change found = result := by
  cases first <;> simp [Except.map]

theorem Except.map_eq_error {fault α β : Type} {first : Except fault α} {change : α → β} {stop : fault} :
    first.map change = .error stop ↔ first = .error stop := by
  cases first <;> simp [Except.map]

end ThreatModel

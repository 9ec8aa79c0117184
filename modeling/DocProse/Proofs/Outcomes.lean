/-!
# Outcomes

A computation that can fail has a result or an error.  A result of steps in order is
followed step by step (`bind_eq_ok_iff`).  Two computations with errors of their own
are compared by what they return and by what is said of their errors
(`mapError_bind_congr`).
-/

namespace DocProse

variable {α β ε ε' δ : Type} {x y : α}

theorem pure_eq_ok_iff : (pure x : Except ε α) = .ok y ↔ x = y :=
  ⟨Except.ok.inj, congrArg _⟩

theorem bind_eq_ok_iff {m : Except ε α} {f : α → Except ε β} {y : β} :
    m >>= f = .ok y ↔ ∃ x, m = .ok x ∧ f x = .ok y := by
  cases m with
  | error e => exact ⟨nofun, fun ⟨_, returned, _⟩ => nomatch returned⟩
  | ok x => exact ⟨fun rest => ⟨x, rfl, rest⟩, fun ⟨_, same, rest⟩ => Except.ok.inj same ▸ rest⟩

theorem mapError_eq_ok_iff {m : Except ε α} {f : ε → ε'} : m.mapError f = .ok x ↔ m = .ok x := by
  cases m with
  | error e => exact iff_of_false nofun nofun
  | ok y => exact ⟨fun same => congrArg _ (Except.ok.inj same),
      fun same => congrArg _ (Except.ok.inj same)⟩

/-- The same steps after computations that return the same or err in the same way. -/
theorem mapError_bind_congr {f : ε → δ} {f' : ε' → δ} {m : Except ε α} {m' : Except ε' α}
    {k : α → Except ε β} {k' : α → Except ε' β} (first : m.mapError f = m'.mapError f')
    (rest : ∀ x, (k x).mapError f = (k' x).mapError f') :
    (m >>= k).mapError f = (m' >>= k').mapError f' := by
  cases m with
  | error e =>
    cases m' with
    | error e' => exact congrArg Except.error (Except.error.inj first)
    | ok x => cases first
  | ok x =>
    cases m' with
    | error e' => cases first
    | ok y =>
      cases first
      exact rest x

/-- Computations that return the same or err in the same way have the same results. -/
theorem eq_ok_iff_of_mapError_eq {f : ε → δ} {f' : ε' → δ} {m : Except ε α} {m' : Except ε' α}
    (same : m.mapError f = m'.mapError f') : m = .ok x ↔ m' = .ok x := by
  rw [← mapError_eq_ok_iff (f := f), same, mapError_eq_ok_iff]

end DocProse

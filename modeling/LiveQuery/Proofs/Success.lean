/-!
# Computations that succeed

When a computation that may fail succeeds, so does each of its steps, and the other way round.
-/

namespace LiveQuery

variable {ε α β : Type}

theorem ok_bind (a : α) (f : α → Except ε β) : (Except.ok a >>= f) = f a := rfl

theorem bind_eq_ok {x : Except ε α} {f : α → Except ε β} {b : β} :
    (x >>= f) = .ok b ↔ ∃ a, x = .ok a ∧ f a = .ok b := by
  cases x with
  | error e => simp [bind, Except.bind]
  | ok a => simp [bind, Except.bind]

theorem pure_eq_ok {a b : α} : (pure a : Except ε α) = .ok b ↔ a = b := by
  simp [pure, Except.pure]

theorem bind_pure_eq_ok {x : Except ε α} {f : α → β} {b : β} :
    (x >>= fun a => pure (f a)) = .ok b ↔ ∃ a, x = .ok a ∧ f a = b := by
  simp only [bind_eq_ok, pure_eq_ok]

/-- What holds at the start, and still after each step, holds of what a fold succeeds with. -/
theorem foldlM_induct {q : β → Prop} {step : β → α → Except ε β} {as : List α} {b b' : β}
    (hstep : ∀ a ∈ as, ∀ b b', q b → step b a = .ok b' → q b') (hb : q b)
    (h : as.foldlM step b = .ok b') : q b' := by
  induction as generalizing b with
  | nil =>
    cases h
    exact hb
  | cons a as ih =>
    rw [List.foldlM_cons] at h
    obtain ⟨next, hnext, h⟩ := bind_eq_ok.mp h
    exact ih (fun c hc => hstep c (List.mem_cons_of_mem _ hc))
      (hstep a (List.mem_cons_self ..) b next hb hnext) h

/-- A computation that succeeds with a value of a kind. -/
theorem exists_ok_of_any {x : Except ε α} {p : α → Bool} (h : x.toOption.any p = true) :
    ∃ a, x = .ok a ∧ p a = true := by
  cases x with
  | error e => simp [Except.toOption] at h
  | ok a => exact ⟨a, rfl, by simpa [Except.toOption] using h⟩

end LiveQuery

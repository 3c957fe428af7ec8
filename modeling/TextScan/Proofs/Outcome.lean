import TextScan.Trace

namespace TextScan

variable {ε α β : Type}

theorem bind_eq_ok_iff {x : Except ε α} {f : α → Except ε β} {b : β} :
    (x >>= f) = .ok b ↔ ∃ a, x = .ok a ∧ f a = .ok b := by
  cases x with
  | error e => simp [bind, Except.bind]
  | ok a => simp [bind, Except.bind]

theorem bind_eq_error_iff {x : Except ε α} {f : α → Except ε β} {e : ε} :
    (x >>= f) = .error e ↔ x = .error e ∨ ∃ a, x = .ok a ∧ f a = .error e := by
  cases x with
  | error e => simp [bind, Except.bind]
  | ok a => simp [bind, Except.bind]

theorem map_eq_ok_iff {x : Except ε α} {f : α → β} {b : β} :
    x.map f = .ok b ↔ ∃ a, x = .ok a ∧ f a = b := by
  cases x with
  | error e => simp [Except.map]
  | ok a => simp [Except.map]

theorem error_of_map {x : Except ε α} {f : α → β} {e : ε} (h : x.map f = .error e) :
    x = .error e := by
  cases x with
  | error e' => exact congrArg Except.error (Except.error.inj h)
  | ok a => cases h

theorem exists_error_iff {x : Except ε α} : (∃ e, x = .error e) ↔ ∀ a, x ≠ .ok a := by
  cases x with
  | error e => simp
  | ok a => simp

theorem ok_of_toOption {x : Except ε α} {a : α} (h : x.toOption = some a) : x = .ok a := by
  cases x with
  | error e => cases h
  | ok b => exact congrArg Except.ok (Option.some.inj h)

namespace Run

def outcome (x : Run α) : Except Fault α :=
  x.run.value

@[simp] theorem outcome_pure (a : α) : outcome (pure a) = .ok a := rfl

theorem outcome_bind (x : Run α) (f : α → Run β) :
    outcome (x >>= f) = outcome x >>= fun a => outcome (f a) := by
  change (ExceptT.bindCont (fun a => (f a).run) x.run.value : Traced _).value = _
  rw [outcome]
  cases x.run.value with
  | error fault => rfl
  | ok a => rfl

theorem outcome_bind_of_ok {x : Run α} {a : α} (h : outcome x = .ok a) (f : α → Run β) :
    outcome (x >>= f) = outcome (f a) := by
  rw [outcome_bind, h]
  rfl

theorem outcome_bind_of_error {x : Run α} {fault : Fault} (h : outcome x = .error fault)
    (f : α → Run β) : outcome (x >>= f) = .error fault := by
  rw [outcome_bind, h]
  rfl

theorem outcome_bind_eq_ok_iff {x : Run α} {f : α → Run β} {b : β} :
    outcome (x >>= f) = .ok b ↔ ∃ a, outcome x = .ok a ∧ outcome (f a) = .ok b := by
  rw [outcome_bind, bind_eq_ok_iff]

theorem outcome_bind_eq_error_iff {x : Run α} {f : α → Run β} {fault : Fault} :
    outcome (x >>= f) = .error fault ↔
      outcome x = .error fault ∨ ∃ a, outcome x = .ok a ∧ outcome (f a) = .error fault := by
  rw [outcome_bind, bind_eq_error_iff]

theorem outcome_tryCatch_of_error {x : Run α} {fault : Fault} (h : outcome x = .error fault)
    (handle : Fault → Run α) : outcome (tryCatch x handle) = outcome (handle fault) := by
  obtain ⟨value, events⟩ := x
  change value = .error fault at h
  rw [h]
  rfl

theorem tryCatch_of_ok {x : Run α} {a : α} (h : outcome x = .ok a) (handle : Fault → Run α) :
    tryCatch x handle = x := by
  obtain ⟨value, events⟩ := x
  change value = .ok a at h
  rw [h]
  exact Traced.ext rfl (List.append_nil events)

end Run

end TextScan

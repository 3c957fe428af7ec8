import TextScan.Parse
import TextScan.Proofs.Outcome

namespace TextScan

variable {σ α : Type} [Policy σ] {root : σ → Run (α × σ)} {text : Text} {v : α}

theorem parse_of_ok {last : σ} (h : (root (Policy.start text)).outcome = .ok (v, last)) :
    (parse root text).value = match Policy.fault? last with
      | some fault => .error ((Report.ofFault fault).withSource text)
      | none => .ok v := by
  rw [Run.outcome] at h
  rw [parse, Traced.value_bind, h]
  simp only
  cases Policy.fault? last <;> rfl

theorem parse_of_error {fault : Fault}
    (h : (root (Policy.start text)).outcome = .error fault) :
    (parse root text).value = .error ((Report.ofFault fault).withSource text) := by
  rw [Run.outcome] at h
  rw [parse, Traced.value_bind, h]
  rfl

theorem events_parse_of_ok {last : σ}
    (h : (root (Policy.start text)).outcome = .ok (v, last)) :
    (parse root text).events = (root (Policy.start text)).run.events ++
      [match Policy.fault? last with
        | some fault => .rejected fault text.size
        | none => .accepted (text.size - Cursor.remaining last) text.size] := by
  rw [Run.outcome] at h
  rw [parse, Traced.events_bind, h]
  simp only
  cases Policy.fault? last <;> rfl

theorem parse_eq_ok_iff :
    (parse root text).value = .ok v ↔
      ∃ last, (root (Policy.start text)).outcome = .ok (v, last) ∧
        Policy.fault? last = none := by
  cases h : (root (Policy.start text)).outcome with
  | error fault =>
    rw [parse_of_error h]
    simp
  | ok r =>
    obtain ⟨w, last⟩ := r
    rw [parse_of_ok h]
    cases hfault : Policy.fault? last with
    | none =>
      constructor
      · intro hv
        obtain rfl := Except.ok.inj hv
        exact ⟨last, rfl, hfault⟩
      · rintro ⟨last', hv, -⟩
        rw [(Prod.mk.inj (Except.ok.inj hv)).1]
    | some fault =>
      constructor
      · intro hv
        exact absurd hv (by simp)
      · rintro ⟨last', hv, hnone⟩
        obtain ⟨rfl, rfl⟩ := Prod.mk.inj (Except.ok.inj hv)
        rw [hfault] at hnone
        exact absurd hnone (by simp)

theorem exists_of_parse_error {report : Report} (h : (parse root text).value = .error report) :
    (root (Policy.start text)).outcome = .error report.fault ∨
      ∃ v last, (root (Policy.start text)).outcome = .ok (v, last) ∧
        Policy.fault? last = some report.fault := by
  cases hroot : (root (Policy.start text)).outcome with
  | error fault =>
    rw [parse_of_error hroot] at h
    obtain rfl := Except.error.inj h
    exact .inl rfl
  | ok r =>
    obtain ⟨v, last⟩ := r
    rw [parse_of_ok hroot] at h
    cases hfault : Policy.fault? last with
    | none =>
      rw [hfault] at h
      cases h
    | some fault =>
      rw [hfault] at h
      obtain rfl := Except.error.inj h
      exact .inr ⟨v, last, rfl, hfault⟩

theorem outcome_of_parse_error {root : Text → Run (α × Text)} {report : Report}
    (h : (parse root text).value = .error report) :
    (root text).outcome = .error report.fault := by
  rcases exists_of_parse_error h with hraised | ⟨v, last, -, hkept⟩
  · exact hraised
  · cases hkept

end TextScan

import TextScan.Proofs.Parse
import TextScan.Proofs.Cursor.Bytes
import TextScan.Proofs.Program.Reaches

namespace TextScan.Program

open Cursor Run Repetition

variable {σ ω : Type}

section Bytes

variable [Policy σ] [DecidableEq σ] {f : Frame σ} {bound : Nat}

/-- A scan without a bound of its own has the bound of all lengths. -/
def Step.reactByBytes? (bound : Nat) (f : Frame σ) : Step ω → Option (Run (Reaction σ ω))
  | takeOne p => (ByBytes.takeOne? p f.cursor).map fun (x, c) => pure (f.nextChar x c)
  | takeWhile p => (ByBytes.take? p bound f.cursor).map fun (taken, c) => pure (f.nextText taken c)
  | takeBounded p max =>
    (ByBytes.take? p max f.cursor).map fun (taken, c) => pure (f.nextText taken c)
  | peek count => (ByBytes.peek? count f.cursor).map fun
    | some seen => pure (f.next (.text seen) true f.cursor)
    | none => pure (f.next .nothing false f.cursor)
  | skipWhile p => (ByBytes.skip? p bound f.cursor).map fun c => pure (f.nextSkip c)
  | skipUntil p => (ByBytes.skip? (fun x => !p x) bound f.cursor).map fun c => pure (f.nextSkip c)
  | skipOneIf p => (ByBytes.skip? p 1 f.cursor).map fun c => pure (f.nextSkip c)
  | skipOne => (ByBytes.skip? (fun _ => true) 1 f.cursor).map fun c => pure (f.nextSkip c)
  | skipChar x => (ByBytes.skipChar? x f.cursor).map fun (found, c) => pure (f.nextFlag found c)
  | skipLiteral literal =>
    (ByBytes.skipLiteral? literal f.cursor).map fun (found, c) => pure (f.nextFlag found c)
  | nextIs p => some (pure (f.nextFlag (ByBytes.nextIs p f.cursor) f.cursor))
  | requireChar x => (ByBytes.skipChar? x f.cursor).map fun (found, c) => do
    let c ← Cursor.require found (expectedChar x) c
    pure (f.next .nothing true c)
  | requireLiteral literal expected =>
    (ByBytes.skipLiteral? literal f.cursor).map fun (found, c) => do
      let c ← Cursor.require found expected c
      pure (f.next .nothing true c)
  | advance bytes => (Cursor.advance? bytes f.cursor).map fun c => pure (f.next .nothing true c)
  | s => some (s.react f)

theorem reactByBytes?_eq [LawfulCursor σ] {s : Step ω} (hbound : (rest f.cursor).length ≤ bound)
    (hs : ∀ n, s ≠ .advance n) : s.reactByBytes? bound f = some (s.react f) := by
  cases s with
  | takeOne p => rw [Step.reactByBytes?, takeOne?_eq]; rfl
  | takeWhile p => rw [Step.reactByBytes?, take?_eq, takeBounded_eq hbound]; rfl
  | takeBounded p max => rw [Step.reactByBytes?, take?_eq]; rfl
  | peek count =>
    rw [Step.reactByBytes?, peek?_eq, Step.react]
    cases Cursor.peek? count f.cursor <;> rfl
  | skipWhile p => rw [Step.reactByBytes?, skip?_eq hbound]; rfl
  | skipUntil p => rw [Step.reactByBytes?, skip?_eq hbound]; rfl
  | skipOneIf p => rw [Step.reactByBytes?, skipOneIf?_eq]; rfl
  | skipOne => rw [Step.reactByBytes?, skipOneIf?_eq]; rfl
  | skipChar x => rw [Step.reactByBytes?, skipChar?_eq]; rfl
  | skipLiteral literal => rw [Step.reactByBytes?, skipLiteral?_eq]; rfl
  | nextIs p => rw [Step.reactByBytes?, nextIs_eq]; rfl
  | requireChar x => rw [Step.reactByBytes?, skipChar?_eq]; rfl
  | requireLiteral literal expected => rw [Step.reactByBytes?, skipLiteral?_eq]; rfl
  | advance n => exact absurd rfl (hs n)
  | _ => rfl

end Bytes

section Within

variable [Policy σ] {resumes : Bool} {q q' : Point σ ω} {text : Text} {strict : Bool}
  {item p : Program ω} {items : List (List (Value ω))} {c d : σ} {expected : String}

def Inside (text : Text) (c : σ) : Prop :=
  rest c <:+ text ∧ ∀ fault, Policy.fault? c = some fault → text.Marks fault.remaining

theorem Inside.marks (hc : Inside text c) :
    text.Marks (Fault.before (rest c) expected).remaining :=
  Text.marks_of_suffix hc.1

theorem Inside.of_fault (hc : Inside text c) (hrest : rest d = rest c)
    (hfault : Policy.fault? d =
      (Policy.fault? c).or (some (Fault.before (rest c) expected))) : Inside text d := by
  refine ⟨hrest ▸ hc.1, ?_⟩
  intro fault hd
  rw [hfault, Option.or_eq_some_iff] at hd
  rcases hd with hkept | ⟨-, hnew⟩
  · exact hc.2 fault hkept
  · exact Option.some.inj hnew ▸ hc.marks

variable [LawfulPolicy σ]

theorem inside_start (text : Text) : Inside text (Policy.start text : σ) := by
  refine ⟨⟨[], LawfulPolicy.rest_start text⟩, ?_⟩
  intro fault hfault
  rw [LawfulPolicy.fault?_start] at hfault
  cases hfault

variable [DecidableEq σ]

theorem stepsKeep_inside (text : Text) (origin : Point σ ω) :
    StepsKeep (Inside text) origin := by
  intro _ s next f value g _ hf h
  refine (effect_of_react h).all hf ?_ ?_
  · intro c hc
    exact ⟨hc.rest_suffix.trans hf.1.1, hc.fault?_eq ▸ hf.1.2⟩
  · intro expected c _ hc
    obtain ⟨hrest, hfault⟩ := of_require_false hc
    exact hf.1.of_fault hrest hfault

theorem inside_of_reaches (h : Reaches (.ofText resumes p text) q) : q.frame.All (Inside text) :=
  (stepsKeep_inside text (.ofText resumes p text)).all (.of_start (inside_start text)) h

theorem rest_suffix_of_matches (h : Matches (tries strict item) c items d) : rest d <:+ rest c := by
  have hsteps (origin : Point σ ω) : StepsKeep (fun e : σ => rest e <:+ rest c) origin := by
    intro _ s next f value g _ hf h
    refine (effect_of_react h).all hf ?_ ?_
    · exact fun e he => he.rest_suffix.trans hf.1
    · exact fun expected e _ he => (of_require_false he).1 ▸ hf.1
  exact keeps_of_matches (fun e => rest e <:+ rest c) hsteps List.suffix_rfl h

theorem rest_suffix_of_leads (h : Leads q q')
    (hstay : ∀ name next, q.program ≠ .step (.restore name) next) :
    rest q'.frame.cursor <:+ rest q.frame.cursor := by
  cases h with
  | next hreact hr =>
    rcases next_cases hreact hr with
      ⟨s, rfl, hs⟩ | ⟨strict, item, limit, items, c, rfl, rfl, hmatches, -⟩
    · cases effect_of_react hs with
      | scanned _ hc => exact hc.rest_suffix
      | forked name => exact List.suffix_rfl
      | restored _ => exact absurd rfl (hstay _ _)
      | unmet _ hc => exact ⟨[], (of_require_false hc).1⟩
    · exact rest_suffix_of_matches hmatches
  | resumed _ _ => exact List.suffix_rfl
  | item hmatches _ => exact rest_suffix_of_matches hmatches

theorem inside_of_asRoot (p : Program ω) (text : Text) :
    match (asRoot p (Policy.start text : σ)).outcome with
    | .ok (_, last) => Inside text last
    | .error fault => text.Marks fault.remaining := by
  have hsteps := stepsKeep_inside (σ := σ) text (.ofText false p text)
  have hstart : (Point.ofText false p text : Point σ ω).frame.All (Inside text) :=
    .of_start (inside_start text)
  unfold asRoot
  cases hrun : (run p (Frame.start (Policy.start text : σ))).outcome with
  | ok e =>
    have hok := outcome_bind_of_ok hrun fun e => pure (e.values, e.cursor)
    rw [tryCatch_of_ok hok, hok]
    exact hsteps.run .refl hstart hrun
  | error fault =>
    have hmarks : text.Marks fault.remaining :=
      hsteps.fault_of_run (J := fun fault => text.Marks fault.remaining)
        (fun _ _ hc => hc.marks) .refl hstart hrun
    rw [outcome_tryCatch_of_error (outcome_bind_of_error hrun _)]
    rcases LawfulPolicy.absorb_eq fault (Policy.start text : σ) with
      habsorb | ⟨d, hd, hrest, hfault⟩
    · rw [outcome_bind_of_error habsorb]
      exact hmarks
    · rw [outcome_bind_of_ok hd]
      exact (inside_start text).of_fault hrest hfault

end Within

structure StaysInside (σ : Type) [Policy σ] [DecidableEq σ] (p : Program ω) (text : Text) :
    Prop where
  -- The bound of a scan that has none of its own is one that no text is longer than.
  byBytes : ∀ resumes b s next (f : Frame σ) bound,
    Reaches (.ofText resumes p text) ⟨b, .step s next, f⟩ → (∀ n, s ≠ .advance n) →
      text.size ≤ bound → s.reactByBytes? bound f = some (s.react f)
  within : ∀ resumes (q : Point σ ω), Reaches (.ofText resumes p text) q →
    rest q.frame.cursor <:+ text ∧ ∃ before,
      text.splitAtByte? (text.size - remaining q.frame.cursor) = some (before, rest q.frame.cursor)
  onward : ∀ resumes (q q' : Point σ ω), Reaches (.ofText resumes p text) q →
    Leads q q' → (∀ name next, q.program ≠ .step (.restore name) next) →
      rest q'.frame.cursor <:+ rest q.frame.cursor
  observed : ∀ state ∈ (observe p (Frame.start (Policy.start text : σ))).value,
    rest state.cursor <:+ text
  raised : ∀ resumes (q : Point σ ω) r next fault, Reaches (.ofText resumes p text) q →
    q.program.react? q.frame = some (r, next) → r.outcome = .error fault →
      text.Marks fault.remaining
  -- Where a fault would be if it were raised there, or only named.
  named : ∀ resumes (q : Point σ ω) expected, Reaches (.ofText resumes p text) q →
    text.Marks (Fault.before (rest q.frame.cursor) expected).remaining
  kept : ∀ resumes (q : Point σ ω) fault, Reaches (.ofText resumes p text) q →
    Policy.fault? q.frame.cursor = some fault → text.Marks fault.remaining
  consumed : ∀ values last, (asRoot p (Policy.start text : σ)).outcome = .ok (values, last) →
    remaining last ≤ text.size
  rejected : ∀ report, (parse (asRoot (σ := σ) p) text).value = .error report →
    text.Marks report.fault.remaining

theorem staysInside_of_lawful (σ : Type) [Policy σ] [DecidableEq σ] [LawfulPolicy σ]
    (p : Program ω) (text : Text) : StaysInside σ p text := by
  have hroot := inside_of_asRoot (σ := σ) p text
  refine ⟨?_, ?_, ?_, ?_, ?_, ?_, ?_, ?_, ?_⟩
  · intro resumes b s next f bound hreach hs hbound
    have hsuffix : rest f.cursor <:+ text := (inside_of_reaches hreach).1.1
    refine reactByBytes?_eq ?_ hs
    calc (rest f.cursor).length ≤ text.length := hsuffix.length_le
      _ ≤ text.size := text.length_le_size
      _ ≤ bound := hbound
  · intro resumes q hreach
    have hsuffix : rest q.frame.cursor <:+ text := (inside_of_reaches hreach).1.1
    exact ⟨hsuffix, (Text.splitAtByte?_of_suffix hsuffix).2⟩
  · intro resumes q q' _ hleads hstay
    exact rest_suffix_of_leads hleads hstay
  · intro state hstate
    obtain ⟨q, hq, heq⟩ := exists_of_observe hstate
    rw [heq]
    exact (inside_of_reaches (p := p) hq).1.1
  · intro resumes q r next fault hreach hreact h
    exact (stepsKeep_inside text (.ofText resumes p text)).fault_of_react?
      (J := fun fault => text.Marks fault.remaining) (fun _ _ hc => hc.marks) hreach
      (inside_of_reaches hreach) hreact h
  · intro resumes q expected hreach
    exact (inside_of_reaches hreach).1.marks
  · intro resumes q fault hreach hfault
    exact (inside_of_reaches hreach).1.2 fault hfault
  · intro values last h
    rw [h] at hroot
    exact (Text.splitAtByte?_of_suffix hroot.1).1
  · intro report h
    rcases exists_of_parse_error h with hraised | ⟨values, last, hended, hkept⟩
    · rw [hraised] at hroot
      exact hroot
    · rw [hended] at hroot
      exact hroot.2 report.fault hkept

theorem stays_inside (p : Program ω) (text : Text) :
    StaysInside Text p text ∧ StaysInside Collecting p text :=
  ⟨staysInside_of_lawful Text p text, staysInside_of_lawful Collecting p text⟩

end TextScan.Program

import Mathlib.Logic.Relation
import TextScan.Proofs.Program.Effect
import TextScan.Proofs.Repetition
/-!
Where a program comes to. From a step it goes on to what is behind the step, and from a repetition
also into the item, with each cursor that the item is tried on. What holds of the first cursor and
is kept by each step that the program comes to, for the cursor and all copies, holds wherever it
comes.
-/

namespace TextScan.Program

open Cursor Run Repetition

variable {σ ω : Type}

/-- A program that resumes goes on after a fault from where the step began. -/
structure Point (σ ω : Type) where
  resumes : Bool
  program : Program ω
  frame : Frame σ

section Points

variable [Policy σ] [DecidableEq σ]

def react? : Program ω → Frame σ → Option (Run (Reaction σ ω) × Program ω)
  | done, _ => none
  | step s next, f => some (s.react f, next)
  | repetition strict item limit next, f =>
    some (repeatItem f strict (fun c => run item (Frame.start c)) limit, next)

def tries (strict : Bool) (item : Program ω) (c : σ) :
    Except Fault (Option (List (Value ω)) × σ) :=
  (attempt strict (fun c => run item (Frame.start c)) c).outcome

-- A fault always ends the attempt at an item.
inductive Leads : Point σ ω → Point σ ω → Prop
  | next {resumes : Bool} {p next : Program ω} {f g : Frame σ} {r : Run (Reaction σ ω)}
      {value : Value ω} :
    p.react? f = some (r, next) → r.outcome = .ok (.next value g) →
      Leads ⟨resumes, p, f⟩ ⟨resumes, next, g⟩
  | resumed {p next : Program ω} {f : Frame σ} {r : Run (Reaction σ ω)} {fault : Fault} :
    p.react? f = some (r, next) → r.outcome = .error fault →
      Leads ⟨true, p, f⟩ ⟨true, next, { f with matched := false }⟩
  | item {resumes strict : Bool} {item next : Program ω} {limit : Nat} {f : Frame σ}
      {items : List (List (Value ω))} {c : σ} :
    Matches (tries strict item) f.cursor items c → items.length < limit →
      Leads ⟨resumes, .repetition strict item limit next, f⟩ ⟨false, item, Frame.start c⟩

def Point.ofText (resumes : Bool) (p : Program ω) (text : Text) : Point σ ω :=
  ⟨resumes, p, Frame.start (Policy.start text)⟩

abbrev Reaches : Point σ ω → Point σ ω → Prop :=
  Relation.ReflTransGen Leads

end Points

variable [Policy σ] [DecidableEq σ] {strict : Bool} {item next p : Program ω} {limit : Nat}
  {f g : Frame σ} {c d : σ} {e : Ending σ ω} {r : Run (Reaction σ ω)} {value : Value ω}
  {items : List (List (Value ω))}

theorem exists_of_repeatItem {reaction : Reaction σ ω}
    (h : (repeatItem f strict (fun c => run item (Frame.start c)) limit).outcome = .ok reaction) :
    ∃ items c, reaction = f.next (.items items) (!items.isEmpty) c ∧
      Matches (tries strict item) f.cursor items c ∧
      (items.length = limit ∨
        items.length < limit ∧ ∃ d, tries strict item c = .ok (none, d)) := by
  rw [repeatItem, outcome_bind_eq_ok_iff] at h
  obtain ⟨⟨items, c⟩, hcollect, heq⟩ := h
  rw [outcome_collect] at hcollect
  exact ⟨items, c, (Except.ok.inj heq).symm, matches_of_collect hcollect⟩

theorem tries_eq (strict : Bool) (item : Program ω) (c : σ) : tries strict item c =
    match (run item (Frame.start c)).outcome with
    | .ok e => .ok e.toMatch
    | .error fault => if strict then .error fault else .ok (none, c) := by
  unfold tries attempt
  cases hrun : (run item (Frame.start c)).outcome with
  | error fault =>
    split
    · exact outcome_bind_of_error hrun _
    · exact outcome_tryCatch_of_error (outcome_bind_of_error hrun _) _
  | ok e =>
    have hok : (do let e ← run item (Frame.start c); pure e.toMatch : Run _).outcome =
        .ok e.toMatch := outcome_bind_of_ok hrun _
    split
    · exact hok
    · rw [tryCatch_of_ok hok, hok]

theorem exists_of_tries {values : List (Value ω)}
    (h : tries strict item c = .ok (some values, d)) :
    ∃ e, (run item (Frame.start c)).outcome = .ok e ∧ e.cursor = d := by
  rw [tries_eq] at h
  split at h
  · next e he => exact ⟨e, he, (Prod.mk.inj (Except.ok.inj h)).2⟩
  · split at h <;> cases h

theorem run_of_tries_error {fault : Fault} (h : tries strict item c = .error fault) :
    (run item (Frame.start c)).outcome = .error fault := by
  rw [tries_eq] at h
  split at h
  · cases h
  · next fault' hrun =>
    split at h
    · exact hrun.trans (congrArg Except.error (Except.error.inj h))
    · cases h

theorem exists_of_repeatItem_error {fault : Fault}
    (h : (repeatItem f strict (fun c => run item (Frame.start c)) limit).outcome = .error fault) :
    ∃ items c, Matches (tries strict item) f.cursor items c ∧ items.length < limit ∧
      (run item (Frame.start c)).outcome = .error fault := by
  rcases outcome_bind_eq_error_iff.1 h with hcollect | ⟨r, -, heq⟩
  · rw [outcome_collect] at hcollect
    obtain ⟨items, c, hmatches, hlt, hc⟩ := matches_of_collect_error hcollect
    exact ⟨items, c, hmatches, hlt, run_of_tries_error hc⟩
  · cases heq

theorem next_cases (hreact : p.react? f = some (r, next))
    (hr : r.outcome = .ok (.next value g)) :
    (∃ s, p = .step s next ∧ (s.react f).outcome = .ok (.next value g)) ∨
      ∃ strict item limit items c, p = .repetition strict item limit next ∧
        g = { f with cursor := c, matched := !items.isEmpty } ∧
        Matches (tries strict item) f.cursor items c ∧ items.length ≤ limit := by
  cases p with
  | done => cases hreact
  | step s next' =>
    obtain ⟨rfl, rfl⟩ := Prod.mk.inj (Option.some.inj hreact)
    exact .inl ⟨s, rfl, hr⟩
  | repetition strict item limit next' =>
    obtain ⟨rfl, rfl⟩ := Prod.mk.inj (Option.some.inj hreact)
    obtain ⟨items, c, hg, hmatches, hend⟩ := exists_of_repeatItem hr
    obtain ⟨rfl, rfl⟩ := Reaction.next.inj hg
    exact .inr ⟨strict, item, limit, items, c, rfl, rfl, hmatches, by omega⟩

def follow (next : Program ω) : Reaction σ ω → Run (Ending σ ω)
  | .next value g => do
    let e ← run next g
    pure { e with values := value :: e.values }
  | .stop c => pure ⟨[], c, true⟩

theorem run_eq (hreact : p.react? f = some (r, next)) : run p f = r >>= follow next := by
  cases p with
  | done => cases hreact
  | step s next' =>
    obtain ⟨rfl, rfl⟩ := Prod.mk.inj (Option.some.inj hreact)
    rw [run]
    exact congrArg (_ >>= ·) (funext fun reaction => by cases reaction <;> rfl)
  | repetition strict item limit next' =>
    obtain ⟨rfl, rfl⟩ := Prod.mk.inj (Option.some.inj hreact)
    rw [run]
    exact congrArg (_ >>= ·) (funext fun reaction => by cases reaction <;> rfl)

theorem exists_of_run (hreact : p.react? f = some (r, next)) (h : (run p f).outcome = .ok e) :
    (∃ value g e', r.outcome = .ok (.next value g) ∧ (run next g).outcome = .ok e' ∧
        e.cursor = e'.cursor) ∨
      r.outcome = .ok (.stop e.cursor) := by
  rw [run_eq hreact, outcome_bind_eq_ok_iff] at h
  obtain ⟨reaction, hr, h⟩ := h
  cases reaction with
  | next value g =>
    obtain ⟨e', he', heq⟩ := outcome_bind_eq_ok_iff.1 h
    obtain rfl := Except.ok.inj heq
    exact .inl ⟨value, g, e', hr, he', rfl⟩
  | stop c =>
    obtain rfl := Except.ok.inj h
    exact .inr hr

theorem exists_of_run_error {fault : Fault} (hreact : p.react? f = some (r, next))
    (h : (run p f).outcome = .error fault) :
    r.outcome = .error fault ∨
      ∃ value g, r.outcome = .ok (.next value g) ∧ (run next g).outcome = .error fault := by
  rw [run_eq hreact] at h
  rcases outcome_bind_eq_error_iff.1 h with hr | ⟨reaction, hr, h⟩
  · exact .inl hr
  · cases reaction with
    | next value g =>
      rcases outcome_bind_eq_error_iff.1 h with hrun | ⟨e, -, heq⟩
      · exact .inr ⟨value, g, hr, hrun⟩
      · cases heq
    | stop c => cases h

section Invariants

variable {I : σ → Prop} {resumes : Bool} {origin q : Point σ ω}

def StepsKeep (I : σ → Prop) (origin : Point σ ω) : Prop :=
  ∀ resumes s next f value g, Reaches origin ⟨resumes, .step s next, f⟩ → f.All I →
    (s.react f).outcome = .ok (.next value g) → g.All I

theorem StepsKeep.of_matches
    (hitem : ∀ d e, Reaches origin ⟨false, item, Frame.start d⟩ → I d →
      (run item (Frame.start d)).outcome = .ok e → I e.cursor)
    (hreach : Reaches origin ⟨resumes, .repetition strict item limit next, f⟩) (hf : I f.cursor)
    (h : Matches (tries strict item) f.cursor items c) (hlimit : items.length ≤ limit) : I c := by
  induction h with
  | start => exact hf
  | next hmatches hmatch ih =>
    rw [List.length_append, List.length_singleton] at hlimit
    obtain ⟨e, he, rfl⟩ := exists_of_tries hmatch
    exact hitem _ e (hreach.tail (.item hmatches hlimit)) (ih (Nat.le_of_succ_le hlimit)) he

variable [LawfulPolicy σ]

theorem StepsKeep.run (hsteps : StepsKeep I origin) (hreach : Reaches origin ⟨resumes, p, f⟩)
    (hf : f.All I) (h : (run p f).outcome = .ok e) : I e.cursor := by
  induction p generalizing resumes f e with
  | done =>
    obtain rfl := Except.ok.inj h
    exact hf.1
  | step s next ih =>
    rcases exists_of_run rfl h with ⟨value, g, e', hs, he', heq⟩ | hstop
    · rw [heq]
      exact ih (hreach.tail (.next rfl hs)) (hsteps _ s next f value g hreach hf hs) he'
    · rw [cursor_of_stop hstop]
      exact hf.1
  | repetition strict item limit next ihitem ih =>
    rcases exists_of_run rfl h with ⟨value, g, e', hr, he', heq⟩ | hstop
    · obtain ⟨items, c, hg, hmatches, hlimit⟩ := exists_of_repeatItem hr
      obtain ⟨rfl, rfl⟩ := Reaction.next.inj hg
      have hc : I c := StepsKeep.of_matches (fun d e hd hI he => ihitem hd (.of_start hI) he) hreach
        hf.1 hmatches (by omega)
      rw [heq]
      exact ih (hreach.tail (.next rfl hr)) ⟨hc, hf.2⟩ he'
    · obtain ⟨items, c, hg, -⟩ := exists_of_repeatItem hstop
      cases hg

theorem StepsKeep.matches (hsteps : StepsKeep I origin)
    (hreach : Reaches origin ⟨resumes, .repetition strict item limit next, f⟩) (hf : I f.cursor)
    (h : Matches (tries strict item) f.cursor items c) (hlimit : items.length ≤ limit) : I c :=
  StepsKeep.of_matches (fun _ _ hd hI he => hsteps.run hd (.of_start hI) he) hreach hf h hlimit

variable (I) in
theorem keeps_of_matches (hsteps : ∀ origin : Point σ ω, StepsKeep I origin) (hc : I c)
    (h : Matches (tries strict item) c items d) : I d :=
  (hsteps ⟨false, .repetition strict item items.length .done, Frame.start c⟩).matches .refl hc h
    (Nat.le_refl _)

theorem StepsKeep.all_next (hsteps : StepsKeep I origin) (hreach : Reaches origin ⟨resumes, p, f⟩)
    (hf : f.All I) (hreact : p.react? f = some (r, next))
    (hr : r.outcome = .ok (.next value g)) : g.All I := by
  rcases next_cases hreact hr with
    ⟨s, rfl, hs⟩ | ⟨strict, item, limit, items, c, rfl, rfl, hmatches, hlimit⟩
  · exact hsteps _ s _ f value g hreach hf hs
  · exact ⟨hsteps.matches hreach hf.1 hmatches hlimit, hf.2⟩

theorem StepsKeep.all (hsteps : StepsKeep I origin) (hstart : origin.frame.All I)
    (h : Reaches origin q) : q.frame.All I := by
  induction h with
  | refl => exact hstart
  | tail hreach hlast ih =>
    cases hlast with
    | next hreact hr => exact hsteps.all_next hreach ih hreact hr
    | resumed _ _ => exact ih
    | item hmatches hlimit =>
      exact .of_start (hsteps.matches hreach ih.1 hmatches (Nat.le_of_lt hlimit))

section Faults

variable {J : Fault → Prop} {fault : Fault}

theorem StepsKeep.fault_of_run (hsteps : StepsKeep I origin)
    (hJ : ∀ c expected, I c → J (Fault.before (rest c) expected))
    (hreach : Reaches origin ⟨resumes, p, f⟩) (hf : f.All I)
    (h : (Program.run p f).outcome = .error fault) : J fault := by
  induction p generalizing resumes f with
  | done => cases h
  | step s next ih =>
    rcases exists_of_run_error rfl h with hs | ⟨value, g, hs, hnext⟩
    · obtain ⟨expected, rfl⟩ := fault_of_react hs
      exact hJ _ expected hf.1
    · exact ih (hreach.tail (.next rfl hs)) (hsteps _ s next f value g hreach hf hs) hnext
  | repetition strict item limit next ihitem ih =>
    rcases exists_of_run_error rfl h with hr | ⟨value, g, hr, hnext⟩
    · obtain ⟨items, c, hmatches, hlt, hitem⟩ := exists_of_repeatItem_error hr
      have hc : I c := hsteps.matches hreach hf.1 hmatches (Nat.le_of_lt hlt)
      exact ihitem (hreach.tail (.item hmatches hlt)) (.of_start hc) hitem
    · exact ih (hreach.tail (.next rfl hr)) (hsteps.all_next hreach hf rfl hr) hnext

theorem StepsKeep.fault_of_react? (hsteps : StepsKeep I origin)
    (hJ : ∀ c expected, I c → J (Fault.before (rest c) expected))
    (hreach : Reaches origin ⟨resumes, p, f⟩) (hf : f.All I) (hreact : p.react? f = some (r, next))
    (h : r.outcome = .error fault) : J fault :=
  hsteps.fault_of_run hJ hreach hf (by rw [run_eq hreact, outcome_bind_of_error h])

end Faults

end Invariants

section Observed

def State.cursor : State σ ω → σ
  | .next _ _ c => c
  | .raised _ c => c
  | .stopped c => c

theorem value_observe (hreact : p.react? f = some (r, next)) : (observe p f).value =
    match r.outcome with
    | .ok (.next value g) => .next value g.matched g.cursor :: (observe next g).value
    | .ok (.stop c) => [.stopped c]
    | .error fault =>
      .raised fault f.cursor :: (observe next { f with matched := false }).value := by
  have hvalue (r : Run (Reaction σ ω)) (follow : Frame σ → Traced (List (State σ ω))) :
      (observeStep f r follow).value = match r.outcome with
        | .ok (.next value g) => .next value g.matched g.cursor :: (follow g).value
        | .ok (.stop c) => [.stopped c]
        | .error fault => .raised fault f.cursor :: (follow { f with matched := false }).value := by
    rw [observeStep, Traced.value_bind, outcome]
    rcases r.run.value with fault | value | c <;> rfl
  cases p with
  | done => cases hreact
  | step s next' =>
    obtain ⟨rfl, rfl⟩ := Prod.mk.inj (Option.some.inj hreact)
    exact hvalue _ _
  | repetition strict item limit next' =>
    obtain ⟨rfl, rfl⟩ := Prod.mk.inj (Option.some.inj hreact)
    exact hvalue _ _

variable [LawfulPolicy σ]

theorem cursor_of_react?_stop (hreact : p.react? f = some (r, next))
    (hr : r.outcome = .ok (.stop c)) : c = f.cursor := by
  cases p with
  | done => cases hreact
  | step s next' =>
    obtain ⟨rfl, rfl⟩ := Prod.mk.inj (Option.some.inj hreact)
    exact cursor_of_stop hr
  | repetition strict item limit next' =>
    obtain ⟨rfl, rfl⟩ := Prod.mk.inj (Option.some.inj hreact)
    obtain ⟨items, c, hstop, -⟩ := exists_of_repeatItem hr
    cases hstop

theorem observe_cases (hreact : p.react? f = some (r, next)) :
    (observe p f).value = [.stopped f.cursor] ∨
      ∃ state g, Leads ⟨true, p, f⟩ ⟨true, next, g⟩ ∧ state.cursor = g.cursor ∧
        (observe p f).value = state :: (observe next g).value := by
  rw [value_observe hreact]
  cases hr : r.outcome with
  | error fault => exact .inr ⟨_, _, .resumed hreact hr, rfl, rfl⟩
  | ok reaction =>
    cases reaction with
    | next value g => exact .inr ⟨_, g, .next hreact hr, rfl, rfl⟩
    | stop c =>
      obtain rfl := cursor_of_react?_stop hreact hr
      exact .inl rfl

theorem exists_of_observe {state : State σ ω} (h : state ∈ (observe p f).value) :
    ∃ q, Reaches ⟨true, p, f⟩ q ∧ state.cursor = q.frame.cursor := by
  have hfirst {p next : Program ω} {f : Frame σ} {r : Run (Reaction σ ω)}
      (hreact : p.react? f = some (r, next))
      (ih : ∀ g, state ∈ (observe next g).value →
        ∃ q, Reaches ⟨true, next, g⟩ q ∧ state.cursor = q.frame.cursor)
      (h : state ∈ (observe p f).value) :
      ∃ q, Reaches ⟨true, p, f⟩ q ∧ state.cursor = q.frame.cursor := by
    rcases observe_cases hreact with hstop | ⟨first, g, hleads, hcursor, hvalue⟩
    · rw [hstop, List.mem_singleton] at h
      exact ⟨_, .refl, congrArg State.cursor h⟩
    · rw [hvalue] at h
      rcases List.mem_cons.1 h with rfl | h
      · exact ⟨_, .single hleads, hcursor⟩
      · obtain ⟨q, hq, heq⟩ := ih g h
        exact ⟨q, .head hleads hq, heq⟩
  induction p generalizing f with
  | done => cases h
  | step s next ih => exact hfirst rfl (fun _ => ih) h
  | repetition strict item limit next _ ih => exact hfirst rfl (fun _ => ih) h

theorem pairwise_observe {R : σ → σ → Prop}
    (h : ∀ q q', Reaches ⟨true, p, f⟩ q → Reaches q q' → R q.frame.cursor q'.frame.cursor) :
    (observe p f).value.Pairwise fun state later => R state.cursor later.cursor := by
  have hfirst {p next : Program ω} {f : Frame σ} {r : Run (Reaction σ ω)}
      (hreact : p.react? f = some (r, next))
      (ih : ∀ g, (∀ q q', Reaches ⟨true, next, g⟩ q → Reaches q q' →
          R q.frame.cursor q'.frame.cursor) →
        (observe next g).value.Pairwise fun state later => R state.cursor later.cursor)
      (h : ∀ q q', Reaches ⟨true, p, f⟩ q → Reaches q q' →
        R q.frame.cursor q'.frame.cursor) :
      (observe p f).value.Pairwise fun state later => R state.cursor later.cursor := by
    rcases observe_cases hreact with hstop | ⟨first, g, hleads, hcursor, hvalue⟩
    · rw [hstop]
      exact List.pairwise_singleton _ _
    · rw [hvalue, List.pairwise_cons]
      refine ⟨?_, ih g fun q q' hq => h q q' (.head hleads hq)⟩
      intro later hlater
      obtain ⟨q, hq, heq⟩ := exists_of_observe hlater
      rw [hcursor, heq]
      exact h _ _ (.single hleads) hq
  induction p generalizing f with
  | done => exact List.Pairwise.nil
  | step s next ih => exact hfirst rfl (fun _ => ih) h
  | repetition strict item limit next _ ih => exact hfirst rfl (fun _ => ih) h

end Observed

end TextScan.Program

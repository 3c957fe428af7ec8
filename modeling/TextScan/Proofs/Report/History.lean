import Mathlib.Data.List.DropRight
import Mathlib.Data.List.Induction
import TextScan.Report.Query

namespace TextScan.Report

variable {fault : Fault} {h k : List Query} {r : Report} {q : Query} {text : Text}

namespace Query

def locates : Query → Bool
  | location | locationText | render | excerpt => true
  | _ => false

def attached? : Query → Option Text
  | withSource text => some text
  | _ => none

theorem attached?_eq_some_iff : q.attached? = some text ↔ q = withSource text := by
  cases q <;> simp [attached?]

end Query

open Query

theorem after_of_locates (h : q.locates) : r.after q = r.locate := by
  cases q <;> first | rfl | cases h

theorem after_of_unmoved (hattached : q.attached? = none) (hlocates : ¬ q.locates) :
    r.after q = r := by
  cases q <;> simp_all [Report.after, attached?, Query.locates]

section Histories

def lastSource (h : List Query) : Option Text :=
  (h.filterMap attached?).getLast?

-- The location was worked out after the last text was attached.
def LocatedSince (h : List Query) : Prop :=
  ∃ before text later, h = before ++ Query.withSource text :: later ∧
    (∀ q ∈ later, q.attached? = none) ∧ ∃ q ∈ later, q.locates

theorem lastSource_concat (h : List Query) (q : Query) :
    lastSource (h ++ [q]) = q.attached?.or (lastSource h) := by
  unfold lastSource
  rw [List.filterMap_append, List.getLast?_append]
  cases hq : q.attached? <;> simp [hq]

theorem exists_of_lastSource (hlast : lastSource h = some text) :
    ∃ before later, h = before ++ Query.withSource text :: later ∧
      ∀ q ∈ later, q.attached? = none := by
  induction h using List.reverseRecOn with
  | nil => cases hlast
  | append_singleton h q ih =>
    rw [lastSource_concat, Option.or_eq_some_iff] at hlast
    rcases hlast with hq | ⟨hq, hlast⟩
    · exact ⟨h, [], by rw [attached?_eq_some_iff.1 hq], by simp⟩
    · obtain ⟨before, later, rfl, hlater⟩ := ih hlast
      refine ⟨before, later ++ [q], by simp, ?_⟩
      intro q' hq'
      rcases List.mem_append.1 hq' with hq' | hq'
      · exact hlater q' hq'
      · rw [List.mem_singleton.1 hq']
        exact hq

theorem isSome_lastSource (before later : List Query) (text : Text) :
    (lastSource (before ++ Query.withSource text :: later)).isSome := by
  rw [lastSource, List.getLast?_isSome]
  simp [attached?]

theorem locatedSince_concat : LocatedSince (h ++ [q]) ↔
    q.attached? = none ∧ (LocatedSince h ∨ q.locates ∧ (lastSource h).isSome) := by
  constructor
  · rintro ⟨before, text, later, hsplit, hlater, q', hq', hlocates⟩
    rcases List.eq_nil_or_concat later with rfl | ⟨later, q'', rfl⟩
    · cases hq'
    · rw [List.concat_eq_append, ← List.cons_append, ← List.append_assoc] at hsplit
      obtain ⟨rfl, hlast⟩ := List.append_inj' hsplit rfl
      obtain rfl := List.singleton_inj.1 hlast
      refine ⟨hlater q (by simp), ?_⟩
      rw [List.concat_eq_append, List.mem_append, List.mem_singleton] at hq'
      rcases hq' with hq' | rfl
      · have hbefore : ∀ e ∈ later, e.attached? = none := fun e he => hlater e (by simp [he])
        exact .inl ⟨before, text, later, rfl, hbefore, q', hq', hlocates⟩
      · exact .inr ⟨hlocates, isSome_lastSource before later text⟩
  · rintro ⟨hq, hsince⟩
    have hattached {later : List Query} (hlater : ∀ q ∈ later, q.attached? = none) :
        ∀ q' ∈ later ++ [q], q'.attached? = none := by
      simpa [or_imp, forall_and, hq] using hlater
    rcases hsince with ⟨before, text, later, rfl, hlater, q', hq', hlocates⟩ | ⟨hlocates, hsome⟩
    · exact ⟨before, text, later ++ [q], by simp, hattached hlater, q', by simp [hq'], hlocates⟩
    · obtain ⟨text, htext⟩ := Option.isSome_iff_exists.1 hsome
      obtain ⟨before, later, rfl, hlater⟩ := exists_of_lastSource htext
      exact ⟨before, text, later ++ [q], by simp, hattached hlater, q, by simp, hlocates⟩

theorem locatedSince_iff : LocatedSince h ↔
    (lastSource h).isSome ∧ ∃ q ∈ h.rtakeWhile (·.attached?.isNone), q.locates := by
  induction h using List.reverseRecOn with
  | nil =>
    constructor
    · rintro ⟨before, text, later, heq, -⟩
      simp at heq
    · rintro ⟨hsome, -⟩
      cases hsome
  | append_singleton h q ih =>
    rw [locatedSince_concat, ih, lastSource_concat, List.rtakeWhile_concat]
    cases hq : q.attached? with
    | some text => simp
    | none =>
      simp only [Option.isNone_none, if_true, Option.none_or, List.mem_append, List.mem_singleton,
        or_and_right, exists_or, exists_eq_left, true_and]
      by_cases hsome : (lastSource h).isSome <;> simp [hsome]

instance : Decidable (LocatedSince h) :=
  decidable_of_iff _ locatedSince_iff.symm

end Histories

structure Tracks (fault : Fault) (h : List Query) (r : Report) : Prop where
  fault_eq : r.fault = fault
  source_eq : r.source = lastSource h
  located : (¬ LocatedSince h ∧ r.located = none) ∨
    (LocatedSince h ∧ ∃ text, lastSource h = some text ∧
      r.located = some (Location.ofRemaining text fault.remaining))

theorem tracks_ofFault (fault : Fault) : Tracks fault [] (ofFault fault) := by
  refine ⟨rfl, rfl, .inl ⟨?_, rfl⟩⟩
  rintro ⟨before, text, later, heq, -⟩
  simp at heq

theorem Tracks.location_eq (hr : Tracks fault h r) :
    r.location = (lastSource h).map (Location.ofRemaining · fault.remaining) := by
  rw [location, hr.source_eq, hr.fault_eq]
  rcases hr.located with ⟨-, hnone⟩ | ⟨-, text, htext, hsome⟩
  · rw [hnone]
    rfl
  · rw [hsome, htext]
    rfl

theorem Tracks.locate (hr : Tracks fault h r) (hq : q.attached? = none) (hlocates : q.locates) :
    Tracks fault (h ++ [q]) r.locate := by
  have hlocation := hr.location_eq
  have hlast : lastSource (h ++ [q]) = lastSource h := by rw [lastSource_concat, hq]; rfl
  unfold Report.locate
  cases htext : lastSource h with
  | none =>
    rw [htext] at hlocation
    rw [hlocation]
    refine ⟨hr.fault_eq, hlast ▸ hr.source_eq, ?_⟩
    rcases hr.located with ⟨hsince, hnone⟩ | ⟨-, text, hsome, -⟩
    · refine .inl ⟨?_, hnone⟩
      rw [locatedSince_concat, htext]
      rintro ⟨-, h' | ⟨-, h'⟩⟩
      · exact hsince h'
      · cases h'
    · rw [htext] at hsome
      cases hsome
  | some text =>
    rw [htext] at hlocation
    rw [hlocation]
    refine ⟨hr.fault_eq, hlast ▸ hr.source_eq, .inr ⟨?_, text, hlast ▸ htext, rfl⟩⟩
    rw [locatedSince_concat, htext]
    exact ⟨hq, .inr ⟨hlocates, rfl⟩⟩

theorem Tracks.after (hr : Tracks fault h r) (q : Query) : Tracks fault (h ++ [q]) (r.after q) := by
  cases hq : q.attached? with
  | some text =>
    obtain rfl := attached?_eq_some_iff.1 hq
    refine ⟨hr.fault_eq, by rw [lastSource_concat]; rfl, .inl ⟨?_, rfl⟩⟩
    rw [locatedSince_concat]
    rintro ⟨hnone, -⟩
    cases hnone
  | none =>
    by_cases hlocates : q.locates
    · rw [after_of_locates hlocates]
      exact hr.locate hq hlocates
    · have hlast : lastSource (h ++ [q]) = lastSource h := by rw [lastSource_concat, hq]; rfl
      have hsince : LocatedSince (h ++ [q]) ↔ LocatedSince h := by
        simp [locatedSince_concat, hq, hlocates]
      rw [after_of_unmoved hq hlocates]
      exact ⟨hr.fault_eq, hlast ▸ hr.source_eq, by rw [hlast, hsince]; exact hr.located⟩

def answerTo (fault : Fault) (h : List Query) : Query → Answer
  | .withSource _ | .clone => .nothing
  | .isLocated => .flag (LocatedSince h)
  | .location => .location ((lastSource h).map (Location.ofRemaining · fault.remaining))
  | .locationText =>
    .text ((lastSource h).map fun text => (Location.ofRemaining text fault.remaining).render)
  | .render => .text (match lastSource h with
    | some text => (Location.ofRemaining text fault.remaining).render ++ " " ++ fault.expected
    | none => fault.expected)
  | .excerpt => .lines (match lastSource h with
    | some text => Excerpt.ofText text (Location.ofRemaining text fault.remaining)
    | none => [])
  | .expected => .text fault.expected
  | .remaining => .bytes fault.remaining
  | .fault => .fault fault
  | .source => .text ((lastSource h).map String.ofList)
  | .cause => .text fault.render

theorem answerTo_congr (hattached : h.filterMap attached? = k.filterMap attached?)
    (hq : q ≠ .isLocated) : answerTo fault h q = answerTo fault k q := by
  have hlast : lastSource h = lastSource k := congrArg List.getLast? hattached
  cases q <;> first | exact absurd rfl hq | simp only [answerTo, hlast]

structure Faithful (fault : Fault) (h : List Query) (r : Report) : Prop where
  fault_eq : r.fault = fault
  source_eq : r.source = lastSource h
  kept : r.located = none ∨ ∃ text, lastSource h = some text ∧
    r.located = some (Location.ofRemaining text fault.remaining)
  answer_eq : ∀ q, r.answer q = answerTo fault h q

theorem Tracks.isLocated_eq (hr : Tracks fault h r) :
    r.isLocated = decide (LocatedSince h) := by
  rw [Report.isLocated]
  rcases hr.located with ⟨hsince, hnone⟩ | ⟨hsince, text, -, hsome⟩
  · rw [hnone]
    simp [hsince]
  · rw [hsome]
    simp [hsince]

theorem Tracks.answer_eq (hr : Tracks fault h r) (q : Query) : r.answer q = answerTo fault h q := by
  have hlocation := hr.location_eq
  cases q with
  | withSource | clone => rfl
  | isLocated => rw [answer, hr.isLocated_eq]; rfl
  | location => rw [answer, hlocation]; rfl
  | locationText => rw [answer, hlocation, Option.map_map]; rfl
  | render =>
    rw [answer, Report.render, hlocation, hr.fault_eq, answerTo]
    cases lastSource h <;> rfl
  | excerpt =>
    rw [answer, Report.excerpt, hlocation, hr.source_eq, answerTo]
    cases lastSource h <;> rfl
  | expected | remaining | fault | cause => rw [answer, hr.fault_eq]; rfl
  | source => rw [answer, hr.source_eq]; rfl

theorem Tracks.faithful (hr : Tracks fault h r) : Faithful fault h r := by
  refine ⟨hr.fault_eq, hr.source_eq, ?_, hr.answer_eq⟩
  rcases hr.located with ⟨-, hnone⟩ | ⟨-, hsome⟩
  · exact .inl hnone
  · exact .inr hsome

theorem tracks_foldl (fault : Fault) (h : List Query) :
    Tracks fault h (h.foldl after (ofFault fault)) := by
  induction h using List.reverseRecOn with
  | nil => exact tracks_ofFault fault
  | append_singleton h q ih =>
    rw [List.foldl_append]
    exact ih.after q

end TextScan.Report

import TextScan.Proofs.Program.Reaches

namespace TextScan.Program

open Cursor Run Repetition

variable {ω : Type} {origin q q' : Point Collecting ω}
  {f g : Frame Collecting} {s : Step ω} {value : Value ω} {expected : String} {fault : Fault}
  {c d : Collecting}

-- A copy from before the fault is one with an empty slot.
def NeverReverts (origin : Point Collecting ω) : Prop :=
  ∀ resumes name next f c, Reaches origin ⟨resumes, .step (.restore name) next, f⟩ →
    f.saved.lookup name = some c → f.cursor.slot.isSome → c.slot.isSome

def Recorded (origin : Point Collecting ω) (fault : Fault) : Prop :=
  ∃ resumes s next f expected, Reaches origin ⟨resumes, .step s next, f⟩ ∧ f.cursor.slot = none ∧
    s.Unmet f expected ∧ fault = Fault.before f.cursor.rest expected

theorem slot_of_scanned (h : Scanned c d) : d.slot = c.slot :=
  h.fault?_eq

theorem slot_of_require
    (h : (Policy.require false expected c : Run Collecting).outcome = .ok d) :
    d = { c with slot := c.slot.or (some (Fault.before c.rest expected)) } :=
  Except.ok.inj (h.symm.trans (Collecting.outcome_record _ c))

theorem react_of_unmet_collecting (h : s.Unmet f expected) :
    ∃ (value : Value ω) (g : Frame Collecting),
      (s.react f).outcome = .ok (.next value g) ∧ g.cursor = { f.cursor with
        slot := f.cursor.slot.or (some (Fault.before f.cursor.rest expected)) } := by
  obtain ⟨value, hreact⟩ := react_of_unmet h
  have hrecord : (Policy.require false expected f.cursor).outcome = .ok
      { f.cursor with slot := f.cursor.slot.or (some (Fault.before f.cursor.rest expected)) } :=
    Collecting.outcome_record _ f.cursor
  exact ⟨value, _, by rw [hreact, outcome_bind_of_ok hrecord]; rfl, rfl⟩

theorem slot_of_effect (h : Effect f s g) (hmet : ∀ expected, ¬ s.Unmet f expected)
    (hstay : ∀ name, s ≠ .restore name) : g.cursor.slot = f.cursor.slot := by
  cases h with
  | scanned _ hc => exact slot_of_scanned hc
  | forked name => rfl
  | restored hc => exact absurd rfl (hstay _)
  | unmet hs _ => exact absurd hs (hmet _)

theorem stepsKeep_slot (fault : Fault) (origin : Point Collecting ω) :
    StepsKeep (fun c : Collecting => c.slot = some fault) origin := by
  intro resumes s next f value g _ hf h
  refine (effect_of_react h).all hf ?_ ?_
  · intro c hc
    exact (slot_of_scanned hc).trans hf.1
  · intro expected c _ hc
    have hslot : f.cursor.slot = some fault := hf.1
    rw [slot_of_require hc, hslot]
    rfl

theorem stepsKeep_recorded (origin : Point Collecting ω) :
    StepsKeep (fun c : Collecting => ∀ fault, c.slot = some fault → Recorded origin fault)
      origin := by
  intro resumes s next f value g hreach hf h
  refine (effect_of_react h).all hf ?_ ?_
  · intro c hc fault hslot
    exact hf.1 fault ((slot_of_scanned hc).symm.trans hslot)
  · intro expected c hs hc fault hslot
    rw [slot_of_require hc] at hslot
    cases hempty : f.cursor.slot with
    | some first =>
      simp only [hempty, Option.some_or] at hslot
      exact hf.1 fault (hempty.trans hslot)
    | none =>
      simp only [hempty, Option.none_or] at hslot
      exact ⟨resumes, s, next, f, expected, hreach, hempty, hs, (Option.some.inj hslot).symm⟩

def OneFault (f : Frame Collecting) : Prop :=
  ∀ name c, f.saved.lookup name = some c → c.slot.isSome → c.slot = f.cursor.slot

def KeepsSlot (c d : Collecting) : Prop :=
  ∀ fault, c.slot = some fault → d.slot = some fault

theorem OneFault.of_saved (h : OneFault f) (hsaved : g.saved = f.saved)
    (hslot : KeepsSlot f.cursor g.cursor) : OneFault g := by
  intro name c hc hsome
  have hcopy := h name c (hsaved ▸ hc) hsome
  obtain ⟨fault, hfault⟩ := Option.isSome_iff_exists.1 hsome
  rw [hfault] at hcopy ⊢
  exact (hslot fault hcopy.symm).symm

theorem OneFault.slot_of_copy (h : OneFault f) {name : String}
    (hc : f.saved.lookup name = some c) (hforward : f.cursor.slot.isSome → c.slot.isSome) :
    c.slot = f.cursor.slot := by
  cases hslot : c.slot with
  | some fault =>
    rw [← hslot]
    exact h name c hc (by rw [hslot]; rfl)
  | none =>
    rw [hslot] at hforward
    exact (Option.not_isSome_iff_eq_none.1 fun hsome => by cases hforward hsome).symm

theorem OneFault.effect (h : OneFault f) (heffect : Effect f s g)
    (hforward : ∀ name c, s = .restore name → f.saved.lookup name = some c →
      f.cursor.slot.isSome → c.slot.isSome) :
    OneFault g ∧ KeepsSlot f.cursor g.cursor := by
  cases heffect with
  | scanned _ hc =>
    have hkeeps : KeepsSlot f.cursor _ := fun fault => (slot_of_scanned hc).trans
    exact ⟨h.of_saved rfl hkeeps, hkeeps⟩
  | forked name =>
    refine ⟨?_, fun _ => id⟩
    intro name' c hc hsome
    rw [List.lookup_cons] at hc
    split at hc
    · rw [← Option.some.inj hc]
    · exact h name' c hc hsome
  | restored hc =>
    have hkeeps : KeepsSlot f.cursor _ := fun fault =>
      (h.slot_of_copy hc (hforward _ _ rfl hc)).trans
    exact ⟨h.of_saved rfl hkeeps, hkeeps⟩
  | @unmet _ _ c _ hc =>
    have hkeeps : KeepsSlot f.cursor c := by
      intro fault hslot
      rw [slot_of_require hc, hslot]
      rfl
    exact ⟨h.of_saved rfl hkeeps, hkeeps⟩

theorem keepsSlot_of_matches {strict : Bool} {item : Program ω} {items : List (List (Value ω))}
    (h : Matches (tries strict item) c items d) : KeepsSlot c d :=
  fun fault hslot =>
    keeps_of_matches (fun e : Collecting => e.slot = some fault) (stepsKeep_slot fault) hslot h

theorem OneFault.leads (hnever : NeverReverts origin) (hreach : Reaches origin q)
    (h : OneFault q.frame) (hleads : Leads q q') :
    OneFault q'.frame ∧ KeepsSlot q.frame.cursor q'.frame.cursor := by
  cases hleads with
  | @next resumes p next f g r value hreact hr =>
    rcases next_cases hreact hr with
      ⟨s, rfl, hs⟩ | ⟨strict, item, limit, items, c, rfl, rfl, hmatches, -⟩
    · refine h.effect (effect_of_react hs) ?_
      rintro name c rfl hc
      exact hnever resumes name _ f c hreach hc
    · have hkeeps := keepsSlot_of_matches hmatches
      exact ⟨h.of_saved rfl hkeeps, hkeeps⟩
  | resumed _ _ => exact ⟨h, fun _ => id⟩
  | item hmatches _ => exact ⟨(by intro _ _ hc; cases hc), keepsSlot_of_matches hmatches⟩

theorem OneFault.reaches (hnever : NeverReverts origin) (horigin : OneFault origin.frame)
    (h : Reaches origin q) : OneFault q.frame := by
  induction h with
  | refl => exact horigin
  | tail hreach hlast ih => exact (ih.leads hnever hreach hlast).1

theorem keepsSlot_of_reaches (hnever : NeverReverts origin)
    (horigin : OneFault origin.frame) (hq : Reaches origin q)
    (h : Reaches q q') : KeepsSlot q.frame.cursor q'.frame.cursor := by
  induction h with
  | refl => exact fun _ => id
  | tail hreach hlast ih =>
    have hmiddle := hq.trans hreach
    have hlead := ((OneFault.reaches hnever horigin hmiddle).leads hnever hmiddle hlast).2
    exact fun fault hslot => hlead fault (ih fault hslot)

structure WritesSlotOnce (p : Program ω) (text : Text) : Prop where
  -- Whatever is written stays, at the same level and in all items inside it.
  kept : ∀ resumes, NeverReverts (.ofText resumes p text) →
    ∀ (q q' : Point Collecting ω) fault, Reaches (.ofText resumes p text) q → Reaches q q' →
      q.frame.cursor.slot = some fault → q'.frame.cursor.slot = some fault
  observed : NeverReverts (.ofText true p text) →
    (observe p (Frame.start (Policy.start text : Collecting))).value.Pairwise fun state later =>
      ∀ fault, state.cursor.slot = some fault → later.cursor.slot = some fault
  recorded : ∀ resumes (q : Point Collecting ω) fault, Reaches (.ofText resumes p text) q →
    q.frame.cursor.slot = some fault → Recorded (.ofText resumes p text) fault
  unmet : ∀ (f : Frame Collecting) (s : Step ω) expected, s.Unmet f expected →
    ∃ value g, (s.react f).outcome = .ok (.next value g) ∧
      g.cursor =
        { f.cursor with slot := f.cursor.slot.or (some (Fault.before f.cursor.rest expected)) }
  -- Every other step leaves the slot as it is, whether it matches or not.
  other : ∀ (f g : Frame Collecting) (s : Step ω) value,
    (s.react f).outcome = .ok (.next value g) → (∀ expected, ¬ s.Unmet f expected) →
      (∀ name, s ≠ .restore name) → g.cursor.slot = f.cursor.slot
  -- A repetition leaves the cursor of its last match.
  repeated : ∀ strict (item : Program ω) limit (f g : Frame Collecting) value,
    (repeatItem f strict (fun c => run item (Frame.start c)) limit).outcome =
        .ok (.next value g) →
      ∃ items, value = .items items ∧ Matches (tries strict item) f.cursor items g.cursor ∧
        (items.length = limit ∨
          items.length < limit ∧ ∃ d, tries strict item g.cursor = .ok (none, d))

theorem slot_written_once (p : Program ω) (text : Text) : WritesSlotOnce p text := by
  have horigin (resumes : Bool) : OneFault (Point.ofText resumes p text).frame := by
    intro name c hc
    cases hc
  refine ⟨?_, ?_, ?_, ?_, ?_, ?_⟩
  · intro resumes hnever q q' fault hq hq' hslot
    exact keepsSlot_of_reaches hnever (horigin resumes) hq hq' fault hslot
  · intro hnever
    exact pairwise_observe fun q q' hq hq' => keepsSlot_of_reaches hnever (horigin true) hq hq'
  · intro resumes q fault hq hslot
    have hstart : (Frame.start (Policy.start text : Collecting)).All fun c =>
        ∀ fault, c.slot = some fault → Recorded (.ofText resumes p text) fault :=
      .of_start fun fault hempty => by cases hempty
    exact ((stepsKeep_recorded _).all hstart hq).1 fault hslot
  · intro f s expected h
    exact react_of_unmet_collecting h
  · intro f g s value h hmet hstay
    exact slot_of_effect (effect_of_react h) hmet hstay
  · intro strict item limit f g value h
    obtain ⟨items, c, heq, hmatches, hend⟩ := exists_of_repeatItem h
    obtain ⟨rfl, rfl⟩ := Reaction.next.inj heq
    exact ⟨items, rfl, hmatches, hend⟩

theorem reaches_of_step {resumes : Bool} {next : Program ω}
    (hreact : (s.react f).outcome = .ok (.next value g))
    (h : Reaches ⟨resumes, .step s next, f⟩ q) :
    q = ⟨resumes, .step s next, f⟩ ∨ Reaches ⟨resumes, next, g⟩ q := by
  rcases Relation.ReflTransGen.cases_head h with heq | ⟨q', hleads, h⟩
  · exact .inl heq.symm
  · cases hleads with
    | next hsome hr =>
      obtain ⟨rfl, rfl⟩ := Prod.mk.inj (Option.some.inj hsome)
      obtain ⟨rfl, rfl⟩ := Reaction.next.inj (Except.ok.inj (hreact.symm.trans hr))
      exact .inr h
    | resumed hsome hr =>
      obtain ⟨rfl, rfl⟩ := Prod.mk.inj (Option.some.inj hsome)
      cases hreact.symm.trans hr

def backToCopy : Program Unit :=
  .step (.requireChar 'b') <|
  .step (.fork "behind the fault") <|
  .step .skipOne <|
  .step (.restore "behind the fault") <|
  .step (.requireChar 'c') .done

theorem slot_written_once_backToCopy :
    NeverReverts (.ofText true backToCopy ['é', 'a']) ∧
      (observe backToCopy (Frame.start (⟨['é', 'a'], none⟩ : Collecting))).value.map
          (fun state => state.cursor.slot) = List.replicate 5 (some ⟨"Expected 'b'", 3⟩) ∧
      WritesSlotOnce backToCopy ['é', 'a'] := by
  refine ⟨?_, rfl, slot_written_once backToCopy ['é', 'a']⟩
  intro resumes name next f c h hc _
  rcases reaches_of_step rfl h with heq | h
  · cases heq
  rcases reaches_of_step rfl h with heq | h
  · cases heq
  rcases reaches_of_step rfl h with heq | h
  · cases heq
  rcases reaches_of_step rfl h with heq | h
  · cases heq
    obtain rfl := Option.some.inj hc
    rfl
  rcases reaches_of_step rfl h with heq | h
  · cases heq
  rcases Relation.ReflTransGen.cases_head h with heq | ⟨q, hleads, -⟩
  · cases heq
  · cases hleads with
    | next hsome _ => cases hsome
    | resumed hsome _ => cases hsome

end TextScan.Program

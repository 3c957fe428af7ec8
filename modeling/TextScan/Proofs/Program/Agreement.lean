import TextScan.Program.Run
import TextScan.Proofs.Cursor.Agreement

namespace TextScan.Program

open Run

variable {ω : Type}

def Step.Shared : Step ω → Prop
  | restore _ | same _ | advance _ | raiseUnless _ _ => False
  | requireLazily _ _ | fault _ | hasFault | keptFault => False
  | _ => True

inductive Shared : Program ω → Prop
  | done : Shared done
  | step {s : Step ω} {next : Program ω} : s.Shared → Shared next → Shared (step s next)

instance : Carries (Frame Collecting) (Frame Text) where
  slot f := f.cursor.slot
  lift f := ⟨⟨f.cursor, none⟩, f.matched, f.saved.map fun (name, t) => (name, ⟨t, none⟩)⟩
  slot_lift _ := rfl

instance : Carries (Reaction Collecting ω) (Reaction Text ω) where
  slot
    | .next _ f => Carries.slot f
    | .stop c => c.slot
  lift
    | .next value f => .next value (Carries.lift f)
    | .stop t => .stop ⟨t, none⟩
  slot_lift r := by cases r <;> rfl

instance : Carries (Ending Collecting ω) (Ending Text ω) where
  slot e := e.cursor.slot
  lift e := ⟨e.values, ⟨e.cursor, none⟩, e.stopped⟩
  slot_lift _ := rfl

theorem holds_lift (condition : Condition) (f : Frame Text) :
    condition.holds (Carries.lift f : Frame Collecting) = condition.holds f := by
  cases condition <;> rfl

section Steps

variable {α : Type}

theorem lifts_look {look : Collecting → α} {plain : Text → α} (h : ∀ t, look ⟨t, none⟩ = plain t)
    (value : α → Value ω) (matched : α → Bool) :
    Lifts (fun f : Frame Collecting =>
        pure (f.next (value (look f.cursor)) (matched (look f.cursor)) f.cursor))
      (fun f : Frame Text =>
        pure (f.next (value (plain f.cursor)) (matched (plain f.cursor)) f.cursor)) := by
  refine Lifts.pure ?_ fun _ => rfl
  intro f
  have hlook : look (Carries.lift f : Frame Collecting).cursor = plain f.cursor := h f.cursor
  rw [hlook]
  rfl

theorem lifts_take (take : Collecting → α × Collecting) (plain : Text → α × Text)
    (hlift : ∀ t, take ⟨t, none⟩ = ((plain t).1, ⟨(plain t).2, none⟩))
    (hslot : ∀ c, (take c).2.slot = c.slot) (value : α → Value ω) (matched : α → Bool) :
    Lifts (fun f : Frame Collecting =>
        pure (f.next (value (take f.cursor).1) (matched (take f.cursor).1) (take f.cursor).2))
      (fun f : Frame Text =>
        pure (f.next (value (plain f.cursor).1) (matched (plain f.cursor).1)
          (plain f.cursor).2)) := by
  refine Lifts.pure ?_ fun f => hslot f.cursor
  intro f
  have htake : take (Carries.lift f : Frame Collecting).cursor =
      ((plain f.cursor).1, ⟨(plain f.cursor).2, none⟩) := hlift f.cursor
  rw [htake]
  rfl

theorem lifts_skip {skip : Collecting → Collecting} {plain : Text → Text}
    (hlift : ∀ t, skip ⟨t, none⟩ = ⟨plain t, none⟩) (hslot : ∀ c, (skip c).slot = c.slot) :
    Lifts (fun f : Frame Collecting => pure (f.nextSkip (skip f.cursor) : Reaction Collecting ω))
      (fun f : Frame Text => pure (f.nextSkip (plain f.cursor) : Reaction Text ω)) := by
  refine Lifts.pure ?_ fun f => hslot f.cursor
  intro f
  have hskip : skip (Carries.lift f : Frame Collecting).cursor = ⟨plain f.cursor, none⟩ :=
    hlift f.cursor
  rw [hskip]
  rfl

theorem lifts_skipOneIf (p : Char → Bool) :
    Lifts (fun f : Frame Collecting =>
        pure (f.nextSkip (Cursor.skipOneIf p f.cursor) : Reaction Collecting ω))
      (fun f : Frame Text =>
        pure (f.nextSkip (Cursor.skipOneIf p f.cursor) : Reaction Text ω)) :=
  lifts_skip (fun t => congrArg Prod.snd (takeOne?_lift p t)) (slot_takeOne? p)

theorem lifts_requirement {req : Frame Collecting → Run Collecting} {plain : Frame Text → Run Text}
    (h : Lifts req plain) :
    Lifts (fun f => do let c ← req f; pure (f.next .nothing true c : Reaction Collecting ω))
      (fun f => do let t ← plain f; pure (f.next .nothing true t : Reaction Text ω)) := by
  constructor
  · intro f
    refine Agrees.bind (h.agrees f) (fun t => Agrees.pure (f.next .nothing true t)) ?_
    intro c first hslot
    exact Keeps.pure hslot
  · intro f first hslot
    exact Keeps.bind (h.keeps f first hslot) fun c hc => Keeps.pure hc

theorem lifts_peek (count : Nat) :
    Lifts (fun f : Frame Collecting => (Step.peek count : Step ω).react f)
      (fun f : Frame Text => (Step.peek count : Step ω).react f) := by
  have hseen {σ : Type} [Policy σ] [DecidableEq σ] (f : Frame σ) :
      (Step.peek count : Step ω).react f =
        pure (f.next (((Cursor.peek? count f.cursor).map Value.text).getD .nothing)
          (Cursor.peek? count f.cursor).isSome f.cursor) := by
    rw [Step.react]
    cases Cursor.peek? count f.cursor <;> rfl
  rw [funext hseen, funext hseen]
  exact lifts_look (fun _ => rfl) (fun seen => (seen.map Value.text).getD .nothing) Option.isSome

theorem lifts_stopUnless (condition : Condition) :
    Lifts (fun f : Frame Collecting => (Step.stopUnless condition : Step ω).react f)
      (fun f : Frame Text => (Step.stopUnless condition : Step ω).react f) := by
  refine Lifts.pure ?_ ?_
  · intro f
    rw [holds_lift]
    cases condition.holds f <;> rfl
  · intro f
    cases condition.holds f <;> rfl

theorem lifts_requireHolds (condition : Condition) (expected : String) :
    Lifts (fun f : Frame Collecting => Cursor.require (condition.holds f) expected f.cursor)
      (fun f : Frame Text => Cursor.require (condition.holds f) expected f.cursor) := by
  refine (lifts_requireFlag expected).comp (p := fun f => (condition.holds f, f.cursor))
    (q := fun f => (condition.holds f, f.cursor)) ?_ fun _ => rfl
  intro f
  rw [holds_lift]
  rfl

theorem lifts_react {s : Step ω} (hs : s.Shared) :
    Lifts (fun f : Frame Collecting => s.react f) (fun f : Frame Text => s.react f) := by
  cases s with
  | takeOne p =>
    exact lifts_take _ _ (takeOne?_lift p) (slot_takeOne? p) (fun x => .char (x.getD absent))
      fun x => x.getD absent != absent
  | takeWhile p =>
    exact lifts_take (Cursor.takeWhile p) (Cursor.takeWhile p) (fun _ => rfl) (fun _ => rfl) .text
      (!·.isEmpty)
  | takeBounded p max =>
    exact lifts_take (Cursor.takeBounded p max) (Cursor.takeBounded p max) (fun _ => rfl)
      (fun _ => rfl) .text (!·.isEmpty)
  | peek count => exact lifts_peek count
  | peekOne =>
    exact lifts_look (fun _ => rfl) (fun x : Option Char => .char (x.getD absent))
      fun x => x.getD absent != absent
  | skipWhile p => exact lifts_skip (fun _ => rfl) fun _ => rfl
  | skipUntil p => exact lifts_skip (fun _ => rfl) fun _ => rfl
  | skipOneIf p => exact lifts_skipOneIf p
  | skipOne => exact lifts_skipOneIf fun _ => true
  | skipChar x => exact lifts_take _ _ (skipChar_lift x) (slot_skipChar x) .flag id
  | skipLiteral literal =>
    exact lifts_take _ _ (skipLiteral_lift literal) (slot_skipLiteral literal) .flag id
  | startsWith literal => exact lifts_look (fun _ => rfl) .flag id
  | nextIs p => exact lifts_look (fun _ => rfl) .flag id
  | isAtEnd => exact lifts_look (fun _ => rfl) .flag id
  | display => exact lifts_look (fun _ => rfl) .text fun _ => true
  | yield value => exact Lifts.pure (fun _ => rfl) fun _ => rfl
  | fork name => exact Lifts.pure (fun _ => rfl) fun _ => rfl
  | stopUnless condition => exact lifts_stopUnless condition
  | require condition expected => exact lifts_requirement (lifts_requireHolds condition expected)
  | requireChar x =>
    exact lifts_requirement ((lifts_requireChar x).comp (fun _ => rfl) fun _ => rfl)
  | requireLiteral literal expected =>
    exact lifts_requirement ((lifts_requireLiteral literal expected).comp (fun _ => rfl)
      fun _ => rfl)
  | restore | same | advance | raiseUnless => exact absurd hs id
  | requireLazily | fault | hasFault | keptFault => exact absurd hs id

end Steps

theorem lifts_run {p : Program ω} (hp : p.Shared) :
    Lifts (run p : Frame Collecting → Run (Ending Collecting ω)) (run p) := by
  induction hp with
  | done => exact Lifts.pure (fun _ => rfl) fun _ => rfl
  | @step s next hs _ ih =>
    have hnext (value : Value ω) :
        Lifts (fun f : Frame Collecting => do
            let e ← run next f
            pure { e with values := value :: e.values })
          (fun f : Frame Text => do
            let e ← run next f
            pure { e with values := value :: e.values }) :=
      Lifts.bind ih (Lifts.pure (fun _ => rfl) fun _ => rfl)
    refine Lifts.bind (lifts_react hs) ?_
    constructor
    · intro r
      cases r with
      | next value f => exact (hnext value).agrees f
      | stop t => exact Agrees.pure (⟨[], t, true⟩ : Ending Text ω)
    · intro r first hslot
      cases r with
      | next value f => exact (hnext value).keeps f first hslot
      | stop c => exact Keeps.pure hslot

theorem lifts_ending {p : Program ω} (hp : p.Shared) :
    Lifts (fun c : Collecting => do let e ← run p (Frame.start c); pure (e.values, e.cursor))
      (fun t : Text => do let e ← run p (Frame.start t); pure (e.values, e.cursor)) :=
  Lifts.bind ((lifts_run hp).comp (fun _ => rfl) fun _ => rfl)
    (Lifts.pure (fun _ => rfl) fun _ => rfl)

-- The fault of a run on a bare text is raised again as it is, and a collecting run raises none.
theorem agrees_asRoot {p : Program ω} (hp : p.Shared) (text : Text) :
    Agrees (asRoot p (⟨text, none⟩ : Collecting)) (asRoot p text) := by
  have hagrees := (lifts_ending hp).agrees text
  obtain ⟨b, hok, -⟩ := (lifts_ending hp).exists_recorded ⟨text, none⟩
  have houtcome : (asRoot p text).outcome =
      (do let e ← run p (Frame.start text); pure (e.values, e.cursor) : Run _).outcome := by
    cases h : (do let e ← run p (Frame.start text); pure (e.values, e.cursor) : Run _).outcome with
    | ok r => rw [asRoot, tryCatch_of_ok h, h]
    | error fault =>
      rw [asRoot, outcome_tryCatch_of_error h]
      rfl
  rw [asRoot, tryCatch_of_ok hok]
  unfold Agrees at hagrees ⊢
  rw [houtcome]
  exact hagrees

theorem parse_asRoot_eq (p : Program ω) (hp : p.Shared) (text : Text) :
    (parse (asRoot p : Collecting → Run (List (Value ω) × Collecting)) text).value =
      (parse (asRoot p : Text → Run (List (Value ω) × Text)) text).value :=
  (agrees_asRoot hp text).parse_eq

def numberAndWord : Program Unit :=
  .step (.takeWhile (.ofClass .digit)) <|
  .step (.require .matched "Expected digits") <|
  .step (.requireChar ',') <|
  .step (.stopUnless (.test fun rest _ => rest.length < 4)) <|
  .step (.requireLiteral ['k', 'm'] "Expected unit") .done

theorem parse_numberAndWord_eq :
    numberAndWord.Shared ∧
      (parse (asRoot numberAndWord : Collecting → Run (List (Value Unit) × Collecting))
          ['1', '2', ';', 'm']).value =
        (parse (asRoot numberAndWord : Text → Run (List (Value Unit) × Text))
          ['1', '2', ';', 'm']).value ∧
      (parse (asRoot numberAndWord : Collecting → Run (List (Value Unit) × Collecting))
          ['1', '2', ';', 'm']).value =
        .error ⟨⟨"Expected ','", 2⟩, some ['1', '2', ';', 'm'], none⟩ := by
  have hshared : numberAndWord.Shared :=
    .step trivial (.step trivial (.step trivial (.step trivial (.step trivial .done))))
  exact ⟨hshared, parse_asRoot_eq numberAndWord hshared _, rfl⟩

end TextScan.Program

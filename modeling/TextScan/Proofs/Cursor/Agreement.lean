import TextScan.Cursor.Policy
import TextScan.Proofs.Parse
/-!
The two policies compared. A collecting run goes on after a fault, so what it ends with is compared
with a run that stopped there: it has recorded that fault and nothing after it, whatever it read.
-/

namespace TextScan

open Cursor Run

-- Results that hold a collecting cursor, and what a bare text has in their place.
class Carries (β : Type) (γ : outParam Type) where
  slot : β → Option Fault
  lift : γ → β
  slot_lift (c : γ) : slot (lift c) = none

instance : Carries Collecting Text where
  slot c := c.slot
  lift t := ⟨t, none⟩
  slot_lift _ := rfl

instance {α : Type} : Carries (α × Collecting) (α × Text) where
  slot r := r.2.slot
  lift r := (r.1, ⟨r.2, none⟩)
  slot_lift _ := rfl

variable {β β' β'' γ γ' γ'' : Type} [Carries β γ] [Carries β' γ'] [Carries β'' γ'']

def Suppresses (first : Fault) (events : List Event) : Prop :=
  ∀ e ∈ events, ∃ fault, e = .suppressed fault first

def Keeps (first : Fault) (x : Run β) : Prop :=
  ∃ b, x.outcome = .ok b ∧ Carries.slot b = some first ∧ Suppresses first x.run.events

def Agrees (x : Run β) (y : Run γ) : Prop :=
  match y.outcome with
  | .ok c => x.outcome = .ok (Carries.lift c) ∧ x.run.events = []
  | .error fault => ∃ b events, x.outcome = .ok b ∧ Carries.slot b = some fault ∧
      x.run.events = .recorded fault :: events ∧ Suppresses fault events

theorem events_bind_of_ok {α δ : Type} {x : Run α} {f : α → Run δ} {a : α}
    (h : x.outcome = .ok a) :
    (x >>= f).run.events = x.run.events ++ (f a).run.events := by
  change x.run.events ++ (ExceptT.bindCont (fun a => (f a).run) x.outcome : Traced _).events = _
  rw [h]
  rfl

theorem Keeps.pure {first : Fault} {b : β} (h : Carries.slot b = some first) :
    Keeps first (Pure.pure b : Run β) :=
  ⟨b, rfl, h, by intro e he; simp at he⟩

theorem Keeps.bind {first : Fault} {x : Run β} {f : β → Run β'} (hx : Keeps first x)
    (hf : ∀ b, Carries.slot b = some first → Keeps first (f b)) : Keeps first (x >>= f) := by
  obtain ⟨b, hvalue, hslot, hevents⟩ := hx
  obtain ⟨b', hvalue', hslot', hevents'⟩ := hf b hslot
  refine ⟨b', ?_, hslot', ?_⟩
  · rw [outcome_bind_of_ok hvalue, hvalue']
  · rw [events_bind_of_ok hvalue]
    exact List.forall_mem_append.2 ⟨hevents, hevents'⟩

theorem Agrees.pure (c : γ) : Agrees (Pure.pure (Carries.lift c) : Run β) (Pure.pure c) :=
  ⟨rfl, rfl⟩

theorem Agrees.bind {x : Run β} {y : Run γ} {f : β → Run β'} {g : γ → Run γ'} (hx : Agrees x y)
    (hfg : ∀ c, Agrees (f (Carries.lift c)) (g c))
    (hf : ∀ b first, Carries.slot b = some first → Keeps first (f b)) :
    Agrees (x >>= f) (y >>= g) := by
  unfold Agrees at hx
  split at hx
  · next c hc =>
    obtain ⟨hvalue, hevents⟩ := hx
    have h := hfg c
    unfold Agrees at h ⊢
    rw [outcome_bind_of_ok hc, outcome_bind_of_ok hvalue, events_bind_of_ok hvalue, hevents,
      List.nil_append]
    exact h
  · next fault hfault =>
    obtain ⟨b, events, hvalue, hslot, hevents, hsuppress⟩ := hx
    obtain ⟨b', hvalue', hslot', hevents'⟩ := hf b fault hslot
    unfold Agrees
    rw [outcome_bind_of_error hfault]
    refine ⟨b', events ++ (f b).run.events, ?_, hslot', ?_, ?_⟩
    · rw [outcome_bind_of_ok hvalue, hvalue']
    · rw [events_bind_of_ok hvalue, hevents, List.cons_append]
    · exact List.forall_mem_append.2 ⟨hsuppress, hevents'⟩

section Results

variable {α : Type} {x : Run (α × Collecting)} {y : Run (α × Text)} {a : α} {rest : Text}

theorem Agrees.run_of_ok (h : Agrees x y) (hy : y.outcome = .ok (a, rest)) :
    x.run = ⟨.ok (a, ⟨rest, none⟩), []⟩ := by
  unfold Agrees at h
  rw [hy] at h
  exact Traced.ext h.1 h.2

theorem Agrees.ok_of_empty_slot (h : Agrees x y) (hx : x.outcome = .ok (a, ⟨rest, none⟩)) :
    y.outcome = .ok (a, rest) := by
  unfold Agrees at h
  split at h
  · next c hc =>
    obtain ⟨b, t⟩ := c
    have heq := Except.ok.inj (h.1.symm.trans hx)
    obtain ⟨rfl, hcursor⟩ := Prod.mk.inj heq
    obtain ⟨rfl, -⟩ := Collecting.mk.inj hcursor
    exact hc
  · next fault hfault =>
    obtain ⟨b, events, hvalue, hslot, -⟩ := h
    obtain rfl := Except.ok.inj (hvalue.symm.trans hx)
    cases hslot

end Results

theorem Agrees.exists_ok_iff {α : Type} {x : Run (α × Collecting)} {y : Run (α × Text)} {a : α}
    (h : Agrees x y) :
    (∃ last, x.outcome = .ok (a, last) ∧ last.slot = none) ↔
      ∃ t, y.outcome = .ok (a, t) := by
  unfold Agrees at h
  split at h
  · next c hc =>
    obtain ⟨b, t⟩ := c
    rw [h.1, hc]
    constructor
    · rintro ⟨last, hlast, -⟩
      exact ⟨t, congrArg (fun b => Except.ok (b, t)) (Prod.mk.inj (Except.ok.inj hlast)).1⟩
    · rintro ⟨u, hu⟩
      obtain ⟨rfl, rfl⟩ := Prod.mk.inj (Except.ok.inj hu)
      exact ⟨_, rfl, rfl⟩
  · next fault hfault =>
    obtain ⟨⟨b, c⟩, events, hvalue, hslot, -⟩ := h
    rw [hvalue, hfault]
    constructor
    · rintro ⟨last, hlast, hnone⟩
      obtain ⟨rfl, rfl⟩ := Prod.mk.inj (Except.ok.inj hlast)
      change c.slot = some fault at hslot
      rw [hslot] at hnone
      cases hnone
    · rintro ⟨t, ht⟩
      cases ht

theorem Agrees.parse_eq {α : Type} {root : Collecting → Run (α × Collecting)}
    {plain : Text → Run (α × Text)} {text : Text}
    (h : Agrees (root ⟨text, none⟩) (plain text)) :
    (parse root text).value = (parse plain text).value := by
  unfold Agrees at h
  split at h
  · next c hc =>
    have hroot : (root (Policy.start text)).outcome = .ok (Carries.lift c) := h.1
    have hplain : (plain (Policy.start text)).outcome = .ok c := hc
    rw [parse_of_ok hroot, parse_of_ok hplain]
    rfl
  · next fault hfault =>
    obtain ⟨⟨a, last⟩, events, hvalue, hslot, -⟩ := h
    have hkept : Policy.fault? last = some fault := hslot
    have hroot : (root (Policy.start text)).outcome = .ok (a, last) := hvalue
    have hplain : (plain (Policy.start text)).outcome = .error fault := hfault
    rw [parse_of_ok hroot, parse_of_error hplain, hkept]

theorem Suppresses.exists_map {first : Fault} {events : List Event} (h : Suppresses first events) :
    ∃ faults : List Fault, events = faults.map (.suppressed · first) := by
  induction events with
  | nil => exact ⟨[], rfl⟩
  | cons e events ih =>
    obtain ⟨⟨fault, rfl⟩, hevents⟩ := List.forall_mem_cons.1 h
    obtain ⟨faults, rfl⟩ := ih hevents
    exact ⟨fault :: faults, rfl⟩

section ParseEvents

variable {α : Type} {root : Collecting → Run (α × Collecting)} {plain : Text → Run (α × Text)}
  {text : Text}

theorem Agrees.events_of_ok (h : Agrees (root ⟨text, none⟩) (plain text)) {a : α} {t : Text}
    (hplain : (plain text).outcome = .ok (a, t)) :
    (parse root text).events = [.accepted (text.size - t.size) text.size] := by
  unfold Agrees at h
  rw [hplain] at h
  obtain ⟨hvalue, hevents⟩ := h
  have hroot : (root (Policy.start text)).run.events = [] := hevents
  have hok : (root (Policy.start text)).outcome = .ok (a, ⟨t, none⟩) := hvalue
  rw [events_parse_of_ok hok, hroot]
  rfl

theorem Agrees.events_of_error (h : Agrees (root ⟨text, none⟩) (plain text)) {fault : Fault}
    (hplain : (plain text).outcome = .error fault) :
    ∃ later : List Fault, (parse root text).events =
      .recorded fault :: later.map (.suppressed · fault) ++ [.rejected fault text.size] := by
  unfold Agrees at h
  rw [hplain] at h
  obtain ⟨⟨a, last⟩, events, hvalue, hslot, hevents, hsuppress⟩ := h
  obtain ⟨later, rfl⟩ := hsuppress.exists_map
  have hroot : (root (Policy.start text)).run.events =
      .recorded fault :: later.map (.suppressed · fault) := hevents
  have hok : (root (Policy.start text)).outcome = .ok (a, last) := hvalue
  have hkept : Policy.fault? last = some fault := hslot
  exact ⟨later, by rw [events_parse_of_ok hok, hroot, hkept]⟩

end ParseEvents

def recordedFaults (events : List Event) : List Fault :=
  events.filterMap fun
    | .recorded fault => some fault
    | _ => none

theorem recordedFaults_cons (fault : Fault) (events : List Event) :
    recordedFaults (.recorded fault :: events) = fault :: recordedFaults events := rfl

theorem Suppresses.recordedFaults_eq_nil {first : Fault} {events : List Event}
    (h : Suppresses first events) : recordedFaults events = [] := by
  refine List.filterMap_eq_nil_iff.2 ?_
  intro e he
  obtain ⟨fault, rfl⟩ := h e he
  rfl

-- What a collecting run and a run on a bare text do alike from any cursor on.
structure Lifts (f : β → Run β') (g : γ → Run γ') : Prop where
  agrees : ∀ c, Agrees (f (Carries.lift c)) (g c)
  keeps : ∀ b first, Carries.slot b = some first → Keeps first (f b)

theorem Lifts.pure {f : β → β'} {g : γ → γ'} (hlift : ∀ c, f (Carries.lift c) = Carries.lift (g c))
    (hslot : ∀ b, Carries.slot (f b) = Carries.slot b) :
    Lifts (fun b => Pure.pure (f b)) (fun c => Pure.pure (g c)) := by
  constructor
  · intro c
    rw [hlift]
    exact Agrees.pure (g c)
  · intro b first h
    exact Keeps.pure ((hslot b).trans h)

theorem Lifts.bind {f : β → Run β'} {g : γ → Run γ'} {h : β' → Run β''} {k : γ' → Run γ''}
    (hfg : Lifts f g) (hhk : Lifts h k) : Lifts (fun b => f b >>= h) (fun c => g c >>= k) := by
  constructor
  · intro c
    exact Agrees.bind (hfg.agrees c) hhk.agrees hhk.keeps
  · intro b first hslot
    exact Keeps.bind (hfg.keeps b first hslot) fun b h => hhk.keeps b first h

theorem Lifts.exists_recorded {f : Collecting → Run β} {g : Text → Run γ} (h : Lifts f g)
    (c : Collecting) :
    ∃ b, (f c).outcome = .ok b ∧
      c.slot.toList ++ recordedFaults (f c).run.events = (Carries.slot b).toList := by
  obtain ⟨t, slot⟩ := c
  cases slot with
  | some first =>
    obtain ⟨b, hvalue, hslot, hevents⟩ := h.keeps ⟨t, some first⟩ first rfl
    refine ⟨b, hvalue, ?_⟩
    rw [hslot, hevents.recordedFaults_eq_nil]
    rfl
  | none =>
    have hagrees : Agrees (f ⟨t, none⟩) (g t) := h.agrees t
    unfold Agrees at hagrees
    split at hagrees
    · next c hc =>
      refine ⟨_, hagrees.1, ?_⟩
      rw [hagrees.2, Carries.slot_lift]
      rfl
    · next fault hfault =>
      obtain ⟨b, events, hvalue, hslot, hevents, hsuppress⟩ := hagrees
      refine ⟨b, hvalue, ?_⟩
      rw [hslot, hevents, recordedFaults_cons, hsuppress.recordedFaults_eq_nil]
      rfl

theorem Lifts.prod {α : Type} {f : α × Collecting → Run β} {g : α × Text → Run γ}
    (h : ∀ a, Lifts (fun c => f (a, c)) (fun t => g (a, t))) : Lifts f g := by
  constructor
  · rintro ⟨a, t⟩
    exact (h a).agrees t
  · rintro ⟨a, c⟩ first hslot
    exact (h a).keeps c first hslot

theorem Lifts.comp {f : β' → Run β''} {g : γ' → Run γ''} {p : β → β'} {q : γ → γ'}
    (h : Lifts f g) (hlift : ∀ c, p (Carries.lift c) = Carries.lift (q c))
    (hslot : ∀ b, Carries.slot (p b) = Carries.slot b) :
    Lifts (fun b => f (p b)) (fun c => g (q c)) := by
  constructor
  · intro c
    rw [hlift]
    exact h.agrees (q c)
  · intro b first hb
    exact h.keeps (p b) first ((hslot b).trans hb)

theorem lifts_require {holds : Collecting → Bool} {holds' : Text → Bool} (expected : String)
    (h : ∀ t, holds ⟨t, none⟩ = holds' t) :
    Lifts (fun c => require (holds c) expected c) (fun t => require (holds' t) expected t) := by
  constructor
  · intro t
    change Agrees (require (holds ⟨t, none⟩) expected (⟨t, none⟩ : Collecting)) _
    rw [h]
    cases holds' t with
    | true => exact Agrees.pure t
    | false => exact ⟨_, [], rfl, rfl, rfl, by intro e he; simp at he⟩
  · intro c first hslot
    change c.slot = some first at hslot
    cases holds c with
    | true => exact Keeps.pure hslot
    | false =>
      have hrun : require false expected c =
          Collecting.record (Fault.before c.rest expected) c := rfl
      rw [hrun, Collecting.record]
      simp only [hslot]
      refine ⟨c, rfl, hslot, ?_⟩
      intro e he
      obtain rfl := List.mem_singleton.1 he
      exact ⟨_, rfl⟩

theorem lifts_requireFlag (expected : String) :
    Lifts (fun r : Bool × Collecting => require r.1 expected r.2)
      (fun r : Bool × Text => require r.1 expected r.2) :=
  Lifts.prod fun _ => lifts_require expected fun _ => rfl

theorem slot_takeOne? (p : Char → Bool) (c : Collecting) : (takeOne? p c).2.slot = c.slot := by
  unfold takeOne?
  split
  · split <;> rfl
  · rfl

theorem takeOne?_lift (p : Char → Bool) (t : Text) :
    takeOne? p (⟨t, none⟩ : Collecting) = ((takeOne? p t).1, ⟨(takeOne? p t).2, none⟩) := by
  cases t with
  | nil => rfl
  | cons x t =>
    cases hp : p x with
    | true => simp [takeOne?, Cursor.rest, withRest, hp]
    | false => simp [takeOne?, Cursor.rest, hp]

theorem slot_skipLiteral (literal : Text) (c : Collecting) :
    (skipLiteral literal c).2.slot = c.slot := by
  unfold skipLiteral
  split <;> rfl

theorem skipLiteral_lift (literal t : Text) :
    skipLiteral literal (⟨t, none⟩ : Collecting) =
      ((skipLiteral literal t).1, ⟨(skipLiteral literal t).2, none⟩) := by
  simp only [skipLiteral, Cursor.rest]
  split <;> rfl

theorem slot_skipChar (x : Char) (c : Collecting) : (skipChar x c).2.slot = c.slot :=
  slot_takeOne? _ c

theorem skipChar_lift (x : Char) (t : Text) :
    skipChar x (⟨t, none⟩ : Collecting) = ((skipChar x t).1, ⟨(skipChar x t).2, none⟩) := by
  simp only [skipChar, takeOne?_lift]

theorem lifts_requireChar (x : Char) :
    Lifts (requireChar x : Collecting → Run Collecting) (requireChar x) :=
  (lifts_requireFlag (expectedChar x)).comp (skipChar_lift x) (slot_skipChar x)

theorem lifts_requireLiteral (literal : Text) (expected : String) :
    Lifts (requireLiteral literal expected : Collecting → Run Collecting)
      (requireLiteral literal expected) :=
  (lifts_requireFlag expected).comp (skipLiteral_lift literal) (slot_skipLiteral literal)

end TextScan

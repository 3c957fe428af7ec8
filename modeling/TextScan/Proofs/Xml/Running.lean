import TextScan.Proofs.Clocked
import TextScan.Proofs.Cursor.Scanned
import TextScan.Proofs.Xml.Agreement

namespace TextScan.Xml

open Cursor Run CharClass Clocked

section Runs

inductive Note where
  | entered (call : Call Collecting)
  | logged (e : Event)

variable {α β : Type}

def logged (x : Run α) : Clocked Fault Note α :=
  comes x.outcome (x.run.events.map .logged)

def runItem (inner : Collecting → Clocked Fault Note (Element × Collecting)) (c : Collecting) :
    Clocked Fault Note (Option (Item Element) × Collecting) :=
  if (Policy.fault? c).isSome || isAtEnd c || startsWith ['<', '/'] c then pure (none, c)
  else if nextIs (· == '<') c then do
    let (e, c) ← inner c
    pure (some (.element e), c)
  else
    let (t, c) := takeWhile (· != '<') c
    pure (some (.text t), c)

def runElementWith (clock : Nat) (inner : Collecting → Clocked Fault Note (Element × Collecting))
    (c : Collecting) : Clocked Fault Note (Element × Collecting) := do
  let ((name, closed), c) ← logged (startTag c)
  if closed then pure (.empty name, c)
  else
    let (items, c) ← many (runItem inner) clock [] c
    let c ← logged (endTag name c)
    pure (.full name items, c)

def runElement : Nat → List Collecting → Collecting → Clocked Fault Note (Element × Collecting)
  | 0, _, _ => stopped
  | clock + 1, callers, c => do
    note (.entered ⟨c, callers⟩)
    runElementWith clock (runElement clock (c :: callers)) c

end Runs

section Clocks

variable {clock clock' : Nat}
  {inner inner' : Collecting → Clocked Fault Note (Element × Collecting)}

theorem below_runItem (h : ∀ c, Below (inner c) (inner' c)) (c : Collecting) :
    Below (runItem inner c) (runItem inner' c) := by
  unfold runItem
  split
  · exact .refl _
  · split
    · exact (h c).bind fun _ => .refl _
    · exact .refl _

theorem below_runElementWith (hle : clock ≤ clock') (h : ∀ c, Below (inner c) (inner' c))
    (c : Collecting) : Below (runElementWith clock inner c) (runElementWith clock' inner' c) := by
  refine (Below.refl _).bind ?_
  rintro ⟨⟨name, closed⟩, d⟩
  cases closed with
  | true => exact .refl _
  | false => exact (below_many (below_runItem h) hle _ _).bind fun _ => .refl _

theorem below_runElement (hle : clock ≤ clock') (callers : List Collecting) (c : Collecting) :
    Below (runElement clock callers c) (runElement clock' callers c) := by
  induction clock generalizing clock' callers c with
  | zero => exact .inl rfl
  | succ clock ih =>
    obtain ⟨more, rfl⟩ := Nat.exists_eq_add_of_le hle
    rw [Nat.add_right_comm]
    have hle' : clock ≤ clock + more := Nat.le_add_right _ _
    exact (Below.refl _).bind fun _ => below_runElementWith hle' (ih hle' _) c

end Clocks

section Parts

variable {β δ : Type} {last : β → Collecting} {last' : δ → Collecting} {c d e : Collecting}
  {events more : List Event} {x : Run β}

structure Goes (c d : Collecting) (events : List Event) : Prop where
  silent : d.slot = none → events = []
  kept : ∀ first, c.slot = some first → d.slot = some first
  drops : d.rest <:+ c.rest

theorem Goes.slot_eq_none (h : Goes c d events) (hd : d.slot = none) : c.slot = none := by
  cases hc : c.slot with
  | none => rfl
  | some first => exact absurd ((h.kept first hc).symm.trans hd) (by simp)

theorem Goes.trans (h : Goes c d events) (hmore : Goes d e more) : Goes c e (events ++ more) := by
  refine ⟨?_, fun first hc => hmore.kept first (h.kept first hc), hmore.drops.trans h.drops⟩
  intro he
  rw [h.silent (hmore.slot_eq_none he), hmore.silent he]
  rfl

theorem Goes.of_scanned (h : Scanned c d) : Goes c d [] := by
  refine ⟨fun _ => rfl, ?_, h.rest_suffix⟩
  intro first hc
  exact (h.fault?_eq : d.slot = c.slot).trans hc

def GoesOn (last : β → Collecting) (c : Collecting) (x : Run β) : Prop :=
  ∃ b, x.outcome = .ok b ∧ Goes c (last b) x.run.events

theorem GoesOn.pure {b : β} (h : Scanned c (last b)) : GoesOn last c (Pure.pure b) :=
  ⟨b, rfl, .of_scanned h⟩

theorem GoesOn.bind {f : β → Run δ} (h : GoesOn last c x)
    (hf : ∀ b, GoesOn last' (last b) (f b)) : GoesOn last' c (x >>= f) := by
  obtain ⟨b, hx, hgoes⟩ := h
  obtain ⟨b', hb, hgoes'⟩ := hf b
  refine ⟨b', (outcome_bind_of_ok hx f).trans hb, ?_⟩
  rw [events_bind_of_ok hx]
  exact hgoes.trans hgoes'

theorem GoesOn.scan (hscan : Scanned c d) (h : GoesOn last d x) : GoesOn last c x := by
  obtain ⟨b, hx, hgoes⟩ := h
  exact ⟨b, hx, (Goes.of_scanned hscan).trans hgoes⟩

theorem scanned_skipBlank (c : Collecting) : Scanned c (skipBlank c) :=
  scanned_takeWhile _ c

theorem goesOn_record (fault : Fault) (c : Collecting) :
    GoesOn id c (Collecting.record fault c) := by
  obtain ⟨t, slot⟩ := c
  cases slot with
  | none => exact ⟨⟨t, some fault⟩, rfl, by simp, by simp, List.suffix_rfl⟩
  | some first => exact ⟨⟨t, some first⟩, rfl, by simp, fun _ h => h, List.suffix_rfl⟩

theorem goesOn_require (holds : Bool) (expected : String) (c : Collecting) :
    GoesOn id c (Cursor.require holds expected c) := by
  cases holds with
  | true => exact .pure (Scanned.refl c)
  | false => exact goesOn_record _ c

theorem goesOn_requireChar (x : Char) (c : Collecting) : GoesOn id c (requireChar x c) :=
  .scan (scanned_takeOne? _ c) (goesOn_require _ _ _)

theorem goesOn_name (c : Collecting) : GoesOn Prod.snd c (name c) := by
  refine .scan (scanned_skipBlank c) ((goesOn_require _ _ _).bind ?_)
  intro d
  exact .scan (scanned_takeWhile _ d) (.pure (scanned_skipBlank _))

theorem goesOn_tagEnd (name : Text) (r : Bool × Collecting) :
    GoesOn Prod.snd r.2 (tagEnd name r) := by
  obtain ⟨closed, c⟩ := r
  cases closed with
  | true => exact .pure (scanned_skipBlank c)
  | false => exact (goesOn_requireChar '>' c).bind fun d => .pure (scanned_skipBlank d)

theorem goesOn_behindMark (c : Collecting) :
    GoesOn Prod.snd c (name c >>= fun r => tagEnd r.1 (skipLiteral ['/', '>'] r.2)) := by
  refine (goesOn_name c).bind ?_
  intro r
  exact .scan (scanned_skipLiteral _ r.2) (goesOn_tagEnd r.1 _)

theorem goesOn_startTag (c : Collecting) : GoesOn Prod.snd c (startTag c) := by
  rw [startTag_eq]
  exact (goesOn_requireChar '<' c).bind goesOn_behindMark

theorem goesOn_endTag (expected : Text) (c : Collecting) : GoesOn id c (endTag expected c) := by
  refine .scan (scanned_skipLiteral _ c) ((goesOn_require _ _ _).bind ?_)
  intro d
  refine (goesOn_name d).bind ?_
  rintro ⟨found, e⟩
  refine (goesOn_require _ _ _).bind ?_
  intro f
  exact (goesOn_requireChar '>' f).bind fun g => .pure (scanned_skipBlank g)

theorem startTag_of_mark {t : Text} (h : c.rest = '<' :: t) :
    GoesOn Prod.snd { c with rest := t } (startTag c) := by
  obtain ⟨rest, slot⟩ := c
  obtain rfl : rest = '<' :: t := h
  rw [startTag_eq]
  exact goesOn_behindMark _

theorem slot_of_startTag {tag : Text × Bool} (h : nextIs (· == '<') c = false)
    (htag : (startTag c).outcome = .ok (tag, d)) : d.slot ≠ none := by
  rw [startTag_eq] at htag
  obtain ⟨e, hrequire, hbehind⟩ := outcome_bind_eq_ok_iff.1 htag
  have hskip : requireChar '<' c =
      Collecting.record (Fault.before c.rest (expectedChar '<')) c := by
    rw [requireChar, skipChar_of_not_nextIs h]
    rfl
  rw [hskip, Collecting.outcome_record] at hrequire
  obtain rfl := Except.ok.inj hrequire
  obtain ⟨b, hb, hgoes⟩ := goesOn_behindMark
    { c with slot := c.slot.or (some (Fault.before c.rest (expectedChar '<'))) }
  obtain rfl := Except.ok.inj (hb.symm.trans hbehind)
  intro hd
  have hnone : c.slot.or (some (Fault.before c.rest (expectedChar '<'))) = none :=
    hgoes.slot_eq_none hd
  simp at hnone

end Parts

end TextScan.Xml

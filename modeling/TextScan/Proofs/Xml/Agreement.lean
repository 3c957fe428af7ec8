import TextScan.Proofs.Cursor.Agreement
import TextScan.Xml.Reader

namespace TextScan.Xml

open Cursor

section Parts

variable {σ : Type} [Policy σ]

def tagEnd (name : Text) : Bool × σ → Run ((Text × Bool) × σ)
  | (true, c) => pure ((name, true), skipBlank c)
  | (false, c) => do
    let c ← requireChar '>' c
    pure ((name, false), skipBlank c)

theorem startTag_eq (c : σ) : startTag c = (do
    let c ← requireChar '<' c
    let r ← name c
    tagEnd r.1 (skipLiteral ['/', '>'] r.2)) := by
  rw [startTag]
  congr 1
  funext c
  congr 1
  funext r
  obtain ⟨name, c⟩ := r
  simp only
  rcases skipLiteral ['/', '>'] c with ⟨closed, c⟩
  cases closed with
  | true => simp only [tagEnd, if_true, pure_bind]
  | false => rfl

theorem collect_item (inner : σ → Run (Element × σ)) (limit : Nat) (c : σ) :
    Repetition.collect (item inner) (limit + 1) c =
      if (Policy.fault? c).isSome || isAtEnd c || startsWith ['<', '/'] c then pure ([], c)
      else if nextIs (· == '<') c then do
        let r ← inner c
        let q ← Repetition.collect (item inner) limit r.2
        pure (.element r.1 :: q.1, q.2)
      else (do
        let q ← Repetition.collect (item inner) limit (takeWhile (· != '<') c).2
        pure (.text (takeWhile (· != '<') c).1 :: q.1, q.2)) := by
  rw [Repetition.collect, item]
  split
  · rw [pure_bind]
  · split
    · rw [bind_assoc]
      congr 1
    · rw [pure_bind]

end Parts

theorem lifts_skipBlank {β γ : Type} [Carries β γ] {f : Collecting → Run β} {g : Text → Run γ}
    (h : Lifts f g) : Lifts (fun c => f (skipBlank c)) (fun t => g (skipBlank t)) :=
  h.comp (fun _ => rfl) fun _ => rfl

theorem lifts_result {α : Type} (a : α) :
    Lifts (fun c : Collecting => pure (a, c)) (fun t : Text => pure (a, t)) :=
  Lifts.pure (fun _ => rfl) fun _ => rfl

theorem lifts_name : Lifts (name : Collecting → Run (Text × Collecting)) name := by
  refine lifts_skipBlank (Lifts.bind (lifts_require _ fun _ => rfl) ?_)
  exact Lifts.pure (fun _ => rfl) fun _ => rfl

theorem lifts_tagEnd (name : Text) :
    Lifts (tagEnd name : Bool × Collecting → Run ((Text × Bool) × Collecting)) (tagEnd name) := by
  refine Lifts.prod fun closed => ?_
  cases closed with
  | true => exact Lifts.pure (fun _ => rfl) fun _ => rfl
  | false => exact Lifts.bind (lifts_requireChar '>') (lifts_skipBlank (lifts_result _))

theorem lifts_startTag :
    Lifts (startTag : Collecting → Run ((Text × Bool) × Collecting)) startTag := by
  rw [funext startTag_eq, funext startTag_eq]
  refine Lifts.bind (lifts_requireChar '<') (Lifts.bind lifts_name (Lifts.prod fun name => ?_))
  exact (lifts_tagEnd name).comp (skipLiteral_lift _) (slot_skipLiteral _)

theorem lifts_endTag (expected : Text) :
    Lifts (endTag expected : Collecting → Run Collecting) (endTag expected) := by
  refine Lifts.bind ((lifts_requireFlag _).comp (skipLiteral_lift _) (slot_skipLiteral _)) ?_
  refine Lifts.bind lifts_name (Lifts.prod fun found => ?_)
  refine Lifts.bind (lifts_require _ fun _ => rfl) (Lifts.bind (lifts_requireChar '>') ?_)
  exact Lifts.pure (fun _ => rfl) fun _ => rfl

variable {inner : Collecting → Run (Element × Collecting)} {plain : Text → Run (Element × Text)}

-- With a fault in the slot there are no more items, so the inner reader is not asked.
theorem lifts_collect (h : Lifts inner plain) (limit : Nat) :
    Lifts (Repetition.collect (item inner) limit) (Repetition.collect (item plain) limit) := by
  induction limit with
  | zero => exact lifts_result []
  | succ limit ih =>
    have hmore (a : Item Element) :
        Lifts (fun c => do
            let q ← Repetition.collect (item inner) limit c
            pure (a :: q.1, q.2))
          (fun t => do
            let q ← Repetition.collect (item plain) limit t
            pure (a :: q.1, q.2)) :=
      Lifts.bind ih (Lifts.prod fun more => lifts_result (a :: more))
    constructor
    · intro t
      change Agrees (Repetition.collect (item inner) (limit + 1) ⟨t, none⟩) _
      rw [collect_item, collect_item]
      have hguard : ((Policy.fault? (⟨t, none⟩ : Collecting)).isSome ||
          isAtEnd (⟨t, none⟩ : Collecting) || startsWith ['<', '/'] (⟨t, none⟩ : Collecting)) =
          ((Policy.fault? t).isSome || isAtEnd t || startsWith ['<', '/'] t) := rfl
      have hnext : nextIs (· == '<') (⟨t, none⟩ : Collecting) = nextIs (· == '<') t := rfl
      rw [hguard, hnext]
      split
      · exact (lifts_result []).agrees t
      · split
        · exact (Lifts.bind h (Lifts.prod fun e => hmore (.element e))).agrees t
        · exact (hmore (.text (takeWhile (· != '<') t).1)).agrees (takeWhile (· != '<') t).2
    · intro c first hslot
      have hfault : (Policy.fault? c).isSome = true := by
        change c.slot = some first at hslot
        change c.slot.isSome = true
        rw [hslot]
        rfl
      rw [collect_item, hfault]
      exact Keeps.pure hslot

theorem lifts_repeated (h : Lifts inner plain) :
    Lifts (Repetition.repeated (item inner)) (Repetition.repeated (item plain)) := by
  constructor
  · intro t
    exact (lifts_collect h (t.length + 1)).agrees t
  · intro c first hslot
    exact (lifts_collect h (c.rest.length + 1)).keeps c first hslot

theorem lifts_elementWith (h : Lifts inner plain) :
    Lifts (elementWith inner) (elementWith plain) := by
  refine Lifts.bind lifts_startTag (Lifts.prod fun tag => ?_)
  obtain ⟨name, closed⟩ := tag
  cases closed with
  | true => exact lifts_result (Element.empty name)
  | false =>
    refine Lifts.bind (lifts_repeated h) (Lifts.prod fun items => ?_)
    exact Lifts.bind (lifts_endTag name) (lifts_result (Element.full name items))

theorem lifts_elementUpTo (levels : Nat) :
    Lifts (elementUpTo levels : Collecting → Run (Element × Collecting)) (elementUpTo levels) := by
  induction levels with
  | zero => exact lifts_elementWith (lifts_result (Element.empty []))
  | succ levels ih => exact lifts_elementWith ih

theorem lifts_element : Lifts (element : Collecting → Run (Element × Collecting)) element := by
  constructor
  · intro t
    exact (lifts_elementUpTo t.length).agrees t
  · intro c first hslot
    exact (lifts_elementUpTo c.rest.length).keeps c first hslot

theorem lifts_document : Lifts (document : Collecting → Run (Element × Collecting)) document := by
  refine lifts_skipBlank (Lifts.bind lifts_element (Lifts.prod fun root => ?_))
  exact lifts_skipBlank (Lifts.bind (lifts_require _ fun _ => rfl) (lifts_result root))

end TextScan.Xml

import TextScan.Proofs.Parse
import TextScan.Proofs.Xml.Content
import TextScan.Proofs.Xml.Tags
/-!
The reader of elements takes exactly the elements of the grammar and gives what they stand for. A
reader of some levels is right about the texts shorter than that, and a start tag takes away a
character, so one more level is right about texts one character longer.
-/

namespace TextScan.Xml

open Cursor CharClass Text Run Grammar

variable {t rest : Text} {e : Element} {items : List (Item Element)} {levels limit : Nat}
  {inner : Text → Run (Element × Text)}

theorem endsContent_iff :
    ((Policy.fault? t).isSome || isAtEnd t || startsWith ['<', '/'] t) = true ↔
      EndsContent t := by
  have hfault : (Policy.fault? t).isSome = false := rfl
  rw [hfault, Bool.false_or, Bool.or_eq_true]
  refine or_congr ?_ ?_
  · exact List.isEmpty_iff
  · change List.isPrefixOf ['<', '/'] t = true ↔ _
    rw [List.isPrefixOf_iff_prefix]
    constructor
    · rintro ⟨u, rfl⟩
      exact ⟨u, rfl⟩
    · rintro ⟨u, rfl⟩
      exact ⟨u, rfl⟩

def ReadsBelow (levels : Nat) (inner : Text → Run (Element × Text)) : Prop :=
  ∀ t e rest, t.length < levels → (outcome (inner t) = .ok (e, rest) ↔ ElemAhead t e rest)

theorem length_dropWhile_lt (hne : t ≠ []) (hnext : Stops (· == '<') t) :
    (t.dropWhile (· != '<')).length < t.length := by
  cases t with
  | nil => exact absurd rfl hne
  | cons c t =>
    have hc : (c != '<') = true := by simpa using hnext.head
    rw [List.dropWhile_cons, if_pos hc]
    exact Nat.lt_succ_of_le (List.dropWhile_suffix _).length_le

theorem collect_eq_ok_iff (h : ReadsBelow levels inner) (hlevels : t.length < levels)
    (hlimit : t.length < limit) (ht : Stops isBlank t) :
    outcome (Repetition.collect (item inner) limit t) = .ok (items, rest) ↔
      ContentAhead t items rest := by
  induction limit generalizing t items with
  | zero => omega
  | succ limit ih =>
    rw [collect_item]
    split
    · next hguard =>
      rw [contentAhead_of_ends (endsContent_iff.1 hguard), outcome_pure, Except.ok.injEq,
        Prod.mk.injEq, eq_comm]
    · next hguard =>
      have hmore : ¬ EndsContent t := fun hend => hguard (endsContent_iff.2 hend)
      split
      · next hnext =>
        rw [contentAhead_of_tag hmore hnext]
        simp only [outcome_bind_eq_ok_iff]
        constructor
        · rintro ⟨⟨e, t'⟩, he, ⟨more, last⟩, hcollect, heq⟩
          obtain ⟨rfl, rfl⟩ := Prod.mk.inj (Except.ok.inj heq)
          have hahead := (h t e t' hlevels).1 he
          have hlength := hahead.length_lt
          have hitems := (ih (by omega) (by omega) hahead.1).1 hcollect
          exact ⟨e, t', more, hahead, hitems, rfl⟩
        · rintro ⟨e, t', more, hahead, hitems, rfl⟩
          have hlength := hahead.length_lt
          refine ⟨(e, t'), (h t e t' hlevels).2 hahead, (more, rest), ?_, rfl⟩
          exact (ih (by omega) (by omega) hahead.1).2 hitems
      · next hnext =>
        have hstops : Stops (· == '<') t := Bool.eq_false_iff.2 hnext
        have hlength := length_dropWhile_lt (fun hnil => hmore (.inl hnil)) hstops
        have hblank : Stops isBlank (t.dropWhile (· != '<')) :=
          stops_isBlank_of_stops stops_dropWhile
        have hcollect (more : List (Item Element)) :
            outcome (Repetition.collect (item inner) limit (t.dropWhile (· != '<'))) =
              .ok (more, rest) ↔ ContentAhead (t.dropWhile (· != '<')) more rest :=
          ih (by omega) (by omega) hblank
        rw [contentAhead_of_chars hmore hstops ht]
        simp only [outcome_bind_eq_ok_iff]
        constructor
        · rintro ⟨⟨more, last⟩, hmoreItems, heq⟩
          obtain ⟨rfl, rfl⟩ := Prod.mk.inj (Except.ok.inj heq)
          exact ⟨more, (hcollect more).1 hmoreItems, rfl⟩
        · rintro ⟨more, hmoreItems, rfl⟩
          exact ⟨(more, rest), (hcollect more).2 hmoreItems, rfl⟩

theorem readsBelow_elementWith (h : ReadsBelow levels inner) :
    ReadsBelow (levels + 1) (elementWith inner) := by
  intro t e rest hlevels
  rw [elementWith]
  simp only [outcome_bind_eq_ok_iff]
  constructor
  · rintro ⟨⟨⟨n, closed⟩, t₁⟩, htag, hread⟩
    obtain ⟨ht₁, u, hu, rfl⟩ := startTag_eq_ok_iff.1 htag
    cases closed with
    | true =>
      obtain ⟨rfl, rfl⟩ := Prod.mk.inj (Except.ok.inj hread)
      exact ⟨ht₁, u, .empty hu, rfl⟩
    | false =>
      have hlength := length_lt_of_startTag hu t₁
      simp only [Bool.false_eq_true, if_false, outcome_bind_eq_ok_iff] at hread
      obtain ⟨⟨items, t₂⟩, hitems, t₃, hend, heq⟩ := hread
      obtain ⟨rfl, rfl⟩ := Prod.mk.inj (Except.ok.inj heq)
      obtain ⟨-, v, hv, rfl⟩ :=
        (collect_eq_ok_iff h (by omega) (Nat.lt_succ_self _) ht₁).1 hitems
      obtain ⟨ht₃, w, hw, rfl⟩ := endTag_eq_ok_iff.1 hend
      refine ⟨ht₃, _, .full hu hv hw, ?_⟩
      simp only [List.append_assoc]
  · rintro ⟨hrest, u, hu, rfl⟩
    cases hu with
    | @empty t n htag =>
      exact ⟨((n, true), rest), startTag_eq_ok_iff.2 ⟨hrest, u, htag, rfl⟩, rfl⟩
    | @full u v w n items hu hv hw =>
      have hends : EndsContent (w ++ rest) := by
        cases hw with
        | parts hs hb => exact .inr ⟨_, rfl⟩
      have hlength := length_lt_of_startTag hu (v ++ (w ++ rest))
      rw [List.append_assoc, List.append_assoc] at hlevels ⊢
      refine ⟨((n, false), v ++ (w ++ rest)), ?_, ?_⟩
      · exact startTag_eq_ok_iff.2 ⟨stops_content hv hends.stops, u, hu, rfl⟩
      · simp only [Bool.false_eq_true, if_false, outcome_bind_eq_ok_iff]
        refine ⟨(items, w ++ rest), ?_, rest, ?_, rfl⟩
        · exact (collect_eq_ok_iff h (by omega) (Nat.lt_succ_self _)
            (stops_content hv hends.stops)).2 ⟨hends, v, hv, rfl⟩
        · exact endTag_eq_ok_iff.2 ⟨hrest, w, hw, rfl⟩

theorem readsBelow_elementUpTo (levels : Nat) : ReadsBelow (levels + 1) (elementUpTo levels) := by
  induction levels with
  | zero =>
    refine readsBelow_elementWith ?_
    intro t e rest hlevels
    exact absurd hlevels (Nat.not_lt_zero _)
  | succ levels ih => exact readsBelow_elementWith ih

theorem element_eq_ok_iff :
    outcome (element t) = .ok (e, rest) ↔ ElemAhead t e rest :=
  readsBelow_elementUpTo _ t e rest (Nat.lt_succ_self _)

theorem document_eq_ok_iff :
    outcome (document t) = .ok (e, rest) ↔ Document t e ∧ rest = [] := by
  rw [document]
  simp only [outcome_bind_eq_ok_iff, require, require_eq_ok_iff]
  constructor
  · rintro ⟨⟨root, t₁⟩, hroot, t₂, ⟨hend, rfl⟩, heq⟩
    obtain ⟨rfl, rfl⟩ := Prod.mk.inj (Except.ok.inj heq)
    obtain ⟨ht₁, u, hu, hskip⟩ := element_eq_ok_iff.1 hroot
    obtain ⟨b, ht, hb, -⟩ := Blank.exists_append t
    have hrest : t₁.dropWhile isBlank = [] := List.isEmpty_iff.1 hend
    obtain rfl : t₁ = [] := by rwa [ht₁.dropWhile] at hrest
    change t.dropWhile isBlank = u ++ [] at hskip
    rw [hskip, List.append_nil] at ht
    rw [ht]
    exact ⟨.spaced hb hu, rfl⟩
  · rintro ⟨hdoc, rfl⟩
    cases hdoc with
    | @spaced b u e hb hu =>
      have hskip : skipBlank (b ++ u) = u := by
        obtain ⟨c, w, rfl, -⟩ := exists_cons_of_elem hu
        exact hb.dropWhile_append (stops_cons.2 rfl)
      rw [hskip]
      refine ⟨(e, []), element_eq_ok_iff.2 ⟨stops_nil, u, hu, (List.append_nil u).symm⟩, ?_⟩
      exact ⟨[], ⟨rfl, rfl⟩, rfl⟩

theorem parse_eq_ok_iff_document : (parse t).value = .ok e ↔ Document t e := by
  rw [parse, parse_eq_ok_iff]
  refine (lifts_document.agrees t).exists_ok_iff.trans ?_
  constructor
  · rintro ⟨rest, h⟩
    exact (document_eq_ok_iff.1 h).1
  · intro h
    exact ⟨[], document_eq_ok_iff.2 ⟨h, rfl⟩⟩

theorem accepts_exactly_elements (text : Text) :
    (∀ e, (parse text).value = .ok e ↔ Document text e) ∧
      ((∃ report, (parse text).value = .error report) ↔ ∀ e, ¬ Document text e) := by
  refine ⟨fun e => parse_eq_ok_iff_document, ?_⟩
  rw [exists_error_iff]
  constructor
  · intro h e he
    exact h e (parse_eq_ok_iff_document.2 he)
  · intro h e he
    exact h e (parse_eq_ok_iff_document.1 he)

end TextScan.Xml

import TextScan.Proofs.Xml.Agreement
import TextScan.Proofs.Xml.Document

namespace TextScan.Xml

open Cursor CharClass Text Run Grammar

variable {t u b n rest : Text} {e : Element}

theorem startTag_append_blank {closed : Bool} (h : StartTag t n closed) (hb : Blank b) :
    StartTag (t ++ b) n closed := by
  cases h with
  | parts hs hb' =>
    rw [List.cons_append, List.append_assoc, List.append_assoc]
    exact .parts hs (hb'.append hb)

theorem endTag_append_blank (h : EndTag t n) (hb : Blank b) : EndTag (t ++ b) n := by
  cases h with
  | parts hs hb' =>
    rw [List.cons_append, List.cons_append, List.append_assoc, List.cons_append]
    exact .parts hs (hb'.append hb)

theorem elem_append_blank (h : Elem u e) (hb : Blank b) : Elem (u ++ b) e := by
  cases h with
  | empty htag => exact .empty (startTag_append_blank htag hb)
  | full htag hcontent hend =>
    rw [List.append_assoc, List.append_assoc]
    exact .full htag hcontent (endTag_append_blank hend hb)

theorem elemAhead_append (h : Elem u e) (s : Text) :
    ElemAhead (u ++ s) e (s.dropWhile isBlank) := by
  obtain ⟨b, hs, hb, hstops⟩ := Blank.exists_append s
  refine ⟨hstops, u ++ b, elem_append_blank h hb, ?_⟩
  rw [List.append_assoc, ← hs]

theorem element_independent_of_rest
    (h : outcome (element (⟨t, none⟩ : Collecting)) = .ok (e, ⟨rest, none⟩)) :
    ∃ u, t = u ++ rest ∧ ∀ s : Text, (element (⟨u ++ s, none⟩ : Collecting)).run =
      ⟨.ok (e, ⟨s.dropWhile isBlank, none⟩), []⟩ := by
  have hplain := (lifts_element.agrees t).ok_of_empty_slot h
  obtain ⟨-, u, hu, rfl⟩ := element_eq_ok_iff.1 hplain
  refine ⟨u, rfl, fun s => ?_⟩
  have hmore : outcome (element (u ++ s)) = .ok (e, s.dropWhile isBlank) :=
    element_eq_ok_iff.2 (elemAhead_append hu s)
  exact (lifts_element.agrees (u ++ s)).run_of_ok hmore

theorem element_independent_of_open_tag :
    outcome (element (⟨"<a>x<b/></ a >\n<c".toList, none⟩ : Collecting)) =
        .ok (.full ['a'] [.text ['x'], .element (.empty ['b'])], ⟨['<', 'c'], none⟩) ∧
      ∃ u, "<a>x<b/></ a >\n<c".toList = u ++ ['<', 'c'] ∧
        ∀ s : Text, (element (⟨u ++ s, none⟩ : Collecting)).run =
          ⟨.ok (.full ['a'] [.text ['x'], .element (.empty ['b'])],
            ⟨s.dropWhile isBlank, none⟩), []⟩ := by
  have h : outcome (element (⟨"<a>x<b/></ a >\n<c".toList, none⟩ : Collecting)) =
      .ok (.full ['a'] [.text ['x'], .element (.empty ['b'])], ⟨['<', 'c'], none⟩) :=
    ok_of_toOption (by decide +kernel)
  exact ⟨h, element_independent_of_rest h⟩

end TextScan.Xml

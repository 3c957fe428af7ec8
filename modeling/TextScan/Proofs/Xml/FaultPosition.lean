import TextScan.Proofs.Xml.BreakingOff

namespace TextScan.Xml

open Cursor CharClass Text Run Grammar

variable {t u b x rest s text : Text} {e : Element} {fault : Fault} {report : Report}

section Documents

def documentOf (t : Text) : Except Fault (Element × Text) :=
  outcome (document t)

def ending (e : Element) (rest : Text) : Except Fault (Element × Text) :=
  if rest = [] then .ok (e, []) else .error (Fault.before rest Requirement.endOfDocument.text)

theorem end_ne_endTag (n : Text) : Requirement.endOfDocument.text ≠ (Requirement.endTag n).text :=
  ne_endTag_text (by decide) n

theorem less_ne_endTag (n : Text) : expectedChar '<' ≠ (Requirement.endTag n).text :=
  ne_endTag_text (by decide) n

theorem skipBlank_mark (hb : Blank b) (x : Text) : skipBlank (b ++ '<' :: x) = '<' :: x :=
  hb.dropWhile_append (stops_cons.2 (by decide))

theorem document_of_element_error (h : outcome (element (skipBlank t)) = .error fault) :
    documentOf t = .error fault :=
  outcome_bind_of_error h _

theorem document_of_element_ok (h : outcome (element (skipBlank t)) = .ok (e, rest))
    (hrest : Stops isBlank rest) :
    documentOf t = ending e rest := by
  have hskip : skipBlank rest = rest := hrest.dropWhile
  rw [documentOf, document, outcome_bind_of_ok h]
  simp only [hskip]
  cases rest with
  | nil => rfl
  | cons c rest =>
    rw [ending, if_neg (List.cons_ne_nil c rest)]
    exact outcome_bind_of_error (require_false _ _) _

theorem document_mark_error (hb : Blank b) (h : body u = .error fault) :
    documentOf (b ++ '<' :: u) = .error fault := by
  refine document_of_element_error ?_
  rw [skipBlank_mark hb, element_mark, h]

theorem document_mark (hb : Blank b) (h : body u = .ok (e, rest)) :
    documentOf (b ++ '<' :: u) = ending e rest := by
  refine document_of_element_ok ?_ (bodyAhead h).1
  rw [skipBlank_mark hb, element_mark, h]

theorem readsWhole_document (hb : Blank b) : ReadsWhole documentOf (b ++ ['<', 'a', '/', '>']) := by
  have hname : Name ['a'] := .letter (by decide) (by simp)
  have htag : StartTag ('<' :: ([] ++ (['a'] ++ []) ++ (closing true ++ []))) ['a'] true :=
    .parts (.around Blank.nil hname Blank.nil) Blank.nil
  have helem : Elem ['<', 'a', '/', '>'] (.empty ['a']) := .empty htag
  have hbody : body ['a', '/', '>'] = .ok (.empty ['a'], []) := by
    rw [← List.append_nil ['a', '/', '>']]
    exact body_append helem stops_nil
  exact ⟨_, document_mark hb hbody⟩

theorem breaksOff_start (hb : Blank b) (hx : Stops isBlank x) (hmark : x.head? ≠ some '<')
    (hfault : fault = Fault.before x (expectedChar '<')) :
    BreaksOff noGlue (FaultSite InnermostOpen fault) documentOf (b ++ x) := by
  subst hfault
  refine .of_error (faultSite_of_ne rfl less_ne_endTag)
    ⟨_, fun _ => stops_noGlue, readsWhole_document hb⟩ ?_
  rintro c more z rfl
  have hskip : skipBlank (b ++ c :: z) = c :: z := hb.dropWhile_append (stops_cons.2 hx.head)
  have herror : outcome (element (skipBlank (b ++ c :: z))) =
      .error (Fault.before (c :: z) (expectedChar '<')) := by
    rw [hskip]
    exact element_of_noMark hmark
  exact ⟨_, document_of_element_error herror⟩

theorem breaksOff_root (hb : Blank b)
    (h : BreaksOff noGlue (FaultSite (fun q m => Innermost ('<' :: q) m) fault) body t) :
    BreaksOff noGlue (FaultSite InnermostOpen fault) documentOf (b ++ '<' :: t) := by
  have hroot : BreaksOff noGlue (FaultSite (fun q m => Innermost ('<' :: q) m) fault)
      (fun x => documentOf (b ++ '<' :: x)) t := by
    refine h.before ?_ ?_
    · rintro x ⟨e, he⟩
      refine ⟨[], stops_noGlue, e, ?_⟩
      simp only [List.append_nil, document_mark hb he, ending, if_true]
    · rintro x - ⟨e, last, hread⟩
      cases hbody : body x with
      | ok r => exact ⟨r.1, r.2, hbody⟩
      | error fault' =>
        simp only [document_mark_error hb hbody] at hread
        cases hread
  rw [List.append_cons]
  refine hroot.behind (fun _ _ _ => stops_noGlue) ?_ ?_ ?_
  · intro x _ hwhole
    rwa [← List.append_cons]
  · intro x _ hreads
    rwa [← List.append_cons] at hreads
  · rintro front part rest - hat
    refine hat.append fun q m _ hq => ?_
    rw [← List.append_cons]
    exact .spaced hb hq

theorem breaksOff_end (hb : Blank b) (h : body t = .ok (e, rest)) (hne : rest ≠ [])
    (hfault : fault = Fault.before rest Requirement.endOfDocument.text) :
    BreaksOff noGlue (FaultSite InnermostOpen fault) documentOf (b ++ '<' :: t) := by
  obtain ⟨hrest, v, hv, hsplit⟩ := bodyAhead h
  obtain ⟨c, w, rfl, -⟩ := exists_cons_of_elem hv
  obtain ⟨-, rfl⟩ := List.cons.inj hsplit
  subst hfault
  have hsame : ∀ y, b ++ '<' :: c :: w ++ y = b ++ '<' :: (c :: w ++ y) := by simp
  change BreaksOff _ _ _ (b ++ '<' :: (c :: w ++ rest))
  rw [← hsame]
  refine .of_error (faultSite_of_ne rfl end_ne_endTag) ⟨[], fun _ => stops_noGlue, e, ?_⟩ ?_
  · rw [hsame, document_mark hb (body_append hv stops_nil), ending, if_pos rfl]
  · rintro d more z rfl
    have hd : Stops isBlank (d :: z) := stops_cons.2 hrest.head
    refine ⟨Fault.before (d :: z) Requirement.endOfDocument.text, ?_⟩
    rw [hsame, document_mark hb (body_append hv hd), ending, if_neg (List.cons_ne_nil d z)]

theorem breaksOff_document (h : documentOf t = .error fault) :
    BreaksOff noGlue (FaultSite InnermostOpen fault) documentOf t := by
  obtain ⟨b, ht, hb, hx⟩ := Blank.exists_append t
  by_cases hmark : (t.dropWhile isBlank).head? = some '<'
  · obtain ⟨x, hcons⟩ := List.head?_eq_some_iff.1 hmark
    rw [hcons] at ht
    subst ht
    cases hbody : body x with
    | error fault' =>
      rw [document_mark_error hb hbody] at h
      obtain rfl := Except.error.inj h
      exact breaksOff_root hb (breaksOff_body hbody)
    | ok r =>
      rw [document_mark hb hbody, ending] at h
      split at h
      · cases h
      · next hne => exact breaksOff_end hb hbody hne (Except.error.inj h).symm
  · have herror := element_of_noMark hmark
    have hdocument : documentOf t = _ := document_of_element_error herror
    rw [hdocument] at h
    rw [ht]
    exact breaksOff_start hb hx hmark (Except.error.inj h).symm

end Documents

section Positions

def Accepted (text : Text) : Prop :=
  ∃ e, (parse text).value = .ok e

theorem accepted_iff_readsWhole : Accepted text ↔ ReadsWhole documentOf text := by
  refine exists_congr fun e => ?_
  rw [parse_eq_ok_iff_document, documentOf, document_eq_ok_iff]
  simp

theorem document_of_parse_error (h : (parse text).value = .error report) :
    documentOf text = .error report.fault := by
  rw [parse, (lifts_document.agrees text).parse_eq] at h
  exact outcome_of_parse_error h

def LeavesOpen (text n : Text) : Prop :=
  ∀ m, InnermostOpen text m ↔ m = n

theorem InnermostOpen.leavesOpen {n : Text} (h : InnermostOpen text n) : LeavesOpen text n := by
  intro m
  constructor
  · intro hm
    exact hm.unique h
  · rintro rfl
    exact h

theorem fault_at_first_error (h : (parse text).value = .error report) :
    ∃ front part rest v, text = front ++ (part ++ rest) ∧
      FaultSite LeavesOpen report.fault front part rest ∧ Viable Accepted front ∧
      v <+: part ∧ LongestViable Accepted text (front ++ v) := by
  obtain ⟨front, part, rest, v, hsplit, hsite, hv, hlongest⟩ :=
    (breaksOff_document (document_of_parse_error h)).exists_longestViable
      fun _ => accepted_iff_readsWhole
  exact ⟨front, part, rest, v, hsplit, hsite.mono fun _ _ => InnermostOpen.leavesOpen,
    hlongest.viable.of_append, hv, hlongest⟩

theorem fault_at_other_end_tag :
    (parse ['<', 'a', '>', 'x', '<', 'b', '>', '<', '/', ' ', 'b', 'c', ' ', '>']).value =
        .error ⟨⟨"Expected end tag </b>", 1⟩,
          some ['<', 'a', '>', 'x', '<', 'b', '>', '<', '/', ' ', 'b', 'c', ' ', '>'], none⟩ ∧
      ∃ front part rest v : Text,
        ['<', 'a', '>', 'x', '<', 'b', '>', '<', '/', ' ', 'b', 'c', ' ', '>'] =
          front ++ (part ++ rest) ∧
        FaultSite LeavesOpen ⟨"Expected end tag </b>", 1⟩ front part rest ∧
        Viable Accepted front ∧ v <+: part ∧
        LongestViable Accepted
          ['<', 'a', '>', 'x', '<', 'b', '>', '<', '/', ' ', 'b', 'c', ' ', '>'] (front ++ v) := by
  have h : (parse ['<', 'a', '>', 'x', '<', 'b', '>', '<', '/', ' ', 'b', 'c', ' ', '>']).value =
      .error ⟨⟨"Expected end tag </b>", 1⟩,
        some ['<', 'a', '>', 'x', '<', 'b', '>', '<', '/', ' ', 'b', 'c', ' ', '>'], none⟩ := rfl
  exact ⟨h, fault_at_first_error h⟩

end Positions

end TextScan.Xml

import TextScan.Proofs.Xml.Document
import TextScan.Xml.Written

namespace TextScan.Xml

open Grammar

variable {e : Element} {items : List (Item Element)} {t u n : Text} {closed : Bool}

namespace Element

mutual

def Canonical : Element → Prop
  | empty name => Name name
  | full name items => Name name ∧ CanonicalItems items

def CanonicalItems : List (Item Element) → Prop
  | [] => True
  | .text t :: items => Chars t ∧ NoTextAhead items ∧ CanonicalItems items
  | .element e :: items => Canonical e ∧ CanonicalItems items

end

end Element

open Element

mutual

theorem canonical_of_elem : ∀ (e : Element) (u : Text), Elem u e → Canonical e
  | empty n, u, h => by
    cases h with
    | empty htag => exact name_of_startTag htag
  | full n items, u, h => by
    cases h with
    | full htag hitems hend =>
      exact ⟨name_of_startTag htag, canonicalItems_of_content items _ hitems⟩

theorem canonicalItems_of_content : ∀ (items : List (Item Element)) (u : Text),
    Content Elem u items → CanonicalItems items
  | [], u, h => trivial
  | .text t :: items, u, h => by
    cases h with
    | text ht hahead hitems => exact ⟨ht, hahead, canonicalItems_of_content items _ hitems⟩
  | .element e :: items, u, h => by
    cases h with
    | element he hitems =>
      exact ⟨canonical_of_elem e _ he, canonicalItems_of_content items _ hitems⟩

end

theorem spaced_self (h : Name n) : Spaced n n := by
  have hs := Spaced.around Blank.nil h Blank.nil
  rwa [List.nil_append, List.append_nil] at hs

theorem startTag_self (h : Name n) (closed : Bool) :
    StartTag ('<' :: (n ++ closing closed)) n closed := by
  have htag : StartTag ('<' :: (n ++ (closing closed ++ []))) n closed :=
    .parts (spaced_self h) Blank.nil
  rwa [List.append_nil] at htag

theorem endTag_self (h : Name n) : EndTag (Element.endTag n) n :=
  .parts (spaced_self h) Blank.nil

mutual

theorem elem_write : ∀ e : Element, Canonical e → Elem e.write e
  | empty _, h => .empty (startTag_self h true)
  | full _ items, h =>
    .full (startTag_self h.1 false) (content_writeItems items h.2) (endTag_self h.1)

theorem content_writeItems : ∀ items : List (Item Element), CanonicalItems items →
    Content Elem (writeItems items) items
  | [], _ => .nil
  | .text _ :: items, h => .text h.1 h.2.1 (content_writeItems items h.2.2)
  | .element e :: items, h => .element (elem_write e h.1) (content_writeItems items h.2)

end

theorem canonical_of_document (h : Document t e) : Canonical e := by
  cases h with
  | spaced hb he => exact canonical_of_elem e _ he

theorem document_write (h : Canonical e) : Document e.write e :=
  .spaced Blank.nil (elem_write e h)

theorem reads_back_iff_canonical :
    (∀ e : Element, (parse e.write).value = .ok e ↔ e.Canonical) ∧
      ∀ text (e : Element), (parse text).value = .ok e →
        e.Canonical ∧ (parse e.write).value = .ok e := by
  refine ⟨fun e => ⟨?_, ?_⟩, ?_⟩
  · intro h
    exact canonical_of_document (parse_eq_ok_iff_document.1 h)
  · intro h
    exact parse_eq_ok_iff_document.2 (document_write h)
  · intro text e h
    have hcanonical := canonical_of_document (parse_eq_ok_iff_document.1 h)
    exact ⟨hcanonical, parse_eq_ok_iff_document.2 (document_write hcanonical)⟩

theorem reads_back_text_with_blanks :
    (parse " < a> <b/>c d </a >".toList).value =
        .ok (full ['a'] [.element (empty ['b']), .text ['c', ' ', 'd', ' ']]) ∧
      Canonical (full ['a'] [.element (empty ['b']), .text ['c', ' ', 'd', ' ']]) ∧
      (parse (full ['a'] [.element (empty ['b']), .text ['c', ' ', 'd', ' ']]).write).value =
        .ok (full ['a'] [.element (empty ['b']), .text ['c', ' ', 'd', ' ']]) := by
  have h : (parse " < a> <b/>c d </a >".toList).value =
      .ok (full ['a'] [.element (empty ['b']), .text ['c', ' ', 'd', ' ']]) :=
    ok_of_toOption (by decide +kernel)
  exact ⟨h, reads_back_iff_canonical.2 _ _ h⟩

end TextScan.Xml

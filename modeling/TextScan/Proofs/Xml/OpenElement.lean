import TextScan.Fault
import TextScan.Proofs.Xml.Content
import TextScan.Xml.Requirement

namespace TextScan.Xml

open CharClass Text Grammar

variable {t u q s n m front part rest : Text} {e : Element} {fault : Fault}
  {inside inside' : Text → Text → Prop}

-- The text is a start tag and what follows it as far as the end tag of `n` is to come next.
inductive Innermost : Text → Text → Prop
  | last {t u n : Text} {items : List (Item Element)} : StartTag t n false →
      Content Elem u items → Innermost (t ++ u) n
  | inner {t u q m n : Text} {items : List (Item Element)} : StartTag t m false →
      Content Elem u items → Innermost q n → Innermost (t ++ (u ++ q)) n

inductive InnermostOpen : Text → Text → Prop
  | spaced {b q n : Text} : Blank b → Innermost q n → InnermostOpen (b ++ q) n

inductive Inside (n : Text) : Text → Text → Prop
  | here {u : Text} {items : List (Item Element)} : Content Elem u items → Inside n u n
  | within {u q m : Text} {items : List (Item Element)} : Content Elem u items →
      Innermost q m → Inside n (u ++ q) m

theorem Innermost.of_inside (htag : StartTag t n false) (h : Inside n q m) :
    Innermost (t ++ q) m := by
  cases h with
  | here hu => exact .last htag hu
  | within hu hq => exact .inner htag hu hq

theorem Inside.of_innermost (h : Innermost q m) : Inside n q m :=
  .within .nil h

theorem Inside.element_append (he : Elem u e) (h : Inside n q m) : Inside n (u ++ q) m := by
  cases h with
  | here hv => exact .here (.element he hv)
  | within hv hq =>
    rw [← List.append_assoc]
    exact .within (.element he hv) hq

theorem Inside.chars_append (hs : Chars s) (hq : Stops (· != '<') q) (h : Inside n q m) :
    Inside n (s ++ q) m := by
  cases h with
  | here hv =>
    rw [← List.append_nil q] at hq
    exact .here (.text hs (noTextAhead_of_stops hv hq) hv)
  | within hv hinner =>
    rw [← List.append_assoc]
    exact .within (.text hs (noTextAhead_of_stops hv hq) hv) hinner

-- `reached`: the fault stands where the text goes wrong, a `/` of an empty tag's `/>` apart.
-- `passed`: a whole name that is not the open element's has been read before it is compared.
inductive FaultSite (inside : Text → Text → Prop) (fault : Fault) : Text → Text → Text → Prop
  | reached {front part rest : Text} : fault.remaining = (part ++ rest).size →
      part = [] ∨ part = ['/'] →
      (∀ n, fault.expected = (Requirement.endTag n).text → inside front n) →
      FaultSite inside fault front part rest
  | passed {q b other b' after n : Text} : inside q n → Blank b → Name other → other ≠ n →
      Blank b' → Stops isAlphanumeric (b' ++ after) →
      fault = Fault.before after (Requirement.endTag n).text →
      FaultSite inside fault (q ++ '<' :: '/' :: b) other (b' ++ after)

theorem FaultSite.append (h : FaultSite inside fault front part rest)
    (hinside : ∀ q n, q <+: front → inside q n → inside' (u ++ q) n) :
    FaultSite inside' fault (u ++ front) part rest := by
  cases h with
  | reached hremaining hpart hopen =>
    exact .reached hremaining hpart fun n hn => hinside front n List.prefix_rfl (hopen n hn)
  | passed hq hb hother hne hb' hstops hfault =>
    rw [← List.append_assoc]
    exact .passed (hinside _ _ (List.prefix_append _ _) hq) hb hother hne hb' hstops hfault

theorem FaultSite.mono (h : FaultSite inside fault front part rest)
    (hinside : ∀ q n, inside q n → inside' q n) : FaultSite inside' fault front part rest :=
  h.append (u := []) fun q n _ => hinside q n

theorem toList_around (opening closing : String) (n : Text) :
    (opening ++ String.ofList n ++ closing).toList = opening.toList ++ (n ++ closing.toList) := by
  rw [String.toList_append, String.toList_append, String.toList_ofList, List.append_assoc]

theorem toList_endTag_text (n : Text) :
    (Requirement.endTag n).text.toList = "Expected end tag </".toList ++ (n ++ ">".toList) :=
  toList_around _ _ n

theorem eq_of_endTag_text_eq (h : (Requirement.endTag n).text = (Requirement.endTag m).text) :
    n = m := by
  have hlists := congrArg String.toList h
  rw [toList_endTag_text, toList_endTag_text] at hlists
  exact List.append_cancel_right (List.append_cancel_left hlists)

theorem ne_endTag_text {message : String}
    (h : ¬ "Expected end tag </".toList <+: message.toList) (n : Text) :
    message ≠ (Requirement.endTag n).text := by
  rintro rfl
  refine h ?_
  rw [toList_endTag_text]
  exact List.prefix_append _ _

end TextScan.Xml

import TextScan.Proofs.Reading
import TextScan.Proofs.Xml.Levels
import TextScan.Proofs.Xml.OpenElement

namespace TextScan.Xml

open Cursor CharClass Text Run Grammar

variable {t u rest s n m : Text} {closed : Bool} {fault : Fault} {inside : Text → Text → Prop}

-- Behind the first character of a tag nothing is taken for more of what was read before.
def noGlue (_ : Char) : Bool :=
  false

theorem stops_noGlue : Stops noGlue t := by
  cases t with
  | nil => exact stops_nil
  | cons c t => exact stops_cons.2 rfl

section Names

def isNameGlue (c : Char) : Bool :=
  isBlank c || isAlphanumeric c

theorem resumes_name : Resumes isNameGlue fun t => outcome (name t) := by
  intro t n rest h
  obtain ⟨b, b', hb, hn, hb', rfl, hblank, halnum⟩ := exists_of_name h
  refine ⟨b ++ (n ++ b'), ?_, by simp only [List.append_assoc], ?_⟩
  · cases hn
    simp
  · intro x hx
    have hskip : Stops isBlank x := by
      rcases hx with hx | hx
      · rwa [Stops, hx]
      · exact hx.mono fun c hc => by rw [isNameGlue, hc, Bool.true_or]
    have hstop : Stops isAlphanumeric (b' ++ x) := by
      cases b' with
      | cons c b' => exact stops_cons.2 halnum.head
      | nil =>
        rcases hx with hx | hx
        · rwa [List.nil_append, Stops, hx]
        · exact hx.mono fun c hc => by rw [isNameGlue, hc, Bool.or_true]
    simp only [List.append_assoc]
    exact name_spaced hb hn hb' hskip hstop

theorem name_error (hb : Blank u) (hx : Stops isBlank x) (hstart : Stops isAlphabetic x) :
    outcome (name (u ++ x)) = .error (Fault.before x Requirement.name.text) := by
  have hskip : skipBlank (u ++ x) = x := hb.dropWhile_append hx
  have hnext : nextIs isAlphabetic x = false := hstart
  rw [name, hskip, require, hnext]
  exact outcome_bind_of_error (require_false _ _) _

theorem exists_of_name_error (h : outcome (name t) = .error fault) :
    ∃ b x, t = b ++ x ∧ Blank b ∧ Stops isBlank x ∧ Stops isAlphabetic x ∧
      fault = Fault.before x Requirement.name.text := by
  obtain ⟨b, ht, hb, hx⟩ := Blank.exists_append t
  cases hstart : (t.dropWhile isBlank).head?.any isAlphabetic with
  | true =>
    rw [name_eq_ok_iff.2 ⟨hstart, rfl, rfl⟩] at h
    cases h
  | false =>
    rw [ht, name_error hb hx hstart] at h
    exact ⟨b, _, ht, hb, hx, hstart, (Except.error.inj h).symm⟩

theorem name_ne_endTag (n : Text) : Requirement.name.text ≠ (Requirement.endTag n).text :=
  ne_endTag_text (by decide) n

theorem greater_ne_endTag (n : Text) : expectedChar '>' ≠ (Requirement.endTag n).text :=
  ne_endTag_text (by decide) n

theorem faultSite_of_ne {front : Text} (hfault : fault.remaining = rest.size)
    (hne : ∀ n, fault.expected ≠ (Requirement.endTag n).text) :
    FaultSite inside fault front [] rest :=
  .reached hfault (.inl rfl) fun n hn => absurd hn (hne n)

theorem breaksOff_name {α : Type} {r : Text → Except Fault (α × Text)}
    {site : Text → Text → Text → Prop} (h : outcome (name t) = .error fault)
    (hsite : ∀ u rest, Blank u → fault.remaining = rest.size →
      (∀ n, fault.expected ≠ (Requirement.endTag n).text) → site u [] rest)
    (hviable : ∀ u, Blank u → ReadsWhole r (u ++ s))
    (herror : ∀ t fault, outcome (name t) = .error fault → r t = .error fault) :
    BreaksOff noGlue site r t := by
  obtain ⟨b, x, rfl, hb, hx, hstart, rfl⟩ := exists_of_name_error h
  refine .of_error (hsite b x hb rfl name_ne_endTag) ⟨s, fun _ => stops_noGlue, hviable b hb⟩ ?_
  rintro c more z rfl
  exact ⟨_, herror _ _ (name_error hb (stops_cons.2 hx.head) (stops_cons.2 hstart.head))⟩

end Names

section Tags

theorem tag_of_name (h : outcome (name t) = .ok (n, rest)) :
    tag t = outcome (tagEnd n (skipLiteral ['/', '>'] rest)) := by
  rw [tag, h]
  rfl

theorem tag_closing (closed : Bool) (h : outcome (name t) = .ok (n, closing closed ++ rest)) :
    tag t = .ok ((n, closed), skipBlank rest) := by
  rw [tag_of_name h]
  exact tagEnd_eq_ok_iff.2 ⟨rfl, rest, rfl, rfl⟩

theorem tag_noClosing (h : outcome (name t) = .ok (n, rest)) (hslash : ¬ ['/', '>'] <+: rest)
    (hgreater : rest.head? ≠ some '>') : tag t = .error (Fault.before rest (expectedChar '>')) := by
  have hskip : skipLiteral ['/', '>'] rest = (false, rest) :=
    skipLiteral_of_ne fun u hu => hslash ⟨u, hu.symm⟩
  rw [tag_of_name h, hskip]
  exact outcome_bind_of_error (requireChar_of_head?_ne hgreater) _

theorem breaksOff_tagEnd (h : outcome (name (u ++ rest)) = .ok (n, rest))
    (hresume : ∀ x, Follows isNameGlue rest x → outcome (name (u ++ x)) = .ok (n, x))
    (hslash : ¬ ['/', '>'] <+: rest) (hgreater : rest.head? ≠ some '>')
    (hfault : fault = Fault.before rest (expectedChar '>')) :
    BreaksOff noGlue (FaultSite inside fault) tag (u ++ rest) := by
  have hend : ∀ closed, ReadsWhole tag (u ++ (closing closed ++ [])) := by
    intro closed
    have hstops : Stops isNameGlue (closing closed ++ []) :=
      stops_closing closed (by decide) (by decide) []
    exact ⟨_, tag_closing closed (hresume _ (.inr hstops))⟩
  subst hfault
  by_cases hhead : rest.head? = some '/'
  · obtain ⟨more, rfl⟩ := List.head?_eq_some_iff.1 hhead
    have hsite : FaultSite inside (Fault.before ('/' :: more) (expectedChar '>')) u ['/'] more :=
      .reached rfl (.inr rfl) fun n hn => absurd hn (greater_ne_endTag n)
    refine ⟨u, ['/'], more, rfl, hsite, ⟨_, fun _ => stops_noGlue, hend true⟩, ?_⟩
    · rintro c more' z rfl ⟨a, last, hread⟩
      have hname : outcome (name (u ++ '/' :: c :: z)) = .ok (n, '/' :: c :: z) :=
        hresume _ (.inl rfl)
      have hne : ¬ ['/', '>'] <+: '/' :: c :: z := by
        rintro ⟨w, hw⟩
        obtain ⟨rfl, -⟩ := List.cons.inj (List.cons.inj hw).2
        exact hslash ⟨more', rfl⟩
      have herror := tag_noClosing hname hne (by simp)
      change tag (u ++ '/' :: c :: z) = _ at hread
      rw [herror] at hread
      cases hread
  · refine .of_error (faultSite_of_ne rfl greater_ne_endTag)
      ⟨_, fun _ => stops_noGlue, hend false⟩ ?_
    rintro c more z rfl
    have hname : outcome (name (u ++ c :: z)) = .ok (n, c :: z) := hresume _ (.inl rfl)
    refine ⟨_, tag_noClosing hname ?_ hgreater⟩
    rintro ⟨w, hw⟩
    obtain ⟨rfl, -⟩ := List.cons.inj hw
    exact hhead rfl

theorem breaksOff_tag (h : tag t = .error fault) :
    BreaksOff noGlue (FaultSite inside fault) tag t := by
  cases hname : outcome (name t) with
  | error fault' =>
    have herror : ∀ t fault, outcome (name t) = .error fault → tag t = .error fault := by
      intro t fault hname
      rw [tag, hname]
      rfl
    rw [herror t fault' hname] at h
    obtain rfl := Except.error.inj h
    refine breaksOff_name (s := ['a', '/', '>']) hname ?_ ?_ herror
    · exact fun u rest _ hfault hne => faultSite_of_ne hfault hne
    · intro u hb
      have hletter : Name ['a'] := .letter (by decide) (by simp)
      have hread : outcome (name (u ++ (['a'] ++ ([] ++ (closing true ++ []))))) =
          .ok (['a'], closing true ++ []) :=
        name_spaced hb hletter Blank.nil (stops_cons.2 (by decide)) (stops_cons.2 (by decide))
      exact ⟨_, tag_closing true hread⟩
  | ok r =>
    obtain ⟨n, rest⟩ := r
    obtain ⟨u, -, rfl, hresume⟩ := resumes_name t n rest hname
    have hslash : ¬ ['/', '>'] <+: rest := by
      rintro ⟨w, rfl⟩
      rw [tag_closing true hname] at h
      cases h
    have hgreater : rest.head? ≠ some '>' := by
      intro hhead
      obtain ⟨w, rfl⟩ := List.head?_eq_some_iff.1 hhead
      rw [tag_closing false hname] at h
      cases h
    rw [tag_noClosing hname hslash hgreater] at h
    exact breaksOff_tagEnd hname hresume hslash hgreater (Except.error.inj h).symm

theorem exists_of_tag {closed : Bool} (h : tag t = .ok ((n, closed), rest)) :
    ∃ u, u ≠ [] ∧ t = u ++ rest ∧ StartTag ('<' :: u) n closed ∧ Stops isBlank rest ∧
      ∀ x, Stops isBlank x → tag (u ++ x) = .ok ((n, closed), x) := by
  obtain ⟨hrest, v, hv, heq⟩ := startTag_eq_ok_iff.1 ((startTag_mark t).trans h)
  obtain ⟨c, w, rfl, -⟩ := exists_cons_of_startTag hv
  obtain ⟨-, rfl⟩ := List.cons.inj heq
  refine ⟨c :: w, List.cons_ne_nil c w, rfl, hv, hrest, ?_⟩
  intro x hx
  rw [← startTag_mark]
  exact startTag_eq_ok_iff.2 ⟨hx, _, hv, rfl⟩

end Tags

section EndTags

theorem nameEnd_of_name (h : outcome (name t) = .ok (m, rest)) :
    nameEnd n t = outcome (require (m == n) (.endTag n) rest) >>= fun t =>
      outcome (requireChar '>' t) >>= fun t => .ok (m, skipBlank t) := by
  rw [nameEnd, h]
  rfl

theorem nameEnd_other (h : outcome (name t) = .ok (m, rest)) (hne : m ≠ n) :
    nameEnd n t = .error (Fault.before rest (Requirement.endTag n).text) := by
  have hfound : (m == n) = false := beq_eq_false_iff_ne.2 hne
  rw [nameEnd_of_name h, hfound, require, require_false]
  rfl

theorem nameEnd_same (h : outcome (name t) = .ok (n, rest)) :
    nameEnd n t = outcome (requireChar '>' rest) >>= fun t => .ok (n, skipBlank t) := by
  have hholds : outcome (require (n == n) (.endTag n) rest) = .ok rest :=
    require_eq_ok_iff.2 ⟨beq_self_eq_true n, rfl⟩
  rw [nameEnd_of_name h, hholds]
  rfl

theorem nameEnd_mark (h : outcome (name t) = .ok (n, '>' :: rest)) :
    nameEnd n t = .ok (n, skipBlank rest) := by
  rw [nameEnd_same h, requireChar_eq_ok_iff.2 rfl]
  rfl

theorem nameEnd_noMark (h : outcome (name t) = .ok (n, rest)) (hmark : rest.head? ≠ some '>') :
    nameEnd n t = .error (Fault.before rest (expectedChar '>')) := by
  rw [nameEnd_same h, requireChar_of_head?_ne hmark]
  rfl

theorem readsWhole_nameEnd (hn : Name n) (hb : Blank u) :
    ReadsWhole (nameEnd n) (u ++ (n ++ ['>'])) := by
  have hread : outcome (name (u ++ (n ++ ([] ++ ['>'])))) = .ok (n, ['>']) :=
    name_spaced hb hn Blank.nil (stops_cons.2 (by decide)) (stops_cons.2 (by decide))
  exact ⟨n, nameEnd_mark hread⟩

theorem breaksOff_nameEnd (hn : Name n) (hinside : inside [] n) (h : nameEnd n t = .error fault) :
    BreaksOff noGlue (fun front => FaultSite inside fault ('<' :: '/' :: front)) (nameEnd n) t := by
  cases hname : outcome (name t) with
  | error fault' =>
    have herror : ∀ t fault, outcome (name t) = .error fault → nameEnd n t = .error fault := by
      intro t fault hname
      rw [nameEnd, hname]
      rfl
    rw [herror t fault' hname] at h
    obtain rfl := Except.error.inj h
    refine breaksOff_name hname ?_ (fun u hb => readsWhole_nameEnd hn hb) herror
    exact fun u rest _ hfault hne => faultSite_of_ne hfault hne
  | ok r =>
    obtain ⟨m, rest⟩ := r
    by_cases hsame : m = n
    · subst hsame
      have hmark : rest.head? ≠ some '>' := by
        intro hhead
        obtain ⟨w, rfl⟩ := List.head?_eq_some_iff.1 hhead
        rw [nameEnd_mark hname] at h
        cases h
      obtain ⟨u, -, rfl, hresume⟩ := resumes_name t m rest hname
      rw [nameEnd_noMark hname hmark] at h
      obtain rfl := Except.error.inj h
      have hend : outcome (name (u ++ ['>'])) = .ok (m, ['>']) :=
        hresume _ (.inr (stops_cons.2 (by decide)))
      refine .of_error (faultSite_of_ne rfl greater_ne_endTag)
        ⟨['>'], fun _ => stops_noGlue, m, nameEnd_mark hend⟩ ?_
      rintro c more z rfl
      exact ⟨_, nameEnd_noMark (hresume (c :: z) (.inl rfl)) hmark⟩
    · obtain ⟨b, b', hb, hm, hb', rfl, hblank, halnum⟩ := exists_of_name hname
      rw [nameEnd_other hname hsame] at h
      refine ⟨b, m, b' ++ rest, rfl, ?_, ⟨n ++ ['>'], fun _ => stops_noGlue,
        readsWhole_nameEnd hn hb⟩, ?_⟩
      · exact .passed (q := []) hinside hb hm hsame hb' halnum (Except.error.inj h).symm
      · rintro c more z hc ⟨a, last, hread⟩
        rw [hc] at halnum
        obtain ⟨b₁, hsplit, hb₁, hstops⟩ := Blank.exists_append (c :: z)
        have halnum₁ : Stops isAlphanumeric (c :: z) := stops_cons.2 halnum.head
        rw [hsplit] at hread halnum₁
        rw [nameEnd_other (name_spaced hb hm hb₁ hstops halnum₁) hsame] at hread
        cases hread

end EndTags

end TextScan.Xml

import TextScan.Proofs.Json.ExtendedDocument

namespace TextScan.Json

open Grammar Text CharClass Repetition

variable {α : Type} {item : Text → Reading (α × Text)} {R : Text → α → Prop} {close : Char}
  {missing m : Requirement} {t u b f x y text : Text} {fault : Fault}

theorem eq_of_fail {r : Requirement} (h : (fail m t : Reading α) = .error fault)
    (hr : fault.expected = r.text) : m = r := by
  obtain rfl := Except.error.inj h
  exact Requirement.text_injective hr

def stringRequirements : List Requirement :=
  [.closeQuote, .escape, .fourHexDigits, .scalar, .lowSurrogate]

def InString (fault : Fault) : Prop :=
  ∃ r ∈ stringRequirements, fault.expected = r.text

theorem InString.mem (hin : InString fault) (h : (fail m t : Reading α) = .error fault) :
    m ∈ stringRequirements := by
  obtain ⟨r, hr, hexpected⟩ := hin
  obtain rfl := eq_of_fail h hexpected
  exact hr

section Fronts

inductive Preceding (R : Text → α → Prop) : Text → Prop
  | none : Preceding R []
  | more {b t b' u : Text} {a : α} : Blank b → R t a → Blank b' → Preceding R u →
      Preceding R (b ++ (t ++ (b' ++ ',' :: u)))

/-- What a value can start with so that the next thing in it is a string. -/
inductive BeforeString : Text → Prop
  | here : BeforeString []
  | element {u b f : Text} : Preceding Value u → Blank b → BeforeString f →
      BeforeString ('[' :: (u ++ (b ++ f)))
  | name {u b : Text} : Preceding (Member Value) u → Blank b → BeforeString ('{' :: (u ++ b))
  | memberValue {u b s name b₁ b₂ f : Text} : Preceding (Member Value) u → Blank b →
      Quote s name → Blank b₁ → Blank b₂ → BeforeString f →
      BeforeString ('{' :: (u ++ (b ++ (s ++ (b₁ ++ ':' :: (b₂ ++ f))))))

def OpensString (front : Text) : Prop :=
  ∃ b f, Blank b ∧ BeforeString f ∧ front = b ++ f

/-- The value fails where the first of its strings that cannot be read does. -/
def FailsInString (t : Text) (fault : Fault) : Prop :=
  ∃ f x, BeforeString f ∧ t = f ++ '"' :: x ∧ Quoted.body x = .error fault

theorem BeforeString.opening (h : BeforeString f) (x : Text) :
    ∃ c y, f ++ '"' :: x = c :: y ∧ IsOpening c := by
  cases h with
  | here => exact ⟨'"', _, rfl, .inr (.inr rfl)⟩
  | element => exact ⟨'[', _, rfl, .inr (.inl rfl)⟩
  | name => exact ⟨'{', _, rfl, .inl rfl⟩
  | memberValue => exact ⟨'{', _, rfl, .inl rfl⟩

theorem IsOpening.notBlank {c : Char} (h : IsOpening c) : isBlank c = false := by
  rcases h with rfl | rfl | rfl <;> decide

theorem IsOpening.ne_close {c : Char} (h : IsOpening c) (hclose : IsClose close) : c ≠ close := by
  rcases h with rfl | rfl | rfl <;> rcases hclose with rfl | rfl <;> decide

end Fronts

section Sources

theorem InString.mem_of_skipMark {mark : Char} (hin : InString fault)
    (h : skipMark mark missing t = .error fault) : missing ∈ stringRequirements := by
  unfold skipMark at h
  split at h
  · exact hin.mem h
  · split at h
    · cases h
    · exact hin.mem h

theorem exists_comma_of_error (h : afterComma item t = .error fault) :
    ∃ b y, Blank b ∧ t = b ++ ',' :: y ∧ item y = .error fault := by
  obtain ⟨b, x, rfl, hb, hx, -⟩ := exists_skipBlank t
  by_cases hcomma : x.head? = some ','
  · obtain ⟨y, rfl⟩ := List.head?_eq_some_iff.1 hcomma
    rw [afterComma_append hb] at h
    exact ⟨b, y, hb, rfl, error_of_map h⟩
  · rw [afterComma_noComma hb hx hcomma] at h
    cases h

theorem exists_preceding_of_collect (hitem : ReadsOnly item R) {limit : Nat}
    (h : collect (afterComma item) limit t = .error fault) :
    ∃ b u y, Blank b ∧ Preceding R u ∧ t = b ++ ',' :: (u ++ y) ∧ item y = .error fault := by
  induction limit generalizing t with
  | zero => cases h
  | succ limit ih =>
    rcases bind_eq_error_iff.1 h with hcomma | ⟨⟨found, rest⟩, hcomma, h⟩
    · obtain ⟨b, y, hb, rfl, hy⟩ := exists_comma_of_error hcomma
      exact ⟨b, [], y, hb, .none, rfl, hy⟩
    · cases found with
      | none => cases h
      | some a =>
        rcases bind_eq_error_iff.1 h with hmore | ⟨_, _, heq⟩
        · obtain ⟨b, v, hb, rfl, hv⟩ := comma_of_afterComma hcomma
          obtain ⟨b₁, w, hb₁, ha, rfl⟩ := hitem _ _ _ hv
          obtain ⟨b₂, u, y, hb₂, hu, rfl, hy⟩ := ih hmore
          refine ⟨b, _, y, hb, .more hb₁ ha hb₂ hu, ?_, hy⟩
          simp only [List.append_assoc, List.cons_append]
        · cases heq

theorem exists_preceding_of_sequence (hitem : ReadsOnly item R)
    (hmissing : missing ∉ stringRequirements) (hin : InString fault)
    (h : sequence close missing item t = .error fault) :
    ∃ u y, Preceding R u ∧ t = u ++ y ∧ item y = .error fault := by
  unfold sequence at h
  split at h
  · cases h
  · rcases bind_eq_error_iff.1 h with hfirst | ⟨⟨a, rest⟩, hfirst, h⟩
    · exact ⟨[], t, .none, rfl, hfirst⟩
    · rcases bind_eq_error_iff.1 h with hmore | ⟨⟨more, last⟩, -, h⟩
      · obtain ⟨b, w, hb, ha, rfl⟩ := hitem _ _ _ hfirst
        obtain ⟨b', u, y, hb', hu, rfl, hy⟩ := exists_preceding_of_collect hitem hmore
        refine ⟨_, y, .more hb ha hb' hu, ?_, hy⟩
        simp only [List.append_assoc, List.cons_append]
      · rcases bind_eq_error_iff.1 h with hclose | ⟨_, _, heq⟩
        · exact absurd (hin.mem_of_skipMark hclose) hmissing
        · cases heq

theorem exists_value_of_element (h : element value t = .error fault) :
    ∃ b y, Blank b ∧ t = b ++ y ∧ value y = .error fault := by
  obtain ⟨b, y, rfl, hb, -, hskip⟩ := exists_skipBlank t
  rw [element, hskip] at h
  exact ⟨b, y, hb, rfl, h⟩

theorem exists_value_of_colonValue (hin : InString fault) (h : colonValue t = .error fault) :
    ∃ b₁ b₂ y, Blank b₁ ∧ Blank b₂ ∧ t = b₁ ++ ':' :: (b₂ ++ y) ∧ value y = .error fault := by
  rcases bind_eq_error_iff.1 h with hcolon | ⟨rest, hcolon, helement⟩
  · exact absurd (hin.mem_of_skipMark hcolon) (by decide)
  · obtain ⟨b₁, hb₁, rfl⟩ := blank_of_skipMark hcolon
    obtain ⟨b₂, y, hb₂, rfl, hy⟩ := exists_value_of_element helement
    exact ⟨b₁, b₂, y, hb₁, hb₂, rfl, hy⟩

theorem exists_string_of_member (hin : InString fault) (h : member value t = .error fault) :
    (∃ b x, Blank b ∧ t = b ++ '"' :: x ∧ Quoted.body x = .error fault) ∨
      ∃ b s name b₁ b₂ y, Blank b ∧ Quote s name ∧ Blank b₁ ∧ Blank b₂ ∧
        t = b ++ (s ++ (b₁ ++ ':' :: (b₂ ++ y))) ∧ value y = .error fault := by
  obtain ⟨b, x, rfl, hb, hx, hskip⟩ := exists_skipBlank t
  by_cases hquote : x.head? = some '"'
  · obtain ⟨x, rfl⟩ := List.head?_eq_some_iff.1 hquote
    cases hname : Quoted.body x with
    | error fault' =>
      rw [member, hskip] at h
      simp only [bind, Except.bind, hname] at h
      obtain rfl := Except.error.inj h
      exact .inl ⟨b, x, hb, rfl, hname⟩
    | ok r =>
      obtain ⟨name, rest⟩ := r
      obtain ⟨w, hw, rfl⟩ := Quoted.spellings_of_body hname
      rw [member_append hb hw] at h
      obtain ⟨b₁, b₂, y, hb₁, hb₂, rfl, hy⟩ := exists_value_of_colonValue hin (error_of_map h)
      refine .inr ⟨b, _, name, b₁, b₂, y, hb, .marks hw, hb₁, hb₂, ?_, hy⟩
      simp only [List.append_assoc, List.cons_append, List.nil_append]
  · rw [member_fail hb hx hquote] at h
    exact absurd (hin.mem h) (by decide)

theorem InString.not_read (hin : InString fault) : Numeral.read t ≠ .error fault := by
  intro h
  unfold Numeral.read at h
  split at h
  · exact absurd (hin.mem h) (by decide)
  · split at h
    · exact absurd (hin.mem h) (by decide)
    · split at h
      · cases h
      · exact absurd (hin.mem h) (by decide)

theorem InString.opening (hin : InString fault) (h : value t = .error fault) :
    ∃ c r, t = c :: r ∧ IsOpening c := by
  by_contra hopen
  cases t with
  | nil => exact absurd (hin.mem h) (by decide)
  | cons c t =>
    rw [value_scalar fun hc => hopen ⟨c, t, rfl, hc⟩] at h
    split at h
    · cases h
    · exact hin.not_read (error_of_map h)

theorem failsInString_array (hin : InString fault)
    (hvalue : ∀ y : Text, y.length ≤ t.length → value y = .error fault → FailsInString y fault)
    (h : value ('[' :: t) = .error fault) : FailsInString ('[' :: t) fault := by
  rw [value_array] at h
  obtain ⟨u, y, hu, rfl, hy⟩ := exists_preceding_of_sequence (readsOnly_element readsValues_value)
    (by decide) hin (error_of_map h)
  obtain ⟨b, z, hb, rfl, hz⟩ := exists_value_of_element hy
  obtain ⟨f, x, hf, rfl, hx⟩ := hvalue z (by simp only [List.length_append]; omega) hz
  refine ⟨_, x, .element hu hb hf, ?_, hx⟩
  simp only [List.append_assoc, List.cons_append]

theorem failsInString_object (hin : InString fault)
    (hvalue : ∀ y : Text, y.length ≤ t.length → value y = .error fault → FailsInString y fault)
    (h : value ('{' :: t) = .error fault) : FailsInString ('{' :: t) fault := by
  rw [value_object] at h
  obtain ⟨u, y, hu, rfl, hy⟩ := exists_preceding_of_sequence (readsOnly_member readsValues_value)
    (by decide) hin (error_of_map h)
  rcases exists_string_of_member hin hy with
    ⟨b, x, hb, rfl, hx⟩ | ⟨b, s, name, b₁, b₂, z, hb, hs, hb₁, hb₂, rfl, hz⟩
  · refine ⟨_, x, .name hu hb, ?_, hx⟩
    simp only [List.append_assoc, List.cons_append]
  · have hle : z.length ≤ (u ++ (b ++ (s ++ (b₁ ++ ':' :: (b₂ ++ z))))).length := by
      simp only [List.length_append, List.length_cons]
      omega
    obtain ⟨f, x, hf, rfl, hx⟩ := hvalue z hle hz
    refine ⟨_, x, .memberValue hu hb hs hb₁ hb₂ hf, ?_, hx⟩
    simp only [List.append_assoc, List.cons_append]

theorem failsInString_of_value (hin : InString fault) (h : value t = .error fault) :
    FailsInString t fault := by
  induction hlength : t.length using Nat.strongRecOn generalizing t with
  | ind n ih =>
    subst hlength
    obtain ⟨c, r, rfl, hc⟩ := hin.opening h
    have hvalue : ∀ y : Text, y.length ≤ r.length → value y = .error fault →
        FailsInString y fault :=
      fun y hy hread => ih y.length (Nat.lt_succ_of_le hy) hread rfl
    rcases hc with rfl | rfl | rfl
    · exact failsInString_object hin hvalue h
    · exact failsInString_array hin hvalue h
    · rw [value_string] at h
      exact ⟨[], r, .here, rfl, error_of_map h⟩

end Sources

section Targets

theorem items_of_preceding (hresumes : Resumes isGlue item)
    (hread : ∀ n, ReadsUpTo n item R) (hu : Preceding R u) (h : item y = .error fault) :
    items close missing item (u ++ y) = .error fault := by
  induction hu with
  | none =>
    rw [List.nil_append, items, h]
    rfl
  | @more b t b' u a hb ha hb' _ ih =>
    have hitem : item (b ++ (t ++ (b' ++ ',' :: (u ++ y)))) = .ok (a, b' ++ ',' :: (u ++ y)) :=
      hread _ b t a _ (Nat.le_refl _) hb ha (stops_blank_append hb' (by decide))
    simp only [List.append_assoc, List.cons_append]
    rw [items, hitem]
    change (tail close missing item (b' ++ ',' :: (u ++ y))).map _ = _
    rw [tail_comma hresumes hb', ih]
    rfl

theorem exists_first_of_preceding (hopens : Opens close R) (hu : Preceding R u) (hb : Blank b)
    {c : Char} (hblank : isBlank c = false) (hne : c ≠ close) (y : Text) :
    ∃ b' d z, u ++ (b ++ c :: y) = b' ++ d :: z ∧ Blank b' ∧ isBlank d = false ∧ d ≠ close := by
  cases hu with
  | none => exact ⟨b, c, y, rfl, hb, hblank, hne⟩
  | @more b' t _ _ a hb' ha =>
    obtain ⟨d, z, rfl, hd, hdne⟩ := hopens t a ha
    simp only [List.append_assoc, List.cons_append]
    exact ⟨b', d, _, rfl, hb', hd, hdne⟩

theorem sequence_of_preceding (hclose : IsClose close) (hopens : Opens close R)
    (hresumes : Resumes isGlue item) (hskip : ∀ b x, Blank b → item (b ++ x) = item x)
    (hread : ∀ n, ReadsUpTo n item R) (hu : Preceding R u) (hb : Blank b) {c : Char}
    (hc : IsOpening c) (h : item (c :: y) = .error fault) :
    sequence close missing item (u ++ (b ++ c :: y)) = .error fault := by
  have hitems : items close missing item (u ++ (b ++ c :: y)) = .error fault := by
    refine items_of_preceding hresumes hread hu ?_
    rw [hskip b _ hb, h]
  obtain ⟨b', d, z, hsplit, hb', hd, hne⟩ :=
    exists_first_of_preceding hopens hu hb hc.notBlank (hc.ne_close hclose) y
  rw [hsplit, items, hskip b' _ hb'] at hitems
  rw [hsplit, sequence_eq_items hb' (stops_cons.2 hd) (fun hhead => hne (Option.some.inj hhead))
    (hskip b' _ hb')]
  exact hitems

theorem readsValuesUpTo_value (n : Nat) : ReadsValuesUpTo n value :=
  fun _ _ _ _ hu hends => value_append hu hends

theorem array_of_element {c : Char} (hu : Preceding Value u) (hb : Blank b) (hc : IsOpening c)
    (h : value (c :: y) = .error fault) : value ('[' :: (u ++ (b ++ c :: y))) = .error fault := by
  have helement : element value (c :: y) = .error fault := by
    rw [← List.nil_append (c :: y), element_append .nil (stops_cons.2 hc.notBlank), h]
  rw [value_array, sequence_of_preceding (.inl rfl) (opens_value (.inl rfl)) resumes_element
    (fun _ _ => element_blank_append) (fun n => readsUpTo_element (readsValuesUpTo_value n)) hu hb
    hc helement]
  rfl

theorem object_of_member (hu : Preceding (Member Value) u) (hb : Blank b)
    (h : member value ('"' :: y) = .error fault) :
    value ('{' :: (u ++ (b ++ '"' :: y))) = .error fault := by
  rw [value_object, sequence_of_preceding (.inr rfl) (opens_member (.inr rfl)) resumes_member
    (fun _ _ => member_blank_append) (fun n => readsUpTo_member (readsValuesUpTo_value n)) hu hb
    (.inr (.inr rfl)) h]
  rfl

theorem member_of_name (h : Quoted.body x = .error fault) :
    member value ('"' :: x) = .error fault := by
  have hskip : skipBlank ('"' :: x) = '"' :: x := skipBlank_blank_append .nil (stops_cons.2 rfl)
  rw [member, hskip]
  simp only [h, bind, Except.bind]

theorem member_of_value {s name b₁ b₂ : Text} {c : Char} (hs : Quote s name) (hb₁ : Blank b₁)
    (hb₂ : Blank b₂) (hc : IsOpening c) (h : value (c :: y) = .error fault) :
    ∃ z, s ++ (b₁ ++ ':' :: (b₂ ++ c :: y)) = '"' :: z ∧
      member value ('"' :: z) = .error fault := by
  obtain ⟨w, hw, rfl⟩ := quote_head hs
  refine ⟨w ++ '"' :: (b₁ ++ ':' :: (b₂ ++ c :: y)), ?_, ?_⟩
  · simp only [List.append_assoc, List.cons_append, List.nil_append]
  · have hcolon : colonValue (b₁ ++ ':' :: (b₂ ++ c :: y)) = .error fault := by
      rw [colonValue_append hb₁, element_append hb₂ (stops_cons.2 hc.notBlank), h]
    have hmember := member_append (t := b₁ ++ ':' :: (b₂ ++ c :: y)) .nil hw
    rw [hcolon] at hmember
    exact hmember

theorem value_of_beforeString (hf : BeforeString f) (h : Quoted.body x = .error fault) :
    value (f ++ '"' :: x) = .error fault := by
  induction hf with
  | here =>
    rw [List.nil_append, value_string, h]
    rfl
  | element hu hb hf ih =>
    obtain ⟨c, y, hsplit, hc⟩ := hf.opening x
    rw [hsplit] at ih
    simp only [List.cons_append, List.append_assoc, hsplit]
    exact array_of_element hu hb hc ih
  | name hu hb =>
    simp only [List.cons_append, List.append_assoc]
    exact object_of_member hu hb (member_of_name h)
  | memberValue hu hb hs hb₁ hb₂ hf ih =>
    obtain ⟨c, y, hsplit, hc⟩ := hf.opening x
    rw [hsplit] at ih
    obtain ⟨z, hz, hmember⟩ := member_of_value hs hb₁ hb₂ hc ih
    simp only [List.cons_append, List.append_assoc, hsplit, hz]
    exact object_of_member hu hb hmember

end Targets

section Documents

theorem value_eq_error_iff (hin : InString fault) :
    value t = .error fault ↔ FailsInString t fault := by
  constructor
  · exact failsInString_of_value hin
  · rintro ⟨f, x, hf, rfl, hx⟩
    exact value_of_beforeString hf hx

theorem exists_string_of_document (hin : InString fault) (h : document text = .error fault) :
    ∃ front x, OpensString front ∧ text = front ++ '"' :: x ∧ Quoted.body x = .error fault := by
  obtain ⟨b, y, rfl, hb, -, hskip⟩ := exists_skipBlank text
  rw [document, hskip] at h
  rcases bind_eq_error_iff.1 h with hvalue | ⟨⟨v, rest⟩, -, hend⟩
  · obtain ⟨f, x, hf, rfl, hx⟩ := (value_eq_error_iff hin).1 hvalue
    exact ⟨b ++ f, x, ⟨b, f, hb, hf, rfl⟩, by rw [List.append_assoc], hx⟩
  · simp only at hend
    split at hend
    · cases hend
    · exact absurd (hin.mem hend) (by decide)

theorem document_eq_error_iff (hin : InString fault) :
    document text = .error fault ↔
      ∃ front x, OpensString front ∧ text = front ++ '"' :: x ∧ Quoted.body x = .error fault := by
  constructor
  · exact exists_string_of_document hin
  · rintro ⟨_, x, ⟨b, f, hb, hf, rfl⟩, rfl, hx⟩
    obtain ⟨c, y, hsplit, hc⟩ := hf.opening x
    have hvalue := (value_eq_error_iff hin).2 ⟨f, x, hf, rfl, hx⟩
    rw [hsplit] at hvalue
    rw [List.append_assoc, hsplit, document, skipBlank_blank_append hb (stops_cons.2 hc.notBlank),
      hvalue]
    rfl

end Documents

end TextScan.Json

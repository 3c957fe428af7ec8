import TextScan.Proofs.Json.Quoted
import TextScan.Proofs.Json.Sequence
import TextScan.Proofs.Parse
/-!
The reader of documents takes exactly the documents of the grammar and gives what they stand for.
Soundness goes up the levels of the reader; completeness too, with the length of the text as the
number of levels that are enough.
-/

namespace TextScan.Json

open Grammar Text CharClass

variable {inner : Text → Reading (Json × Text)} {t u rest : Text} {v : Json} {n : Nat}

def ReadsValues (inner : Text → Reading (Json × Text)) : Prop :=
  ∀ t v rest, inner t = .ok (v, rest) → ∃ u, Value u v ∧ t = u ++ rest

theorem readsOnly_element (h : ReadsValues inner) : ReadsOnly (element inner) Value := by
  intro t v rest hread
  obtain ⟨b, ht, hb, -⟩ := Blank.exists_append t
  obtain ⟨u, hu, hskip⟩ := h _ _ _ hread
  refine ⟨b, u, hb, hu, ?_⟩
  rw [← hskip]
  exact ht

theorem readsOnly_member (h : ReadsValues inner) : ReadsOnly (member inner) (Member Value) := by
  intro t m rest hread
  obtain ⟨b, ht, hb, -⟩ := Blank.exists_append t
  rw [member, skipBlank] at hread
  split at hread
  · next r hr =>
    obtain ⟨⟨name, t₁⟩, hname, hread⟩ := bind_eq_ok_iff.1 hread
    obtain ⟨t₂, hcolon, hread⟩ := bind_eq_ok_iff.1 hread
    obtain ⟨⟨v, t₃⟩, hvalue, hread⟩ := bind_eq_ok_iff.1 hread
    obtain ⟨rfl, rfl⟩ := Prod.mk.inj (Except.ok.inj hread)
    obtain ⟨w, hw, rfl⟩ := Quoted.spellings_of_body hname
    obtain ⟨b₁, hb₁, rfl⟩ := blank_of_skipMark hcolon
    obtain ⟨b₂, ht₂, hb₂, -⟩ := Blank.exists_append t₂
    obtain ⟨u, hu, hskip⟩ := h _ _ _ hvalue
    change t₂.dropWhile isBlank = u ++ t₃ at hskip
    refine ⟨b, _, hb, .parts (.marks hw) hb₁ hb₂ hu, ?_⟩
    rw [ht, hr, ht₂, hskip]
    simp only [List.append_assoc, List.cons_append, List.nil_append]
  · simp [fail] at hread

theorem value_of_word? (h : word? t = some (v, rest)) : ∃ u, Value u v ∧ t = u ++ rest := by
  unfold word? at h
  split at h
  · next r hr =>
    obtain ⟨rfl, rfl⟩ := Prod.mk.inj (Option.some.inj h)
    exact ⟨nullWord, .null, dropPrefix?_eq_some_iff.1 hr⟩
  · split at h
    · next r hr =>
      obtain ⟨rfl, rfl⟩ := Prod.mk.inj (Option.some.inj h)
      exact ⟨trueWord, .true, dropPrefix?_eq_some_iff.1 hr⟩
    · obtain ⟨r, hr, heq⟩ := Option.map_eq_some_iff.1 h
      obtain ⟨rfl, rfl⟩ := Prod.mk.inj heq
      exact ⟨falseWord, .false, dropPrefix?_eq_some_iff.1 hr⟩

theorem array_of_listed {vs : List Json} (h : Listed Value t vs) :
    Value ('[' :: (t ++ [']'])) (array vs) := by
  rcases h with ⟨rfl, hb⟩ | h
  · exact .emptyArray hb
  · exact .array h

theorem object_of_listed {ms : List (Text × Json)} (h : Listed (Member Value) t ms) :
    Value ('{' :: (t ++ ['}'])) (object ms) := by
  rcases h with ⟨rfl, hb⟩ | h
  · exact .emptyObject hb
  · exact .object h

theorem readsValues_valueWith (h : ReadsValues inner) : ReadsValues (valueWith inner) := by
  intro t v rest hread
  unfold valueWith at hread
  split at hread
  · obtain ⟨⟨ms, last⟩, hms, heq⟩ := map_eq_ok_iff.1 hread
    obtain ⟨rfl, rfl⟩ := Prod.mk.inj heq
    obtain ⟨u, rfl, hu⟩ := listed_of_sequence (readsOnly_member h) hms
    refine ⟨_, object_of_listed hu, ?_⟩
    simp only [List.append_assoc, List.cons_append, List.nil_append]
  · obtain ⟨⟨vs, last⟩, hvs, heq⟩ := map_eq_ok_iff.1 hread
    obtain ⟨rfl, rfl⟩ := Prod.mk.inj heq
    obtain ⟨u, rfl, hu⟩ := listed_of_sequence (readsOnly_element h) hvs
    refine ⟨_, array_of_listed hu, ?_⟩
    simp only [List.append_assoc, List.cons_append, List.nil_append]
  · obtain ⟨⟨s, last⟩, hs, heq⟩ := map_eq_ok_iff.1 hread
    obtain ⟨rfl, rfl⟩ := Prod.mk.inj heq
    obtain ⟨w, hw, rfl⟩ := Quoted.spellings_of_body hs
    refine ⟨_, .string (.marks hw), ?_⟩
    simp only [List.append_assoc, List.cons_append, List.nil_append]
  · split at hread
    · next hword =>
      obtain ⟨rfl, rfl⟩ := Prod.mk.inj (Except.ok.inj hread)
      exact value_of_word? hword
    · obtain ⟨⟨x, last⟩, hx, heq⟩ := map_eq_ok_iff.1 hread
      obtain ⟨rfl, rfl⟩ := Prod.mk.inj heq
      obtain ⟨run, n, rfl, hn, hfinite, rfl, -⟩ := Numeral.read_eq_ok_iff.1 hx
      exact ⟨run, .number hn hfinite, rfl⟩

theorem readsValues_valueUpTo (n : Nat) : ReadsValues (valueUpTo n) := by
  induction n with
  | zero =>
    refine readsValues_valueWith ?_
    intro t v rest h
    simp [fail] at h
  | succ n ih => exact readsValues_valueWith ih

theorem readsValues_value : ReadsValues value :=
  fun t => readsValues_valueUpTo t.length t

def Ends (v : Json) (rest : Text) : Prop :=
  ∀ x, v = number x → Stops Numeral.isNumeralChar rest

def ReadsValuesUpTo (n : Nat) (inner : Text → Reading (Json × Text)) : Prop :=
  ∀ u v rest, u.length ≤ n → Value u v → Ends v rest → inner (u ++ rest) = .ok (v, rest)

theorem quote_head {s : Text} (h : Quote t s) : ∃ w, Spellings w s ∧ t = '"' :: (w ++ ['"']) := by
  cases h with
  | marks hw => exact ⟨_, hw, rfl⟩

theorem notBlank_of_isNumeralChar {c : Char} (h : Numeral.isNumeralChar c = true) :
    isBlank c = false := by
  cases hb : isBlank c with
  | false => rfl
  | true => rw [Numeral.isNumeralChar_of_isBlank hb] at h; exact absurd h (by simp)

theorem opens_value {close : Char} (hclose : IsClose close) : Opens close Value := by
  intro u v h
  cases h with
  | null => exact ⟨'n', _, rfl, by decide, by rcases hclose with rfl | rfl <;> decide⟩
  | true => exact ⟨'t', _, rfl, by decide, by rcases hclose with rfl | rfl <;> decide⟩
  | false => exact ⟨'f', _, rfl, by decide, by rcases hclose with rfl | rfl <;> decide⟩
  | number hn =>
    obtain ⟨c, w, rfl, hc⟩ := Numeral.exists_cons_of_number hn
    refine ⟨c, w, rfl, notBlank_of_isNumeralChar hc, ?_⟩
    rintro rfl
    rw [hclose.notNumeral] at hc
    exact absurd hc (by simp)
  | string hs =>
    obtain ⟨w, -, rfl⟩ := quote_head hs
    exact ⟨'"', _, rfl, by decide, by rcases hclose with rfl | rfl <;> decide⟩
  | emptyArray => exact ⟨'[', _, rfl, by decide, by rcases hclose with rfl | rfl <;> decide⟩
  | array => exact ⟨'[', _, rfl, by decide, by rcases hclose with rfl | rfl <;> decide⟩
  | emptyObject => exact ⟨'{', _, rfl, by decide, by rcases hclose with rfl | rfl <;> decide⟩
  | object => exact ⟨'{', _, rfl, by decide, by rcases hclose with rfl | rfl <;> decide⟩

theorem skipBlank_append {b : Text} (hb : Blank b) (h : Value u v) :
    skipBlank (b ++ (u ++ rest)) = u ++ rest := by
  obtain ⟨c, w, rfl, hc, -⟩ := opens_value (.inl rfl) u v h
  exact hb.dropWhile_append (stops_cons.2 hc)

theorem opens_member {close : Char} (hclose : IsClose close) : Opens close (Member Value) := by
  intro u m h
  cases h with
  | parts hs =>
    obtain ⟨w, -, rfl⟩ := quote_head hs
    exact ⟨'"', _, rfl, by decide, by rcases hclose with rfl | rfl <;> decide⟩

theorem readsUpTo_element (h : ReadsValuesUpTo n inner) : ReadsUpTo n (element inner) Value := by
  intro b u v rest hn hb hu hrest
  rw [element, skipBlank_append hb hu]
  exact h u v rest hn hu fun _ _ => hrest

theorem readsUpTo_member (h : ReadsValuesUpTo n inner) :
    ReadsUpTo n (member inner) (Member Value) := by
  intro b u m rest hn hb hu hrest
  cases hu with
  | @parts s b₁ b₂ u name v hs hb₁ hb₂ hu =>
    obtain ⟨w, hw, rfl⟩ := quote_head hs
    have hskip : skipBlank (b ++ ('"' :: (w ++ ['"']) ++ (b₁ ++ ':' :: (b₂ ++ u)) ++ rest)) =
        '"' :: (w ++ '"' :: (b₁ ++ ':' :: (b₂ ++ (u ++ rest)))) := by
      simp only [List.append_assoc, List.cons_append, List.nil_append]
      exact hb.dropWhile_append (stops_cons.2 (by decide))
    have hname : Quoted.body (w ++ '"' :: (b₁ ++ ':' :: (b₂ ++ (u ++ rest)))) =
        .ok (name, b₁ ++ ':' :: (b₂ ++ (u ++ rest))) := Quoted.body_append hw
    have hcolon : skipMark ':' .colon (b₁ ++ ':' :: (b₂ ++ (u ++ rest))) =
        .ok (b₂ ++ (u ++ rest)) := skipMark_append hb₁ (by decide)
    have hvalue : inner (skipBlank (b₂ ++ (u ++ rest))) = .ok (v, rest) := by
      rw [skipBlank_append hb₂ hu]
      refine h u v rest ?_ hu fun _ _ => hrest
      simp only [List.length_append, List.length_cons] at hn
      omega
    rw [member, hskip]
    simp only [hname, hcolon, hvalue, bind, Except.bind]

theorem valueWith_word {c : Char} (h₁ : c ≠ '{') (h₂ : c ≠ '[') (h₃ : c ≠ '"') :
    valueWith inner (c :: t) = match word? (c :: t) with
      | some (v, rest) => .ok (v, rest)
      | none => (Numeral.read (c :: t)).map fun (x, rest) => (number x, rest) := by
  unfold valueWith
  split
  · next heq => exact absurd (List.cons.inj heq).1 h₁
  · next heq => exact absurd (List.cons.inj heq).1 h₂
  · next heq => exact absurd (List.cons.inj heq).1 h₃
  · rfl

theorem word?_eq_none {c : Char} (h : Numeral.isNumeralChar c = true) : word? (c :: t) = none := by
  have hn : 'n' ≠ c := by rintro rfl; exact absurd h (by decide)
  have ht : 't' ≠ c := by rintro rfl; exact absurd h (by decide)
  have hf : 'f' ≠ c := by rintro rfl; exact absurd h (by decide)
  simp only [word?, nullWord, trueWord, falseWord, dropPrefix?, if_neg hn, if_neg ht, if_neg hf,
    Option.map_none]

theorem valueWith_number {m : Numeral} (h : Number u m) (hfinite : m.toBinary.isFinite = true)
    (hrest : Stops Numeral.isNumeralChar rest) :
    valueWith inner (u ++ rest) = .ok (number m.toBinary, rest) := by
  have hread : Numeral.read (u ++ rest) = .ok (m.toBinary, rest) :=
    Numeral.read_eq_ok_iff.2 ⟨u, m, rfl, h, hfinite, rfl, hrest⟩
  obtain ⟨c, w, rfl, hc⟩ := Numeral.exists_cons_of_number h
  rw [List.cons_append] at hread ⊢
  rw [valueWith_word (by rintro rfl; exact absurd hc (by decide))
    (by rintro rfl; exact absurd hc (by decide)) (by rintro rfl; exact absurd hc (by decide)),
    word?_eq_none hc, hread]
  rfl

theorem valueWith_object (h : ReadsValuesUpTo n inner) {ms : List (Text × Json)}
    (hu : Listed (Member Value) u ms) (hn : u.length ≤ n) :
    valueWith inner ('{' :: (u ++ ['}']) ++ rest) = .ok (object ms, rest) := by
  rw [List.cons_append, List.append_assoc, valueWith]
  simp only [List.cons_append, List.nil_append,
    sequence_of_listed (.inr rfl) (opens_member (.inr rfl)) (readsUpTo_member h) hu hn]
  rfl

theorem valueWith_array (h : ReadsValuesUpTo n inner) {vs : List Json} (hu : Listed Value u vs)
    (hn : u.length ≤ n) : valueWith inner ('[' :: (u ++ [']']) ++ rest) = .ok (array vs, rest) := by
  rw [List.cons_append, List.append_assoc, valueWith]
  simp only [List.cons_append, List.nil_append,
    sequence_of_listed (.inl rfl) (opens_value (.inl rfl)) (readsUpTo_element h) hu hn]
  rfl

theorem valueWith_string {s : Text} (h : Quote u s) :
    valueWith inner (u ++ rest) = .ok (string s, rest) := by
  obtain ⟨w, hw, rfl⟩ := quote_head h
  rw [List.cons_append, List.append_assoc, valueWith]
  simp only [List.cons_append, List.nil_append, Quoted.body_append hw]
  rfl

theorem readsValuesUpTo_valueWith (h : ReadsValuesUpTo n inner) :
    ReadsValuesUpTo (n + 1) (valueWith inner) := by
  intro u v rest hn hu hends
  cases hu with
  | null => rfl
  | true => rfl
  | false => rfl
  | number hm hfinite => exact valueWith_number hm hfinite (hends _ rfl)
  | string hs => exact valueWith_string hs
  | emptyArray hb =>
    simp only [List.length_append, List.length_cons] at hn
    exact valueWith_array h (.inl ⟨rfl, hb⟩) (by omega)
  | array hvs =>
    simp only [List.length_append, List.length_cons] at hn
    exact valueWith_array h (.inr hvs) (by omega)
  | emptyObject hb =>
    simp only [List.length_append, List.length_cons] at hn
    exact valueWith_object h (.inl ⟨rfl, hb⟩) (by omega)
  | object hms =>
    simp only [List.length_append, List.length_cons] at hn
    exact valueWith_object h (.inr hms) (by omega)

theorem readsValuesUpTo_valueUpTo (n : Nat) : ReadsValuesUpTo (n + 1) (valueUpTo n) := by
  induction n with
  | zero =>
    refine readsValuesUpTo_valueWith ?_
    intro u v rest hn hu
    obtain ⟨c, w, rfl, -⟩ := opens_value (.inl rfl) u v hu
    simp at hn
  | succ n ih => exact readsValuesUpTo_valueWith ih

theorem value_append (hu : Value u v) (hends : Ends v rest) :
    value (u ++ rest) = .ok (v, rest) := by
  refine readsValuesUpTo_valueUpTo _ u v rest ?_ hu hends
  rw [List.length_append]
  omega

theorem document_eq_ok_iff : document t = .ok (v, rest) ↔ Document t v ∧ rest = [] := by
  constructor
  · intro h
    obtain ⟨⟨w, last⟩, hvalue, hend⟩ := bind_eq_ok_iff.1 h
    simp only at hend
    split at hend
    · next hlast =>
      obtain ⟨rfl, rfl⟩ := Prod.mk.inj (Except.ok.inj hend)
      obtain ⟨b, ht, hb, -⟩ := Blank.exists_append t
      obtain ⟨u, hu, hskip⟩ := readsValues_value _ _ _ hvalue
      change t.dropWhile isBlank = u ++ last at hskip
      rw [hskip] at ht
      rw [ht]
      exact ⟨.spaced hb hu (Blank.of_dropWhile hlast), rfl⟩
    · simp [fail] at hend
  · rintro ⟨h, rfl⟩
    cases h with
    | @spaced b u b' v hb hu hb' =>
      have hends : Ends v b' := fun _ _ => hb'.stops fun _ => Numeral.isNumeralChar_of_isBlank
      have hend : skipBlank b' = [] := hb'.dropWhile
      rw [document, skipBlank_append hb hu, value_append hu hends]
      simp only [bind, Except.bind, hend]

theorem parse_eq_ok_iff_document : (parse t).value = .ok v ↔ Document t v := by
  rw [parse, parse_eq_ok_iff]
  constructor
  · rintro ⟨last, h, -⟩
    exact (document_eq_ok_iff.1 h).1
  · intro h
    exact ⟨[], document_eq_ok_iff.2 ⟨h, rfl⟩, rfl⟩

theorem accepts_exactly_documents (text : Text) :
    (∀ v, (parse text).value = .ok v ↔ Document text v) ∧
      ((∃ report, (parse text).value = .error report) ↔ ∀ v, ¬ Document text v) := by
  refine ⟨fun v => parse_eq_ok_iff_document, ?_⟩
  rw [exists_error_iff]
  constructor
  · intro h v hv
    exact h v (parse_eq_ok_iff_document.2 hv)
  · intro h v hv
    exact h v (parse_eq_ok_iff_document.1 hv)

end TextScan.Json

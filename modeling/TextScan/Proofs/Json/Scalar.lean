import TextScan.Proofs.Json.Continuation

namespace TextScan.Json

open Grammar Text CharClass

variable {t x : Text} {fault : Fault}

def words : List Text :=
  [nullWord, trueWord, falseWord]

def IsOpening (c : Char) : Prop :=
  c = '{' ∨ c = '[' ∨ c = '"'

theorem eq_of_head?_eq :
    ∀ w ∈ words, ∀ w' ∈ words, w.head? = w'.head? → w = w' := by
  decide

theorem value_head {c : Char} {w : Text} {v : Json} (h : Value (c :: w) v) :
    IsOpening c ∨ Numeral.isNumeralChar c = true ∨ c :: w ∈ words := by
  generalize hu : c :: w = u at h
  cases h with
  | null => exact .inr (.inr (by decide))
  | true => exact .inr (.inr (by decide))
  | false => exact .inr (.inr (by decide))
  | number hn =>
    obtain ⟨d, y, rfl, hd⟩ := Numeral.exists_cons_of_number hn
    obtain ⟨rfl, -⟩ := List.cons.inj hu
    exact .inr (.inl hd)
  | string hs =>
    obtain ⟨y, -, rfl⟩ := quote_head hs
    exact .inl (.inr (.inr (List.cons.inj hu).1))
  | emptyArray => exact .inl (.inr (.inl (List.cons.inj hu).1))
  | array => exact .inl (.inr (.inl (List.cons.inj hu).1))
  | emptyObject => exact .inl (.inl (List.cons.inj hu).1)
  | object => exact .inl (.inl (List.cons.inj hu).1)

theorem head_of_reads {c : Char} (h : Reads value (c :: x)) :
    IsOpening c ∨ Numeral.isNumeralChar c = true ∨ ∃ w ∈ words, w <+: c :: x := by
  obtain ⟨v, rest, hread⟩ := h
  obtain ⟨u, hu, hsplit⟩ := readsValues_value _ v rest hread
  obtain ⟨d, w, rfl, -⟩ := opens_value (.inl rfl) u v hu
  obtain ⟨rfl, rfl⟩ := List.cons.inj hsplit
  rcases value_head hu with hopen | hnumeral | hword
  · exact .inl hopen
  · exact .inr (.inl hnumeral)
  · exact .inr (.inr ⟨c :: w, hword, rest, rfl⟩)

theorem remaining_of_read (h : Numeral.read t = .error fault) : fault.remaining = t.size := by
  unfold Numeral.read at h
  split at h
  · obtain rfl := Except.error.inj h
    rfl
  · split at h
    · obtain rfl := Except.error.inj h
      rfl
    · split at h
      · cases h
      · obtain rfl := Except.error.inj h
        rfl

theorem value_scalar {c : Char} (hc : ¬ IsOpening c) :
    value (c :: t) = match word? (c :: t) with
      | some (v, rest) => .ok (v, rest)
      | none => (Numeral.read (c :: t)).map fun (x, rest) => (number x, rest) := by
  rw [value_eq_valueWith]
  exact valueWith_word (fun h => hc (.inl h)) (fun h => hc (.inr (.inl h)))
    (fun h => hc (.inr (.inr h)))

theorem remaining_of_scalar (hopen : ∀ c r, t = c :: r → ¬ IsOpening c)
    (h : value t = .error fault) : fault.remaining = t.size := by
  cases t with
  | nil =>
    obtain rfl := Except.error.inj h
    rfl
  | cons c t =>
    rw [value_scalar (hopen c t rfl)] at h
    split at h
    · cases h
    · exact remaining_of_read (error_of_map h)

theorem limit_of_number {c : Char} (hc : Numeral.isNumeralChar c = true)
    (h : value (c :: t) = .error fault) :
    ∃ part rest, c :: t = part ++ rest ∧ Unfinished [] part ∧
      ∀ d more z, rest = d :: more → ¬ Reads value (part ++ d :: z) := by
  have hopen : ¬ IsOpening c := by
    rintro (rfl | rfl | rfl) <;> exact absurd hc (by decide)
  obtain ⟨run, rest, hsplit, hrun, hrest, htake, -⟩ :=
    exists_split_at_stop Numeral.isNumeralChar (c :: t)
  rw [List.takeWhile_cons_of_pos hc] at htake
  obtain ⟨run, rfl⟩ : ∃ r, run = c :: r := ⟨_, htake.symm⟩
  refine ⟨c :: run, rest, hsplit, .number hrun, ?_⟩
  rintro d more z rfl ⟨v, last, hread⟩
  obtain ⟨-, rfl⟩ := List.cons.inj hsplit
  rw [List.cons_append, value_scalar hopen, word?_eq_none hc] at hread
  rw [value_scalar hopen, word?_eq_none hc] at h
  obtain ⟨⟨x, behind⟩, hnumber, -⟩ := map_eq_ok_iff.1 hread
  obtain ⟨w, n, heq, hn, hfinite, -, hstops⟩ := Numeral.read_eq_ok_iff.1 hnumber
  -- Both runs end where the characters of numbers do, so they are one run.
  have hsame : w = c :: run := by
    have hw := takeWhile_append_stops (Numeral.isRun_number hn) hstops
    have hz : Stops Numeral.isNumeralChar (d :: z) := stops_cons.2 hrest.head
    rw [← heq, ← List.cons_append, takeWhile_append_stops hrun hz] at hw
    exact hw.symm
  subst hsame
  have hok : Numeral.read (c :: run ++ d :: more) = .ok (n.toBinary, d :: more) :=
    Numeral.read_eq_ok_iff.2 ⟨c :: run, n, rfl, hn, hfinite, rfl, hrest⟩
  have herror : Numeral.read (c :: run ++ d :: more) = .error fault := error_of_map h
  rw [hok] at herror
  cases herror

theorem word?_ne_none {w : Text} (hw : w ∈ words) (h : w <+: t) : word? t ≠ none := by
  intro hnone
  unfold word? at hnone
  split at hnone
  · cases hnone
  · next hnull =>
    split at hnone
    · cases hnone
    · next htrue =>
      have hfalse := Option.map_eq_none_iff.1 hnone
      rw [dropPrefix?_eq_none_iff] at hnull htrue hfalse
      simp only [words, List.mem_cons, List.not_mem_nil, or_false] at hw
      rcases hw with rfl | rfl | rfl
      · exact hnull h
      · exact htrue h
      · exact hfalse h

theorem notOpening_of_word {c : Char} {w : Text} (hw : w ∈ words) (hc : w.head? = some c) :
    ¬ IsOpening c ∧ Numeral.isNumeralChar c = false := by
  simp only [words, List.mem_cons, List.not_mem_nil, or_false] at hw
  rcases hw with rfl | rfl | rfl
  all_goals
    obtain rfl := Option.some.inj hc
    exact ⟨by rintro (h | h | h) <;> exact absurd h (by decide), by decide⟩

theorem head?_of_word {w : Text} (hw : w ∈ words) (h : w <+: t) : w.head? = t.head? := by
  obtain ⟨x, rfl⟩ := h
  simp only [words, List.mem_cons, List.not_mem_nil, or_false] at hw
  rcases hw with rfl | rfl | rfl <;> rfl

theorem limit_of_word {c : Char} {w : Text} (hw : w ∈ words) (hc : w.head? = some c)
    (h : value (c :: t) = .error fault) :
    ∃ part rest, c :: t = part ++ rest ∧ Unfinished [] part ∧
      ∀ d more z, rest = d :: more → ¬ Reads value (part ++ d :: z) := by
  obtain ⟨hopen, hnumeral⟩ := notOpening_of_word hw hc
  have hnone : ¬ w <+: c :: t := by
    intro hprefix
    rw [value_scalar hopen] at h
    split at h
    · cases h
    · next hnone => exact word?_ne_none hw hprefix hnone
  obtain ⟨part, rest, hsplit, hpart, hne, hlimit⟩ := exists_common_part hnone
  refine ⟨part, rest, hsplit, .word hw hpart hne, ?_⟩
  rintro d more z rfl hreads
  have hhead : (part ++ d :: z).head? = some c := by
    cases part with
    | nil => exact congrArg List.head? hsplit.symm
    | cons e part => exact congrArg List.head? hsplit.symm
  obtain ⟨y, hy⟩ := List.head?_eq_some_iff.1 hhead
  have hstart := hreads
  rw [hy] at hstart
  rcases head_of_reads hstart with hstart | hstart | ⟨w', hw', hprefix⟩
  · exact hopen hstart
  · rw [hnumeral] at hstart
    cases hstart
  · rw [← hy] at hprefix
    have hsame : w.head? = w'.head? := by rw [head?_of_word hw' hprefix, hhead, hc]
    obtain rfl := eq_of_head?_eq w hw w' hw' hsame
    exact hlimit d more z rfl hprefix

theorem limit_of_scalar (hopen : ∀ c r, t = c :: r → ¬ IsOpening c) (h : value t = .error fault) :
    ∃ part rest, t = part ++ rest ∧ Unfinished [] part ∧
      ∀ c more z, rest = c :: more → ¬ Reads value (part ++ c :: z) := by
  cases t with
  | nil =>
    refine ⟨[], [], rfl, .nothing, ?_⟩
    intro c more z hc
    cases hc
  | cons c t =>
    cases hnumeral : Numeral.isNumeralChar c with
    | true => exact limit_of_number hnumeral h
    | false =>
      by_cases hword : ∃ w ∈ words, w.head? = some c
      · obtain ⟨w, hw, hc⟩ := hword
        exact limit_of_word hw hc h
      · refine ⟨[], c :: t, rfl, .nothing, ?_⟩
        intro d more z hd hreads
        obtain ⟨rfl, rfl⟩ := List.cons.inj hd
        rcases head_of_reads hreads with hstart | hstart | ⟨w, hw, hprefix⟩
        · exact hopen _ _ rfl hstart
        · rw [hnumeral] at hstart
          cases hstart
        · exact hword ⟨w, hw, head?_of_word hw hprefix⟩

theorem value_nullWord (t : Text) : value (nullWord ++ t) = .ok (null, t) :=
  value_append .null fun _ hv => nomatch hv

theorem breaksOff_scalar (hopen : ∀ c r, t = c :: r → ¬ IsOpening c)
    (h : value t = .error fault) : BreaksOff isGlue (InFront Unfinished fault) value t := by
  obtain ⟨part, rest, hsplit, hpart, hlimit⟩ := limit_of_scalar hopen h
  have hnull : ReadsWhole value ([] ++ nullWord) := ⟨null, value_nullWord []⟩
  refine ⟨[], part, rest, hsplit, ⟨?_, hpart⟩,
    ⟨nullWord, fun _ => stops_cons.2 (by decide), hnull⟩, hlimit⟩
  rw [← hsplit]
  exact remaining_of_scalar hopen h

end TextScan.Json

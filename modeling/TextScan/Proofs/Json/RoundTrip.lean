import TextScan.Proofs.Json.Document
import TextScan.Proofs.Json.Strict

namespace TextScan.Json

open Grammar

theorem quote_write (s : Text) : Quote (Quoted.write s) s :=
  (Strict.quote_write s).wider

theorem value_write (v : Json) : Value (write v) (norm v) :=
  (Strict.value_write v).wider

theorem document_write (v : Json) : Document (write v) (norm v) := by
  have h : Document ([] ++ (write v ++ [])) (norm v) := .spaced .nil (value_write v) .nil
  rwa [List.nil_append, List.append_nil] at h

theorem exists_of_separated {α : Type} {R : Text → α → Prop} {t : Text} {as : List α}
    (h : Separated R t as) : ∀ a ∈ as, ∃ u, R u a ∧ u.length ≤ t.length := by
  induction h with
  | @last b t b' a _ ha _ =>
    intro x hx
    obtain rfl := List.mem_singleton.1 hx
    refine ⟨t, ha, ?_⟩
    simp only [List.length_append]
    omega
  | @more b t b' w a as _ ha _ _ ih =>
    intro x hx
    simp only [List.length_append, List.length_cons]
    rcases List.mem_cons.1 hx with rfl | hx
    · exact ⟨t, ha, by omega⟩
    · obtain ⟨u, hu, hle⟩ := ih x hx
      exact ⟨u, hu, by omega⟩

theorem finite_of_value {t : Text} {v : Json} (h : Value t v) : Finite v := by
  -- A value inside another one has a shorter text.
  induction hn : t.length using Nat.strongRecOn generalizing t v with
  | ind n ih =>
    subst hn
    cases h with
    | null => exact .null
    | true => exact .bool Bool.true
    | false => exact .bool Bool.false
    | number _ hfinite => exact .number hfinite
    | string => exact .string _
    | emptyArray => exact .array (by simp)
    | array hvs =>
      refine .array fun v hv => ?_
      obtain ⟨u, hu, hle⟩ := exists_of_separated hvs v hv
      refine ih u.length ?_ hu rfl
      simp only [List.length_cons, List.length_append]
      omega
    | emptyObject => exact .object (by simp)
    | object hms =>
      refine .object fun m hm => ?_
      obtain ⟨u, hu, hle⟩ := exists_of_separated hms m hm
      cases hu with
      | @parts s b b' w name v _ _ _ hw =>
        refine ih w.length ?_ hw rfl
        simp only [List.length_cons, List.length_append] at hle ⊢
        omega

theorem finite_of_document {t : Text} {v : Json} (h : Document t v) : Finite v := by
  cases h with
  | spaced _ hv => exact finite_of_value hv

theorem reads_back_written :
    (∀ v : Json, (parse (write v)).value = .ok (norm v)) ∧
      ∀ text v, (parse text).value = .ok v → Finite v ∧ (parse (write v)).value = .ok v := by
  have hwrite (v : Json) : (parse (write v)).value = .ok (norm v) :=
    parse_eq_ok_iff_document.2 (document_write v)
  refine ⟨hwrite, ?_⟩
  intro text v h
  have hfinite := finite_of_document (parse_eq_ok_iff_document.1 h)
  refine ⟨hfinite, ?_⟩
  rw [hwrite v, hfinite.norm_eq]

theorem reads_back_negative_zero :
    (parse "[-0,\"\\u0041\"]".toList).value =
        .ok (array [number ⟨true, 0, by decide⟩, string ['A']]) ∧
      Finite (array [number ⟨true, 0, by decide⟩, string ['A']]) ∧
      (parse (write (array [number ⟨true, 0, by decide⟩, string ['A']]))).value =
        .ok (array [number ⟨true, 0, by decide⟩, string ['A']]) := by
  have hzero : Value ['-', '0'] (number ⟨true, 0, by decide⟩) :=
    .number (.parts .minus .zero .none .none) rfl
  have hunit : HexUnit ['0', '0', '4', '1'] ('A').toNat :=
    .digits (i := 0) (j := 0) (k := 4) (l := 1) (by decide) (by decide) (by decide) (by decide)
  have hletter : Value ['"', '\\', 'u', '0', '0', '4', '1', '"'] (string ['A']) :=
    .string (.marks (.cons (.unit hunit) .nil))
  have hitems : Separated Value ['-', '0', ',', '"', '\\', 'u', '0', '0', '4', '1', '"']
      [number ⟨true, 0, by decide⟩, string ['A']] :=
    .more .nil hzero .nil (.last .nil hletter .nil)
  have h : (parse "[-0,\"\\u0041\"]".toList).value =
      .ok (array [number ⟨true, 0, by decide⟩, string ['A']]) :=
    parse_eq_ok_iff_document.2 (.spaced .nil (.array hitems) .nil)
  exact ⟨h, reads_back_written.2 _ _ h⟩

end TextScan.Json

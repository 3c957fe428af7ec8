import TextScan.Proofs.Xml.Document

namespace TextScan.Xml

open Run

theorem log_tells_first_fault (text : Text) :
    match (parse text).value with
    | .ok _ =>
      (parse text).events = [.accepted text.size text.size] ∧
        (parse text).events.map Event.render =
          [s!"TRACE parsed {text.size} of {text.size} bytes"]
    | .error ⟨⟨expected, remaining⟩, _, _⟩ => ∃ later : List Fault,
      (parse text).events =
          .recorded ⟨expected, remaining⟩ :: later.map (.suppressed · ⟨expected, remaining⟩) ++
            [.rejected ⟨expected, remaining⟩ text.size] ∧
        (parse text).events.map Event.render =
          s!"TRACE recording failure '{expected}' with {remaining} bytes remaining" ::
            later.map (fun fault =>
              s!"TRACE suppressing failure '{fault.expected}', already failed with '{expected}'") ++
          [s!"DEBUG parse failed with {remaining} of {text.size} bytes remaining: {expected}"] := by
  have hagrees : Agrees (document (⟨text, none⟩ : Collecting)) (document text) :=
    lifts_document.agrees text
  have hvalue : (parse text).value =
      (TextScan.parse (document : Text → Run (Element × Text)) text).value := hagrees.parse_eq
  cases hplain : (document text).outcome with
  | ok r =>
    obtain ⟨e, rest⟩ := r
    obtain ⟨-, rfl⟩ := document_eq_ok_iff.1 hplain
    have hevents : (parse text).events = [.accepted text.size text.size] :=
      hagrees.events_of_ok hplain
    have hok : (parse text).value = .ok e := hvalue.trans (parse_of_ok hplain)
    rw [hok, hevents]
    exact ⟨rfl, rfl⟩
  | error fault =>
    obtain ⟨later, hlater⟩ := hagrees.events_of_error hplain
    have hevents : (parse text).events =
        .recorded fault :: later.map (.suppressed · fault) ++ [.rejected fault text.size] := hlater
    rw [hvalue, parse_of_error hplain, hevents]
    refine ⟨later, rfl, ?_⟩
    rw [List.map_append, List.map_cons, List.map_map]
    rfl

end TextScan.Xml

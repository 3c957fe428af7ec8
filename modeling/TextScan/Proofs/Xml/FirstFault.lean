import TextScan.Proofs.Xml.Agreement

namespace TextScan.Xml

theorem reading_on_changes_nothing :
    (∀ text : Text, (parse text).value =
        (TextScan.parse (document : Text → Run (Element × Text)) text).value) ∧
      ∀ (levels : Nat) (c : Collecting), ∃ items last,
        (Repetition.repeated (item (elementUpTo levels)) c).outcome = .ok (items, last) ∧
          c.slot.toList ++
              recordedFaults (Repetition.repeated (item (elementUpTo levels)) c).run.events =
            last.slot.toList := by
  constructor
  · intro text
    exact (lifts_document.agrees text).parse_eq
  · intro levels c
    obtain ⟨⟨items, last⟩, hvalue, hrecorded⟩ :=
      (lifts_repeated (lifts_elementUpTo levels)).exists_recorded c
    exact ⟨items, last, hvalue, hrecorded⟩

end TextScan.Xml

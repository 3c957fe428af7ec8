import TextScan.Proofs.CharClass.Disjoint
import TextScan.Proofs.Text.Stops

namespace TextScan

open CharClass

def Blank (b : Text) : Prop :=
  ∀ c ∈ b, isBlank c = true

namespace Blank

variable {b t : Text}

@[simp] theorem nil : Blank [] := by
  intro c hc
  simp at hc

theorem append {u : Text} (hb : Blank b) (hu : Blank u) : Blank (b ++ u) :=
  List.forall_mem_append.2 ⟨hb, hu⟩

theorem stops {p : Char → Bool} (hp : ∀ c, isBlank c = true → p c = false) (hb : Blank b) :
    Text.Stops p b :=
  Text.stops_of_forall fun c hc => hp c (hb c hc)

theorem dropWhile_append (hb : Blank b) (ht : Text.Stops isBlank t) :
    (b ++ t).dropWhile isBlank = t :=
  Text.dropWhile_append_stops hb ht

theorem dropWhile (hb : Blank b) : b.dropWhile isBlank = [] := by
  rw [← List.append_nil b]
  exact hb.dropWhile_append Text.stops_nil

theorem of_dropWhile (h : t.dropWhile isBlank = []) : Blank t := by
  obtain ⟨b, u, rfl, hb, -, -, hu⟩ := Text.exists_split_at_stop isBlank t
  rw [hu] at h
  rw [h, List.append_nil]
  exact hb

theorem exists_append (t : Text) :
    ∃ b, t = b ++ t.dropWhile isBlank ∧ Blank b ∧ Text.Stops isBlank (t.dropWhile isBlank) :=
  ⟨t.takeWhile isBlank, List.takeWhile_append_dropWhile.symm,
    List.all_eq_true.1 List.all_takeWhile, Text.stops_dropWhile⟩

end Blank

end TextScan

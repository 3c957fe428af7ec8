import Mathlib.Data.Prod.Lex
import TextScan.Proofs.Text.Location
import TextScan.Text.Prefix

namespace TextScan.Location

open Text

variable {text line : Text} {above below : List Text} {i j p q : Nat}

def reading (l : Location) : Nat ×ₗ Nat :=
  toLex (l.line, l.column)

def Between (text : Text) (i : Nat) : Prop :=
  (text.splitAtByte? i).isSome

theorem between_iff :
    Between text i ↔ ∃ before after, text = before ++ after ∧ i = before.size := by
  rw [Between, Option.isSome_iff_exists]
  constructor
  · rintro ⟨⟨before, after⟩, h⟩
    exact ⟨before, after, append_of_splitAtByte? h⟩
  · rintro ⟨before, after, rfl, rfl⟩
    exact ⟨(before, after), splitAtByte?_append before after⟩

theorem ofRemaining_between {before after : Text} (htext : text = before ++ after)
    (hi : i = before.size) :
    ofRemaining text (text.size - i) =
      ⟨1 + before.count '\n', 1 + (before.rtakeWhile (· != '\n')).length⟩ := by
  subst htext hi
  rw [size_append, Nat.add_sub_cancel_left]
  exact ofRemaining_append before after

theorem exists_append_of_size_lt {u v u' v' : Text} (h : u ++ v = u' ++ v')
    (hlt : u.size < u'.size) : ∃ w, w ≠ [] ∧ u' = u ++ w := by
  rcases List.append_eq_append_iff.1 h with ⟨w, rfl, -⟩ | ⟨w, rfl, -⟩
  · refine ⟨w, ?_, rfl⟩
    rintro rfl
    simp at hlt
  · rw [size_append] at hlt
    omega

theorem reading_lt_append (before : Text) {w : Text} (hw : w ≠ []) :
    reading ⟨1 + before.count '\n', 1 + (before.rtakeWhile (· != '\n')).length⟩ <
      reading ⟨1 + (before ++ w).count '\n',
        1 + ((before ++ w).rtakeWhile (· != '\n')).length⟩ := by
  unfold reading
  rw [Prod.Lex.toLex_lt_toLex, List.count_append]
  by_cases hnewline : '\n' ∈ w
  · have hcount := List.count_pos_iff.2 hnewline
    left
    change 1 + before.count '\n' < 1 + (before.count '\n' + w.count '\n')
    omega
  · have hlength := List.length_pos_iff.2 hw
    rw [rtakeWhile_append (forall_ne_of_not_mem hnewline), List.length_append,
      List.count_eq_zero.2 hnewline]
    right
    refine ⟨rfl, ?_⟩
    change 1 + (before.rtakeWhile (· != '\n')).length <
      1 + ((before.rtakeWhile (· != '\n')).length + w.length)
    omega

theorem reading_lt (hi : Between text i) (hj : Between text j) (h : i < j) :
    reading (ofRemaining text (text.size - i)) < reading (ofRemaining text (text.size - j)) := by
  obtain ⟨u, v, htext, rfl⟩ := between_iff.1 hi
  obtain ⟨u', v', htext', rfl⟩ := between_iff.1 hj
  obtain ⟨w, hw, rfl⟩ := exists_append_of_size_lt (htext.symm.trans htext') h
  rw [ofRemaining_between htext rfl, ofRemaining_between htext' rfl]
  exact reading_lt_append u hw

/-- The byte position of a location: so many characters into its piece of the text, behind the
pieces before that one and the newlines that end them. -/
def position? (text : Text) (l : Location) : Option Nat := do
  let piece ← (text.splitOn '\n')[l.line - 1]?
  let before ← take? (l.column - 1) piece
  some ((ended ((text.splitOn '\n').take (l.line - 1))).size + size before)

theorem position?_of_onLine (h : OnLine text p above line below q) {before after : Text}
    (hline : line = before ++ after) (hq : q = before.size) :
    position? text ⟨above.length + 1, before.length + 1⟩ = some p := by
  have hlines := (lines_eq_splitOn text).symm.trans h.lines_eq
  have hpiece : (above ++ line :: below)[above.length]? = some line := by
    rw [List.getElem?_append_right (Nat.le_refl _), Nat.sub_self, List.getElem?_cons_zero]
  have hbefore : take? before.length line = some before := by
    rw [take?, hline, if_pos (by simp), List.take_left]
  simp only [position?, hlines, Nat.add_sub_cancel, hpiece, hbefore, List.take_left, bind,
    Option.bind]
  rw [h.position_eq, hq]

theorem position?_ofRemaining (hi : Between text i) :
    position? text (ofRemaining text (text.size - i)) = some i := by
  obtain ⟨⟨before, after⟩, hsplit⟩ := Option.isSome_iff_exists.1 hi
  obtain ⟨htext, hsize⟩ := append_of_splitAtByte? hsplit
  have hle : i ≤ text.size := by
    rw [htext, hsize, size_append]
    exact Nat.le_add_right _ _
  obtain ⟨above, line, below, q, h⟩ := exists_onLine hle
  rw [h.splitAtByte?_eq] at hsplit
  obtain ⟨⟨u, v⟩, huv, -⟩ := Option.map_eq_some_iff.1 hsplit
  obtain ⟨hline, hq⟩ := append_of_splitAtByte? huv
  have hindex : text.size - min (text.size - i) text.size = i := by omega
  have hcolumn : columnIn line q = u.length + 1 := by rw [columnIn, huv]
  rw [ofRemaining_of_onLine (hindex.symm ▸ h), hcolumn]
  exact position?_of_onLine h hline hq

theorem location_determines_position (text : Text) :
    (∀ i j, Between text i → Between text j → i < j →
      reading (ofRemaining text (text.size - i)) < reading (ofRemaining text (text.size - j))) ∧
    (∀ i j, Between text i → Between text j →
      ofRemaining text (text.size - i) = ofRemaining text (text.size - j) → i = j) ∧
    ∀ i, Between text i → 1 ≤ (ofRemaining text (text.size - i)).line ∧
      1 ≤ (ofRemaining text (text.size - i)).column ∧
        position? text (ofRemaining text (text.size - i)) = some i := by
  refine ⟨fun i j hi hj => reading_lt hi hj, ?_, ?_⟩
  · intro i j hi hj heq
    have hposition := position?_ofRemaining hi
    rw [heq, position?_ofRemaining hj] at hposition
    exact (Option.some.inj hposition).symm
  · intro i hi
    refine ⟨?_, ?_, position?_ofRemaining hi⟩
    all_goals
      obtain ⟨before, after, htext, hsize⟩ := between_iff.1 hi
      rw [ofRemaining_between htext hsize]
      exact Nat.le_add_right _ _

example : position? ['a', '\n', 'é', '\n'] ⟨2, 2⟩ = some 4 := by
  cbv

end TextScan.Location

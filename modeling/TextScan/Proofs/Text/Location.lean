import Mathlib.Data.Nat.PSub
import TextScan.Cursor.Policy
import TextScan.Proofs.Text.Lines
import TextScan.Proofs.Text.Stops
import TextScan.Proofs.Text.Utf8
import TextScan.Text.Location

namespace TextScan.Location

open Text

variable {text line : Text} {above below : List Text} {p q remaining number rounds : Nat}

theorem among_append (above : List Text) (line : Text) (below : List Text) (number : Nat)
    (h : q ≤ line.size) :
    among (above ++ line :: below) number ((ended above).size + q) =
      ⟨number + above.length, columnIn line q⟩ := by
  induction above generalizing number with
  | nil =>
    rw [List.nil_append, ended_nil, size_nil, Nat.zero_add]
    cases below with
    | nil => rfl
    | cons next below => exact if_pos h
  | cons first above ih =>
    have hsize := size_ended_cons first above
    have hbelow : ¬ (ended (first :: above)).size + q ≤ first.size := by omega
    have hposition : (ended (first :: above)).size + q - first.size - 1 =
        (ended above).size + q := by omega
    obtain ⟨next, ls, hls⟩ : ∃ next ls, above ++ line :: below = next :: ls :=
      List.exists_cons_of_ne_nil (by simp)
    have hfirst := ih (number + 1)
    rw [hls] at hfirst
    rw [List.cons_append, hls, among, if_neg hbelow, hposition, hfirst, List.length_cons,
      Nat.add_assoc number, Nat.add_comm 1]

theorem ofRemaining_of_onLine
    (h : OnLine text (text.size - min remaining text.size) above line below q) :
    ofRemaining text remaining = ⟨above.length + 1, columnIn line q⟩ := by
  rw [ofRemaining, h.lines_eq, h.position_eq, among_append above line below 1 h.le_size,
    Nat.add_comm 1]

theorem forall_ne_of_not_mem {α : Type} [BEq α] [LawfulBEq α] {a : α} {xs : List α} (h : a ∉ xs) :
    ∀ x ∈ xs, (x != a) = true :=
  fun _ hx => bne_iff_ne.2 (ne_of_mem_of_not_mem hx h)

section Walk

def walk? (remaining : Nat) : Nat → Nat → Text → Option (Nat × Text)
  | 0, _, _ => none
  | rounds + 1, number, line =>
    let endOfLine := Cursor.skipUntil (· == '\n') line
    if Cursor.remaining endOfLine ≤ remaining then some (number, line)
    else walk? remaining rounds (number + 1) (Cursor.skipOne endOfLine)

def between? (t : Text) (start stop : Nat) : Option Text := do
  let length ← stop.psub start
  let rest ← t.dropBytes? start
  let (found, _) ← rest.splitAtByte? length
  some found

/-- The location that going through the text comes to, if so many rounds are enough and no
difference is less than zero. -/
def byWalk? (rounds : Nat) (text : Text) (remaining : Nat) : Option Location := do
  let remaining := min remaining text.size
  let index ← text.size.psub remaining
  let (number, line) ← walk? remaining rounds 1 text
  let start ← text.size.psub (Cursor.remaining line)
  let inLine ← index.psub start
  some ⟨number, ((between? text start index).map List.length).getD inLine + 1⟩

@[simp] theorem remaining_text (t : Text) : Cursor.remaining t = t.size := rfl

theorem stops_begun (below : List Text) : Stops (fun c => !c == '\n') (begun below) := by
  cases below with
  | nil => exact stops_nil
  | cons next below => exact stops_cons.2 rfl

theorem skipUntil_append {rest : Text} (hline : '\n' ∉ line)
    (hrest : Stops (fun c => !c == '\n') rest) :
    Cursor.skipUntil (· == '\n') (line ++ rest) = rest :=
  dropWhile_append_stops (forall_ne_of_not_mem hline) hrest

theorem walk?_eq (habove : ∀ l ∈ above, '\n' ∉ l) (hline : '\n' ∉ line) (hq : q ≤ line.size)
    (hrounds : above.length < rounds) :
    walk? ((line ++ begun below).size - q) rounds number (ended above ++ (line ++ begun below)) =
      some (number + above.length, line ++ begun below) := by
  induction above generalizing rounds number with
  | nil =>
    obtain ⟨rounds, rfl⟩ : ∃ r, rounds = r + 1 := ⟨rounds - 1, by simp at hrounds; omega⟩
    have hle : (begun below).size ≤ (line ++ begun below).size - q := by
      rw [size_append]
      omega
    rw [ended_nil, List.nil_append, walk?, skipUntil_append hline (stops_begun below),
      remaining_text, if_pos hle]
    rfl
  | cons first above ih =>
    obtain ⟨rounds, rfl⟩ : ∃ r, rounds = r + 1 := ⟨rounds - 1, by omega⟩
    rw [List.forall_mem_cons] at habove
    rw [List.length_cons, Nat.add_lt_add_iff_right] at hrounds
    have hlt : ¬ size ('\n' :: (ended above ++ (line ++ begun below))) ≤
        (line ++ begun below).size - q := by
      rw [size_newline_cons, size_append (ended above)]
      omega
    rw [ended_cons, List.append_assoc, List.cons_append, walk?,
      skipUntil_append habove.1 (stops_cons.2 rfl), remaining_text, if_neg hlt, List.length_cons,
      Nat.add_comm above.length, ← Nat.add_assoc]
    exact ih habove.2 hrounds

theorem between?_append (before found after : Text) (h : q ≤ found.size) :
    between? (before ++ (found ++ after)) before.size (before.size + q) =
      (found.splitAtByte? q).map Prod.fst := by
  have hlength : (before.size + q).psub before.size = some q := by
    rw [Nat.psub_eq_sub (Nat.le_add_right _ _), Nat.add_sub_cancel_left]
  rw [between?, hlength]
  simp only [bind, Option.bind, dropBytes?_append, splitAtByte?_append_left h]
  cases found.splitAtByte? q <;> rfl

theorem columnIn_eq (line : Text) (q : Nat) :
    columnIn line q = (((line.splitAtByte? q).map Prod.fst).map List.length).getD q + 1 := by
  unfold columnIn
  cases line.splitAtByte? q <;> rfl

theorem length_le_of_onLine (h : OnLine text p above line below q) :
    above.length ≤ text.count '\n' := by
  have hlength := length_lines text
  rw [h.lines_eq, List.length_append, List.length_cons] at hlength
  omega

theorem byWalk?_of_onLine
    (h : OnLine text (text.size - min remaining text.size) above line below q)
    (hrounds : text.count '\n' < rounds) :
    byWalk? rounds text remaining = some ⟨above.length + 1, columnIn line q⟩ := by
  have hposition := h.position_eq
  have hle := h.le_size
  have hsize : text.size = (ended above).size + (line ++ begun below).size := by
    rw [h.text_eq, size_append]
  have hremaining : min remaining text.size = (line ++ begun below).size - q := by
    rw [size_append] at hsize ⊢
    omega
  have hwalk : walk? (min remaining text.size) rounds 1 text =
      some (1 + above.length, line ++ begun below) := by
    rw [hremaining, h.text_eq]
    exact walk?_eq h.newline_not_mem_above h.newline_not_mem_line hle
      (Nat.lt_of_le_of_lt (length_le_of_onLine h) hrounds)
  have hindex : text.size.psub (min remaining text.size) = some ((ended above).size + q) := by
    rw [Nat.psub_eq_sub (Nat.min_le_right _ _), hposition]
  have hstart : text.size.psub (line ++ begun below).size = some (ended above).size := by
    rw [hsize, Nat.psub_eq_sub (Nat.le_add_left _ _), Nat.add_sub_cancel]
  have hinLine : ((ended above).size + q).psub (ended above).size = some q := by
    rw [Nat.psub_eq_sub (Nat.le_add_right _ _), Nat.add_sub_cancel_left]
  have hbetween : between? text (ended above).size ((ended above).size + q) =
      (line.splitAtByte? q).map Prod.fst := by
    rw [h.text_eq]
    exact between?_append (ended above) line (begun below) hle
  simp only [byWalk?, hindex, hwalk, remaining_text, hstart, hinLine, hbetween, bind, Option.bind,
    columnIn_eq, Nat.add_comm 1]

end Walk

section Newlines

theorem rtakeWhile_append {α : Type} {f : α → Bool} {ys : List α} (hys : ∀ y ∈ ys, f y = true)
    (xs : List α) : (xs ++ ys).rtakeWhile f = xs.rtakeWhile f ++ ys := by
  have hreverse : ∀ y ∈ ys.reverse, f y = true := fun y hy => hys y (List.mem_reverse.1 hy)
  rw [List.rtakeWhile, List.reverse_append, List.takeWhile_append_of_pos hreverse,
    List.reverse_append, List.reverse_reverse, List.rtakeWhile]

theorem rtakeWhile_ended (above : List Text) : (ended above).rtakeWhile (· != '\n') = [] := by
  rcases ended_eq_nil_or_concat above with h | ⟨u, h⟩
  · rw [h]
    rfl
  · rw [h, List.rtakeWhile_concat_neg _ _ _ (by simp)]

theorem rtakeWhile_bytes_ended (above : List Text) :
    (bytes (ended above)).rtakeWhile (· != newlineByte) = [] := by
  rcases ended_eq_nil_or_concat above with h | ⟨u, h⟩
  · rw [h]
    rfl
  · rw [h, bytes_append, bytes_cons, utf8EncodeChar_newline, bytes_nil, List.append_nil,
      List.rtakeWhile_concat_neg _ _ _ (by simp)]

theorem take_bytes (h : OnLine text p above line below q) :
    (bytes text).take p = bytes (ended above) ++ (bytes line).take q := by
  have hle : q ≤ (bytes line).length := by
    rw [length_bytes]
    exact h.le_size
  rw [h.text_eq, h.position_eq, bytes_append, bytes_append, ← length_bytes,
    List.take_length_add_append, List.take_append_of_le_length hle]

theorem newlineByte_not_mem_take (h : '\n' ∉ line) (q : Nat) :
    newlineByte ∉ (bytes line).take q :=
  fun hmem => h (newlineByte_mem_bytes_iff.1 (List.mem_of_mem_take hmem))

/-- The location of a byte position by the newlines in front of it. The column counts characters,
and bytes if the position lies inside a character. -/
structure Counted (text : Text) (index : Nat) (l : Location) : Prop where
  line_eq : l.line = 1 + ((bytes text).take index).count newlineByte
  column_between : ∀ before after, text.splitAtByte? index = some (before, after) →
    l.column = 1 + (before.rtakeWhile (· != '\n')).length
  column_inside : text.splitAtByte? index = none →
    l.column = 1 + (((bytes text).take index).rtakeWhile (· != newlineByte)).length

theorem counted_of_onLine (h : OnLine text p above line below q) :
    Counted text p ⟨above.length + 1, columnIn line q⟩ := by
  have hline := newlineByte_not_mem_take h.newline_not_mem_line q
  refine ⟨?_, ?_, ?_⟩
  · rw [take_bytes h, List.count_append, count_bytes, count_ended h.newline_not_mem_above,
      List.count_eq_zero.2 hline, Nat.add_comm 1]
  · intro before after hsplit
    rw [h.splitAtByte?_eq] at hsplit
    obtain ⟨⟨u, v⟩, huv, heq⟩ := Option.map_eq_some_iff.1 hsplit
    obtain ⟨rfl, rfl⟩ := Prod.mk.inj heq
    obtain ⟨rfl, rfl⟩ := append_of_splitAtByte? huv
    have hu : '\n' ∉ u := fun hmem => h.newline_not_mem_line (List.mem_append_left v hmem)
    change columnIn (u ++ v) u.size = _
    rw [columnIn, huv, rtakeWhile_append (forall_ne_of_not_mem hu), rtakeWhile_ended,
      List.nil_append, Nat.add_comm 1]
  · intro hsplit
    rw [h.splitAtByte?_eq, Option.map_eq_none_iff] at hsplit
    change columnIn line q = _
    rw [columnIn, hsplit, take_bytes h, rtakeWhile_append (forall_ne_of_not_mem hline),
      rtakeWhile_bytes_ended, List.nil_append, List.length_take, length_bytes,
      Nat.min_eq_left h.le_size, Nat.add_comm 1]

theorem counted_ofRemaining (text : Text) (remaining : Nat) :
    Counted text (text.size - min remaining text.size) (ofRemaining text remaining) := by
  obtain ⟨above, line, below, q, h⟩ :=
    exists_onLine (Nat.sub_le text.size (min remaining text.size))
  rw [ofRemaining_of_onLine h]
  exact counted_of_onLine h

theorem Counted.eq_of_append {before after : Text} {l : Location}
    (h : Counted (before ++ after) before.size l) :
    l = ⟨1 + before.count '\n', 1 + (before.rtakeWhile (· != '\n')).length⟩ := by
  have hline : l.line = 1 + before.count '\n' := by
    rw [h.line_eq, bytes_append, ← length_bytes before, List.take_left, count_bytes]
  have hcolumn := h.column_between before after (splitAtByte?_append before after)
  rw [← hline, ← hcolumn]

theorem ofRemaining_append (before after : Text) :
    ofRemaining (before ++ after) after.size =
      ⟨1 + before.count '\n', 1 + (before.rtakeWhile (· != '\n')).length⟩ := by
  have h := counted_ofRemaining (before ++ after) after.size
  rw [size_append, Nat.min_eq_left (Nat.le_add_left _ _), Nat.add_sub_cancel] at h
  exact h.eq_of_append

theorem walk_counts_newlines (text : Text) (remaining : Nat) :
    (∀ rounds, text.count '\n' < rounds →
      byWalk? rounds text remaining = some (ofRemaining text remaining)) ∧
    Counted text (text.size - min remaining text.size) (ofRemaining text remaining) ∧
    (∀ before after : Text, text = before ++ '\n' :: after →
      ofRemaining text (size ('\n' :: after)) =
        ⟨1 + before.count '\n', 1 + (before.rtakeWhile (· != '\n')).length⟩) ∧
    ∀ before : Text, text = before ++ ['\n'] →
      ofRemaining text 0 = ⟨2 + before.count '\n', 1⟩ := by
  refine ⟨?_, counted_ofRemaining text remaining, ?_, ?_⟩
  · intro rounds hrounds
    obtain ⟨above, line, below, q, h⟩ :=
      exists_onLine (Nat.sub_le text.size (min remaining text.size))
    rw [byWalk?_of_onLine h hrounds, ofRemaining_of_onLine h]
  · rintro before after rfl
    exact ofRemaining_append before ('\n' :: after)
  · rintro before rfl
    have hend := ofRemaining_append (before ++ ['\n']) []
    rw [List.append_nil, size_nil] at hend
    rw [hend, List.count_append, List.count_singleton_self,
      List.rtakeWhile_concat_neg _ _ _ (by simp), List.length_nil, ← Nat.add_assoc,
      Nat.add_right_comm]

example : (ofRemaining ['é', '\n', 'é', 'x'] 1, ofRemaining ['é', '\n', 'é', 'x'] 2) =
    (⟨2, 2⟩, ⟨2, 2⟩) := by
  decide

end Newlines

end TextScan.Location

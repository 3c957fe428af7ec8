import TextScan.Proofs.Cursor.Bytes
import TextScan.Proofs.Text.Location
import TextScan.Report.Excerpt

namespace TextScan

namespace Excerpt

open Text

variable {text u v : Text} {spot : Location} {n : Nat}

def numbered (pieces : List Text) (number : Nat) : Text :=
  chomp (pieces[number - 1]?.getD [])

def unmarked (pieces : List Text) (first count : Nat) : List Entry :=
  (List.range' first count).map fun number => .line number (numbered pieces number)

theorem zipIdx_eq_map (ls : List Text) (start : Nat) :
    ls.zipIdx start =
      (List.range' start ls.length).map fun n => (ls[n - start]?.getD [], n) := by
  induction ls generalizing start with
  | nil => rfl
  | cons l ls ih =>
    rw [List.zipIdx_cons, ih, List.length_cons, List.range'_succ, List.map_cons, Nat.sub_self,
      List.getElem?_cons_zero, Option.getD_some]
    congr 1
    refine List.map_congr_left ?_
    intro n hn
    have hle := (List.mem_range'_1.1 hn).1
    obtain ⟨k, rfl⟩ := Nat.exists_eq_add_of_le hle
    rw [Nat.add_sub_cancel_left, Nat.add_assoc, Nat.add_sub_cancel_left, Nat.add_comm 1,
      List.getElem?_cons_succ]

theorem isNear_iff : isNear spot n = true ↔ n ≤ spot.line + 2 ∧ spot.line ≤ n + 2 := by
  rw [isNear, Bool.and_eq_true, decide_eq_true_eq, decide_eq_true_eq]

theorem range'_split (start mid stop : Nat) (hstart : start ≤ mid) (hstop : mid ≤ stop) :
    List.range' start (stop - start) =
      List.range' start (mid - start) ++ List.range' mid (stop - mid) := by
  have happend := List.range'_append_1 (s := start) (m := mid - start) (n := stop - mid)
  rw [Nat.add_sub_cancel' hstart] at happend
  rw [happend]
  congr 1
  omega

theorem filter_range'_eq_nil (start stop : Nat)
    (h : ∀ n, start ≤ n → n < stop → ¬ (n ≤ spot.line + 2 ∧ spot.line ≤ n + 2)) :
    (List.range' start (stop - start)).filter (isNear spot) = [] := by
  rw [List.filter_eq_nil_iff]
  intro n hn
  rw [List.mem_range'_1] at hn
  rw [isNear_iff]
  exact h n hn.1 (by omega)

theorem filter_range'_eq_self (start stop : Nat)
    (h : ∀ n, start ≤ n → n < stop → n ≤ spot.line + 2 ∧ spot.line ≤ n + 2) :
    (List.range' start (stop - start)).filter (isNear spot) = List.range' start (stop - start) := by
  rw [List.filter_eq_self]
  intro n hn
  rw [List.mem_range'_1] at hn
  exact isNear_iff.2 (h n hn.1 (by omega))

-- The lines fall into those above the excerpt, those in it and those below it.
theorem filter_isNear (hpos : 1 ≤ spot.line) (hle : spot.line ≤ n) :
    (List.range' 1 n).filter (isNear spot) =
      List.range' (max 1 (spot.line - 2)) (spot.line - max 1 (spot.line - 2)) ++
        spot.line :: List.range' (spot.line + 1) (min (spot.line + 2) n - spot.line) := by
  generalize hfirst : max 1 (spot.line - 2) = first
  generalize hlast : min (spot.line + 2) n = last
  have hn : n = n + 1 - 1 := (Nat.add_sub_cancel n 1).symm
  have hstep : last + 1 - spot.line = last - spot.line + 1 := by omega
  calc (List.range' 1 n).filter (isNear spot)
      = (List.range' first (last + 1 - first)).filter (isNear spot) := by
        rw [hn, range'_split 1 first (n + 1) (by omega) (by omega),
          range'_split first (last + 1) (n + 1) (by omega) (by omega), List.filter_append,
          List.filter_append, filter_range'_eq_nil 1 first (by omega),
          filter_range'_eq_nil (last + 1) (n + 1) (by omega), List.nil_append, List.append_nil]
    _ = List.range' first (last + 1 - first) := filter_range'_eq_self first (last + 1) (by omega)
    _ = _ := by
        rw [range'_split first spot.line (last + 1) (by omega) (by omega), hstep, List.range'_succ]

theorem length_chomp_le (u : Text) : (chomp u).length ≤ u.length := by
  unfold chomp
  split
  · rw [List.length_dropLast]
    exact Nat.sub_le _ _
  · exact Nat.le_refl _

theorem drop_chomp_append (u v : Text) : (chomp (u ++ v)).drop u.length = chomp v := by
  cases v with
  | nil =>
    rw [List.append_nil, List.drop_eq_nil_of_le (length_chomp_le u)]
    rfl
  | cons c v =>
    have hne : c :: v ≠ [] := List.cons_ne_nil c v
    unfold chomp
    rw [List.getLast?_append_of_ne_nil _ hne, List.dropLast_append_of_ne_nil hne]
    split <;> rw [List.drop_left]

theorem utf8Size_of_isDigit {c : Char} (h : c.isDigit = true) : c.utf8Size = 1 := by
  rw [Char.utf8Size_eq_one_iff]
  simp only [Char.isDigit, Bool.and_eq_true, decide_eq_true_eq] at h
  exact UInt32.le_trans h.2 (by decide)

theorem size_markedLabel (number : Nat) :
    size (markedLabel number).toList = (markedLabel number).length := by
  have hdigits : ∀ c ∈ Nat.toDigits 10 number, c.utf8Size = 1 := fun c hc =>
    utf8Size_of_isDigit (Nat.isDigit_of_mem_toDigits (by decide) (by decide) hc)
  have hlabel : (markedLabel number).toList =
      "  > ".toList ++ Nat.toDigits 10 number ++ " | ".toList := by
    rw [← String.toList_ofList (l := Nat.toDigits 10 number), ← String.toList_append,
      ← String.toList_append]
    rfl
  rw [← String.length_toList, hlabel, size_append, size_append, size_eq_length hdigits,
    List.length_append, List.length_append]
  rfl

theorem flatMap_entriesOf (pieces : List Text) (start count : Nat)
    (h : ∀ n, start ≤ n → n < start + count → n ≠ spot.line) :
    (List.range' start count).flatMap (fun n => entriesOf spot n (numbered pieces n)) =
      unmarked pieces start count := by
  rw [unmarked, List.map_eq_flatMap]
  refine List.flatMap_congr ?_
  intro n hn
  rw [List.mem_range'_1] at hn
  exact if_neg (h n hn.1 hn.2)

theorem ofText_eq (hpos : 1 ≤ spot.line) (hle : spot.line ≤ text.lines.length) :
    ofText text spot =
      unmarked text.lines (max 1 (spot.line - 2)) (spot.line - max 1 (spot.line - 2)) ++
        .marked spot.line (numbered text.lines spot.line) ::
          .pointer ((markedLabel spot.line).length + spot.column - 1) ::
            unmarked text.lines (spot.line + 1)
              (min (spot.line + 2) text.lines.length - spot.line) := by
  have hmap : ofText text spot =
      ((List.range' 1 text.lines.length).filter (isNear spot)).flatMap fun n =>
        entriesOf spot n (numbered text.lines n) := by
    rw [ofText, zipIdx_eq_map, List.filter_map, List.flatMap_map]
    rfl
  have hmarked : entriesOf spot spot.line (numbered text.lines spot.line) =
      [.marked spot.line (numbered text.lines spot.line),
        .pointer ((markedLabel spot.line).length + spot.column - 1)] := if_pos rfl
  rw [hmap, filter_isNear hpos hle, List.flatMap_append, List.flatMap_cons, hmarked,
    flatMap_entriesOf _ _ _ (by omega), flatMap_entriesOf _ _ _ (by omega)]
  rfl

theorem drop_marked (number : Nat) (u v : Text) (column : Nat) (h : column = u.length + 1) :
    (Entry.marked number (chomp (u ++ v))).render.toList.drop
      ((markedLabel number).length + column - 1) = chomp v := by
  rw [Entry.render, String.toList_append, String.toList_ofList, h, ← String.length_toList,
    ← Nat.add_assoc, Nat.add_sub_cancel, List.drop_length_add_append, drop_chomp_append]

theorem takeWhile_line (hv : '\n' ∉ v) (below : List Text) :
    (v ++ begun below).takeWhile (· != '\n') = v :=
  takeWhile_append_stops (Location.forall_ne_of_not_mem hv) (Location.stops_begun below)

theorem numbered_append (above : List Text) (line : Text) (below : List Text) :
    numbered (above ++ line :: below) (above.length + 1) = chomp line := by
  rw [numbered, Nat.add_sub_cancel, List.getElem?_append_right (Nat.le_refl _), Nat.sub_self,
    List.getElem?_cons_zero, Option.getD_some]

def withoutReturn (piece : Text) : Text :=
  match piece.reverse with
  | '\r' :: rest => rest.reverse
  | _ => piece

theorem withoutReturn_eq_chomp (piece : Text) : withoutReturn piece = chomp piece := by
  unfold withoutReturn
  split
  · next rest hreverse =>
    rw [List.reverse_eq_cons_iff.1 hreverse, chomp, List.getLast?_concat, List.dropLast_concat]
    rfl
  · next hreverse =>
    refine (if_neg fun hlast => ?_).symm
    obtain ⟨front, rfl⟩ := List.getLast?_eq_some_iff.1 hlast
    exact hreverse front.reverse (by rw [List.reverse_append]; rfl)

def lineAt (pieces : List Text) (number : Nat) : String :=
  String.ofList (withoutReturn (pieces[number - 1]?.getD []))

def plainLine (pieces : List Text) (number : Nat) : String :=
  "    " ++ toString number ++ " | " ++ lineAt pieces number

def failingLine (pieces : List Text) (number : Nat) : String :=
  "  > " ++ toString number ++ " | " ++ lineAt pieces number

def pointerLine (offset : Nat) : String :=
  String.ofList (List.replicate offset ' ') ++ "^--- here"

theorem ofList_numbered (pieces : List Text) (number : Nat) :
    String.ofList (numbered pieces number) = lineAt pieces number := by
  rw [numbered, lineAt, withoutReturn_eq_chomp]

theorem render_line (pieces : List Text) (number : Nat) :
    (Entry.line number (numbered pieces number)).render = plainLine pieces number := by
  rw [Entry.render, ofList_numbered]
  rfl

theorem render_marked (pieces : List Text) (number : Nat) :
    (Entry.marked number (numbered pieces number)).render = failingLine pieces number := by
  rw [Entry.render, ofList_numbered]
  rfl

theorem map_render_unmarked (pieces : List Text) (first count : Nat) :
    (unmarked pieces first count).map Entry.render =
      (List.range' first count).map (plainLine pieces) := by
  rw [unmarked, List.map_map]
  exact List.map_congr_left fun number _ => render_line pieces number

theorem takeWhile_pointer (offset : Nat) :
    ((pointerLine offset).toList.takeWhile (· == ' ')).length = offset := by
  have hspaces : ∀ c ∈ List.replicate offset ' ', (c == ' ') = true := by
    intro c hc
    rw [List.eq_of_mem_replicate hc]
    rfl
  have hcaret : Stops (· == ' ') "^--- here".toList := rfl
  rw [pointerLine, String.toList_append, String.toList_ofList (l := List.replicate offset ' '),
    takeWhile_append_stops hspaces hcaret, List.length_replicate]

/-- The lines are those around the location `l`, and their pointer stands under the first character
of `after`. -/
structure Points (text : Text) (l : Location) (after : Text) (offset : Nat)
    (lines : List String) : Prop where
  line_pos : 1 ≤ l.line
  line_le : l.line ≤ (text.splitOn '\n').length
  lines_eq : lines =
    (List.range' (max 1 (l.line - 2)) (l.line - max 1 (l.line - 2))).map
        (plainLine (text.splitOn '\n')) ++
      failingLine (text.splitOn '\n') l.line :: pointerLine offset ::
        (List.range' (l.line + 1) (min (l.line + 2) (text.splitOn '\n').length - l.line)).map
          (plainLine (text.splitOn '\n'))
  offset_eq : offset = size ("  > " ++ toString l.line ++ " | ").toList + l.column - 1
  under_caret :
    (failingLine (text.splitOn '\n') l.line).toList.drop
        ((pointerLine offset).toList.takeWhile (· == ' ')).length =
      withoutReturn (after.takeWhile (· != '\n'))

end Excerpt

namespace Report

open Text Excerpt

theorem exists_cut {text : Text} {remaining : Nat}
    (h : text.size < remaining ∨ text.Marks remaining) :
    ∃ before after, text.splitAtByte? (text.size - min remaining text.size) =
      some (before, after) := by
  rcases h with hlt | ⟨hle, hsome⟩
  · refine ⟨[], text, ?_⟩
    rw [Nat.min_eq_right (Nat.le_of_lt hlt), Nat.sub_self]
    exact splitAtByte?_append [] text
  · rw [Nat.min_eq_left hle]
    obtain ⟨⟨before, after⟩, hsplit⟩ := Option.isSome_iff_exists.1 hsome
    exact ⟨before, after, hsplit⟩

theorem excerpt_points_at_fault (fault : Fault) (text : Text)
    (h : text.size < fault.remaining ∨ text.Marks fault.remaining) :
    ∃ l before after offset, ((ofFault fault).withSource text).location = some l ∧
      text = before ++ after ∧ before.size = text.size - min fault.remaining text.size ∧
      Points text l after offset
        (((ofFault fault).withSource text).excerpt.map Entry.render) := by
  obtain ⟨before, after, hsplit⟩ := exists_cut h
  obtain ⟨htext, hsize⟩ := append_of_splitAtByte? hsplit
  obtain ⟨above, line, below, q, hline⟩ :=
    exists_onLine (Nat.sub_le text.size (min fault.remaining text.size))
  rw [hline.splitAtByte?_eq] at hsplit
  obtain ⟨⟨u, v⟩, huv, heq⟩ := Option.map_eq_some_iff.1 hsplit
  obtain ⟨-, rfl⟩ := Prod.mk.inj heq
  obtain ⟨rfl, rfl⟩ := append_of_splitAtByte? huv
  have hlocation :
      Location.ofRemaining text fault.remaining = ⟨above.length + 1, u.length + 1⟩ := by
    rw [Location.ofRemaining_of_onLine hline, Location.columnIn, huv]
  have hlength : above.length + 1 ≤ (lines text).length := by
    rw [hline.lines_eq, List.length_append, List.length_cons]
    omega
  have hnumbered : numbered (lines text) (above.length + 1) = chomp (u ++ v) := by
    rw [hline.lines_eq, numbered_append]
  have hnewline : '\n' ∉ v := fun hmem => hline.newline_not_mem_line (List.mem_append_right u hmem)
  refine ⟨⟨above.length + 1, u.length + 1⟩, before, v ++ begun below,
    (markedLabel (above.length + 1)).length + (u.length + 1) - 1, congrArg some hlocation,
    htext, hsize.symm, Nat.le_add_left 1 above.length, ?_, ?_, ?_, ?_⟩
  · rw [← lines_eq_splitOn]
    exact hlength
  · rw [← lines_eq_splitOn]
    change (ofText text (Location.ofRemaining text fault.remaining)).map Entry.render = _
    rw [hlocation, ofText_eq (Nat.le_add_left 1 above.length) hlength, List.map_append,
      List.map_cons, List.map_cons, map_render_unmarked, map_render_unmarked, render_marked]
    rfl
  · rw [← size_markedLabel]
    rfl
  · rw [← lines_eq_splitOn, takeWhile_pointer, withoutReturn_eq_chomp, takeWhile_line hnewline,
      ← render_marked, hnumbered]
    exact drop_marked (above.length + 1) u v (u.length + 1) rfl

theorem excerpt_points_behind_newline :
    Text.Marks ['a', '\r', '\n', 'é', 'b', '\r', '\n'] 3 ∧
      ((ofFault ⟨"Expected value", 3⟩).withSource
        ['a', '\r', '\n', 'é', 'b', '\r', '\n']).location = some ⟨2, 2⟩ ∧
      ((ofFault ⟨"Expected value", 3⟩).withSource
        ['a', '\r', '\n', 'é', 'b', '\r', '\n']).excerpt.map Entry.render =
          ["    1 | a", "  > 2 | éb", "         ^--- here", "    3 | "] ∧
      Points ['a', '\r', '\n', 'é', 'b', '\r', '\n'] ⟨2, 2⟩ ['b', '\r', '\n'] 9
        ["    1 | a", "  > 2 | éb", "         ^--- here", "    3 | "] := by
  have hmarks : Text.Marks ['a', '\r', '\n', 'é', 'b', '\r', '\n'] 3 :=
    marks_of_suffix (u := ['b', '\r', '\n']) (by decide)
  have hlines : ((ofFault ⟨"Expected value", 3⟩).withSource
      ['a', '\r', '\n', 'é', 'b', '\r', '\n']).excerpt.map Entry.render =
        ["    1 | a", "  > 2 | éb", "         ^--- here", "    3 | "] := by rfl
  obtain ⟨l, before, after, offset, hl, htext, hsize, hpoints⟩ :=
    excerpt_points_at_fault ⟨"Expected value", 3⟩ _ (.inr hmarks)
  obtain rfl : l = ⟨2, 2⟩ := Option.some.inj (hl.symm.trans rfl)
  have hcut := splitAtByte?_append before after
  rw [← htext, hsize] at hcut
  obtain rfl : after = ['b', '\r', '\n'] := (Prod.mk.inj (Option.some.inj hcut)).2.symm
  obtain rfl : offset = 9 := hpoints.offset_eq
  rw [hlines] at hpoints
  exact ⟨hmarks, hl, hlines, hpoints⟩

end Report

end TextScan

import TextScan.Proofs.Report.History

namespace TextScan.Report

open Query

variable {fault : Fault} {calls before later : List (Nat × Query)} {call : Nat × Query}
  {reports copies : List Report} {r : Report} {h : List Query} {q : Query} {i j n : Nat}

section Calls

-- A copy stands behind all the other reports.
def consult (reports : List Report) : Nat × Query → List Report
  | (i, .clone) => reports ++ reports[i]?.toList
  | (i, q) => reports.modify i (·.after q)

def consultAll (fault : Fault) (calls : List (Nat × Query)) : List Report :=
  calls.foldl consult [ofFault fault]

def replies : List Report → List (Nat × Query) → List (Option Answer)
  | _, [] => []
  | reports, (i, q) :: calls =>
    reports[i]?.map (·.answer q) :: replies (consult reports (i, q)) calls

theorem consult_of_ne (hq : q ≠ clone) :
    consult reports (i, q) = reports.modify i (·.after q) := by
  cases q <;> first | rfl | exact absurd rfl hq

theorem getElem?_consult (hr : reports[j]? = some r) (i : Nat) (q : Query) :
    (consult reports (i, q))[j]? = some (if i = j then r.after q else r) := by
  by_cases hq : q = clone
  · subst hq
    have hlt := (List.getElem?_eq_some_iff.1 hr).1
    rw [consult, List.getElem?_append_left hlt, hr]
    exact congrArg some (ite_self r).symm
  · rw [consult_of_ne hq, List.getElem?_modify, hr]
    split <;> rfl

theorem getElem?_consult_length (reports : List Report) (i : Nat) :
    (consult reports (i, clone))[reports.length]? = reports[i]? := by
  rw [consult, List.getElem?_append_right (Nat.le_refl _), Nat.sub_self]
  cases reports[i]? <;> rfl

theorem getElem?_replies_append (reports : List Report) (before later : List (Nat × Query))
    (n : Nat) : (replies reports (before ++ later))[before.length + n]? =
      (replies (before.foldl consult reports) later)[n]? := by
  induction before generalizing reports with
  | nil => rw [List.nil_append, List.length_nil, Nat.zero_add, List.foldl_nil]
  | cons call before ih =>
    rw [List.length_cons, Nat.add_right_comm]
    exact ih (consult reports call)

theorem getElem?_replies (reports : List Report) (before later : List (Nat × Query)) (i : Nat)
    (q : Query) : (replies reports (before ++ (i, q) :: later))[before.length]? =
      some ((before.foldl consult reports)[i]?.map (·.answer q)) :=
  getElem?_replies_append reports before ((i, q) :: later) 0

theorem replies_first (hr : reports[0]? = some r) (qs : List Query) :
    replies reports (qs.map (Prod.mk 0)) = (ask r qs).map some := by
  induction qs generalizing reports r with
  | nil => rfl
  | cons q qs ih =>
    have hnext : (consult reports (0, q))[0]? = some (r.after q) := getElem?_consult hr 0 q
    simp only [List.map_cons, replies, ask, hr, Option.map_some, ih hnext]

end Calls

section Histories

-- Only a report that is there can be copied.
def made (n : Nat) : Nat × Query → Nat
  | (i, .clone) => if i < n then n + 1 else n
  | _ => n

theorem made_of_ne (hq : q ≠ clone) : made n (i, q) = n := by
  cases q <;> first | rfl | exact absurd rfl hq

def count (calls : List (Nat × Query)) : Nat :=
  calls.foldl made 1

theorem le_made (n : Nat) (call : Nat × Query) : n ≤ made n call := by
  unfold made
  split
  · split <;> omega
  · exact Nat.le_refl n

theorem count_concat (calls : List (Nat × Query)) (call : Nat × Query) :
    count (calls ++ [call]) = made (count calls) call := by
  rw [count, List.foldl_append]
  rfl

theorem count_le_append (before added : List (Nat × Query)) :
    count before ≤ count (before ++ added) := by
  induction added using List.reverseRecOn with
  | nil => rw [List.append_nil]
  | append_singleton added call ih =>
    rw [← List.append_assoc, count_concat]
    exact Nat.le_trans ih (le_made _ _)

theorem count_lt_of_copy (hj : j < count before) (later : List (Nat × Query)) :
    count before < count (before ++ (j, clone) :: later) := by
  have hcopy : count (before ++ [(j, clone)]) = count before + 1 := by
    rw [count_concat, made, if_pos hj]
  have hle := count_le_append (before ++ [(j, clone)]) later
  rw [List.append_assoc, List.singleton_append, hcopy] at hle
  exact hle

def questionsTo (i : Nat) (calls : List (Nat × Query)) : List Query :=
  (calls.filter (·.1 == i)).map Prod.snd

/-- What a report was asked after the calls, and before it was made what it is a copy of. -/
inductive Asked : List (Nat × Query) → Nat → List Query → Prop
  | first (calls : List (Nat × Query)) : Asked calls 0 (questionsTo 0 calls)
  | copy {before : List (Nat × Query)} {j : Nat} {h : List Query} (later : List (Nat × Query)) :
      Asked before j h → Asked (before ++ (j, .clone) :: later) (count before)
        (h ++ questionsTo (count before) later)

theorem length_consult (reports : List Report) (call : Nat × Query) :
    (consult reports call).length = made reports.length call := by
  obtain ⟨i, q⟩ := call
  by_cases hq : q = clone
  · subst hq
    by_cases hi : i < reports.length
    · rw [consult, made, if_pos hi, List.getElem?_eq_getElem hi, List.length_append]
      rfl
    · rw [consult, made, if_neg hi, List.getElem?_eq_none (Nat.le_of_not_lt hi), List.length_append]
      rfl
  · rw [consult_of_ne hq, made_of_ne hq, List.length_modify]

theorem clone_of_getElem?_consult (hr : (consult reports (i, q))[j]? = some r)
    (hj : reports.length ≤ j) : q = clone ∧ j = reports.length := by
  have hlt := (List.getElem?_eq_some_iff.1 hr).1
  rw [length_consult] at hlt
  by_cases hq : q = clone
  · subst hq
    refine ⟨rfl, ?_⟩
    rw [made] at hlt
    split at hlt <;> omega
  · rw [made_of_ne hq] at hlt
    exact absurd hlt (Nat.not_lt_of_le hj)

theorem length_foldl_consult (reports : List Report) (calls : List (Nat × Query)) :
    (calls.foldl consult reports).length = calls.foldl made reports.length := by
  induction calls generalizing reports with
  | nil => rfl
  | cons call calls ih =>
    rw [List.foldl_cons, ih, length_consult]
    rfl

theorem length_consultAll (fault : Fault) (calls : List (Nat × Query)) :
    (consultAll fault calls).length = count calls :=
  length_foldl_consult [ofFault fault] calls

theorem getElem?_foldl_consult (hr : reports[i]? = some r) (calls : List (Nat × Query)) :
    (calls.foldl consult reports)[i]? = some ((questionsTo i calls).foldl after r) := by
  induction calls generalizing reports r with
  | nil => exact hr
  | cons call calls ih =>
    obtain ⟨j, q⟩ := call
    have hnext := getElem?_consult hr j q
    by_cases hj : j = i
    · subst hj
      rw [if_pos rfl] at hnext
      have hquestions : questionsTo j ((j, q) :: calls) = q :: questionsTo j calls := by
        simp [questionsTo]
      rw [List.foldl_cons, ih hnext, hquestions]
      rfl
    · rw [if_neg hj] at hnext
      have hquestions : questionsTo i ((j, q) :: calls) = questionsTo i calls := by
        simp [questionsTo, hj]
      rw [List.foldl_cons, ih hnext, hquestions]

theorem Asked.getElem? (hasked : Asked calls i h) (fault : Fault) :
    (consultAll fault calls)[i]? = some (h.foldl after (ofFault fault)) := by
  induction hasked with
  | first calls => exact getElem?_foldl_consult rfl calls
  | @copy before j h later _ ih =>
    have hcopy : (consult (consultAll fault before) (j, clone))[count before]? =
        some (h.foldl after (ofFault fault)) := by
      rw [← length_consultAll fault before, getElem?_consult_length, ih]
    rw [consultAll, List.foldl_append, List.foldl_append]
    exact getElem?_foldl_consult hcopy later

theorem Asked.exists_concat (hasked : Asked calls i h) (call : Nat × Query) :
    ∃ k, Asked (calls ++ [call]) i k := by
  cases hasked with
  | first => exact ⟨_, .first _⟩
  | copy later hj =>
    have hcopy := Asked.copy (later ++ [call]) hj
    rw [← List.cons_append, ← List.append_assoc] at hcopy
    exact ⟨_, hcopy⟩

theorem exists_asked (hi : i < count calls) : ∃ h, Asked calls i h := by
  induction calls using List.reverseRecOn generalizing i with
  | nil =>
    obtain rfl := Nat.lt_one_iff.1 hi
    exact ⟨_, .first []⟩
  | append_singleton calls call ih =>
    by_cases hlt : i < count calls
    · obtain ⟨h, hasked⟩ := ih hlt
      exact hasked.exists_concat call
    · rw [count_concat] at hi
      unfold made at hi
      split at hi
      · next j =>
        split at hi
        · next hj =>
          obtain ⟨h, hasked⟩ := ih hj
          obtain rfl : i = count calls := by omega
          exact ⟨_, .copy [] hasked⟩
        · exact absurd hi hlt
      · exact absurd hi hlt

theorem Asked.lt_count (hasked : Asked calls i h) : i < count calls := by
  induction hasked with
  | first calls => exact count_le_append [] calls
  | copy later _ ih => exact count_lt_of_copy ih later

-- No later call makes the report that a copy made.
theorem eq_nil_of_copy {w : List (Nat × Query)} (hj : j < count before)
    (hcount : count before = count (before ++ w)) (hcall : (j, clone) :: later = w ++ calls) :
    w = [] := by
  cases w with
  | nil => rfl
  | cons call w =>
    obtain ⟨rfl, -⟩ := List.cons.inj hcall
    exact absurd hcount (Nat.ne_of_lt (count_lt_of_copy hj w))

theorem copy_inj {before' later' : List (Nat × Query)} {j' : Nat} (hj : j < count before)
    (hj' : j' < count before') (hcount : count before = count before')
    (hcalls : before ++ (j, clone) :: later = before' ++ (j', clone) :: later') :
    before = before' ∧ j = j' ∧ later = later' := by
  have hbefore : before = before' := by
    rcases List.append_eq_append_iff.1 hcalls with ⟨w, rfl, hw⟩ | ⟨w, rfl, hw⟩
    · rw [eq_nil_of_copy hj hcount hw, List.append_nil]
    · rw [eq_nil_of_copy hj' hcount.symm hw, List.append_nil]
  subst hbefore
  obtain ⟨hcall, rfl⟩ := List.cons.inj (List.append_cancel_left hcalls)
  exact ⟨rfl, congrArg Prod.fst hcall, rfl⟩

theorem Asked.unique {calls' : List (Nat × Query)} {i' : Nat} {k : List Query}
    (hasked : Asked calls i h) (hasked' : Asked calls' i' k) (hcalls : calls = calls')
    (hi : i = i') : h = k := by
  induction hasked generalizing calls' i' k with
  | first calls =>
    cases hasked' with
    | first => rw [hcalls]
    | copy later hj => exact absurd hi (Nat.ne_of_lt (count_le_append [] _))
  | copy later hj ih =>
    cases hasked' with
    | first => exact absurd hi.symm (Nat.ne_of_lt (count_le_append [] _))
    | copy later' hj' =>
      obtain ⟨rfl, rfl, rfl⟩ := copy_inj hj.lt_count hj'.lt_count hi hcalls
      rw [ih hj' rfl rfl]

theorem existsUnique_asked (hi : i < count calls) : ∃! h, Asked calls i h := by
  obtain ⟨h, hasked⟩ := exists_asked hi
  exact ⟨h, hasked, fun _ hother => hother.unique hasked rfl rfl⟩

end Histories

section Insertions

-- Two reports that were attached to the same texts, and perhaps asked different things besides.
def Alike (fault : Fault) (r s : Report) : Prop :=
  ∃ h k, Tracks fault h r ∧ Tracks fault k s ∧ h.filterMap attached? = k.filterMap attached?

theorem Alike.after {s : Report} (h : Alike fault r s) (q : Query) :
    Alike fault (r.after q) (s.after q) := by
  obtain ⟨h, k, hr, hs, hattached⟩ := h
  refine ⟨h ++ [q], k ++ [q], hr.after q, hs.after q, ?_⟩
  rw [List.filterMap_append, List.filterMap_append, hattached]

theorem Alike.after_right {s : Report} (h : Alike fault r s) (hq : q.attached? = none) :
    Alike fault r (s.after q) := by
  obtain ⟨h, k, hr, hs, hattached⟩ := h
  refine ⟨h, k ++ [q], hr, hs.after q, ?_⟩
  rw [List.filterMap_append, hattached]
  simp [hq]

theorem Alike.answer_eq {s : Report} (h : Alike fault r s) (hq : q ≠ .isLocated) :
    r.answer q = s.answer q := by
  obtain ⟨h, k, hr, hs, hattached⟩ := h
  rw [hr.answer_eq, hs.answer_eq, answerTo_congr hattached hq]

theorem Alike.foldl_right {qs : List Query} {s : Report} (h : Alike fault r s)
    (hqs : ∀ q ∈ qs, q.attached? = none) : Alike fault r (qs.foldl Report.after s) := by
  induction qs generalizing s with
  | nil => exact h
  | cons q qs ih =>
    rw [List.forall_mem_cons] at hqs
    exact ih (h.after_right hqs.1) hqs.2

theorem alike_self (hr : (consultAll fault calls)[i]? = some r) : Alike fault r r := by
  have hi := (List.getElem?_eq_some_iff.1 hr).1
  rw [length_consultAll] at hi
  obtain ⟨h, hasked⟩ := exists_asked hi
  obtain rfl := Option.some.inj ((hasked.getElem? fault).symm.trans hr)
  exact ⟨h, h, tracks_foldl fault h, tracks_foldl fault h, rfl⟩

-- The place of a report when others are made in front of it, but behind the first ones.
def moved (first more i : Nat) : Nat :=
  if i < first then i else i + more

-- The calls that follow `before` when `added` is put in between.
def renumbered (before added later : List (Nat × Query)) : List (Nat × Query) :=
  later.map fun (i, q) => (moved (count before) (count (before ++ added) - count before) i, q)

structure Follows (fault : Fault) (first more : Nat) (reports copies : List Report) : Prop where
  first_le : first ≤ reports.length
  length_eq : copies.length = reports.length + more
  alike : ∀ i r, reports[i]? = some r →
    ∃ s, copies[moved first more i]? = some s ∧ Alike fault r s

variable {first more : Nat}

theorem moved_of_le (h : first ≤ i) : moved first more i = i + more :=
  if_neg (Nat.not_lt_of_le h)

theorem moved_inj : moved first more i = moved first more j ↔ i = j := by
  unfold moved
  split <;> split <;> omega

theorem made_moved (hfirst : first ≤ n) (i : Nat) (q : Query) :
    made (n + more) (moved first more i, q) = made n (i, q) + more := by
  have hlt : moved first more i < n + more ↔ i < n := by
    unfold moved
    split <;> omega
  cases q with
  | clone =>
    simp only [made, hlt]
    split <;> omega
  | _ => rfl

theorem Follows.consult (hfollows : Follows fault first more reports copies) (i : Nat) (q : Query) :
    Follows fault first more (consult reports (i, q)) (consult copies (moved first more i, q)) := by
  refine ⟨?_, ?_, ?_⟩
  · rw [length_consult]
    exact Nat.le_trans hfollows.first_le (le_made _ _)
  · rw [length_consult, length_consult, hfollows.length_eq, made_moved hfollows.first_le]
  · intro j r hr
    by_cases hlt : j < reports.length
    · have hj : reports[j]? = some reports[j] := List.getElem?_eq_getElem hlt
      obtain ⟨s, hs, halike⟩ := hfollows.alike j _ hj
      rw [getElem?_consult hj] at hr
      obtain rfl := Option.some.inj hr
      refine ⟨_, getElem?_consult hs _ q, ?_⟩
      simp only [moved_inj]
      split
      · exact halike.after q
      · exact halike
    · obtain ⟨rfl, rfl⟩ := clone_of_getElem?_consult hr (Nat.le_of_not_lt hlt)
      rw [getElem?_consult_length] at hr
      obtain ⟨s, hs, halike⟩ := hfollows.alike i r hr
      refine ⟨s, ?_, halike⟩
      rw [moved_of_le hfollows.first_le, ← hfollows.length_eq, getElem?_consult_length, hs]

theorem Follows.answer_eq (hfollows : Follows fault first more reports copies) (i : Nat)
    (hq : q ≠ .isLocated) :
    reports[i]?.map (·.answer q) = copies[moved first more i]?.map (·.answer q) := by
  cases hr : reports[i]? with
  | none =>
    have hle := List.getElem?_eq_none_iff.1 hr
    have hcopies : copies[moved first more i]? = none := by
      rw [moved_of_le (Nat.le_trans hfollows.first_le hle), List.getElem?_eq_none_iff,
        hfollows.length_eq]
      exact Nat.add_le_add_right hle more
    rw [hcopies]
  | some r =>
    obtain ⟨s, hs, halike⟩ := hfollows.alike i r hr
    rw [hs]
    exact congrArg some (halike.answer_eq hq)

theorem Follows.replies_eq (hfollows : Follows fault first more reports copies)
    (hcall : later[n]? = some (i, q)) (hq : q ≠ .isLocated) :
    (replies reports later)[n]? =
      (replies copies (later.map fun (i, q) => (moved first more i, q)))[n]? := by
  induction later generalizing reports copies n with
  | nil => cases hcall
  | cons call later ih =>
    cases n with
    | zero =>
      obtain rfl := Option.some.inj hcall
      exact congrArg some (hfollows.answer_eq i hq)
    | succ n => exact ih (hfollows.consult call.1 call.2) hcall

theorem follows_added {added : List (Nat × Query)}
    (hadded : ∀ call ∈ added, call.2.attached? = none) :
    Follows fault (count before) (count (before ++ added) - count before)
      (consultAll fault before) (consultAll fault (before ++ added)) := by
  refine ⟨Nat.le_of_eq (length_consultAll fault before).symm, ?_, ?_⟩
  · rw [length_consultAll, length_consultAll, Nat.add_sub_cancel' (count_le_append before added)]
  · intro i r hr
    have hi := (List.getElem?_eq_some_iff.1 hr).1
    rw [length_consultAll] at hi
    refine ⟨(questionsTo i added).foldl after r, ?_, (alike_self hr).foldl_right ?_⟩
    · rw [moved, if_pos hi, consultAll, List.foldl_append]
      exact getElem?_foldl_consult hr added
    intro q hq
    obtain ⟨call, hcall, rfl⟩ := List.mem_map.1 hq
    exact hadded call (List.mem_of_mem_filter hcall)

end Insertions

theorem kept_location_never_stale (fault : Fault) :
    (∀ calls, (consultAll fault calls).length = count calls ∧
      ∀ i < count calls, ∃! h, Asked calls i h) ∧
    (∀ calls i h, Asked calls i h →
      ∃ r, (consultAll fault calls)[i]? = some r ∧ Faithful fault h r) ∧
    (∀ before i q later h, Asked before i h →
      (replies [ofFault fault] (before ++ (i, q) :: later))[before.length]? =
        some (some (answerTo fault h q))) ∧
    (∀ qs, replies [ofFault fault] (qs.map (Prod.mk 0)) = (ask (ofFault fault) qs).map some) ∧
    ∀ before added later n i q, (∀ call ∈ added, call.2.attached? = none) →
      later[n]? = some (i, q) → q ≠ .isLocated →
        (replies [ofFault fault] (before ++ later))[before.length + n]? =
          (replies [ofFault fault] (before ++ added ++ renumbered before added later))[
            (before ++ added).length + n]? := by
  refine ⟨fun calls => ⟨length_consultAll fault calls, fun i => existsUnique_asked⟩, ?_, ?_, ?_, ?_⟩
  · intro calls i h hasked
    exact ⟨_, hasked.getElem? fault, (tracks_foldl fault h).faithful⟩
  · intro before i q later h hasked
    have hreport := hasked.getElem? fault
    rw [consultAll] at hreport
    rw [getElem?_replies, hreport, Option.map_some, (tracks_foldl fault h).answer_eq]
  · exact fun qs => replies_first rfl qs
  · intro before added later n i q hadded hcall hq
    rw [getElem?_replies_append, getElem?_replies_append]
    exact (follows_added hadded).replies_eq hcall hq

theorem kept_location_never_stale_in_copy :
    Asked
      [(0, .withSource ['a', '\n', 'b']), (0, .render), (0, .clone), (0, .withSource ['a', 'b'])]
      1 [.withSource ['a', '\n', 'b'], .render] ∧
    [1, 4, 5, 6, 7].map ((replies [ofFault ⟨"Expected 'x'", 1⟩]
      [(0, .withSource ['a', '\n', 'b']), (0, .render), (0, .clone), (0, .withSource ['a', 'b']),
        (1, .isLocated), (0, .isLocated), (1, .location), (0, .location)])[·]?) =
      [some (some (.text (some "(2, 1) Expected 'x'"))), some (some (.flag true)),
        some (some (.flag false)), some (some (.location (some ⟨2, 1⟩))),
        some (some (.location (some ⟨1, 2⟩)))] ∧
    (replies [ofFault ⟨"Expected 'x'", 1⟩]
      [(0, .withSource ['a', 'b']), (0, .clone), (1, .location)])[2]? =
      (replies [ofFault ⟨"Expected 'x'", 1⟩]
        [(0, .withSource ['a', 'b']), (0, .render), (0, .clone), (0, .clone),
          (2, .location)])[4]? := by
  have hcopy (later : List (Nat × Query)) :
      Asked ((0, .withSource ['a', '\n', 'b']) :: (0, .render) :: (0, .clone) :: later) 1
        ([.withSource ['a', '\n', 'b'], .render] ++ questionsTo 1 later) :=
    .copy later (.first [(0, .withSource ['a', '\n', 'b']), (0, .render)])
  obtain ⟨-, -, hreply, -, hinsert⟩ := kept_location_never_stale ⟨"Expected 'x'", 1⟩
  refine ⟨hcopy [_], ?_, ?_⟩
  · simp only [List.map_cons, List.map_nil, List.cons.injEq, and_true]
    refine ⟨?_, ?_, ?_, ?_, ?_⟩
    · exact hreply [_] 0 .render _ _ (.first _)
    · exact hreply [_, _, _, _] 1 .isLocated _ _ (hcopy [_])
    · exact hreply [_, _, _, _, _] 0 .isLocated _ _ (.first _)
    · exact hreply [_, _, _, _, _, _] 1 .location _ _ (hcopy [_, _, _])
    · exact hreply [_, _, _, _, _, _, _] 0 .location [] _ (.first _)
  · exact hinsert [(0, .withSource ['a', 'b'])] [(0, .render), (0, .clone)]
      [(0, .clone), (1, .location)] 1 1 .location (by simp [Query.attached?]) rfl (by simp)

end TextScan.Report

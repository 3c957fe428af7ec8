import TextScan.Proofs.Json.Running
/-!
The reader of values ends on every text. What a run leaves unread pays for its calls: each call is
made on a text shorter than those of the calls around it, so calls neither nest deeper nor become
more than the text has bytes, and every round and every match of a loop takes some of the text away.
-/

namespace TextScan.Json

open Grammar Text CharClass Clocked Repetition

variable {α β : Type} {callers : List Text} {t u v rest : Text} {calls more : List (Call Text)}
  {r : Reading (α × Text)} {x : Clocked Fault (Call Text) (α × Text)} {c close : Char}
  {missing : Requirement} {clock : Nat}

section Bounds

-- A reading that ended well has the end of the text still before it.
def unread : Reading (α × Text) → Nat
  | .ok (_, rest) => rest.size + 1
  | .error _ => 0

structure Within (callers : List Text) (t : Text) (r : Reading (α × Text))
    (calls : List (Call Text)) : Prop where
  few : calls.length + unread r ≤ t.size + 1
  nested : Nested size callers t calls

theorem Within.start (h : unread r ≤ t.size + 1) : Within callers t r [] :=
  ⟨by simpa using h, .nil⟩

theorem Within.of_error {fault : Fault} {s : Reading (β × Text)}
    (h : Within callers t (.error fault : Reading (α × Text)) calls) (hs : s = .error fault) :
    Within callers t s calls := by
  subst hs
  exact ⟨h.few, h.nested⟩

theorem Within.before (h : Within callers v r calls) (hle : v.size ≤ t.size) :
    Within callers t r calls := by
  refine ⟨?_, h.nested.before hle⟩
  have hfew := h.few
  omega

theorem Within.append {a : α} {s : Reading (β × Text)} (h : Within callers t (.ok (a, rest)) calls)
    (hmore : Within callers rest s more) : Within callers t s (calls ++ more) := by
  have hfew := h.few
  have hfew' := hmore.few
  rw [unread] at hfew
  refine ⟨?_, h.nested.append (hmore.nested.before (by omega))⟩
  rw [List.length_append]
  omega

-- A call is noted in front of what it reads, and what it reads pays for it.
theorem Within.enter (h : Within (t :: callers) v r calls) (hlt : v.size < t.size)
    (hcallers : ∀ caller ∈ callers, t.size < caller.size) :
    Within callers t r (⟨t, callers⟩ :: calls) := by
  refine ⟨?_, (h.nested.inside hlt).cons hcallers⟩
  have hfew := h.few
  rw [List.length_cons]
  omega

theorem Within.alone (h : unread r ≤ t.size) (hcallers : ∀ caller ∈ callers, t.size < caller.size) :
    Within callers t r [⟨t, callers⟩] := by
  refine ⟨?_, Nested.nil.cons hcallers⟩
  rw [List.length_singleton]
  omega

end Bounds

section Settling

def Settles (callers : List Text) (t : Text) (x : Clocked Fault (Call Text) (α × Text))
    (r : Reading (α × Text)) : Prop :=
  ∃ calls, x = comes r calls ∧ Within callers t r calls

theorem Settles.of_reading (h : unread r ≤ t.size + 1) : Settles callers t (of r) r :=
  ⟨[], rfl, .start h⟩

theorem Settles.before (h : Settles callers v x r) (hle : v.size ≤ t.size) :
    Settles callers t x r := by
  obtain ⟨calls, hx, hcalls⟩ := h
  exact ⟨calls, hx, hcalls.before hle⟩

theorem Settles.bind {k : α × Text → Clocked Fault (Call Text) (β × Text)}
    {f : α × Text → Reading (β × Text)} (h : Settles callers t x r)
    (hk : ∀ (a : α) (rest : Text), rest.size ≤ t.size →
      Settles callers rest (k (a, rest)) (f (a, rest))) :
    Settles callers t (x >>= k) (r >>= f) := by
  obtain ⟨calls, hx, hcalls⟩ := h
  cases r with
  | error fault => exact ⟨calls, bind_of_error hx k, hcalls.of_error rfl⟩
  | ok q =>
    obtain ⟨a, rest⟩ := q
    have hfew := hcalls.few
    rw [unread] at hfew
    obtain ⟨more, hmore, hwithin⟩ := hk a rest (by omega)
    refine ⟨calls ++ more, ?_, hcalls.append hwithin⟩
    rw [bind_of_ok hx, hmore]
    rfl

theorem Settles.enter (h : Settles (t :: callers) v x r) (hlt : v.size < t.size)
    (hcallers : ∀ caller ∈ callers, t.size < caller.size) :
    Settles callers t (note ⟨t, callers⟩ >>= fun _ => x) r := by
  obtain ⟨calls, rfl, hcalls⟩ := h
  exact ⟨⟨t, callers⟩ :: calls, rfl, hcalls.enter hlt hcallers⟩

theorem Settles.map {f : α → β} (h : Settles callers t x r) :
    Settles callers t (x >>= fun q => pure (f q.1, q.2)) (r.map fun q => (f q.1, q.2)) := by
  have hmap : r.map (fun q => (f q.1, q.2)) = r >>= fun q => .ok (f q.1, q.2) := by
    cases r <;> rfl
  rw [hmap]
  exact h.bind fun a rest _ => .of_reading (Nat.le_refl _)

theorem size_skipBlank_le (t : Text) : (skipBlank t).size ≤ t.size :=
  size_le_of_suffix (List.dropWhile_suffix isBlank)

theorem size_lt_of_skipMark (h : skipMark c missing t = .ok rest) : rest.size < t.size := by
  obtain ⟨b, -, rfl⟩ := blank_of_skipMark h
  have hc := c.utf8Size_pos
  simp only [size_append, size_cons]
  omega

theorem Settles.mark {k : Text → Clocked Fault (Call Text) (α × Text)}
    {f : Text → Reading (α × Text)}
    (h : ∀ rest : Text, rest.size < t.size → Settles callers rest (k rest) (f rest)) :
    Settles callers t (of (skipMark c missing t) >>= k) (skipMark c missing t >>= f) := by
  cases hmark : skipMark c missing t with
  | error fault => exact .of_reading (Nat.zero_le _)
  | ok rest =>
    have hlt := size_lt_of_skipMark hmark
    obtain ⟨calls, hk, hcalls⟩ := h rest hlt
    exact ⟨calls, (bind_of_ok rfl k).trans ((behind_nil _).trans hk), hcalls.before (by omega)⟩

end Settling

section Items

variable {n rounds : Nat} {item : Text → Clocked Fault (Call Text) (α × Text)}
  {R : Text → Reading (α × Text)} {asks : Text → Clocked Fault (Call Text) (Option α × Text)}
  {A : Text → Reading (Option α × Text)}

def SettlesUpTo (n : Nat) (callers : List Text) (item : Text → Clocked Fault (Call Text) (α × Text))
    (R : Text → Reading (α × Text)) : Prop :=
  ∀ t : Text, t.size ≤ n → Settles callers t (item t) (R t)

-- What is read is never read again.
def Spends (r : Text → Reading (α × Text)) : Prop :=
  ∀ t a rest, r t = .ok (a, rest) → rest.size < t.size

theorem Spends.of_resumes (h : Resumes isGlue R) : Spends R := by
  intro t a rest hread
  obtain ⟨u, hu, rfl, -⟩ := h t a rest hread
  exact size_lt_append hu rest

theorem Spends.afterComma (h : Spends R) {a : α} (hread : afterComma R t = .ok (some a, rest)) :
    rest.size < t.size := by
  obtain ⟨b, u, -, rfl, hu⟩ := comma_of_afterComma hread
  have hlt := h u a rest hu
  simp only [size_append, size_cons]
  omega

theorem runAfterComma_append {b : Text} (hb : Blank b) :
    runAfterComma item (b ++ ',' :: t) = item t >>= fun q => pure (some q.1, q.2) := by
  rw [runAfterComma, skipBlank_blank_append hb (stops_cons.2 (by decide))]
  rfl

theorem runAfterComma_noComma {b y : Text} (hb : Blank b) (hy : Stops isBlank y)
    (hcomma : y.head? ≠ some ',') : runAfterComma item (b ++ y) = comes (.ok (none, y)) [] := by
  rw [runAfterComma, skipBlank_blank_append hb hy]
  split
  · exact absurd rfl hcomma
  · rfl

theorem settles_afterComma (hitem : SettlesUpTo n callers item R) :
    SettlesUpTo n callers (runAfterComma item) (afterComma R) := by
  intro t ht
  obtain ⟨b, y, rfl, hb, hy, -⟩ := exists_skipBlank t
  by_cases hcomma : y.head? = some ','
  · obtain ⟨u, rfl⟩ := List.head?_eq_some_iff.1 hcomma
    have hle : size u ≤ (b ++ ',' :: u).size := by
      simp only [size_append, size_cons]
      omega
    rw [runAfterComma_append hb, afterComma_append hb]
    exact ((hitem u (by omega)).map).before hle
  · rw [runAfterComma_noComma hb hy hcomma, afterComma_noComma hb hy hcomma]
    refine .of_reading ?_
    simp only [unread, size_append]
    omega

theorem runAfterComma_of_none {rest : Text} (h : afterComma R t = .ok (none, rest)) :
    runAfterComma item t = comes (.ok (none, rest)) [] := by
  obtain ⟨b, y, rfl, hb, hy, -⟩ := exists_skipBlank t
  by_cases hcomma : y.head? = some ','
  · obtain ⟨u, rfl⟩ := List.head?_eq_some_iff.1 hcomma
    rw [afterComma_append hb] at h
    obtain ⟨q, -, heq⟩ := map_eq_ok_iff.1 h
    cases heq
  · rw [afterComma_noComma hb hy hcomma] at h
    obtain rfl := (Prod.mk.inj (Except.ok.inj h)).2
    exact runAfterComma_noComma hb hy hcomma

-- The attempt that does not match must not leave calls, as its cursor is given up.
theorem settles_many (hasks : SettlesUpTo n callers asks A)
    (hnone : ∀ t rest, A t = .ok (none, rest) → asks t = comes (.ok (none, rest)) [])
    (hspends : ∀ t a rest, A t = .ok (some a, rest) → rest.size < t.size) (hconsumes : Consumes A)
    (ht : t.size ≤ n) (hrounds : t.size < rounds) (found : List α) :
    Settles callers t (many asks rounds found t)
      ((repeated A t).map fun q => (found ++ q.1, q.2)) := by
  induction rounds generalizing t found with
  | zero => exact absurd hrounds (Nat.not_lt_zero _)
  | succ rounds ih =>
    obtain ⟨calls, hrun, hcalls⟩ := hasks t ht
    match hread : A t with
    | .error fault =>
      rw [hread] at hrun hcalls
      rw [repeated_of_error hread]
      exact ⟨calls, many_of_error hrun, hcalls.of_error rfl⟩
    | .ok (none, rest) =>
      rw [many_of_none (hnone t rest hread), repeated_of_none hread]
      refine ⟨[], congrArg (fun as => comes (.ok (as, t)) []) (List.append_nil found).symm, ?_⟩
      exact .start (Nat.le_refl _)
    | .ok (some a, rest) =>
      rw [hread] at hrun hcalls
      have hlt := hspends t a rest hread
      obtain ⟨more, hmany, hmore⟩ := ih (t := rest) (by omega) (by omega) (found ++ [a])
      have hvalues : (repeated A t).map (fun q => (found ++ q.1, q.2)) =
          (repeated A rest).map fun q => (found ++ [a] ++ q.1, q.2) := by
        rw [repeated_of_some hconsumes hread]
        cases repeated A rest with
        | error fault => rfl
        | ok q => simp [Except.map]
      rw [hvalues, many_of_some hrun, hmany]
      exact ⟨calls ++ more, rfl, hcalls.append hmore⟩

theorem settles_repeated (hitem : SettlesUpTo n callers item R) (hresumes : Resumes isGlue R)
    (ht : t.size ≤ n) (hrounds : t.size < rounds) :
    Settles callers t (many (runAfterComma item) rounds [] t) (repeated (afterComma R) t) := by
  have hspends : ∀ t a rest, afterComma R t = .ok (some a, rest) → rest.size < t.size :=
    fun _ _ _ => (Spends.of_resumes hresumes).afterComma
  have hmany := settles_many (settles_afterComma hitem) (fun _ _ => runAfterComma_of_none) hspends
    (consumes_of_resumes hresumes) ht hrounds []
  have hid : (repeated (afterComma R) t).map (fun q => ([] ++ q.1, q.2)) =
      repeated (afterComma R) t := by
    cases repeated (afterComma R) t <;> rfl
  rwa [hid] at hmany

theorem settles_sequence (hitem : SettlesUpTo n callers item R) (hresumes : Resumes isGlue R)
    (ht : t.size ≤ n) (hclock : n < clock) :
    Settles callers t (runSequence clock close missing item t) (sequence close missing R t) := by
  unfold runSequence sequence
  cases hmark : skipMark close missing t with
  | ok rest =>
    have hlt := size_lt_of_skipMark hmark
    exact .of_reading (Nat.succ_le_succ (Nat.le_of_lt hlt))
  | error fault =>
    refine (hitem t ht).bind ?_
    intro first t₁ hle
    refine (settles_repeated hitem hresumes (by omega) (by omega)).bind ?_
    intro more t₂ _
    refine .mark ?_
    intro t₃ _
    exact .of_reading (Nat.le_refl _)

end Items

section Values

variable {n : Nat} {inner : Text → Clocked Fault (Call Text) (Json × Text)}

theorem settles_element (h : SettlesUpTo n callers inner value) :
    SettlesUpTo n callers (runElement inner) (element value) := by
  intro t ht
  have hle := size_skipBlank_le t
  exact (h (skipBlank t) (by omega)).before hle

theorem unread_body_le (t : Text) : unread (Quoted.body t) ≤ t.size + 1 := by
  cases hbody : Quoted.body t with
  | error fault => exact Nat.zero_le _
  | ok q =>
    obtain ⟨w, -, rfl⟩ := Quoted.spellings_of_body hbody
    simp only [unread, size_append, size_cons]
    omega

theorem runMember_fail {b y : Text} (hb : Blank b) (hy : Stops isBlank y)
    (hquote : y.head? ≠ some '"') :
    runMember clock inner (b ++ y) = of (fail .memberName y) := by
  rw [runMember, skipBlank_blank_append hb hy]
  split
  · exact absurd rfl hquote
  · rfl

theorem settles_member (h : SettlesUpTo n callers inner value) (hclock : n < clock) :
    SettlesUpTo n callers (runMember clock inner) (member value) := by
  intro t ht
  obtain ⟨b, y, rfl, hb, hy, hskip⟩ := exists_skipBlank t
  by_cases hquote : y.head? = some '"'
  · obtain ⟨rest, rfl⟩ := List.head?_eq_some_iff.1 hquote
    have hle : size rest ≤ (b ++ '"' :: rest).size := by
      simp only [size_append, size_cons]
      omega
    have hbody : Settles callers rest (of (Quoted.body rest)) (Quoted.body rest) :=
      .of_reading (unread_body_le rest)
    simp only [runMember, member, hskip]
    rw [Quoted.runBody_eq (by omega)]
    refine (hbody.bind ?_).before hle
    intro name t₁ hle₁
    refine .mark ?_
    intro t₂ hlt
    exact (settles_element h t₂ (by omega)).map
  · rw [runMember_fail hb hy hquote, member_fail hb hy hquote]
    exact .of_reading (Nat.zero_le _)

theorem unread_value_le {c : Char} : unread (value (c :: t)) ≤ size (c :: t) := by
  cases hread : value (c :: t) with
  | error fault => exact Nat.zero_le _
  | ok q => exact Spends.of_resumes resumes_value _ _ _ hread

theorem settles_behindOpening (hc : IsOpening c) (hinner : SettlesUpTo (size t) callers inner value)
    (hclock : size t < clock) :
    Settles callers t (runValueWith clock inner (c :: t)) (value (c :: t)) := by
  rcases hc with rfl | rfl | rfl
  · rw [value_object]
    have hmember := settles_member hinner hclock
    exact (settles_sequence hmember resumes_member (Nat.le_refl _) hclock).map
  · rw [value_array]
    exact (settles_sequence (settles_element hinner) resumes_element (Nat.le_refl _) hclock).map
  · have hbody : Settles callers t (Quoted.runBody clock t) (Quoted.body t) := by
      rw [Quoted.runBody_eq hclock]
      exact .of_reading (unread_body_le t)
    rw [value_string]
    exact hbody.map

theorem runValueWith_scalar (hc : ¬ IsOpening c) :
    runValueWith clock inner (c :: t) = of (value (c :: t)) := by
  rw [value_eq_valueWith, valueWith_scalar hc]
  unfold runValueWith
  split
  · next heq => exact absurd (.inl (List.cons.inj heq).1) hc
  · next heq => exact absurd (.inr (.inl (List.cons.inj heq).1)) hc
  · next heq => exact absurd (.inr (.inr (List.cons.inj heq).1)) hc
  · rfl

theorem settles_value (ht : t.size < clock) (hcallers : ∀ caller ∈ callers, t.size < caller.size) :
    Settles callers t (runValue clock callers t) (value t) := by
  induction clock generalizing t callers with
  | zero => exact absurd ht (Nat.not_lt_zero _)
  | succ clock ih =>
    cases t with
    | nil => exact ⟨_, rfl, .alone (Nat.zero_le _) hcallers⟩
    | cons c t =>
      have hlt : size t < size (c :: t) := size_lt_append (List.cons_ne_nil c []) t
      by_cases hc : IsOpening c
      · refine (settles_behindOpening hc ?_ (by omega)).enter hlt hcallers
        intro u hu
        exact ih (by omega) (forall_mem_callers (Nat.lt_of_le_of_lt hu hlt) hcallers)
      · rw [runValue, runValueWith_scalar hc]
        exact ⟨_, rfl, .alone unread_value_le hcallers⟩

theorem settles_document (t : Text) (ht : t.size < clock) :
    Settles [] t (runDocument clock t) (document t) := by
  have hle := size_skipBlank_le t
  have hvalue : Settles [] (skipBlank t) (runValue clock [] (skipBlank t)) (value (skipBlank t)) :=
    settles_value (by omega) (List.forall_mem_nil _)
  rw [document_eq]
  refine (hvalue.before hle).bind ?_
  intro v rest _
  refine .of_reading ?_
  have hend := size_skipBlank_le rest
  cases skipBlank rest with
  | nil => exact Nat.succ_le_succ (Nat.zero_le _)
  | cons c x => exact Nat.zero_le _

theorem exists_first {r : Reading (Json × Text)} (h : runDocument clock t = comes r calls) :
    ∃ nested, calls = ⟨skipBlank t, []⟩ :: nested := by
  cases clock with
  | zero => cases h
  | succ clock =>
    rw [runDocument, runElement, runValue, note_bind] at h
    match hx : runValueWith clock (runValue clock [skipBlank t]) (skipBlank t) with
    | none =>
      rw [hx] at h
      cases h
    | some (.error fault, nested) =>
      rw [hx] at h
      exact ⟨nested, (comes_inj h).2.symm⟩
    | some (.ok q, nested) =>
      rw [hx] at h
      exact ⟨nested, (comes_inj h).2.symm.trans (List.append_nil _)⟩

end Values

structure Progress : Prop where
  value : Spends value
  string : Spends Quoted.read
  member : Spends (member Json.value)
  elements : ∀ t v rest, afterComma (element Json.value) t = .ok (some v, rest) → rest.size < t.size
  members : ∀ t m rest, afterComma (Json.member Json.value) t = .ok (some m, rest) →
    rest.size < t.size
  rounds : ∀ s t s' t', Quoted.round (s, t) = .ok (.inl (s', t')) → t'.size < t.size

theorem progress : Progress where
  value := .of_resumes resumes_value
  string := by
    intro t s rest hread
    obtain ⟨w, -, rfl⟩ := Quoted.read_eq_ok_iff.1 hread
    simp only [size_append, size_cons]
    have hpos := Char.utf8Size_pos '"'
    omega
  member := .of_resumes resumes_member
  elements t v rest := Spends.afterComma (.of_resumes resumes_element)
  members t m rest := Spends.afterComma (.of_resumes resumes_member)
  rounds s t s' t' := Quoted.size_lt_of_round

theorem reading_ends (text : Text) :
    Progress ∧ ∃ nested : List (Call Text),
      (∀ clock, text.size < clock →
        runDocument clock text = comes (document text) (⟨skipBlank text, []⟩ :: nested)) ∧
      nested.length ≤ text.size ∧
      ∀ call ∈ nested, call.callers.length ≤ text.size ∧
        ∀ caller ∈ call.callers, call.cursor.size < caller.size := by
  obtain ⟨calls, hrun, hcalls⟩ := settles_document text (Nat.lt_succ_self _)
  obtain ⟨nested, rfl⟩ := exists_first hrun
  refine ⟨progress, nested, ?_, ?_, ?_⟩
  · intro clock hclock
    exact (below_runDocument hclock text).eq_comes hrun
  · have hfew := hcalls.few
    rw [List.length_cons] at hfew
    omega
  · intro call hcall
    have hdeep := hcalls.nested.deep call (List.mem_cons_of_mem _ hcall)
    rw [List.length_nil] at hdeep
    exact ⟨by omega, hcalls.nested.shorter call (List.mem_cons_of_mem _ hcall)⟩

end TextScan.Json

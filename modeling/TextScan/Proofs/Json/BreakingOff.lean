import TextScan.Proofs.Json.Scalar

namespace TextScan.Json

open Grammar Text CharClass Repetition

variable {α β : Type} {t u x rest : Text} {fault : Fault}

theorem breaksOff_at {r : Text → Reading (α × Text)} (hfault : fault.remaining = rest.size)
    (hviable : ∃ z, Stops isGlue z ∧ ReadsWhole r (u ++ z))
    (hlimit : ∀ c more z, rest = c :: more → ∃ fault', r (u ++ c :: z) = .error fault') :
    BreaksOff isGlue (InFront Unfinished fault) r (u ++ rest) := by
  obtain ⟨z, hz, hwhole⟩ := hviable
  exact .of_error ⟨hfault, .nothing⟩ ⟨z, fun _ => hz, hwhole⟩ hlimit

theorem unfinished_append {front part : Text} (h : Unfinished front part) :
    Unfinished (u ++ front) part := by
  cases h with
  | nothing => exact .nothing
  | word hw hpart hne => exact .word hw hpart hne
  | number hrun => exact .number hrun
  | string hs =>
    rw [← List.append_assoc]
    exact .string hs

theorem breaksOff_append {r : Text → Reading (α × Text)} {r' : Text → Reading (β × Text)}
    (h : BreaksOff isGlue (InFront Unfinished fault) r t)
    (hwhole : ∀ x, Follows isGlue t x → ReadsWhole r x → ReadsWhole r' (u ++ x))
    (hreads : ∀ x, x.head? = t.head? → Reads r' (u ++ x) → Reads r x) :
    BreaksOff isGlue (InFront Unfinished fault) r' (u ++ t) :=
  h.behind (fun _ _ hz => hz) hwhole hreads fun _ _ _ _ hat => ⟨hat.1, unfinished_append hat.2⟩

theorem readsWhole_map {r : Text → Reading (α × Text)} {r' : Text → Reading (β × Text)}
    {f : α → β} (hr : r' u = (r x).map fun q => (f q.1, q.2)) (h : ReadsWhole r x) :
    ReadsWhole r' u := by
  obtain ⟨a, ha⟩ := h
  exact ⟨f a, by rw [hr, ha]; rfl⟩

theorem reads_of_map {r : Text → Reading (α × Text)} {r' : Text → Reading (β × Text)}
    {f : α → β} (hr : r' u = (r x).map fun q => (f q.1, q.2)) (h : Reads r' u) : Reads r x := by
  obtain ⟨b, last, hb⟩ := h
  rw [hr] at hb
  obtain ⟨⟨a, last'⟩, ha, -⟩ := map_eq_ok_iff.1 hb
  exact ⟨a, last', ha⟩

theorem breaksOff_map {r : Text → Reading (α × Text)} {r' : Text → Reading (β × Text)}
    (f : α → β) (h : BreaksOff isGlue (InFront Unfinished fault) r t)
    (hr : ∀ x, r' (u ++ x) = (r x).map fun q => (f q.1, q.2)) :
    BreaksOff isGlue (InFront Unfinished fault) r' (u ++ t) :=
  breaksOff_append h (fun x _ => readsWhole_map (hr x)) fun x _ => reads_of_map (hr x)

theorem breaksOff_mark {r r' : Text → Reading (α × Text)} {c : Char}
    (h : BreaksOff isGlue (InFront Unfinished fault) r t) (hr : ∀ x, r' (u ++ c :: x) = r x) :
    BreaksOff isGlue (InFront Unfinished fault) r' (u ++ c :: t) := by
  have hsame : ∀ x, r' (u ++ [c] ++ x) = r x := by
    intro x
    rw [← List.append_cons, hr]
  rw [List.append_cons]
  refine breaksOff_append h ?_ ?_
  · intro x _ hwhole
    rwa [ReadsWhole, hsame]
  · intro x _ hreads
    rwa [Reads, hsame] at hreads

def BreaksOffUpTo (n : Nat) (r : Text → Reading (α × Text)) : Prop :=
  ∀ x fault, x.length ≤ n → r x = .error fault → BreaksOff isGlue (InFront Unfinished fault) r x

theorem BreaksOffUpTo.mono {r : Text → Reading (α × Text)} {n m : Nat} (h : BreaksOffUpTo n r)
    (hm : m ≤ n) : BreaksOffUpTo m r :=
  fun x fault hx => h x fault (Nat.le_trans hx hm)

section Sequences

variable {close : Char} {missing : Requirement} {item : Text → Reading (α × Text)} {n : Nat}

theorem stops_close (hclose : IsClose close) : Stops isGlue [close] :=
  stops_cons.2 hclose.notGlue

theorem items_append {a : α} (hitem : item (u ++ x) = .ok (a, x)) :
    items close missing item (u ++ x) =
      (tail close missing item x).map fun q => (a :: q.1, q.2) := by
  rw [items, hitem]
  rfl

theorem readsWhole_items (hclose : IsClose close) (hresumes : Resumes isGlue item)
    (h : ReadsWhole item x) : ReadsWhole (items close missing item) (x ++ [close]) := by
  obtain ⟨a, ha⟩ := h
  obtain ⟨u, -, rfl, hresume⟩ := hresumes x a [] ha
  rw [List.append_nil]
  have hitem := hresume [close] (.inr (stops_close hclose))
  exact readsWhole_map (items_append hitem) ⟨[], tail_close hclose Blank.nil⟩

theorem breaksOff_tail (hclose : IsClose close) (hresumes : Resumes isGlue item)
    (hitems : ∀ x fault, x.length < t.length → items close missing item x = .error fault →
      BreaksOff isGlue (InFront Unfinished fault) (items close missing item) x)
    (h : tail close missing item t = .error fault) :
    BreaksOff isGlue (InFront Unfinished fault) (tail close missing item) t := by
  obtain ⟨b, x, rfl, hb, hx, -⟩ := exists_skipBlank t
  have hviable : ∃ z, Stops isGlue z ∧ ReadsWhole (tail close missing item) (b ++ z) :=
    ⟨[close], stops_close hclose, [], tail_close hclose hb⟩
  by_cases hcomma : x.head? = some ','
  · obtain ⟨x, rfl⟩ := List.head?_eq_some_iff.1 hcomma
    rw [tail_comma hresumes hb] at h
    have hlt : x.length < (b ++ ',' :: x).length := by
      simp only [List.length_append, List.length_cons]
      omega
    exact breaksOff_mark (hitems x fault hlt h) fun _ => tail_comma hresumes hb
  · have hne : x.head? ≠ some close := by
      intro hhead
      obtain ⟨x, rfl⟩ := List.head?_eq_some_iff.1 hhead
      rw [tail_close hclose hb] at h
      cases h
    rw [tail_fail hb hx hcomma hne] at h
    obtain rfl := Except.error.inj h
    refine breaksOff_at rfl hviable ?_
    rintro c more z rfl
    exact ⟨_, tail_fail hb (stops_cons.2 hx.head) hcomma hne⟩

theorem breaksOff_items (hclose : IsClose close) (hresumes : Resumes isGlue item)
    (hitem : BreaksOffUpTo n item)
    (hn : t.length ≤ n) (h : items close missing item t = .error fault) :
    BreaksOff isGlue (InFront Unfinished fault) (items close missing item) t := by
  induction hlength : t.length using Nat.strongRecOn generalizing t fault with
  | ind m ih =>
    subst hlength
    cases hfirst : item t with
    | error fault' =>
      rw [items, hfirst] at h
      obtain rfl := Except.error.inj h
      refine (hitem t fault' hn hfirst).before ?_ ?_
      · intro x hwhole
        exact ⟨[close], stops_close hclose, readsWhole_items hclose hresumes hwhole⟩
      · rintro x - ⟨as, last, hread⟩
        obtain ⟨⟨a, rest⟩, ha, -⟩ := bind_eq_ok_iff.1 hread
        exact ⟨a, rest, ha⟩
    | ok r =>
      obtain ⟨a, rest⟩ := r
      obtain ⟨u, hu, rfl, hresume⟩ := hresumes t a rest hfirst
      rw [items_append hfirst] at h
      have hlength : 0 < u.length := List.length_pos_iff.2 hu
      have htail := breaksOff_tail (t := rest) hclose hresumes (fun x fault' hx hx' => by
        rw [List.length_append] at hn ih
        exact ih x.length (by omega) (by omega) hx' rfl) (error_of_map h)
      refine breaksOff_append htail ?_ ?_
      · intro x hx hwhole
        exact readsWhole_map (items_append (hresume x hx)) hwhole
      · intro x hx hreads
        exact reads_of_map (items_append (hresume x (.inl hx))) hreads

theorem breaksOff_sequence (hclose : IsClose close) (hresumes : Resumes isGlue item)
    (hskip : ∀ b x, Blank b → item (b ++ x) = item x)
    (hnot : ∀ x, ¬ Reads item (close :: x))
    (hitem : BreaksOffUpTo n item)
    (hn : t.length ≤ n) (h : sequence close missing item t = .error fault) :
    BreaksOff isGlue (InFront Unfinished fault) (sequence close missing item) t := by
  obtain ⟨b, x, rfl, hb, hx, -⟩ := exists_skipBlank t
  have hne : x.head? ≠ some close := by
    intro hhead
    obtain ⟨y, rfl⟩ := List.head?_eq_some_iff.1 hhead
    rw [sequence, skipMark_append hb hclose.notBlank] at h
    cases h
  have hitems : ∀ y, Stops isBlank y → y.head? ≠ some close →
      sequence close missing item (b ++ y) = items close missing item y := by
    intro y hy hhead
    exact sequence_eq_items hb hy hhead (hskip b y hb)
  rw [hitems x hx hne] at h
  rw [List.length_append] at hn
  refine breaksOff_append (breaksOff_items hclose hresumes hitem (by omega) h) ?_ ?_
  · intro y hy hwhole
    have hhead : y.head? ≠ some close := by
      intro hhead
      obtain ⟨z, rfl⟩ := List.head?_eq_some_iff.1 hhead
      obtain ⟨as, hread⟩ := hwhole
      obtain ⟨⟨a, rest⟩, ha, -⟩ := bind_eq_ok_iff.1 hread
      exact hnot z ⟨a, rest, ha⟩
    rwa [ReadsWhole, hitems y (stops_of_follows hy (fun _ => isGlue_of_isBlank) hx) hhead]
  · intro y hy hreads
    rw [← hy] at hne
    have hstops : Stops isBlank y := by rwa [Stops, hy]
    rwa [Reads, hitems y hstops hne] at hreads

end Sequences

theorem element_blank_append {inner : Text → Reading (Json × Text)} (hb : Blank u) :
    element inner (u ++ x) = element inner x := by
  rw [element, element, skipBlank, List.dropWhile_append_of_pos hb]
  rfl

theorem member_blank_append {inner : Text → Reading (Json × Text)} (hb : Blank u) :
    member inner (u ++ x) = member inner x := by
  rw [member, member, skipBlank, List.dropWhile_append_of_pos hb]
  rfl

theorem not_reads_of_opens {item : Text → Reading (α × Text)} {R : Text → α → Prop} {close : Char}
    (hclose : IsClose close) (hitem : ReadsOnly item R) (hopens : Opens close R) (x : Text) :
    ¬ Reads item (close :: x) := by
  rintro ⟨a, rest, hread⟩
  obtain ⟨b, u, hb, hu, hsplit⟩ := hitem _ _ _ hread
  obtain ⟨c, w, rfl, -, hne⟩ := hopens u a hu
  cases b with
  | nil => exact hne (List.cons.inj hsplit).1.symm
  | cons d b =>
    obtain ⟨rfl, -⟩ := List.cons.inj hsplit
    have hblank := hb close (by simp)
    rw [hclose.notBlank] at hblank
    cases hblank

theorem breaksOff_element (hvalue : BreaksOffUpTo t.length value)
    (h : element value t = .error fault) :
    BreaksOff isGlue (InFront Unfinished fault) (element value) t := by
  obtain ⟨b, x, rfl, hb, hx, -⟩ := exists_skipBlank t
  rw [element_append hb hx] at h
  have hbreaks := hvalue x fault (by simp) h
  refine breaksOff_append hbreaks ?_ ?_
  · intro y hy hwhole
    rwa [ReadsWhole, element_append hb (stops_of_follows hy (fun _ => isGlue_of_isBlank) hx)]
  · intro y hy hreads
    have hstops : Stops isBlank y := by rwa [Stops, hy]
    rwa [Reads, element_append hb hstops] at hreads

section Members

theorem readsWhole_colonNull (hb : Blank u) : ReadsWhole colonValue (u ++ ':' :: nullWord) :=
  ⟨null, by rw [colonValue_append hb]; exact value_nullWord []⟩

theorem colonValue_fail (hb : Blank u) (hx : Stops isBlank x) (hcolon : x.head? ≠ some ':') :
    colonValue (u ++ x) = fail .colon x := by
  rw [colonValue, skipMark_fail hb hx hcolon]
  rfl

theorem breaksOff_colonValue (hvalue : BreaksOffUpTo t.length value)
    (h : colonValue t = .error fault) :
    BreaksOff isGlue (InFront Unfinished fault) colonValue t := by
  obtain ⟨b, x, rfl, hb, hx, -⟩ := exists_skipBlank t
  have hviable : ∃ z, Stops isGlue z ∧ ReadsWhole colonValue (b ++ z) :=
    ⟨':' :: nullWord, stops_cons.2 (by decide), readsWhole_colonNull hb⟩
  by_cases hcolon : x.head? = some ':'
  · obtain ⟨x, rfl⟩ := List.head?_eq_some_iff.1 hcolon
    rw [colonValue_append hb] at h
    have hle : x.length ≤ (b ++ ':' :: x).length := by
      rw [List.length_append, List.length_cons]
      omega
    exact breaksOff_mark (breaksOff_element (hvalue.mono hle) h) fun _ => colonValue_append hb
  · rw [colonValue_fail hb hx hcolon] at h
    obtain rfl := Except.error.inj h
    refine breaksOff_at rfl hviable ?_
    rintro c more z rfl
    exact ⟨_, colonValue_fail hb (stops_cons.2 hx.head) hcolon⟩

theorem member_fail (hb : Blank u) (hx : Stops isBlank x) (hquote : x.head? ≠ some '"') :
    member value (u ++ x) = fail .memberName x := by
  rw [member, skipBlank_blank_append hb hx]
  split
  · exact absurd rfl hquote
  · rfl

theorem breaksOff_name (hb : Blank u) (h : Quoted.body t = .error fault) :
    BreaksOff isGlue (InFront Unfinished fault) (member value) (u ++ '"' :: t) := by
  have hskip : ∀ x, skipBlank (u ++ '"' :: x) = '"' :: x :=
    fun x => skipBlank_blank_append hb (stops_cons.2 (by decide))
  have hname : BreaksOff isGlue (InFront UnfinishedString fault)
      (fun x => member value (u ++ '"' :: x)) t := by
    refine (Quoted.breaksOff_body h).before ?_ ?_
    · rintro x ⟨s, hs⟩
      obtain ⟨w, hw, rfl⟩ := Quoted.spellings_of_body hs
      refine ⟨':' :: nullWord, stops_cons.2 (by decide), ?_⟩
      have hsplit : w ++ ['"'] ++ ':' :: nullWord = w ++ '"' :: ([] ++ ':' :: nullWord) := by simp
      exact readsWhole_map (by rw [hsplit, member_append hb hw]) (readsWhole_colonNull Blank.nil)
    · rintro x - ⟨m, last, hread⟩
      simp only [member, hskip] at hread
      obtain ⟨⟨s, rest⟩, hs, -⟩ := bind_eq_ok_iff.1 hread
      exact ⟨s, rest, hs⟩
  rw [List.append_cons]
  refine hname.behind (fun _ _ hz => hz) ?_ ?_ ?_
  · intro x _ hwhole
    rwa [← List.append_cons]
  · intro x _ hreads
    rwa [← List.append_cons] at hreads
  · rintro front part rest - ⟨hremaining, hshape⟩
    rw [← List.append_cons]
    exact ⟨hremaining, .string hshape⟩

theorem breaksOff_member (hvalue : BreaksOffUpTo t.length value)
    (h : member value t = .error fault) :
    BreaksOff isGlue (InFront Unfinished fault) (member value) t := by
  obtain ⟨b, x, rfl, hb, hx, hskip⟩ := exists_skipBlank t
  have hviable : ∃ z, Stops isGlue z ∧ ReadsWhole (member value) (b ++ z) := by
    refine ⟨'"' :: ([] ++ '"' :: ([] ++ ':' :: nullWord)), stops_cons.2 (by decide), ?_⟩
    exact readsWhole_map (member_append hb .nil) (readsWhole_colonNull Blank.nil)
  by_cases hquote : x.head? = some '"'
  · obtain ⟨x, rfl⟩ := List.head?_eq_some_iff.1 hquote
    cases hname : Quoted.body x with
    | error fault' =>
      rw [member, hskip] at h
      simp only [bind, Except.bind, hname] at h
      obtain rfl := Except.error.inj h
      exact breaksOff_name hb hname
    | ok r =>
      obtain ⟨s, rest⟩ := r
      obtain ⟨w, hw, rfl⟩ := Quoted.spellings_of_body hname
      rw [member_append hb hw] at h
      have hle : rest.length ≤ (b ++ '"' :: (w ++ '"' :: rest)).length := by
        simp only [List.length_append, List.length_cons]
        omega
      have hsplit : ∀ y, b ++ '"' :: (w ++ '"' :: y) = b ++ '"' :: (w ++ ['"']) ++ y := by simp
      rw [hsplit]
      refine breaksOff_map (fun v => (s, v))
        (breaksOff_colonValue (hvalue.mono hle) (error_of_map h)) ?_
      intro y
      rw [← hsplit]
      exact member_append hb hw
  · rw [member_fail hb hx hquote] at h
    obtain rfl := Except.error.inj h
    refine breaksOff_at rfl hviable ?_
    rintro c more z rfl
    exact ⟨_, member_fail hb (stops_cons.2 hx.head) hquote⟩

end Members

section Values

theorem value_array (t : Text) : value ('[' :: t) =
    (sequence ']' .commaOrBracket (element value) t).map fun r => (array r.1, r.2) := by
  rw [value_eq_valueWith]
  rfl

theorem value_object (t : Text) : value ('{' :: t) =
    (sequence '}' .commaOrBrace (member value) t).map fun r => (object r.1, r.2) := by
  rw [value_eq_valueWith]
  rfl

theorem value_string (t : Text) : value ('"' :: t) =
    (Quoted.body t).map fun r => (string r.1, r.2) := by
  rw [value_eq_valueWith]
  rfl

theorem breaksOff_array (hvalue : BreaksOffUpTo t.length value)
    (h : value ('[' :: t) = .error fault) :
    BreaksOff isGlue (InFront Unfinished fault) value ('[' :: t) := by
  have hitem : BreaksOffUpTo t.length (element value) :=
    fun x _ hx => breaksOff_element (hvalue.mono hx)
  have hnot := not_reads_of_opens (.inl rfl) (readsOnly_element readsValues_value)
    (opens_value (.inl rfl))
  rw [value_array] at h
  exact breaksOff_map (u := ['[']) array
    (breaksOff_sequence (.inl rfl) resumes_element (fun _ _ => element_blank_append) hnot hitem
      (Nat.le_refl t.length) (error_of_map h)) value_array

theorem breaksOff_object (hvalue : BreaksOffUpTo t.length value)
    (h : value ('{' :: t) = .error fault) :
    BreaksOff isGlue (InFront Unfinished fault) value ('{' :: t) := by
  have hitem : BreaksOffUpTo t.length (member value) :=
    fun x _ hx => breaksOff_member (hvalue.mono hx)
  have hnot := not_reads_of_opens (.inr rfl) (readsOnly_member readsValues_value)
    (opens_member (.inr rfl))
  rw [value_object] at h
  exact breaksOff_map (u := ['{']) object
    (breaksOff_sequence (.inr rfl) resumes_member (fun _ _ => member_blank_append) hnot hitem
      (Nat.le_refl t.length) (error_of_map h)) value_object

theorem breaksOff_string (h : value ('"' :: t) = .error fault) :
    BreaksOff isGlue (InFront Unfinished fault) value ('"' :: t) := by
  rw [value_string] at h
  refine (Quoted.breaksOff_body (error_of_map h)).behind (u := ['"']) (fun _ _ hz => hz) ?_ ?_ ?_
  · exact fun x _ => readsWhole_map (value_string x)
  · exact fun x _ => reads_of_map (value_string x)
  · rintro front part rest - ⟨hremaining, hshape⟩
    exact ⟨hremaining, .string (o := []) hshape⟩

theorem breaksOff_value (h : value t = .error fault) :
    BreaksOff isGlue (InFront Unfinished fault) value t := by
  induction hlength : t.length using Nat.strongRecOn generalizing t fault with
  | ind n ih =>
    subst hlength
    by_cases hopen : ∃ c r, t = c :: r ∧ IsOpening c
    · obtain ⟨c, r, rfl, hc⟩ := hopen
      have hvalue : BreaksOffUpTo r.length value :=
        fun x fault' hx hread => ih x.length (Nat.lt_succ_of_le hx) hread rfl
      rcases hc with rfl | rfl | rfl
      · exact breaksOff_object hvalue h
      · exact breaksOff_array hvalue h
      · exact breaksOff_string h
    · refine breaksOff_scalar ?_ h
      intro c r ht hc
      exact hopen ⟨c, r, ht, hc⟩

end Values

end TextScan.Json

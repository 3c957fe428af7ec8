import TextScan.Proofs.Repetition
import TextScan.Proofs.Xml.Document
import TextScan.Proofs.Xml.Running
/-!
The reader of elements ends on every text and with every slot. An element inside another is read
only with an empty slot and in front of its first character, which its start tag then takes, so that
it is read from less than the element around it and leaves less than it is read from, whatever fault
comes behind that character. Once there is a fault no call is made, so all calls of a run stand
before all that is logged.
-/

namespace TextScan.Xml

open Cursor Run Clocked Repetition

variable {β δ : Type} {last : β → Collecting} {last' : δ → Collecting}
  {callers : List Collecting} {c d e : Collecting} {calls others : List (Call Collecting)}
  {events more : List Event} {x : Clocked Fault Note β} {y : Run β}

section Calls

def notes (calls : List (Call Collecting)) (events : List Event) : List Note :=
  calls.map .entered ++ events.map .logged

/-- What a run does to the cursor, what it logs, and the calls it makes, which are made in front of
an empty slot only and paid for by what is read. -/
structure Ends (callers : List Collecting) (c d : Collecting) (calls : List (Call Collecting))
    (events : List Event) : Prop extends Goes c d events where
  uncalled : ∀ first, c.slot = some first → calls = []
  few : calls.length + remaining d ≤ remaining c
  unfilled : ∀ call ∈ calls, call.cursor.slot = none
  nested : Nested remaining callers c calls

theorem Goes.ends (h : Goes c d events) : Ends callers c d [] events :=
  { h with
    uncalled := fun _ _ => rfl
    few := by
      rw [List.length_nil, Nat.zero_add]
      exact Text.size_le_of_suffix h.drops
    unfilled := List.forall_mem_nil _
    nested := .nil }

theorem Ends.trans (h : Ends callers c d calls events) (hmore : Ends callers d e others more) :
    Ends callers c e (calls ++ others) (events ++ more) := by
  have hfew := h.few
  have hfew' := hmore.few
  refine ⟨h.toGoes.trans hmore.toGoes, ?_, ?_, ?_, h.nested.append (hmore.nested.before (by omega))⟩
  · intro first hc
    rw [h.uncalled first hc, hmore.uncalled first (h.kept first hc)]
    rfl
  · rw [List.length_append]
    omega
  · exact List.forall_mem_append.2 ⟨h.unfilled, hmore.unfilled⟩

-- With a fault in the slot in between there are no calls behind it, and without one nothing is
-- logged in front of it.
theorem notes_append (h : Ends callers c d calls events) (hmore : Ends callers d e others more) :
    notes calls events ++ notes others more = notes (calls ++ others) (events ++ more) := by
  cases hd : d.slot with
  | none =>
    rw [h.silent hd]
    simp [notes]
  | some first =>
    rw [hmore.uncalled first hd]
    simp [notes]

end Calls

section Settling

def Settles (last : β → Collecting) (callers : List Collecting) (c : Collecting)
    (x : Clocked Fault Note β) (y : Run β) : Prop :=
  ∃ b calls, y.outcome = .ok b ∧ x = comes (.ok b) (notes calls y.run.events) ∧
    Ends callers c (last b) calls y.run.events

theorem GoesOn.settles (h : GoesOn last c y) : Settles last callers c (logged y) y := by
  obtain ⟨b, hy, hgoes⟩ := h
  exact ⟨b, [], hy, congrArg (comes · _) hy, hgoes.ends⟩

theorem Settles.pure {b : β} (h : Scanned c (last b)) :
    Settles last callers c (Pure.pure b) (Pure.pure b) :=
  ⟨b, [], rfl, rfl, (Goes.of_scanned h).ends⟩

theorem Settles.bind {k : β → Clocked Fault Note δ} {f : β → Run δ}
    (h : Settles last callers c x y)
    (hk : ∀ b, y.outcome = .ok b → (last b).rest <:+ c.rest →
      Settles last' callers (last b) (k b) (f b)) :
    Settles last' callers c (x >>= k) (y >>= f) := by
  obtain ⟨b, calls, hy, hx, hends⟩ := h
  obtain ⟨b', others, hf, hkb, hends'⟩ := hk b hy hends.drops
  have hevents := events_bind_of_ok (f := f) hy
  refine ⟨b', calls ++ others, (outcome_bind_of_ok hy f).trans hf, ?_, ?_⟩
  · rw [bind_of_ok hx, hkb, behind_comes, notes_append hends hends', hevents]
  · rw [hevents]
    exact hends.trans hends'

end Settling

variable {rounds limit : Nat} {run : Collecting → Clocked Fault Note (Element × Collecting)}
  {inner : Collecting → Run (Element × Collecting)} {s t : Text}

section Items

/-- What is known of the reader for the elements inside of a text. It is asked with an empty slot in
front of a tag, and takes the first character of it whatever comes behind that. -/
def SettlesInside (s : Text) (callers : List Collecting)
    (run : Collecting → Clocked Fault Note (Element × Collecting))
    (inner : Collecting → Run (Element × Collecting)) : Prop :=
  ∀ c t, c.slot = none → c.rest = '<' :: t → c.rest <:+ s →
    Settles Prod.snd callers c (run c) (inner c) ∧
      ∀ e d, (inner c).outcome = .ok (e, d) → d.rest <:+ t

def isOver (c : Collecting) : Bool :=
  (Policy.fault? c).isSome || isAtEnd c || startsWith ['<', '/'] c

theorem isOver_of_slot {first : Fault} (h : c.slot = some first) : isOver c = true := by
  have hfault : (Policy.fault? c).isSome = true := by
    change c.slot.isSome = true
    rw [h]
    rfl
  rw [isOver, hfault]
  rfl

theorem of_not_isOver (h : isOver c = false) : c.slot = none ∧ c.rest ≠ [] := by
  constructor
  · cases hc : c.slot with
    | none => rfl
    | some first =>
      rw [isOver_of_slot hc] at h
      cases h
  · intro hnil
    have hend : isAtEnd c = true := List.isEmpty_iff.2 hnil
    simp [isOver, hend] at h

theorem of_nextIs {p : Char → Bool} (h : nextIs p c = true) :
    ∃ x t, c.rest = x :: t ∧ p x = true := by
  change c.rest.head?.any p = true at h
  cases hrest : c.rest with
  | nil =>
    rw [hrest] at h
    cases h
  | cons x t =>
    rw [hrest] at h
    exact ⟨x, t, rfl, h⟩

theorem settles_item (hinner : SettlesInside s callers run inner) (hc : c.rest <:+ s)
    (hover : isOver c = false) :
    Settles Prod.snd callers c (runItem run c) (item inner c) ∧
      ∀ a? d, (item inner c).outcome = .ok (a?, d) →
        a?.isSome ∧ d.rest.length < c.rest.length := by
  obtain ⟨hslot, hrest⟩ := of_not_isOver hover
  have hguard : ¬ isOver c = true := by simp [hover]
  rw [isOver] at hguard
  rw [runItem, item, if_neg hguard, if_neg hguard]
  cases hnext : nextIs (· == '<') c with
  | true =>
    obtain ⟨x, t, ht, hx⟩ := of_nextIs hnext
    obtain rfl : x = '<' := by simpa using hx
    obtain ⟨hsettles, hdrops⟩ := hinner c t hslot ht hc
    rw [if_pos rfl, if_pos rfl]
    refine ⟨hsettles.bind fun q _ _ => .pure (Scanned.refl q.2), ?_⟩
    intro a? d hread
    obtain ⟨⟨e, d'⟩, he, heq⟩ := outcome_bind_eq_ok_iff.1 hread
    obtain ⟨rfl, rfl⟩ := Prod.mk.inj (Except.ok.inj heq)
    have hle := (hdrops e d' he).length_le
    rw [ht, List.length_cons]
    exact ⟨rfl, by omega⟩
  | false =>
    rw [if_neg (by simp), if_neg (by simp)]
    refine ⟨.pure (scanned_takeWhile _ c), ?_⟩
    intro a? d hread
    obtain ⟨rfl, rfl⟩ := Prod.mk.inj (Except.ok.inj hread)
    exact ⟨rfl, length_dropWhile_lt hrest hnext⟩

theorem item_of_isOver (h : isOver c = true) : item inner c = pure (none, c) :=
  if_pos h

theorem collect_of_isOver (h : isOver c = true) :
    collect (item inner) (limit + 1) c = pure ([], c) := by
  rw [collect, item_of_isOver h, pure_bind]

theorem runItem_of_isOver (h : isOver c = true) : runItem run c = comes (.ok (none, c)) [] :=
  if_pos h

theorem remaining_lt_of_suffix (h : d.rest <:+ c.rest) (hlt : d.rest.length < c.rest.length) :
    remaining d < remaining c := by
  obtain ⟨u, hu⟩ := h
  have hne : u ≠ [] := by
    rintro rfl
    rw [← hu] at hlt
    exact Nat.lt_irrefl _ hlt
  change d.rest.size < c.rest.size
  rw [← hu]
  exact Text.size_lt_append hne d.rest

theorem collect_of_outcomes {f : Collecting → Run (Option (Item Element) × Collecting)}
    {a : Item Element} {items : List (Item Element)} (hy : (f c).outcome = .ok (some a, d))
    (hmore : (collect f limit d).outcome = .ok (items, e)) :
    (collect f (limit + 1) c).outcome = .ok (a :: items, e) ∧
      (collect f (limit + 1) c).run.events =
        (f c).run.events ++ (collect f limit d).run.events := by
  rw [collect, outcome_bind_of_ok hy, events_bind_of_ok hy]
  refine ⟨outcome_bind_of_ok hmore _, congrArg ((f c).run.events ++ ·) ?_⟩
  exact (events_bind_of_ok hmore).trans (List.append_nil _)

theorem settles_items (hinner : c.slot = none → SettlesInside s callers run inner)
    (hc : c.rest <:+ s) (hrounds : remaining c < rounds) (hlimit : c.rest.length < limit) :
    ∃ items d calls, (collect (item inner) limit c).outcome = .ok (items, d) ∧
      (∀ found, many (runItem run) rounds found c =
        comes (.ok (found ++ items, d)) (notes calls (collect (item inner) limit c).run.events)) ∧
      Ends callers c d calls (collect (item inner) limit c).run.events := by
  induction rounds generalizing c limit with
  | zero => exact absurd hrounds (Nat.not_lt_zero _)
  | succ rounds ih =>
    obtain ⟨limit, rfl⟩ := Nat.exists_eq_add_one_of_ne_zero (Nat.ne_zero_of_lt hlimit)
    cases hover : isOver c with
    | true =>
      rw [collect_of_isOver hover]
      refine ⟨[], c, [], rfl, ?_, (Goes.of_scanned (Scanned.refl c)).ends⟩
      intro found
      rw [List.append_nil]
      exact many_of_none (runItem_of_isOver hover)
    | false =>
      have hslot := (of_not_isOver hover).1
      obtain ⟨hitem, hsome⟩ := settles_item (hinner hslot) hc hover
      obtain ⟨⟨a?, d⟩, calls, hy, hx, hends⟩ := hitem
      obtain ⟨hasSome, hlength⟩ := hsome a? d hy
      obtain ⟨a, rfl⟩ := Option.isSome_iff_exists.1 hasSome
      have hlt : remaining d < remaining c := remaining_lt_of_suffix hends.drops hlength
      have hlimit' : d.rest.length < limit := by omega
      obtain ⟨items, e, others, hmore, hmany, hends'⟩ :=
        ih (fun _ => hinner hslot) (hends.drops.trans hc)
          (Nat.lt_of_lt_of_le hlt (Nat.le_of_lt_succ hrounds)) hlimit'
      obtain ⟨hcollect, hevents⟩ := collect_of_outcomes hy hmore
      refine ⟨a :: items, e, calls ++ others, hcollect, ?_, ?_⟩
      · intro found
        rw [many_of_some hx, hmany, behind_comes, notes_append hends hends', hevents,
          List.append_assoc]
        rfl
      · rw [hevents]
        exact hends.trans hends'

end Items

section Elements

theorem settles_behindTag (hinner : c.slot = none → SettlesInside s callers run inner)
    (hc : c.rest <:+ s) (hrounds : remaining c < rounds) (tag : Text × Bool) :
    Settles Prod.snd callers c
      (if tag.2 then pure (Element.empty tag.1, c) else do
        let (items, c) ← many (runItem run) rounds [] c
        let c ← logged (endTag tag.1 c)
        pure (Element.full tag.1 items, c))
      (if tag.2 then pure (Element.empty tag.1, c) else do
        let (items, c) ← repeated (item inner) c
        let c ← endTag tag.1 c
        pure (Element.full tag.1 items, c)) := by
  obtain ⟨name, closed⟩ := tag
  cases closed with
  | true => exact .pure (Scanned.refl c)
  | false =>
    have hitems : Settles Prod.snd callers c (many (runItem run) rounds [] c)
        (repeated (item inner) c) := by
      obtain ⟨items, d, calls, hy, hmany, hends⟩ :=
        settles_items hinner hc hrounds (Nat.lt_succ_self _)
      exact ⟨(items, d), calls, hy, hmany [], hends⟩
    refine hitems.bind ?_
    rintro ⟨items, d⟩ - -
    exact (goesOn_endTag name d).settles.bind fun e _ _ => .pure (Scanned.refl e)

theorem settles_mark (ht : c.rest = '<' :: t) (hinner : SettlesInside t callers run inner)
    (hrounds : Text.size t < rounds) :
    Settles Prod.snd callers { c with rest := t } (runElementWith rounds run c)
      (elementWith inner c) := by
  refine (startTag_of_mark ht).settles.bind ?_
  rintro ⟨tag, d⟩ - hd
  have hle : remaining d ≤ Text.size t := Text.size_le_of_suffix hd
  exact settles_behindTag (fun _ => hinner) hd (Nat.lt_of_le_of_lt hle hrounds) tag

theorem remaining_lt_of_mark (ht : c.rest = '<' :: t) : Text.size t < remaining c := by
  have hpos := Char.utf8Size_pos '<'
  change Text.size t < Text.size c.rest
  rw [ht, Text.size_cons]
  omega

-- The first character of the tag pays for the call.
theorem Ends.enter (hslot : c.slot = none) (ht : c.rest = '<' :: t)
    (hcallers : ∀ caller ∈ callers, remaining c < remaining caller)
    (h : Ends (c :: callers) { c with rest := t } d calls events) :
    Ends callers c d (⟨c, callers⟩ :: calls) events := by
  have hlt : remaining { c with rest := t } < remaining c := remaining_lt_of_mark ht
  have hfew := h.few
  refine ⟨⟨h.silent, h.kept, ?_⟩, ?_, ?_, List.forall_mem_cons.2 ⟨hslot, h.unfilled⟩,
    (h.nested.inside hlt).cons hcallers⟩
  · rw [ht]
    exact h.drops.trans (List.suffix_cons '<' t)
  · intro first hc
    rw [hslot] at hc
    cases hc
  · rw [List.length_cons]
    omega

theorem settlesInside_element {levels clock : Nat} (hclock : Text.size s < clock)
    (hlevels : s.length ≤ levels) (hcallers : ∀ caller ∈ callers, Text.size s < remaining caller) :
    SettlesInside s callers (runElement clock callers) (elementUpTo levels) := by
  induction clock generalizing levels callers s with
  | zero => exact absurd hclock (Nat.not_lt_zero _)
  | succ clock ih =>
    intro c t hslot ht hc
    have hle : remaining c ≤ Text.size s := Text.size_le_of_suffix hc
    have hlt := remaining_lt_of_mark ht
    have hlength := hc.length_le
    rw [ht, List.length_cons] at hlength
    obtain ⟨levels, rfl⟩ : ∃ n, levels = n + 1 := Nat.exists_eq_add_one_of_ne_zero (by omega)
    have hcallers' : ∀ caller ∈ callers, remaining c < remaining caller :=
      fun caller h => Nat.lt_of_le_of_lt hle (hcallers caller h)
    have hinner : SettlesInside t (c :: callers) (runElement clock (c :: callers))
        (elementUpTo levels) := by
      refine ih (by omega) (by omega) (List.forall_mem_cons.2 ⟨hlt, ?_⟩)
      exact fun caller h => Nat.lt_trans hlt (hcallers' caller h)
    have hrounds : Text.size t < clock := by omega
    obtain ⟨b, calls, hb, hrun, hends⟩ := settles_mark ht hinner hrounds
    refine ⟨⟨b, ⟨c, callers⟩ :: calls, hb, ?_, hends.enter hslot ht hcallers'⟩, ?_⟩
    · rw [runElement, hrun]
      rfl
    · intro e d hread
      obtain rfl := Except.ok.inj (hb.symm.trans hread)
      exact hends.drops

end Elements

section Roots

structure Bounded (c d : Collecting) (calls : List (Call Collecting)) (events : List Event) :
    Prop extends Goes c d events where
  uncalled : ∀ first, c.slot = some first → calls = []
  few : calls.length ≤ remaining c
  unfilled : ∀ call ∈ calls, call.cursor.slot = none
  shallow : ∀ call ∈ calls, call.callers.length ≤ remaining c
  shorter : ∀ call ∈ calls, ∀ caller ∈ call.callers, remaining call.cursor < remaining caller

theorem Goes.bounded (h : Goes c d events) : Bounded c d [] events :=
  { h with
    uncalled := fun _ _ => rfl
    few := Nat.zero_le _
    unfilled := List.forall_mem_nil _
    shallow := List.forall_mem_nil _
    shorter := List.forall_mem_nil _ }

theorem Ends.bounded (ht : c.rest = '<' :: t)
    (h : Ends [c] { c with rest := t } d calls events) : Bounded c d calls events := by
  have hlt := remaining_lt_of_mark ht
  have hstart : remaining { c with rest := t } = Text.size t := rfl
  have hfew := h.few
  refine ⟨⟨h.silent, h.kept, ?_⟩, h.uncalled, by omega, h.unfilled, ?_, h.nested.shorter⟩
  · rw [ht]
    exact h.drops.trans (List.suffix_cons '<' t)
  · intro call hcall
    have hdeep := h.nested.deep call hcall
    rw [List.length_singleton] at hdeep
    omega

variable (run inner) in
-- In front of anything but a mark the start tag leaves a fault in the slot, so that no element is
-- read behind it.
theorem goes_noMark (hmark : nextIs (· == '<') c = false) (hrounds : remaining c < rounds) :
    ∃ b, (elementWith inner c).outcome = .ok b ∧
      runElementWith rounds run c = comes (.ok b) (notes [] (elementWith inner c).run.events) ∧
      Goes c b.2 (elementWith inner c).run.events := by
  obtain ⟨⟨tag, d⟩, htag, hgoes⟩ := goesOn_startTag c
  have hslot : d.slot ≠ none := slot_of_startTag hmark htag
  obtain ⟨first, hfirst⟩ := Option.ne_none_iff_exists'.1 hslot
  have hle : remaining d ≤ remaining c := Text.size_le_of_suffix hgoes.drops
  have hinner : d.slot = none → SettlesInside d.rest [] run inner := fun hd => absurd hd hslot
  obtain ⟨b, calls, hb, hrun, hends⟩ :=
    settles_behindTag hinner List.suffix_rfl (Nat.lt_of_le_of_lt hle hrounds) tag
  obtain rfl := hends.uncalled first hfirst
  have hx : logged (startTag c) = comes (.ok (tag, d)) (notes [] (startTag c).run.events) :=
    congrArg (comes · _) htag
  have hevents : (elementWith inner c).run.events = (startTag c).run.events ++ _ :=
    events_bind_of_ok htag
  rw [hevents]
  refine ⟨b, (outcome_bind_of_ok htag _).trans hb, ?_, hgoes.trans hends.toGoes⟩
  rw [runElementWith, bind_of_ok hx]
  exact (congrArg (behind _) hrun).trans (congrArg (comes _) (notes_append hgoes.ends hends))

theorem items_of_slot {first : Fault} {r : Element} (hslot : c.slot = some first)
    (h : (elementWith inner c).outcome = .ok (r, d)) : r.items = [] := by
  obtain ⟨⟨⟨name, closed⟩, behind⟩, htag, hgoes⟩ := goesOn_startTag c
  rw [elementWith, outcome_bind_of_ok htag] at h
  cases closed with
  | true =>
    obtain ⟨rfl, -⟩ := Prod.mk.inj (Except.ok.inj h)
    rfl
  | false =>
    have hitems : repeated (item inner) behind = pure ([], behind) :=
      collect_of_isOver (isOver_of_slot (hgoes.kept first hslot))
    simp only [Bool.false_eq_true, if_false, hitems, pure_bind] at h
    obtain ⟨last, -, hlast⟩ := outcome_bind_eq_ok_iff.1 h
    obtain ⟨rfl, -⟩ := Prod.mk.inj (Except.ok.inj hlast)
    rfl

theorem bounded_mark {clock : Nat} (ht : c.rest = '<' :: t) (hclock : remaining c < clock) :
    ∃ b calls, (element c).outcome = .ok b ∧
      runElementWith clock (runElement clock [c]) c =
        comes (.ok b) (notes calls (element c).run.events) ∧
      Bounded c b.2 calls (element c).run.events := by
  have hlt := remaining_lt_of_mark ht
  have helement : element c = elementWith (elementUpTo t.length) c := by
    change elementUpTo c.rest.length c = _
    rw [ht]
    rfl
  have hinner : SettlesInside t [c] (runElement clock [c]) (elementUpTo t.length) :=
    settlesInside_element (by omega) (Nat.le_refl _) (List.forall_mem_singleton.2 hlt)
  have hrounds : Text.size t < clock := by omega
  obtain ⟨b, calls, hb, hrun, hends⟩ := settles_mark ht hinner hrounds
  rw [helement]
  exact ⟨b, calls, hb, hrun, hends.bounded ht⟩

theorem bounded_element {clock : Nat} (hclock : remaining c < clock) :
    ∃ b calls, (element c).outcome = .ok b ∧
      runElementWith clock (runElement clock [c]) c =
        comes (.ok b) (notes calls (element c).run.events) ∧
      Bounded c b.2 calls (element c).run.events ∧
      ∀ first, c.slot = some first → b.1.items = [] := by
  obtain ⟨inner, helement⟩ : ∃ inner, element c = elementWith inner c := by
    rw [element]
    cases (Cursor.rest c).length with
    | zero => exact ⟨_, rfl⟩
    | succ n => exact ⟨_, rfl⟩
  have hitems : ∀ b, (element c).outcome = .ok b →
      ∀ first, c.slot = some first → b.1.items = [] := by
    rintro ⟨e, d⟩ hb first hfirst
    rw [helement] at hb
    exact items_of_slot hfirst hb
  cases hmark : nextIs (· == '<') c with
  | true =>
    obtain ⟨x, t, ht, hx⟩ := of_nextIs hmark
    obtain rfl : x = '<' := by simpa using hx
    obtain ⟨b, calls, hb, hrun, hbounded⟩ := bounded_mark ht hclock
    exact ⟨b, calls, hb, hrun, hbounded, hitems b hb⟩
  | false =>
    obtain ⟨b, hb, hrun, hgoes⟩ := goes_noMark (runElement clock [c]) inner hmark hclock
    rw [← helement] at hb hrun hgoes
    exact ⟨b, [], hb, hrun, hgoes.bounded, hitems b hb⟩

theorem remaining_lt_of_item {a : Item Element} {next : Collecting}
    (h : (item element c).outcome = .ok (some a, next)) : remaining next < remaining c := by
  cases hover : isOver c with
  | true =>
    rw [item_of_isOver hover] at h
    cases h
  | false =>
    have hinner : SettlesInside c.rest [] (runElement (remaining c + 1) []) element := by
      intro d u hslot hu hd
      have hle : remaining d ≤ remaining c := Text.size_le_of_suffix hd
      have hinside := settlesInside_element (Nat.lt_succ_of_le hle) (Nat.le_refl d.rest.length)
        (List.forall_mem_nil _)
      exact hinside d u hslot hu List.suffix_rfl
    obtain ⟨⟨b, calls, hread, -, hends⟩, hsome⟩ := settles_item hinner List.suffix_rfl hover
    obtain rfl := Except.ok.inj (hread.symm.trans h)
    exact remaining_lt_of_suffix hends.drops (hsome _ _ h).2

theorem element_ends (c : Collecting) :
    (∀ a next, (item element c).outcome = .ok (some a, next) → remaining next < remaining c) ∧
    ∃ e d nested, (element c).outcome = .ok (e, d) ∧
      (∀ clock, remaining c + 1 < clock → runElement clock [] c =
        comes (.ok (e, d)) (notes (⟨c, []⟩ :: nested) (element c).run.events)) ∧
      nested.length ≤ remaining c ∧
      (∀ call ∈ nested, call.cursor.slot = none ∧ call.callers.length ≤ remaining c ∧
        ∀ caller ∈ call.callers, remaining call.cursor < remaining caller) ∧
      ∀ first, c.slot = some first → nested = [] ∧ d.slot = some first ∧ e.items = [] := by
  obtain ⟨⟨e, d⟩, nested, hread, hrun, hbounded, hitems⟩ :=
    bounded_element (Nat.lt_succ_self (remaining c))
  refine ⟨fun a next => remaining_lt_of_item, e, d, nested, hread, ?_, hbounded.few, ?_, ?_⟩
  · intro clock hclock
    refine (below_runElement hclock [] c).eq_comes ?_
    rw [runElement, hrun]
    rfl
  · intro call hcall
    exact ⟨hbounded.unfilled call hcall, hbounded.shallow call hcall, hbounded.shorter call hcall⟩
  · intro first hfirst
    exact ⟨hbounded.uncalled first hfirst, hbounded.kept first hfirst, hitems first hfirst⟩

end Roots

end TextScan.Xml

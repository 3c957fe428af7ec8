import TextScan.Trace
/-!
Runs against a clock. A call of a recursion takes a tick, and so does a round of a loop, and a run
that is not over when the clock stops comes to nothing: what goes on for ever comes to nothing on
every clock. A run that is over comes to a result and to the notes that it took on its way.
-/

namespace TextScan

def Clocked (ε ν α : Type) : Type :=
  Option (Except ε α × List ν)

namespace Clocked

variable {ε ν α β σ : Type} {notes more : List ν} {r : Except ε α} {fault : ε} {clock : Nat}

def stopped : Clocked ε ν α :=
  none

def comes (r : Except ε α) (notes : List ν) : Clocked ε ν α :=
  some (r, notes)

def of (r : Except ε α) : Clocked ε ν α :=
  comes r []

def note (n : ν) : Clocked ε ν Unit :=
  comes (.ok ()) [n]

def behind (notes : List ν) : Clocked ε ν α → Clocked ε ν α
  | none => stopped
  | some (r, more) => comes r (notes ++ more)

@[simp] theorem behind_comes : (comes r more).behind notes = comes r (notes ++ more) := rfl

@[simp] theorem behind_stopped : (stopped : Clocked ε ν α).behind notes = stopped := rfl

@[simp] theorem behind_nil (x : Clocked ε ν α) : x.behind [] = x := by
  cases x <;> rfl

theorem behind_behind (x : Clocked ε ν α) :
    (x.behind more).behind notes = x.behind (notes ++ more) := by
  cases x with
  | none => rfl
  | some r => exact congrArg (comes r.1) (List.append_assoc ..).symm

theorem comes_inj {r' : Except ε α} (h : comes r notes = comes r' more) : r = r' ∧ notes = more :=
  Prod.mk.inj (Option.some.inj h)

instance : Monad (Clocked ε ν) where
  pure a := comes (.ok a) []
  bind x f :=
    match x with
    | none => stopped
    | some (.error fault, notes) => comes (.error fault) notes
    | some (.ok a, notes) => (f a).behind notes

theorem bind_of_ok {x : Clocked ε ν α} {a : α} (h : x = comes (.ok a) notes)
    (f : α → Clocked ε ν β) : x >>= f = (f a).behind notes := by
  rw [h]
  rfl

theorem bind_of_error {x : Clocked ε ν α} (h : x = comes (.error fault) notes)
    (f : α → Clocked ε ν β) : x >>= f = comes (.error fault) notes := by
  rw [h]
  rfl

theorem ok_bind (a : α) (f : α → Clocked ε ν β) : of (.ok a) >>= f = f a :=
  (bind_of_ok rfl f).trans (behind_nil _)

theorem of_map (r : Except ε α) (f : α → β) :
    (of (r.map f) : Clocked ε ν β) = of r >>= fun a => of (.ok (f a)) := by
  cases r <;> rfl

theorem note_bind (n : ν) (f : Unit → Clocked ε ν β) : note n >>= f = (f ()).behind [n] := rfl

theorem exists_of_behind {x : Clocked ε ν α} (h : x.behind notes = comes r more) :
    ∃ calls, x = comes r calls := by
  match x with
  | none => cases h
  | some (r', calls) =>
    obtain ⟨rfl, -⟩ := comes_inj h
    exact ⟨calls, rfl⟩

theorem exists_of_bind {x : Clocked ε ν α} {f : α → Clocked ε ν β} {r : Except ε β}
    (h : x >>= f = comes r notes) :
    (∃ fault before, x = comes (.error fault) before ∧ r = .error fault) ∨
      ∃ a before more, x = comes (.ok a) before ∧ f a = comes r more := by
  match x with
  | none => cases h
  | some (.error fault, before) => exact .inl ⟨fault, before, rfl, (comes_inj h).1.symm⟩
  | some (.ok a, before) =>
    obtain ⟨more, hf⟩ := exists_of_behind (x := f a) h
    exact .inr ⟨a, before, more, rfl, hf⟩

section Below

variable {x y : Clocked ε ν α} {f g : α → Clocked ε ν β}

-- A run that is over is not changed by what it is below.
def Below (x y : Clocked ε ν α) : Prop :=
  x = stopped ∨ x = y

theorem Below.refl (x : Clocked ε ν α) : Below x x :=
  .inr rfl

theorem Below.eq_comes (h : Below x y) (hx : x = comes r notes) : y = comes r notes := by
  rcases h with rfl | rfl
  · cases hx
  · exact hx

theorem Below.bind (h : Below x y) (hfg : ∀ a, Below (f a) (g a)) : Below (x >>= f) (y >>= g) := by
  rcases h with rfl | rfl
  · exact .inl rfl
  · match x with
    | none => exact .inl rfl
    | some (.error fault, notes) => exact .inr rfl
    | some (.ok a, notes) =>
      rcases hfg a with hstopped | heq
      · exact .inl (congrArg (behind notes) hstopped)
      · exact .inr (congrArg (behind notes) heq)

end Below

section Loops

variable {round : σ → Clocked ε ν (σ ⊕ β)} {s next : σ} {b : β}

def loop (round : σ → Clocked ε ν (σ ⊕ β)) : Nat → σ → Clocked ε ν β
  | 0, _ => stopped
  | clock + 1, s => do
    match ← round s with
    | .inl next => loop round clock next
    | .inr b => pure b

theorem loop_of_inl (h : round s = comes (.ok (.inl next)) notes) :
    loop round (clock + 1) s = (loop round clock next).behind notes :=
  bind_of_ok h _

theorem loop_of_inr (h : round s = comes (.ok (.inr b)) notes) :
    loop round (clock + 1) s = comes (.ok b) notes :=
  (bind_of_ok h _).trans (congrArg (comes _) (List.append_nil notes))

theorem loop_of_error (h : round s = comes (.error fault) notes) :
    loop round (clock + 1) s = comes (.error fault) notes :=
  bind_of_error h _

section Steps

variable {step : σ → Except ε (σ ⊕ β)}

theorem loop_of_next (h : step s = .ok (.inl next)) :
    loop (fun s => (of (step s) : Clocked ε ν _)) (clock + 1) s =
      loop (fun s => of (step s)) clock next := by
  rw [loop, h]
  exact behind_nil _

theorem loop_of_value (h : step s = .ok (.inr b)) :
    loop (fun s => (of (step s) : Clocked ε ν _)) (clock + 1) s = of (.ok b) := by
  rw [loop, h]
  rfl

theorem loop_of_fault (h : step s = .error fault) :
    loop (fun s => (of (step s) : Clocked ε ν _)) (clock + 1) s = of (.error fault) := by
  rw [loop, h]
  rfl

end Steps

theorem below_loop {round' : σ → Clocked ε ν (σ ⊕ β)} (h : ∀ s, Below (round s) (round' s))
    {clock' : Nat} (hle : clock ≤ clock') (s : σ) :
    Below (loop round clock s) (loop round' clock' s) := by
  induction clock generalizing clock' s with
  | zero => exact .inl rfl
  | succ clock ih =>
    obtain ⟨clock', rfl⟩ := Nat.exists_eq_add_of_lt hle
    refine (h s).bind ?_
    rintro (next | b)
    · exact ih (Nat.le_add_right _ _) next
    · exact .refl _

end Loops

section Many

variable {item : σ → Clocked ε ν (Option α × σ)} {found : List α} {a : α} {c d : σ}

def attempt (item : σ → Clocked ε ν (Option α × σ)) (s : List α × σ) :
    Clocked ε ν ((List α × σ) ⊕ (List α × σ)) := do
  match ← item s.2 with
  | (some a, next) => pure (.inl (s.1 ++ [a], next))
  | (none, _) => pure (.inr s)

def many (item : σ → Clocked ε ν (Option α × σ)) (clock : Nat) (found : List α) (c : σ) :
    Clocked ε ν (List α × σ) :=
  loop (attempt item) clock (found, c)

theorem many_zero : many item 0 found c = stopped := rfl

theorem many_of_some (h : item c = comes (.ok (some a, d)) notes) :
    many item (clock + 1) found c = (many item clock (found ++ [a]) d).behind notes :=
  loop_of_inl ((bind_of_ok h _).trans (congrArg (comes _) (List.append_nil notes)))

theorem many_of_none (h : item c = comes (.ok (none, d)) notes) :
    many item (clock + 1) found c = comes (.ok (found, c)) notes :=
  loop_of_inr ((bind_of_ok h _).trans (congrArg (comes _) (List.append_nil notes)))

theorem many_of_error (h : item c = comes (.error fault) notes) :
    many item (clock + 1) found c = comes (.error fault) notes :=
  loop_of_error (bind_of_error h _)

theorem below_many {item' : σ → Clocked ε ν (Option α × σ)} (h : ∀ c, Below (item c) (item' c))
    {clock' : Nat} (hle : clock ≤ clock') (found : List α) (c : σ) :
    Below (many item clock found c) (many item' clock' found c) := by
  refine below_loop ?_ hle (found, c)
  intro s
  exact (h s.2).bind fun _ => .refl _

end Many

section Calls

/-- A call of a recursion: where it is made, and the calls around it from the innermost on. -/
structure Call (σ : Type) where
  cursor : σ
  callers : List σ

/-- Calls that are made inside of `callers` from `c` on. Each is at less than those around it, so
that it takes less for every call that it is deeper. -/
structure Nested (size : σ → Nat) (callers : List σ) (c : σ) (calls : List (Call σ)) : Prop where
  deep : ∀ call ∈ calls, call.callers.length + size call.cursor ≤ callers.length + size c
  shorter : ∀ call ∈ calls, ∀ caller ∈ call.callers, size call.cursor < size caller

variable {size : σ → Nat} {callers : List σ} {c d : σ} {calls others : List (Call σ)}

theorem Nested.nil : Nested size callers c [] :=
  ⟨List.forall_mem_nil _, List.forall_mem_nil _⟩

theorem Nested.before (h : Nested size callers d calls) (hle : size d ≤ size c) :
    Nested size callers c calls := by
  refine ⟨?_, h.shorter⟩
  intro call hcall
  have hdeep := h.deep call hcall
  omega

theorem Nested.append (h : Nested size callers c calls) (hothers : Nested size callers c others) :
    Nested size callers c (calls ++ others) :=
  ⟨List.forall_mem_append.2 ⟨h.deep, hothers.deep⟩,
    List.forall_mem_append.2 ⟨h.shorter, hothers.shorter⟩⟩

theorem Nested.inside (h : Nested size (c :: callers) d calls) (hlt : size d < size c) :
    Nested size callers c calls := by
  refine ⟨?_, h.shorter⟩
  intro call hcall
  have hdeep := h.deep call hcall
  rw [List.length_cons] at hdeep
  omega

theorem Nested.cons (h : Nested size callers c calls)
    (hcallers : ∀ caller ∈ callers, size c < size caller) :
    Nested size callers c (⟨c, callers⟩ :: calls) :=
  ⟨List.forall_mem_cons.2 ⟨Nat.le_refl _, h.deep⟩, List.forall_mem_cons.2 ⟨hcallers, h.shorter⟩⟩

theorem forall_mem_callers (hlt : size d < size c)
    (hcallers : ∀ caller ∈ callers, size c < size caller) :
    ∀ caller ∈ c :: callers, size d < size caller :=
  List.forall_mem_cons.2 ⟨hlt, fun caller h => Nat.lt_trans hlt (hcallers caller h)⟩

end Calls

end Clocked

end TextScan

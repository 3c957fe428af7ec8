import TextScan.Fault
import TextScan.Proofs.Text.Stops
import TextScan.Proofs.Text.Viable
/-!
Readers of texts, which take something from the front of a text or fail, and where they break off.
A reader that breaks off has read a front part that something it takes starts with, and has met a
character after which nothing it takes goes on. Both carry over from a part of a reader to the
whole: what has been read before is read again in front of any text that starts in the same way.
-/

namespace TextScan

open Text

variable {α β : Type} {glue glue' : Char → Bool} {site site' : Text → Text → Text → Prop}
  {r : Text → Except Fault (α × Text)} {s : α → Text → Except Fault (β × Text)}
  {r' : Text → Except Fault (β × Text)} {t u rest : Text} {a : α}

def Reads (r : Text → Except Fault (α × Text)) (t : Text) : Prop :=
  ∃ a rest, r t = .ok (a, rest)

def ReadsWhole (r : Text → Except Fault (α × Text)) (t : Text) : Prop :=
  ∃ a, r t = .ok (a, [])

-- What may stand in the place of a rest without being taken for more of what was read before it.
def Follows (glue : Char → Bool) (rest x : Text) : Prop :=
  x.head? = rest.head? ∨ Stops glue x

def Resumes (glue : Char → Bool) (r : Text → Except Fault (α × Text)) : Prop :=
  ∀ t a rest, r t = .ok (a, rest) →
    ∃ u, u ≠ [] ∧ t = u ++ rest ∧ ∀ x, Follows glue rest x → r (u ++ x) = .ok (a, x)

structure Breaks (glue : Char → Bool) (r : Text → Except Fault (α × Text))
    (front part rest : Text) : Prop where
  viable : ∃ z, (front = [] → Stops glue z) ∧ ReadsWhole r (front ++ z)
  limit : ∀ c more z, rest = c :: more → ¬ Reads r (front ++ (part ++ c :: z))

def BreaksOff (glue : Char → Bool) (site : Text → Text → Text → Prop)
    (r : Text → Except Fault (α × Text)) (t : Text) : Prop :=
  ∃ front part rest, t = front ++ (part ++ rest) ∧ site front part rest ∧
    Breaks glue r front part rest

theorem BreaksOff.of_error (hsite : site u [] rest)
    (hviable : ∃ z, (u = [] → Stops glue z) ∧ ReadsWhole r (u ++ z))
    (hlimit : ∀ c more z, rest = c :: more → ∃ fault, r (u ++ c :: z) = .error fault) :
    BreaksOff glue site r (u ++ rest) := by
  refine ⟨u, [], rest, rfl, hsite, hviable, ?_⟩
  rintro c more z hc ⟨a, last, hread⟩
  obtain ⟨fault, herror⟩ := hlimit c more z hc
  rw [List.nil_append, herror] at hread
  cases hread

theorem head?_of_common {front part more z : Text} {c : Char} :
    (front ++ (part ++ c :: z)).head? = (front ++ (part ++ c :: more)).head? := by
  cases front with
  | nil => cases part <;> rfl
  | cons d front => rfl

theorem BreaksOff.behind (h : BreaksOff glue site r t)
    (hstart : u = [] → ∀ z, Stops glue z → Stops glue' z)
    (hwhole : ∀ x, Follows glue t x → ReadsWhole r x → ReadsWhole r' (u ++ x))
    (hreads : ∀ x, x.head? = t.head? → Reads r' (u ++ x) → Reads r x)
    (hsite : ∀ front part rest, t = front ++ (part ++ rest) → site front part rest →
      site' (u ++ front) part rest) :
    BreaksOff glue' site' r' (u ++ t) := by
  obtain ⟨front, part, rest, rfl, hat, ⟨z, hglue, hz⟩, hlimit⟩ := h
  refine ⟨u ++ front, part, rest, (List.append_assoc ..).symm, hsite _ _ _ rfl hat, ⟨z, ?_, ?_⟩, ?_⟩
  · intro hnil
    obtain ⟨hu, hfront⟩ := List.append_eq_nil_iff.1 hnil
    exact hstart hu z (hglue hfront)
  · rw [List.append_assoc]
    refine hwhole _ ?_ hz
    cases front with
    | nil => exact .inr (hglue rfl)
    | cons c front => exact .inl rfl
  · rintro c more x rfl hreads'
    rw [List.append_assoc] at hreads'
    exact hlimit c more x rfl (hreads _ head?_of_common hreads')

theorem BreaksOff.before (h : BreaksOff glue site r t)
    (hwhole : ∀ x, ReadsWhole r x → ∃ z, Stops glue z ∧ ReadsWhole r' (x ++ z))
    (hreads : ∀ x, x.head? = t.head? → Reads r' x → Reads r x) : BreaksOff glue site r' t := by
  obtain ⟨front, part, rest, rfl, hat, ⟨z, hglue, hz⟩, hlimit⟩ := h
  obtain ⟨y, hy, hwhole'⟩ := hwhole _ hz
  refine ⟨front, part, rest, rfl, hat, ⟨z ++ y, ?_, ?_⟩, ?_⟩
  · intro hnil
    exact stops_append (hglue hnil) hy
  · rwa [← List.append_assoc]
  · rintro c more x rfl hreads'
    exact hlimit c more x rfl (hreads _ head?_of_common hreads')

-- What is accepted is what is read as a whole, so a text is viable as far as the reader comes.
theorem BreaksOff.exists_longestViable {accepts : Text → Prop} (h : BreaksOff glue site r t)
    (haccepts : ∀ t, accepts t ↔ ReadsWhole r t) :
    ∃ front part rest v, t = front ++ (part ++ rest) ∧ site front part rest ∧ v <+: part ∧
      LongestViable accepts t (front ++ v) := by
  obtain ⟨front, part, rest, rfl, hsite, ⟨z, -, hwhole⟩, hlimit⟩ := h
  have hviable : Viable accepts front := ⟨z, (haccepts _).2 hwhole⟩
  have hbeyond : ∀ c more, rest = c :: more → ¬ Viable accepts (front ++ (part ++ [c])) := by
    rintro c more hc ⟨y, hy⟩
    obtain ⟨a, ha⟩ := (haccepts _).1 hy
    refine hlimit c more y hc ⟨a, [], ?_⟩
    simpa using ha
  obtain ⟨v, hv, hlongest⟩ := TextScan.exists_longestViable hviable hbeyond
  exact ⟨front, part, rest, v, rfl, hsite, hv, hlongest⟩

end TextScan

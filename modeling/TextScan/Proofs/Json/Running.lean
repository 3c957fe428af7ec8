import TextScan.Proofs.Clocked
import TextScan.Proofs.Json.ExtendedDocument
import TextScan.Proofs.Json.Spelled

namespace TextScan.Json

open Grammar Text CharClass Clocked

namespace Quoted

variable {ν : Type} {clock clock' : Nat} {s t s' t' run rest : Text}

def isPlain (c : Char) : Bool :=
  c != '"' && c != '\\'

def round (s : Text × Text) : Reading ((Text × Text) ⊕ (Text × Text)) :=
  match s.2.dropWhile isPlain with
  | [] => fail .closeQuote []
  | c :: rest =>
    if c = '"' then .ok (.inr (s.1 ++ s.2.takeWhile isPlain, rest))
    else (escape rest).map fun (x, rest) => .inl (s.1 ++ s.2.takeWhile isPlain ++ [x], rest)

def runBody (clock : Nat) (t : Text) : Clocked Fault ν (Text × Text) :=
  loop (fun s => of (round s)) clock ([], t)

theorem spellings_of_plain (h : ∀ c ∈ s, isPlain c = true) : Spellings s s := by
  induction s with
  | nil => exact .nil
  | cons c s ih =>
    have hc := h c (by simp)
    rw [isPlain, Bool.and_eq_true, bne_iff_ne, bne_iff_ne] at hc
    exact .cons (.raw hc.1 hc.2) (ih fun d hd => h d (by simp [hd]))

theorem exists_plain (t : Text) :
    ∃ run v, t = run ++ v ∧ Spellings run run ∧ t.takeWhile isPlain = run ∧
      t.dropWhile isPlain = v ∧ ∀ c rest, v = c :: rest → c ≠ '"' → c = '\\' := by
  obtain ⟨run, v, rfl, hrun, hv, htake, hdrop⟩ := exists_split_at_stop isPlain t
  refine ⟨run, v, rfl, spellings_of_plain hrun, htake, hdrop, ?_⟩
  rintro c rest rfl hquote
  by_contra hslash
  have hplain := hv.head
  simp [isPlain, hquote, hslash] at hplain

theorem round_nil (hdrop : t.dropWhile isPlain = []) :
    round (s, t) = fail .closeQuote [] := by
  simp only [round, hdrop]

theorem round_quote (htake : t.takeWhile isPlain = run)
    (hdrop : t.dropWhile isPlain = '"' :: rest) :
    round (s, t) = .ok (.inr (s ++ run, rest)) := by
  simp only [round, htake, hdrop, if_pos]

theorem round_backslash (htake : t.takeWhile isPlain = run)
    (hdrop : t.dropWhile isPlain = '\\' :: rest) :
    round (s, t) = (escape rest).map fun q => .inl (s ++ run ++ [q.1], q.2) := by
  simp only [round, htake, hdrop]
  exact if_neg (by decide)

theorem size_lt_of_round (h : round (s, t) = .ok (.inl (s', t'))) : t'.size < t.size := by
  obtain ⟨run, v, rfl, -, -, hdrop, -⟩ := exists_plain t
  simp only [round, hdrop] at h
  cases v with
  | nil => cases h
  | cons c rest =>
    simp only at h
    split at h
    · cases h
    · obtain ⟨⟨x, behind⟩, hescape, heq⟩ := map_eq_ok_iff.1 h
      obtain ⟨-, rfl⟩ := Prod.mk.inj (Sum.inl.inj heq)
      obtain ⟨w, -, rfl⟩ := spelling_of_escape hescape
      have hc := c.utf8Size_pos
      simp only [size_append, size_cons]
      omega

theorem loop_round (h : t.size < clock) (s : Text) :
    loop (fun s => of (round s)) clock (s, t) =
      (of ((body t).map fun r => (s ++ r.1, r.2)) : Clocked Fault ν (Text × Text)) := by
  induction clock generalizing s t with
  | zero => exact absurd h (Nat.not_lt_zero _)
  | succ clock ih =>
    obtain ⟨run, v, rfl, hrun, htake, hdrop, hv⟩ := exists_plain t
    rw [body_spellings hrun]
    cases v with
    | nil =>
      rw [loop_of_fault (round_nil hdrop), body]
      rfl
    | cons c rest =>
      by_cases hquote : c = '"'
      · subst hquote
        rw [loop_of_value (round_quote htake hdrop), body]
        simp [of, Except.map]
      · obtain rfl := hv c rest rfl hquote
        have hround := round_backslash (s := s) htake hdrop
        rw [body_backslash]
        cases hescape : escape rest with
        | error fault =>
          rw [hescape] at hround
          rw [loop_of_fault hround]
          rfl
        | ok q =>
          rw [hescape] at hround
          have hlt := size_lt_of_round hround
          rw [loop_of_next hround, ih (by omega)]
          simp only [bind, Except.bind]
          cases body q.2 with
          | error fault => rfl
          | ok p => simp [of, Except.map]

theorem runBody_eq (h : t.size < clock) : runBody clock t = (of (body t) : Clocked Fault ν _) := by
  rw [runBody, loop_round h]
  cases body t <;> rfl

theorem below_runBody (hle : clock ≤ clock') (t : Text) :
    Below (runBody clock t : Clocked Fault ν _) (runBody clock' t) :=
  below_loop (fun _ => .refl _) hle _

end Quoted

section Runs

variable {ν α : Type}

def runElement (inner : Text → Clocked Fault ν (Json × Text)) (t : Text) :
    Clocked Fault ν (Json × Text) :=
  inner (skipBlank t)

def runMember (clock : Nat) (inner : Text → Clocked Fault ν (Json × Text)) (t : Text) :
    Clocked Fault ν ((Text × Json) × Text) :=
  match skipBlank t with
  | '"' :: rest => do
    let (name, t) ← Quoted.runBody clock rest
    let t ← of (skipMark ':' .colon t)
    let (v, t) ← runElement inner t
    pure ((name, v), t)
  | t => of (fail .memberName t)

def runAfterComma (item : Text → Clocked Fault ν (α × Text)) (t : Text) :
    Clocked Fault ν (Option α × Text) :=
  match skipBlank t with
  | ',' :: rest => do
    let (a, rest) ← item rest
    pure (some a, rest)
  | rest => pure (none, rest)

def runSequence (clock : Nat) (close : Char) (missing : Requirement)
    (item : Text → Clocked Fault ν (α × Text)) (t : Text) : Clocked Fault ν (List α × Text) :=
  match skipMark close missing t with
  | .ok rest => pure ([], rest)
  | .error _ => do
    let (first, t) ← item t
    let (more, t) ← many (runAfterComma item) clock [] t
    let t ← of (skipMark close missing t)
    pure (first :: more, t)

def runValueWith (clock : Nat) (inner : Text → Clocked Fault ν (Json × Text)) (t : Text) :
    Clocked Fault ν (Json × Text) :=
  match t with
  | '{' :: rest => do
    let (ms, rest) ← runSequence clock '}' .commaOrBrace (runMember clock inner) rest
    pure (object ms, rest)
  | '[' :: rest => do
    let (vs, rest) ← runSequence clock ']' .commaOrBracket (runElement inner) rest
    pure (array vs, rest)
  | '"' :: rest => do
    let (s, rest) ← Quoted.runBody clock rest
    pure (string s, rest)
  | t => of (scalar t)

def runValue : Nat → List Text → Text → Clocked Fault (Call Text) (Json × Text)
  | 0, _, _ => stopped
  | clock + 1, callers, t => do
    note ⟨t, callers⟩
    runValueWith clock (runValue clock (t :: callers)) t

def runDocument (clock : Nat) (t : Text) : Clocked Fault (Call Text) (Json × Text) := do
  let (v, t) ← runElement (runValue clock []) t
  of (documentEnd v (skipBlank t))

end Runs

section Clocks

variable {ν α : Type} {clock clock' : Nat} {inner inner' : Text → Clocked Fault ν (Json × Text)}
  {item item' : Text → Clocked Fault ν (α × Text)}

theorem below_runMember (hle : clock ≤ clock') (h : ∀ t, Below (inner t) (inner' t)) (t : Text) :
    Below (runMember clock inner t) (runMember clock' inner' t) := by
  unfold runMember
  split
  · refine (Quoted.below_runBody hle _).bind ?_
    rintro ⟨name, t⟩
    refine (Below.refl _).bind ?_
    intro t
    exact (h _).bind fun _ => .refl _
  · exact .refl _

theorem below_runAfterComma (h : ∀ t, Below (item t) (item' t)) (t : Text) :
    Below (runAfterComma item t) (runAfterComma item' t) := by
  unfold runAfterComma
  split
  · exact (h _).bind fun _ => .refl _
  · exact .refl _

theorem below_runSequence (hle : clock ≤ clock') (h : ∀ t, Below (item t) (item' t))
    (close : Char) (missing : Requirement) (t : Text) :
    Below (runSequence clock close missing item t) (runSequence clock' close missing item' t) := by
  unfold runSequence
  split
  · exact .refl _
  · refine (h t).bind ?_
    rintro ⟨first, t⟩
    exact (below_many (below_runAfterComma h) hle _ _).bind fun _ => .refl _

theorem below_runValueWith (hle : clock ≤ clock') (h : ∀ t, Below (inner t) (inner' t)) (t : Text) :
    Below (runValueWith clock inner t) (runValueWith clock' inner' t) := by
  unfold runValueWith
  split
  · exact (below_runSequence hle (below_runMember hle h) _ _ _).bind fun _ => .refl _
  · exact (below_runSequence hle (fun t => h (skipBlank t)) _ _ _).bind fun _ => .refl _
  · exact (Quoted.below_runBody hle _).bind fun _ => .refl _
  · exact .refl _

theorem below_runValue (hle : clock ≤ clock') (callers : List Text) (t : Text) :
    Below (runValue clock callers t) (runValue clock' callers t) := by
  induction clock generalizing clock' callers t with
  | zero => exact .inl rfl
  | succ clock ih =>
    obtain ⟨more, rfl⟩ := Nat.exists_eq_add_of_le hle
    rw [Nat.add_right_comm]
    have hle' : clock ≤ clock + more := Nat.le_add_right _ _
    exact (Below.refl _).bind fun _ => below_runValueWith hle' (ih hle' _) t

theorem below_runDocument (hle : clock ≤ clock') (t : Text) :
    Below (runDocument clock t) (runDocument clock' t) :=
  (below_runValue hle [] _).bind fun _ => .refl _

end Clocks

end TextScan.Json

import TextScan.Proofs.Cursor.Bounded
import TextScan.Proofs.Json.Termination
import TextScan.Proofs.Json.Word

namespace TextScan.Json

open Grammar Text Clocked Quoted Word

inductive Conversion where
  | hex (digits : Text) (value? : Option UInt32)
  | pair (high low : UInt32) (code? : Option UInt32)

/-- The digits are four and spell the word; the pair is above all single units, and a character. -/
def Conversion.Succeeds : Conversion → Prop
  | hex digits value? => digits.length = 4 ∧ (∀ c ∈ digits, CharClass.isHexDigit c = true) ∧
      ∃ n, value? = some n ∧ HexUnit digits n.toNat
  | pair high low code? => isHighSurrogate high.toNat = true ∧ isLowSurrogate low.toNat = true ∧
      ∃ code c, code? = some code ∧
        code.toNat = 0x10000 + (high.toNat - 0xD800) * 0x400 + (low.toNat - 0xDC00) ∧
        0x10000 ≤ code.toNat ∧ code.toNat ≤ 0x10FFFF ∧ char? code = some c

namespace ByWords

def require (holds : Bool) (r : Requirement) (t : Text) : Clocked Fault Conversion Unit :=
  of (if holds then .ok () else fail r t)

-- Nothing stands for arithmetic that did not fit.
def fitting : Option UInt32 → Clocked Fault Conversion UInt32
  | some n => of (.ok n)
  | none => stopped

def character (n : UInt32) (t rest : Text) : Clocked Fault Conversion (Char × Text) :=
  match char? n with
  | some c => of (.ok (c, rest))
  | none => of (fail .scalar t)

def unit (t : Text) : Clocked Fault Conversion (UInt32 × Text) := do
  let (digits, rest) := Cursor.takeBounded CharClass.isHexDigit 4 t
  require (digits.size == 4) .fourHexDigits t
  note (.hex digits (ofHex? digits))
  match ofHex? digits with
  | some n => pure (n, rest)
  | none => of (fail .fourHexDigits t)

def lowUnit (high : UInt32) (t : Text) : Clocked Fault Conversion (Char × Text) := do
  let (low, rest) ← unit t
  require (isLowSurrogate low.toNat) .lowSurrogate t
  note (.pair high low (combine? high low))
  let code ← fitting (combine? high low)
  character code t rest

def behindHigh (high : UInt32) (t : Text) : Clocked Fault Conversion (Char × Text) := do
  let (marked, second) := Cursor.skipLiteral ['\\', 'u'] t
  require marked .lowSurrogate second
  lowUnit high second

def codeEscape (t : Text) : Clocked Fault Conversion (Char × Text) := do
  let (high, rest) ← unit t
  if isHighSurrogate high.toNat then behindHigh high rest
  else character high t rest

def escape (t : Text) : Clocked Fault Conversion (Char × Text) :=
  let (c, rest) := Cursor.takeOne (fun _ => true) t
  if c = 'u' then codeEscape rest
  else match shortEscape? c with
    | some x => pure (x, rest)
    | none => of (fail .escape t)

def round (s : Text × Text) : Clocked Fault Conversion ((Text × Text) ⊕ (Text × Text)) := do
  let (run, rest) := Cursor.takeWhile isPlain s.2
  require (!Cursor.isAtEnd rest) .closeQuote rest
  let (c, rest) := Cursor.takeOne (fun _ => true) rest
  if c = '"' then pure (.inr (s.1 ++ run, rest))
  else do
    let (x, rest) ← escape rest
    pure (.inl (s.1 ++ run ++ [x], rest))

def string (clock : Nat) (t : Text) : Clocked Fault Conversion (Text × Text) := do
  let (opened, rest) := Cursor.skipChar '"' t
  require opened .openQuote rest
  loop round clock ([], rest)

def member (clock : Nat) (inner : Text → Clocked Fault Conversion (Json × Text)) (t : Text) :
    Clocked Fault Conversion ((Text × Json) × Text) := do
  let t := skipBlank t
  require (Cursor.nextIs (· == '"') t) .memberName t
  let (name, t) ← string clock t
  let t ← of (skipMark ':' .colon t)
  let (v, t) ← runElement inner t
  pure ((name, v), t)

def valueWith (clock : Nat) (inner : Text → Clocked Fault Conversion (Json × Text)) (t : Text) :
    Clocked Fault Conversion (Json × Text) :=
  match t with
  | '{' :: rest => do
    let (ms, rest) ← runSequence clock '}' .commaOrBrace (member clock inner) rest
    pure (object ms, rest)
  | '[' :: rest => do
    let (vs, rest) ← runSequence clock ']' .commaOrBracket (runElement inner) rest
    pure (array vs, rest)
  | '"' :: rest => do
    let (s, rest) ← string clock ('"' :: rest)
    pure (Json.string s, rest)
  | t => of (scalar t)

def value : Nat → Text → Clocked Fault Conversion (Json × Text)
  | 0, _ => stopped
  | clock + 1, t => valueWith clock (value clock) t

def document (clock : Nat) (t : Text) : Clocked Fault Conversion (Json × Text) := do
  let (v, t) ← runElement (value clock) t
  of (documentEnd v (skipBlank t))

section Watching

variable {ν α β σ : Type} {clock : Nat} {r : Reading α}

/-- Whatever the one run comes to, the other comes to as well, by conversions that succeed. -/
def Watches (x : Clocked Fault Conversion α) (y : Clocked Fault ν α) : Prop :=
  ∀ r calls, y = comes r calls →
    ∃ notes, x = comes r notes ∧ ∀ conversion ∈ notes, conversion.Succeeds

theorem watches_of_comes {x : Clocked Fault Conversion α} {notes : List Conversion}
    (h : x = comes r notes) (hnotes : ∀ conversion ∈ notes, conversion.Succeeds) :
    Watches x (of r : Clocked Fault ν α) := by
  intro r' calls hy
  obtain ⟨rfl, -⟩ := comes_inj hy
  exact ⟨notes, h, hnotes⟩

theorem watches_of (r : Reading α) : Watches (of r) (of r : Clocked Fault ν α) :=
  watches_of_comes rfl (List.forall_mem_nil _)

theorem watches_stopped (x : Clocked Fault Conversion α) :
    Watches x (stopped : Clocked Fault ν α) :=
  fun _ _ h => nomatch h

theorem Watches.bind {x : Clocked Fault Conversion α} {y : Clocked Fault ν α}
    {f : α → Clocked Fault Conversion β} {g : α → Clocked Fault ν β} (h : Watches x y)
    (hfg : ∀ a, Watches (f a) (g a)) : Watches (x >>= f) (y >>= g) := by
  intro r calls hy
  rcases exists_of_bind hy with ⟨fault, before, hfault, rfl⟩ | ⟨a, before, more, hok, hg⟩
  · obtain ⟨notes, rfl, hnotes⟩ := h _ _ hfault
    exact ⟨notes, rfl, hnotes⟩
  · obtain ⟨notes, rfl, hnotes⟩ := h _ _ hok
    obtain ⟨others, hf, hothers⟩ := hfg a _ _ hg
    refine ⟨notes ++ others, ?_, List.forall_mem_append.2 ⟨hnotes, hothers⟩⟩
    rw [bind_of_ok rfl, hf, behind_comes]

theorem Watches.behind {x : Clocked Fault Conversion α} {y : Clocked Fault ν α}
    {notes : List Conversion} (h : Watches x y)
    (hnotes : ∀ conversion ∈ notes, conversion.Succeeds) : Watches (x.behind notes) y := by
  intro r calls hy
  obtain ⟨more, rfl, hmore⟩ := h r calls hy
  exact ⟨notes ++ more, rfl, List.forall_mem_append.2 ⟨hnotes, hmore⟩⟩

theorem Watches.after {x : Clocked Fault Conversion α} {y : Clocked Fault ν α} (h : Watches x y)
    (before : List ν) : Watches x (y.behind before) := by
  intro r calls hy
  obtain ⟨more, rfl⟩ := exists_of_behind hy
  exact h r more rfl

theorem watches_loop {f : σ → Clocked Fault Conversion (σ ⊕ β)} {g : σ → Clocked Fault ν (σ ⊕ β)}
    (h : ∀ s, Watches (f s) (g s)) (clock : Nat) (s : σ) :
    Watches (loop f clock s) (loop g clock s) := by
  induction clock generalizing s with
  | zero => exact watches_stopped _
  | succ clock ih =>
    refine (h s).bind ?_
    rintro (next | b)
    · exact ih next
    · exact watches_of (.ok b)

theorem watches_many {f : σ → Clocked Fault Conversion (Option α × σ)}
    {g : σ → Clocked Fault ν (Option α × σ)} (h : ∀ c, Watches (f c) (g c)) (clock : Nat)
    (found : List α) (c : σ) : Watches (many f clock found c) (many g clock found c) := by
  refine watches_loop ?_ clock (found, c)
  rintro ⟨found, c⟩
  refine (h c).bind ?_
  rintro ⟨a | a, next⟩
  · exact watches_of (.ok _)
  · exact watches_of (.ok _)

end Watching

section Units

variable {ν : Type} {t u rest : Text} {n m : Nat} {fault : Fault} {high low : UInt32}

theorem require_of_true {holds : Bool} (h : holds = true) (r : Requirement) (t : Text) :
    require holds r t = of (.ok ()) := by
  rw [require, h]
  rfl

theorem require_of_false {holds : Bool} (h : holds = false) (r : Requirement) (t : Text) :
    require holds r t = of (fail r t) := by
  rw [require, h]
  rfl

theorem size_hexDigits (h : ∀ c ∈ u, CharClass.isHexDigit c = true) : u.size = u.length := by
  refine size_eq_length ?_
  intro c hc
  rw [Char.utf8Size_eq_one_iff]
  exact UInt32.le_iff_toNat_le.2 (Nat.le_of_lt_succ (toNat_lt_of_isHexDigit (h c hc)))

theorem unit_of_hexUnit (hu : HexUnit u n) (rest : Text) :
    ∃ w : UInt32, w.toNat = n ∧ unit (u ++ rest) = comes (.ok (w, rest)) [.hex u (some w)] := by
  obtain ⟨hall, hlength⟩ := HexUnit.all hu
  have htake : Cursor.takeBounded CharClass.isHexDigit 4 (u ++ rest) = (u, rest) :=
    splitWhile_append_of_forall hall (Nat.le_of_eq hlength) (.inl hlength)
  have hsize : (u.size == 4) = true := by rw [size_hexDigits hall, hlength]; rfl
  obtain ⟨w, hw, hvalue⟩ := exists_ofHex? hall (List.length_pos_iff.1 (by omega)) (by omega)
  refine ⟨w, ?_, ?_⟩
  · cases hu with
    | digits ha hb hc hd =>
      rw [hvalue, unit_value, (HexDigit.spec ha).2, (HexDigit.spec hb).2, (HexDigit.spec hc).2,
        (HexDigit.spec hd).2]
  · rw [unit, htake]
    simp only [require_of_true hsize, hw]
    rfl

theorem unit_of_error (h : Quoted.unit t = .error fault) : unit t = of (.error fault) := by
  have happend := splitWhile_append CharClass.isHexDigit 4 t
  obtain ⟨hall, -, -⟩ := splitWhile_spec CharClass.isHexDigit 4 t
  have hsize : ((splitWhile CharClass.isHexDigit 4 t).1.size == 4) = false := by
    refine beq_eq_false_iff_ne.2 ?_
    intro hfour
    rw [size_hexDigits hall] at hfour
    obtain ⟨n, y, hunit⟩ : ∃ n y, Quoted.unit t = .ok (n, y) := by
      rw [← happend]
      exact exists_unit_of_hexDigits hall (Nat.le_of_eq hfour.symm)
    rw [hunit] at h
    cases h
  have htake : Cursor.takeBounded CharClass.isHexDigit 4 t = splitWhile CharClass.isHexDigit 4 t :=
    rfl
  obtain rfl := Except.error.inj ((Quoted.unit_of_error h).symm.trans h)
  rw [unit, htake]
  simp only [require_of_false hsize]
  rfl

theorem succeeds_hex (hu : HexUnit u n) {w : UInt32} (hw : w.toNat = n) :
    (Conversion.hex u (some w)).Succeeds := by
  subst hw
  exact ⟨(HexUnit.all hu).2, (HexUnit.all hu).1, w, rfl, hu⟩

theorem watches_lowUnit (hhigh : isHighSurrogate high.toNat = true) (t : Text) :
    Watches (lowUnit high t)
      (of (Quoted.unit t >>= fun q =>
        if isLowSurrogate q.1 then .ok (ofSurrogates high.toNat q.1, q.2)
        else fail .lowSurrogate t) : Clocked Fault ν (Char × Text)) := by
  cases hunit : Quoted.unit t with
  | error fault =>
    refine watches_of_comes ?_ (List.forall_mem_nil _)
    rw [lowUnit, unit_of_error hunit]
    rfl
  | ok q =>
    obtain ⟨m, rest⟩ := q
    obtain ⟨u, hu, rfl⟩ := exists_hexUnit hunit
    obtain ⟨low, rfl, hread⟩ := unit_of_hexUnit hu rest
    have hhex := succeeds_hex hu rfl
    change Watches _ (of (if isLowSurrogate low.toNat then _ else _))
    rw [lowUnit, bind_of_ok hread]
    cases hlow : isLowSurrogate low.toNat with
    | false =>
      refine watches_of_comes ?_ (List.forall_mem_singleton.2 hhex)
      simp only [require_of_false hlow]
      rfl
    | true =>
      obtain ⟨code, hcode, hvalue⟩ := exists_combine? hhigh hlow
      have hbounds := And.intro (isHighSurrogate_iff.1 hhigh) (isLowSurrogate_iff.1 hlow)
      have hchar : char? code = some (ofSurrogates high.toNat low.toNat) := by
        rw [char?_eq_some (by omega), hvalue]
        rfl
      have hpair : (Conversion.pair high low (some code)).Succeeds :=
        ⟨hhigh, hlow, code, _, rfl, hvalue, by omega, by omega, hchar⟩
      refine watches_of_comes ?_ (List.forall_mem_cons.2 ⟨hhex, List.forall_mem_singleton.2 hpair⟩)
      simp only [require_of_true hlow, hcode, fitting, ok_bind, note_bind, character, hchar]
      rfl

theorem watches_behindHigh (hhigh : isHighSurrogate high.toNat = true)
    (hu : HexUnit u high.toNat) (rest : Text) :
    Watches (behindHigh high rest)
      (of (Quoted.codeEscape (u ++ rest)) : Clocked Fault ν (Char × Text)) := by
  cases hmark : Cursor.startsWith ['\\', 'u'] rest with
  | true =>
    obtain ⟨second, hrest, hskip⟩ := Cursor.skipLiteral_of_startsWith hmark
    obtain rfl : rest = ['\\', 'u'] ++ second := hrest
    have hread : Quoted.codeEscape (u ++ '\\' :: 'u' :: second) = _ := codeEscape_of_mark hu hhigh
    rw [behindHigh, hskip, List.cons_append, List.cons_append, List.nil_append, hread]
    change Watches (of (.ok ()) >>= fun _ => lowUnit high second) _
    rw [ok_bind]
    exact watches_lowUnit hhigh second
  | false =>
    have hnone : ¬ ['\\', 'u'] <+: rest := by
      rw [← List.isPrefixOf_iff_prefix]
      exact Bool.eq_false_iff.1 hmark
    rw [behindHigh, Cursor.skipLiteral_of_not_startsWith hmark, codeEscape_of_noMark hu hhigh hnone]
    exact watches_of_comes rfl (List.forall_mem_nil _)

theorem codeEscape_of_scalar (hu : HexUnit u n) (hhigh : isHighSurrogate n = false)
    (hlow : isLowSurrogate n = false) :
    Quoted.codeEscape (u ++ rest) = .ok (Char.ofNat n, rest) := by
  rw [Quoted.codeEscape, unit_append hu]
  simp only [bind, Except.bind, hhigh, hlow, Bool.false_eq_true, if_false]

theorem watches_codeEscape (t : Text) :
    Watches (codeEscape t) (of (Quoted.codeEscape t) : Clocked Fault ν (Char × Text)) := by
  cases hunit : Quoted.unit t with
  | error fault =>
    refine watches_of_comes ?_ (List.forall_mem_nil _)
    rw [codeEscape, unit_of_error hunit, Quoted.codeEscape, hunit]
    rfl
  | ok q =>
    obtain ⟨n, rest⟩ := q
    obtain ⟨u, hu, rfl⟩ := exists_hexUnit hunit
    obtain ⟨high, rfl, hread⟩ := unit_of_hexUnit hu rest
    rw [codeEscape, bind_of_ok hread]
    refine Watches.behind ?_ (List.forall_mem_singleton.2 (succeeds_hex hu rfl))
    cases hhigh : isHighSurrogate high.toNat with
    | true =>
      simp only [hhigh, if_true]
      exact watches_behindHigh hhigh hu rest
    | false =>
      simp only [hhigh, Bool.false_eq_true, if_false]
      cases hlow : isLowSurrogate high.toNat with
      | true =>
        rw [codeEscape_of_isLowSurrogate hunit hlow, character, char?_eq_none hlow]
        exact watches_of _
      | false =>
        have hlt := HexUnit.lt hu
        have hscalar : high.toNat < 0xD800 ∨ 0xDFFF < high.toNat ∧ high.toNat < 0x110000 := by
          rw [Bool.eq_false_iff, Ne, isHighSurrogate_iff] at hhigh
          rw [Bool.eq_false_iff, Ne, isLowSurrogate_iff] at hlow
          omega
        rw [codeEscape_of_scalar hu hhigh hlow, character, char?_eq_some hscalar]
        exact watches_of _

theorem watches_escape (t : Text) :
    Watches (escape t) (of (Quoted.escape t) : Clocked Fault ν (Char × Text)) := by
  cases t with
  | nil => exact watches_of _
  | cons c t =>
    have htake : Cursor.takeOne (fun _ => true) (c :: t) = (c, t) := rfl
    rw [escape, htake]
    by_cases hc : c = 'u'
    · subst hc
      exact watches_codeEscape t
    · simp only [if_neg hc, escape_short hc]
      cases shortEscape? c with
      | none => exact watches_of _
      | some x => exact watches_of _

end Units

section Readers

variable {ν : Type} {clock : Nat} {t : Text}

theorem watches_round (s t : Text) :
    Watches (round (s, t)) (of (Quoted.round (s, t)) : Clocked Fault ν _) := by
  have htake : Cursor.takeWhile isPlain t = (t.takeWhile isPlain, t.dropWhile isPlain) := rfl
  cases hdrop : t.dropWhile isPlain with
  | nil =>
    rw [round_nil hdrop, round, htake, hdrop]
    exact watches_of _
  | cons c rest =>
    have hfound : require (!Cursor.isAtEnd (c :: rest)) .closeQuote (c :: rest) = of (.ok ()) := rfl
    have hfirst : Cursor.takeOne (fun _ => true) (c :: rest) = (c, rest) := rfl
    simp only [round, Quoted.round, htake, hdrop, hfound, ok_bind, hfirst]
    split
    · exact watches_of _
    · rw [of_map]
      exact (watches_escape rest).bind fun q => watches_of _

theorem watches_quoted (clock : Nat) (t : Text) :
    Watches (string clock ('"' :: t)) (Quoted.runBody clock t : Clocked Fault ν _) := by
  have hopened : string clock ('"' :: t) = loop round clock ([], t) := ok_bind () _
  rw [hopened]
  exact watches_loop (fun s => watches_round s.1 s.2) clock ([], t)

theorem nextIs_iff {x : Char} : Cursor.nextIs (· == x) t = true ↔ ∃ rest, t = x :: rest := by
  cases t <;> simp [Cursor.nextIs, Cursor.rest]

theorem watches_string (h : t.size < clock) :
    Watches (string clock t) (of (Quoted.read t) : Clocked Fault ν _) := by
  unfold Quoted.read
  split
  · next rest =>
    rw [← Quoted.runBody_eq (Nat.lt_trans (size_lt_cons '"' rest) h)]
    exact watches_quoted clock rest
  · next hquote =>
    have hclosed : Cursor.nextIs (· == '"') t = false := by
      rw [Bool.eq_false_iff, Ne, nextIs_iff]
      rintro ⟨rest, rfl⟩
      exact hquote rest rfl
    rw [string, Cursor.skipChar_of_not_nextIs hclosed]
    exact watches_of _

variable {inner : Text → Clocked Fault Conversion (Json × Text)}
  {inner' : Text → Clocked Fault ν (Json × Text)}

theorem watches_member (h : ∀ t, Watches (inner t) (inner' t)) (t : Text) :
    Watches (member clock inner t) (runMember clock inner' t) := by
  unfold runMember
  split
  · next rest hskip =>
    have hopened : require (Cursor.nextIs (· == '"') (skipBlank t)) .memberName (skipBlank t) =
        of (.ok ()) := require_of_true (nextIs_iff.2 ⟨rest, hskip⟩) _ _
    simp only [member, hopened, ok_bind]
    rw [hskip]
    refine (watches_quoted clock rest).bind ?_
    rintro ⟨name, t⟩
    refine (watches_of _).bind ?_
    intro t
    exact (h _).bind fun _ => watches_of _
  · next hquote =>
    have hclosed : require (Cursor.nextIs (· == '"') (skipBlank t)) .memberName (skipBlank t) =
        of (fail .memberName (skipBlank t)) := by
      refine require_of_false ?_ _ _
      rw [Bool.eq_false_iff, Ne, nextIs_iff]
      rintro ⟨rest, hrest⟩
      exact hquote rest hrest
    simp only [member, hclosed]
    exact watches_of _

theorem watches_afterComma {α : Type} {item : Text → Clocked Fault Conversion (α × Text)}
    {item' : Text → Clocked Fault ν (α × Text)} (h : ∀ t, Watches (item t) (item' t)) (t : Text) :
    Watches (runAfterComma item t) (runAfterComma item' t) := by
  unfold runAfterComma
  split
  · exact (h _).bind fun _ => watches_of _
  · exact watches_of _

theorem watches_sequence {α : Type} {item : Text → Clocked Fault Conversion (α × Text)}
    {item' : Text → Clocked Fault ν (α × Text)} (h : ∀ t, Watches (item t) (item' t))
    (close : Char) (missing : Requirement) (t : Text) :
    Watches (runSequence clock close missing item t) (runSequence clock close missing item' t) := by
  unfold runSequence
  split
  · exact watches_of _
  · refine (h t).bind ?_
    rintro ⟨first, t⟩
    refine (watches_many (watches_afterComma h) clock [] t).bind ?_
    rintro ⟨more, t⟩
    exact (watches_of _).bind fun _ => watches_of _

theorem watches_valueWith (h : ∀ t, Watches (inner t) (inner' t)) (t : Text) :
    Watches (valueWith clock inner t) (runValueWith clock inner' t) := by
  unfold valueWith
  split
  · exact (watches_sequence (watches_member h) _ _ _).bind fun _ => watches_of _
  · exact (watches_sequence (fun t => h (skipBlank t)) _ _ _).bind fun _ => watches_of _
  · exact (watches_quoted clock _).bind fun _ => watches_of _
  · next hbrace hbracket hquote =>
    rw [runValueWith]
    · exact watches_of _
    · exact hbrace
    · exact hbracket
    · exact hquote

theorem watches_value (clock : Nat) (callers : List Text) (t : Text) :
    Watches (value clock t) (runValue clock callers t) := by
  induction clock generalizing callers t with
  | zero => exact watches_stopped _
  | succ clock ih => exact (watches_valueWith (ih (t :: callers)) t).after [⟨t, callers⟩]

theorem watches_document (clock : Nat) (t : Text) :
    Watches (document clock t) (runDocument clock t) :=
  (watches_value clock [] _).bind fun _ => watches_of _

theorem exists_notes_string (h : t.size < clock) :
    ∃ notes, string clock t = comes (Quoted.read t) notes ∧
      ∀ conversion ∈ notes, conversion.Succeeds := by
  have hwatches : Watches (string clock t) (of (Quoted.read t) : Clocked Fault Empty _) :=
    watches_string h
  exact hwatches (Quoted.read t) [] rfl

theorem exists_notes_document (h : t.size < clock) :
    ∃ notes, document clock t = comes (Json.document t) notes ∧
      ∀ conversion ∈ notes, conversion.Succeeds := by
  obtain ⟨calls, hrun, -⟩ := settles_document t h
  exact watches_document clock t _ calls hrun

example : string 15 ['"', '\\', 'u', 'd', '8', '3', 'd', '\\', 'u', 'D', 'E', '0', '0', '"'] =
    comes (.ok (['😀'], [])) [.hex ['d', '8', '3', 'd'] (some 0xD83D),
      .hex ['D', 'E', '0', '0'] (some 0xDE00), .pair 0xD83D 0xDE00 (some 0x1F600)] :=
  rfl

end Readers

end ByWords

end TextScan.Json

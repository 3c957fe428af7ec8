import TextScan.CharClass.Basic

namespace TextScan

inductive CharPred where
  | any
  | is (c : Char)
  | among (set : Text)
  | test (f : Char → Bool)
  | not (p : CharPred)
  | and (p q : CharPred)
  | or (p q : CharPred)

namespace CharPred

def holds : CharPred → Char → Bool
  | any, _ => true
  | is c, x => c == x
  | among set, x => set.contains x
  | test f, x => f x
  | not p, x => !p.holds x
  | and p q, x => p.holds x && q.holds x
  | or p q, x => p.holds x || q.holds x

instance : CoeFun CharPred fun _ => Char → Bool := ⟨holds⟩

def ofClass (k : CharClass) : CharPred :=
  test k.holds

theorem holds_not_and (p q : CharPred) :
    (CharPred.not (and p q)).holds = (or (.not p) (.not q)).holds := by
  funext x
  simp [holds, Bool.not_and]

theorem holds_not_or (p q : CharPred) :
    (CharPred.not (or p q)).holds = (and (.not p) (.not q)).holds := by
  funext x
  simp [holds, Bool.not_or]

end CharPred

end TextScan

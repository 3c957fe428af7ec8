import TextScan.Program.Run
import TextScan.Proofs.Cursor.Scanned

namespace TextScan.Program

open Cursor Run

variable {σ ω : Type}

-- What the step requires does not hold in the frame, and `expected` is how its fault names it.
inductive Step.Unmet [Cursor σ] (f : Frame σ) : Step ω → String → Prop
  | require {condition : Condition} {expected : String} :
    condition.holds f = false → Unmet f (.require condition expected) expected
  | requireLazily {condition : Condition} {expected : String} :
    condition.holds f = false → Unmet f (.requireLazily condition expected) expected
  | requireChar {x : Char} :
    Cursor.nextIs (· == x) f.cursor = false → Unmet f (.requireChar x) (expectedChar x)
  | requireLiteral {literal : Text} {expected : String} :
    Cursor.startsWith literal f.cursor = false →
      Unmet f (.requireLiteral literal expected) expected

inductive Effect [Policy σ] (f : Frame σ) : Step ω → Frame σ → Prop
  | scanned {s : Step ω} {c : σ} {matched : Bool} : (∀ expected, ¬ s.Unmet f expected) →
    Scanned f.cursor c → Effect f s { f with cursor := c, matched := matched }
  | forked (name : String) :
    Effect f (.fork name) { f with matched := true, saved := (name, f.cursor) :: f.saved }
  | restored {name : String} {c : σ} : f.saved.lookup name = some c →
    Effect f (.restore name) { f with cursor := c, matched := true }
  | unmet {s : Step ω} {expected : String} {c : σ} : s.Unmet f expected →
    (Policy.require false expected f.cursor).outcome = .ok c →
    Effect f s { f with cursor := c, matched := true }

section Invariants

variable {I : σ → Prop}

def Frame.All (I : σ → Prop) (f : Frame σ) : Prop :=
  I f.cursor ∧ ∀ name c, f.saved.lookup name = some c → I c

theorem Frame.All.of_start {c : σ} (h : I c) : (Frame.start c).All I :=
  ⟨h, fun _ _ hsaved => by cases hsaved⟩

theorem Effect.all [Policy σ] {f g : Frame σ} {s : Step ω} (h : Effect f s g) (hf : f.All I)
    (hscanned : ∀ c, Scanned f.cursor c → I c)
    (hunmet : ∀ expected c, s.Unmet f expected →
      (Policy.require false expected f.cursor).outcome = .ok c → I c) : g.All I := by
  obtain ⟨hcursor, hsaved⟩ := hf
  cases h with
  | scanned _ hc => exact ⟨hscanned _ hc, hsaved⟩
  | forked name =>
    refine ⟨hcursor, ?_⟩
    intro name' c hc
    rw [List.lookup_cons] at hc
    split at hc
    · exact Option.some.inj hc ▸ hcursor
    · exact hsaved name' c hc
  | restored hc => exact ⟨hsaved _ _ hc, hsaved⟩
  | unmet hs hc => exact ⟨hunmet _ _ hs hc, hsaved⟩

end Invariants

def Explained [Policy σ] (f : Frame σ) (s : Step ω) : Except Fault (Reaction σ ω) → Prop
  | .ok (.next _ g) => Effect f s g
  | .ok (.stop c) => c = f.cursor
  | .error fault => ∃ expected, fault = Fault.before (rest f.cursor) expected

variable [Policy σ] [DecidableEq σ] {f : Frame σ} {s : Step ω} {expected : String}

theorem react_of_unmet (h : s.Unmet f expected) : ∃ value : Value ω, s.react f = (do
    let c ← Policy.require false expected f.cursor
    pure (f.next value true c)) := by
  cases h with
  | require h => exact ⟨.nothing, by rw [Step.react, h]; rfl⟩
  | requireLazily h => exact ⟨.count 1, by rw [Step.react, h]; rfl⟩
  | requireChar h =>
    refine ⟨.nothing, ?_⟩
    rw [Step.react, Cursor.requireChar, skipChar_of_not_nextIs h]
    rfl
  | requireLiteral h =>
    refine ⟨.nothing, ?_⟩
    rw [Step.react, Cursor.requireLiteral, skipLiteral_of_not_startsWith h]
    rfl

variable [LawfulPolicy σ]

theorem explained_of_unmet (h : s.Unmet f expected) : Explained f s (s.react f).outcome := by
  obtain ⟨value, hreact⟩ := react_of_unmet h
  rw [hreact]
  rcases LawfulPolicy.require_false expected f.cursor with hfault | ⟨c, hc, -⟩
  · rw [outcome_bind_of_error hfault]
    exact ⟨expected, rfl⟩
  · rw [outcome_bind_of_ok hc]
    exact .unmet h hc

theorem explained_react (f : Frame σ) (s : Step ω) : Explained f s (s.react f).outcome := by
  by_cases hunmet : ∃ expected, s.Unmet f expected
  · obtain ⟨expected, h⟩ := hunmet
    exact explained_of_unmet h
  have hs : ∀ expected, ¬ s.Unmet f expected := fun expected h => hunmet ⟨expected, h⟩
  have hstay (matched : Bool) : Effect f s { f with cursor := f.cursor, matched := matched } :=
    .scanned hs (.refl f.cursor)
  cases s with
  | takeOne p => exact .scanned hs (scanned_takeOne? p _)
  | takeWhile p => exact .scanned hs (scanned_takeWhile p _)
  | takeBounded p max => exact .scanned hs (scanned_takeBounded p max _)
  | skipWhile p => exact .scanned hs (scanned_takeWhile p _)
  | skipUntil p => exact .scanned hs (scanned_takeWhile _ _)
  | skipOneIf p => exact .scanned hs (scanned_takeOne? p _)
  | skipOne => exact .scanned hs (scanned_takeOne? _ _)
  | skipChar x => exact .scanned hs (scanned_takeOne? _ _)
  | skipLiteral literal => exact .scanned hs (scanned_skipLiteral literal _)
  | peekOne => exact hstay _
  | startsWith literal => exact hstay _
  | nextIs p => exact hstay _
  | isAtEnd => exact hstay _
  | display => exact hstay _
  | yield value => exact hstay _
  | same name => exact hstay _
  | fault expected => exact hstay _
  | hasFault => exact hstay _
  | keptFault => exact hstay _
  | peek count =>
    rw [Step.react]
    split <;> exact hstay _
  | fork name => exact .forked name
  | restore name =>
    rw [Step.react]
    cases hsaved : f.saved.lookup name with
    | none => exact hstay _
    | some c => exact .restored hsaved
  | advance bytes =>
    rw [Step.react]
    split
    · next c hc => exact .scanned hs (scanned_advance? hc)
    · exact hstay _
  | stopUnless condition =>
    rw [Step.react]
    split
    · exact hstay _
    · rfl
  | raiseUnless condition expected =>
    rw [Step.react]
    split
    · exact hstay _
    · exact ⟨expected, rfl⟩
  | require condition expected =>
    have hholds := Bool.of_not_eq_false fun h => hs expected (.require h)
    rw [Step.react, hholds, Cursor.require, LawfulPolicy.require_true]
    exact hstay _
  | requireLazily condition expected =>
    have hholds := Bool.of_not_eq_false fun h => hs expected (.requireLazily h)
    rw [Step.react, hholds, Cursor.require, LawfulPolicy.require_true]
    exact hstay _
  | requireChar x =>
    have hnext := Bool.of_not_eq_false fun h => hs _ (.requireChar h)
    have hfound : (Cursor.skipChar x f.cursor).1 = true := (isSome_takeOne? _ _).trans hnext
    rw [Step.react, Cursor.requireChar]
    simp only [hfound]
    rw [Cursor.require, LawfulPolicy.require_true]
    exact .scanned hs (scanned_takeOne? _ _)
  | requireLiteral literal expected =>
    have hstarts := Bool.of_not_eq_false fun h => hs expected (.requireLiteral h)
    obtain ⟨t, ht, hskip⟩ := skipLiteral_of_startsWith hstarts
    rw [Step.react, Cursor.requireLiteral, hskip]
    simp only
    rw [Cursor.require, LawfulPolicy.require_true]
    exact .scanned hs ⟨t, ⟨literal, ht.symm⟩, rfl⟩

variable {g : Frame σ} {value : Value ω} {c : σ} {fault : Fault}

theorem effect_of_react (h : (s.react f).outcome = .ok (.next value g)) : Effect f s g := by
  have hexplained := explained_react f s
  rwa [h] at hexplained

theorem cursor_of_stop (h : (s.react f).outcome = .ok (.stop c)) : c = f.cursor := by
  have hexplained := explained_react f s
  rwa [h] at hexplained

theorem fault_of_react (h : (s.react f).outcome = .error fault) :
    ∃ expected, fault = Fault.before (rest f.cursor) expected := by
  have hexplained := explained_react f s
  rwa [h] at hexplained

end TextScan.Program

import TextScan.Json.Basic
import TextScan.Json.Numeral
import TextScan.Json.Written
import TextScan.Proofs.Text.Blank
/-!
The grammar of JSON texts, as relations between a text and what it stands for. Nothing here says
how a text is read; a text that several rules could split is related to every result.
-/

namespace TextScan.Json.Grammar

def Digits (t : Text) : Prop :=
  ∀ c ∈ t, c.isDigit = true

inductive Sign : Text → Bool → Prop
  | plus : Sign [] false
  | minus : Sign ['-'] true

inductive Whole : Text → Prop
  | zero : Whole ['0']
  | digits {d : Char} {ds : Text} : d.isDigit = true → d ≠ '0' → Digits ds → Whole (d :: ds)

inductive Fraction : Text → Text → Prop
  | none : Fraction [] []
  | digits {ds : Text} : ds ≠ [] → Digits ds → Fraction ('.' :: ds) ds

inductive ExponentSign : Text → Bool → Prop
  | none : ExponentSign [] false
  | plus : ExponentSign ['+'] false
  | minus : ExponentSign ['-'] true

inductive Exponent : Text → Bool → Text → Prop
  | none : Exponent [] false []
  | digits {e : Char} {s ds : Text} {negative : Bool} : e = 'e' ∨ e = 'E' →
      ExponentSign s negative → ds ≠ [] → Digits ds → Exponent (e :: (s ++ ds)) negative ds

inductive Number : Text → Numeral → Prop
  | parts {s w f e fraction exponent : Text} {negative exponentNegative : Bool} :
      Sign s negative → Whole w → Fraction f fraction → Exponent e exponentNegative exponent →
      Number (s ++ (w ++ (f ++ e))) ⟨negative, w, fraction, exponentNegative, exponent⟩

def HexDigit (c : Char) (n : Nat) : Prop :=
  n < 16 ∧ (c = Nat.digitChar n ∨ c = (Nat.digitChar n).toUpper)

inductive HexUnit : Text → Nat → Prop
  | digits {a b c d : Char} {i j k l : Nat} :
      HexDigit a i → HexDigit b j → HexDigit c k → HexDigit d l →
      HexUnit [a, b, c, d] (0x1000 * i + 0x100 * j + 0x10 * k + l)

def shortEscapes : List (Char × Char) :=
  [('"', '"'), ('\\', '\\'), ('/', '/'), ('b', '\x08'), ('f', '\x0c'), ('n', '\n'), ('r', '\r'),
    ('t', '\t')]

def highSurrogate (c : Char) : Nat :=
  0xD800 + (c.toNat - 0x10000) / 0x400

def lowSurrogate (c : Char) : Nat :=
  0xDC00 + (c.toNat - 0x10000) % 0x400

inductive Spelling : Text → Char → Prop
  | raw {c : Char} : c ≠ '"' → c ≠ '\\' → Spelling [c] c
  | short {e c : Char} : (e, c) ∈ shortEscapes → Spelling ['\\', e] c
  | unit {u : Text} {c : Char} : HexUnit u c.toNat → Spelling ('\\' :: 'u' :: u) c
  | pair {u w : Text} {c : Char} : 0x10000 ≤ c.toNat → HexUnit u (highSurrogate c) →
      HexUnit w (lowSurrogate c) → Spelling ('\\' :: 'u' :: (u ++ '\\' :: 'u' :: w)) c

inductive Spellings : Text → Text → Prop
  | nil : Spellings [] []
  | cons {u w s : Text} {c : Char} : Spelling u c → Spellings w s → Spellings (u ++ w) (c :: s)

inductive Quote : Text → Text → Prop
  | marks {w s : Text} : Spellings w s → Quote ('"' :: (w ++ ['"'])) s

section Items

variable {α : Type}

inductive Separated (R : Text → α → Prop) : Text → List α → Prop
  | last {b t b' : Text} {a : α} : Blank b → R t a → Blank b' → Separated R (b ++ (t ++ b')) [a]
  | more {b t b' u : Text} {a : α} {as : List α} : Blank b → R t a → Blank b' →
      Separated R u as → Separated R (b ++ (t ++ (b' ++ ',' :: u))) (a :: as)

def Listed (R : Text → α → Prop) (t : Text) (as : List α) : Prop :=
  (as = [] ∧ Blank t) ∨ Separated R t as

end Items

inductive Member (R : Text → Json → Prop) : Text → Text × Json → Prop
  | parts {s b b' t name : Text} {v : Json} : Quote s name → Blank b → Blank b' → R t v →
      Member R (s ++ (b ++ ':' :: (b' ++ t))) (name, v)

inductive Value : Text → Json → Prop
  | null : Value nullWord null
  | true : Value trueWord (bool Bool.true)
  | false : Value falseWord (bool Bool.false)
  | number {t : Text} {n : Numeral} : Number t n → n.toBinary.isFinite = Bool.true →
      Value t (number n.toBinary)
  | string {t s : Text} : Quote t s → Value t (string s)
  | emptyArray {b : Text} : Blank b → Value ('[' :: (b ++ [']'])) (array [])
  | array {t : Text} {vs : List Json} : Separated Value t vs →
      Value ('[' :: (t ++ [']'])) (array vs)
  | emptyObject {b : Text} : Blank b → Value ('{' :: (b ++ ['}'])) (object [])
  | object {t : Text} {ms : List (Text × Json)} : Separated (Member Value) t ms →
      Value ('{' :: (t ++ ['}'])) (object ms)

inductive Document : Text → Json → Prop
  | spaced {b t b' : Text} {v : Json} : Blank b → Value t v → Blank b' → Document (b ++ (t ++ b')) v

end TextScan.Json.Grammar

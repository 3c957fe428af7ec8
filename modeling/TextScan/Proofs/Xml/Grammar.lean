import TextScan.Proofs.Text.Blank
import TextScan.Xml.Basic
/-!
The grammar of texts that hold an element, as relations between a text and what it stands for. The
blanks behind a tag belong to the tag, so text inside an element starts with none, and what stands
between two tags is one text and not two.
-/

namespace TextScan.Xml.Grammar

open CharClass

inductive Name : Text → Prop
  | letter {c : Char} {cs : Text} : isAlphabetic c = true →
      (∀ d ∈ cs, isAlphanumeric d = true) → Name (c :: cs)

inductive Spaced : Text → Text → Prop
  | around {b n b' : Text} : Blank b → Name n → Blank b' → Spaced (b ++ (n ++ b')) n

def closing : Bool → Text
  | true => ['/', '>']
  | false => ['>']

inductive StartTag : Text → Text → Bool → Prop
  | parts {s n b : Text} {closed : Bool} : Spaced s n → Blank b →
      StartTag ('<' :: (s ++ (closing closed ++ b))) n closed

inductive EndTag : Text → Text → Prop
  | parts {s n b : Text} : Spaced s n → Blank b → EndTag ('<' :: '/' :: (s ++ '>' :: b)) n

structure Chars (t : Text) : Prop where
  ne_nil : t ≠ []
  noTag : '<' ∉ t
  stops : Text.Stops isBlank t

def NoTextAhead (items : List (Item Element)) : Prop :=
  ∀ t more, items ≠ .text t :: more

inductive Content (R : Text → Element → Prop) : Text → List (Item Element) → Prop
  | nil : Content R [] []
  | element {u t : Text} {e : Element} {items : List (Item Element)} : R u e →
      Content R t items → Content R (u ++ t) (.element e :: items)
  | text {s t : Text} {items : List (Item Element)} : Chars s → NoTextAhead items →
      Content R t items → Content R (s ++ t) (.text s :: items)

inductive Elem : Text → Element → Prop
  | empty {t n : Text} : StartTag t n true → Elem t (.empty n)
  | full {t u w n : Text} {items : List (Item Element)} : StartTag t n false →
      Content Elem u items → EndTag w n → Elem (t ++ (u ++ w)) (.full n items)

inductive Document : Text → Element → Prop
  | spaced {b t : Text} {e : Element} : Blank b → Elem t e → Document (b ++ t) e

end TextScan.Xml.Grammar

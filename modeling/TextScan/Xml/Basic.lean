import TextScan.Text.Basic

namespace TextScan.Xml

inductive Item (ε : Type) where
  | text (t : Text)
  | element (e : ε)
deriving DecidableEq, Repr

inductive Element where
  | empty (name : Text)
  | full (name : Text) (items : List (Item Element))
deriving Repr

namespace Item

variable {ε : Type}

def text? : Item ε → Option Text
  | text t => some t
  | element _ => none

def element? : Item ε → Option ε
  | text _ => none
  | element e => some e

end Item

namespace Element

def name : Element → Text
  | empty name => name
  | full name _ => name

def items : Element → List (Item Element)
  | empty _ => []
  | full _ items => items

def isSelfClosing : Element → Bool
  | empty _ => true
  | full _ _ => false

def elements (e : Element) : List Element :=
  e.items.filterMap Item.element?

def text (e : Element) : Text :=
  (e.items.filterMap Item.text?).flatten

mutual

def same : Element → Element → Bool
  | empty name, empty other => name == other
  | full name items, full other others => name == other && sameItems items others
  | _, _ => false

def sameItems : List (Item Element) → List (Item Element) → Bool
  | [], [] => true
  | .text t :: items, .text u :: others => t == u && sameItems items others
  | .element e :: items, .element f :: others => same e f && sameItems items others
  | _, _ => false

end

mutual

theorem same_iff_eq : ∀ e f : Element, same e f = true ↔ e = f
  | empty _, empty _ => by simp [same]
  | full _ items, full _ others => by simp [same, sameItems_iff_eq items others]
  | empty _, full _ _ => by simp [same]
  | full _ _, empty _ => by simp [same]

theorem sameItems_iff_eq : ∀ items others : List (Item Element),
    sameItems items others = true ↔ items = others
  | [], [] => by simp [sameItems]
  | [], _ :: _ => by simp [sameItems]
  | _ :: _, [] => by simp [sameItems]
  | .text _ :: items, .text _ :: others => by
    simp [sameItems, sameItems_iff_eq items others]
  | .element e :: items, .element f :: others => by
    simp [sameItems, same_iff_eq e f, sameItems_iff_eq items others]
  | .text _ :: _, .element _ :: _ => by simp [sameItems]
  | .element _ :: _, .text _ :: _ => by simp [sameItems]

end

instance : DecidableEq Element := fun e f => decidable_of_iff _ (same_iff_eq e f)

end Element

end TextScan.Xml

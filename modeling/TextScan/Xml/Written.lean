import TextScan.Xml.Basic

namespace TextScan.Xml

namespace Element

def startTag (name : Text) : Text :=
  '<' :: (name ++ ['>'])

def endTag (name : Text) : Text :=
  '<' :: '/' :: (name ++ ['>'])

mutual

def write : Element → Text
  | empty name => '<' :: (name ++ ['/', '>'])
  | full name items => startTag name ++ (writeItems items ++ endTag name)

def writeItems : List (Item Element) → Text
  | [] => []
  | .text t :: items => t ++ writeItems items
  | .element e :: items => write e ++ writeItems items

end

end Element

def Item.write : Item Element → Text
  | .text t => t
  | .element e => e.write

theorem Element.writeItems_eq (items : List (Item Element)) :
    Element.writeItems items = items.flatMap Item.write := by
  induction items with
  | nil => rfl
  | cons item items ih => cases item <;> simp [Element.writeItems, Item.write, ih]

end TextScan.Xml

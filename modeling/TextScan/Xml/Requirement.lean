import TextScan.Text.Basic

namespace TextScan.Xml

inductive Requirement where
  | name
  | endTag (opened : Text)
  | endOfDocument
deriving DecidableEq, Repr

def Requirement.text : Requirement → String
  | name => "Expected identifier"
  | endTag opened => "Expected end tag </" ++ String.ofList opened ++ ">"
  | endOfDocument => "Expected end of document"

end TextScan.Xml

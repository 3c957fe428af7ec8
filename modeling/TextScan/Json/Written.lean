import TextScan.Json.Basic
import TextScan.Json.Quoted
import TextScan.Number.Positional

namespace TextScan.Json

def nullWord : Text := ['n', 'u', 'l', 'l']

def trueWord : Text := ['t', 'r', 'u', 'e']

def falseWord : Text := ['f', 'a', 'l', 's', 'e']

def writeNumber (x : Binary64) : Text :=
  if x.isFinite then x.toText else nullWord

mutual

def write : Json → Text
  | null => nullWord
  | bool b => if b then trueWord else falseWord
  | number x => writeNumber x
  | string s => Quoted.write s
  | array [] => ['[', ']']
  | array (v :: vs) => '[' :: (write v ++ writeItems vs)
  | object [] => ['{', '}']
  | object ((name, v) :: ms) =>
    '{' :: (Quoted.write name ++ ':' :: (write v ++ writeMembers ms))

def writeItems : List Json → Text
  | [] => [']']
  | v :: vs => ',' :: (write v ++ writeItems vs)

def writeMembers : List (Text × Json) → Text
  | [] => ['}']
  | (name, v) :: ms => ',' :: (Quoted.write name ++ ':' :: (write v ++ writeMembers ms))

end

end TextScan.Json

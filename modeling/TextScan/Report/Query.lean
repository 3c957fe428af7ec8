import TextScan.Report.Excerpt

namespace TextScan.Report

inductive Query where
  | withSource (text : Text)
  | clone
  | isLocated
  | location
  | locationText
  | render
  | excerpt
  | expected
  | remaining
  | fault
  | source
  | cause

inductive Answer where
  | nothing
  | flag (b : Bool)
  | location (l : Option Location)
  | text (s : Option String)
  | lines (entries : List Excerpt.Entry)
  | bytes (n : Nat)
  | fault (f : Fault)
deriving DecidableEq, Repr

def answer (r : Report) : Query → Answer
  | .withSource _ => .nothing
  | .clone => .nothing
  | .isLocated => .flag r.isLocated
  | .location => .location r.location
  | .locationText => .text (r.location.map Location.render)
  | .render => .text (some r.render)
  | .excerpt => .lines r.excerpt
  | .expected => .text (some r.fault.expected)
  | .remaining => .bytes r.fault.remaining
  | .fault => .fault r.fault
  | .source => .text (r.source.map String.ofList)
  | .cause => .text (some r.fault.render)

def after (r : Report) : Query → Report
  | .withSource text => r.withSource text
  | .location => r.locate
  | .locationText => r.locate
  | .render => r.locate
  | .excerpt => r.locate
  | _ => r

def ask (r : Report) : List Query → List Answer
  | [] => []
  | q :: qs => r.answer q :: ask (r.after q) qs

end TextScan.Report

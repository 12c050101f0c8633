import RequestRules.Grammar.Segment

/-!
# Requests

A request says where to send, how, with which headers, and what to do with the response or what to send along.  It has
not both a transformation and a body.
-/

namespace RequestRules

structure Request where
  url : Text
  method : Option Text := none
  headers : List Header := []
  /-- the milliseconds between two polls -/
  interval : Int := 0
  transformation : Option Text := none
  body : Option Text := none
  deriving DecidableEq, Repr

namespace Request

def bothGiven : Text := .of "An element has either a transformation or a body"

def check? (r : Request) : Option Request :=
  if r.transformation.isSome ∧ r.body.isSome then none else some r

/-- The request of a rule for polling.  A text that is written as no transformation is kept as one. -/
def ofInbound (s : Inbound) : Request :=
  { url := s.url
    headers := s.headers
    interval := s.interval
    transformation := some ((Payload.classify s.transformation).transformation?.getD s.transformation) }

def ofOutbound? (s : Outbound) : Option Request :=
  check? {
    url := s.url
    method := some s.method
    headers := s.headers
    transformation := s.transformation
    body := s.body }

end Request

end RequestRules

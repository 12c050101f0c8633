import RequestRules.Text

/-!
# What a configuration text can get wrong

Each cause carries the offending text.  `GrammarError.expected` is the shape that the text should have had, and
`GrammarError.message` the sentence that is reported.
-/

namespace RequestRules

inductive GrammarError
  /-- a segment begins with neither `<` nor `>` -/
  | direction (mark : Text)
  /-- the text as a whole is no sequence of segments -/
  | configuration (text : Text)
  /-- no `url:interval:transformation` -/
  | inbound (text : Text)
  /-- the interval has no digits -/
  | interval (text : Text)
  /-- no `command:METHOD:url` -/
  | outbound (text : Text)
  /-- an address ends in `}` without an opening brace before its first `}` -/
  | braces (address : Text)
  /-- nothing is left of the address -/
  | emptyAddress (text : Text)
  deriving DecidableEq, Repr

namespace GrammarError

def text : GrammarError → Text
  | direction t | configuration t | inbound t | interval t | outbound t | braces t | emptyAddress t => t

def segmentShape : Text := .of "(<|>)\\[(.*?)\\](\\s|$)"

def inboundShape : Text := .of "(.*?)(\\\x7b.*\\\x7d)?:(?!//)(\\d*):(.*)"

def outboundShape : Text := .of "(.*?):([A-Z]*):(.*)"

def expected : GrammarError → Text
  | direction _ | configuration _ => segmentShape
  | inbound _ | interval _ => inboundShape
  | outbound _ => outboundShape
  | braces _ => .of "\x7bkey=value&key=value\x7d"
  | emptyAddress _ => .of "scheme://authority/path?query#fragment"

def message : GrammarError → Text
  | direction _ => .of "Unknown command given! Configuration must start with '<' or '>'"
  | configuration t =>
    .of "bindingConfig '" ++ t ++ .of "' doesn't contain a valid binding configuration"
  | inbound t =>
    .of "bindingConfig '" ++ t ++ .of "' doesn't represent a valid in-binding-configuration. " ++
      .of "A valid configuration is matched by the RegExp '" ++ inboundShape ++ .of "'"
  | interval t => .of "refresh interval of '" ++ t ++ .of "' is not a non-negative integer"
  | outbound t =>
    .of "bindingConfig '" ++ t ++ .of "' doesn't contain a valid out-binding-configuration. " ++
      .of "A valid configuration is matched by the RegExp '" ++ outboundShape ++ .of "'"
  | braces t => .of "header fragment in '" ++ t ++ .of "' is not enclosed in braces"
  | emptyAddress t => .of "no URL found in '" ++ t ++ .of "'"

end GrammarError

end RequestRules

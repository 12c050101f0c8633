import RequestRules.Grammar.Error

/-!
# Addresses and what follows them

`Address.read` takes the longest `scheme://authority/path?query#fragment` off the front of a text; `Address.render`
writes the components back.  The first colon behind an address starts the body, which ends with the line.
`Target.read` then takes an embedded header fragment out of the written address.
-/

namespace RequestRules

structure Address where
  scheme : Option Text
  authority : Option Text
  path : Text
  query : Option Text
  fragment : Option Text
  deriving DecidableEq, Repr

namespace Address

/-- The characters up to the first one of `stops`, and the rest. -/
def upTo (stops : Text) (t : Text) : Text × Text :=
  t.span fun c => !stops.contains c

/-- A part that is there only behind `mark`: the characters up to the first one of `stops`. -/
def part (mark stops : Text) (t : Text) : Option Text × Text :=
  match t.strip? mark with
  | none => (none, t)
  | some r => let (p, r) := upTo stops r; (some p, r)

/-- A non-empty run before a colon. -/
def readScheme (t : Text) : Option Text × Text :=
  match upTo (.of ":/?#") t with
  | (s@(_ :: _), ':' :: r) => (some s, r)
  | _ => (none, t)

def read (t : Text) : Address × Text :=
  let (scheme, t) := readScheme t
  let (authority, t) := part (.of "//") (.of "/?#") t
  let (path, t) := upTo (.of "?#:") t
  let (query, t) := part (.of "?") (.of "#:") t
  let (fragment, t) := part (.of "#") (.of "\n") t
  (⟨scheme, authority, path, query, fragment⟩, t)

def marked (mark : Text) : Option Text → Text
  | none => []
  | some s => mark ++ s

def render (a : Address) : Text :=
  (match a.scheme with | some s => s ++ [.char ':'] | none => []) ++ marked (.of "//") a.authority ++ a.path ++
    marked (.of "?") a.query ++ marked (.of "#") a.fragment

end Address

structure Located where
  address : Address
  body : Option Text
  deriving DecidableEq, Repr

def Located.read (t : Text) : Located :=
  let (a, r) := Address.read t
  ⟨a, (Address.part [':'] ['\n'] r).1⟩

/-- Where a request goes: the written address, the header fragment that was embedded in it, and the body. -/
structure Target where
  url : Text
  fragment : Option Text
  body : Option Text
  deriving DecidableEq, Repr

namespace Target

/-- An address that ends in `}` holds a fragment between its first `{` and its first `}`, and ends before it. -/
def takeFragment (address : Text) : Except GrammarError (Text × Option Text) :=
  if address.getLast? = some (.char '}') then
    match address.cut? '}' with
    | none => .error (.braces address)
    | some (inner, _) =>
      match inner.cut? '{' with
      | none => .error (.braces address)
      | some (url, fragment) => .ok (url, some fragment)
  else .ok (address, none)

def read (t : Text) : Except GrammarError Target := do
  let l := Located.read t
  let (url, fragment) ← takeFragment l.address.render
  if url.isEmpty then .error (.emptyAddress t)
  else .ok ⟨url, fragment, l.body⟩

end Target

end RequestRules

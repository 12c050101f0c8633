import RequestRules.Text

/-!
# Paths

A path is a text with `/` between its parts.  `Path.resolve` says where a path in a configuration file leads:

* `~` and `~/…` lead to the home folder;
* a path that begins with `/` stays as it is;
* `@/…` leads to the configuration folder, if there is one;
* any other path counts from the folder of the file that holds it.
-/

namespace RequestRules

namespace Path

def isAbsolute (p : Text) : Bool := p.head? = some (.char '/')

def chop (p : Text) : Text := (p.reverse.dropWhile (· = .char '/')).reverse

/-- The folder part: all up to the last `/`, which stays only at the root. -/
def folder (p : Text) : Text :=
  match p.cutLast? '/' with
  | none => []
  | some (head, _) => if head.all (· = '/') then head ++ [.char '/'] else chop head

/-- The path that `p` is from the folder `base`; an absolute path is the same from everywhere. -/
def append (base p : Text) : Text :=
  if isAbsolute p then p
  else if base.isEmpty ∨ base.last? = some (.char '/') then base ++ p
  else base ++ .char '/' :: p

/-- `~` at the beginning stands for the home folder.  Another user's home stays as it is written. -/
def expandHome (home p : Text) : Text :=
  match p with
  | ['~'] | '~' :: '/' :: _ =>
    let q := chop home ++ p.drop 1
    if q.isEmpty then ['/'] else q
  | _ => p

/-- Where a path in `file` leads.  The configuration folder counts only if it has a name. -/
def resolve (home : Text) (configFolder : Option Text) (file p : Text) : Text :=
  if p.head? = some (.char '~') then expandHome home p
  else if isAbsolute p then p
  else
    match configFolder, p.strip? (.of "@/") with
    | some (c :: base), some q => append (c :: base) q
    | _, _ => append (folder file) ((p.strip? (.of "./")).getD p)

end Path

end RequestRules

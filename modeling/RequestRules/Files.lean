import RequestRules.Files.Path

/-!
# Files

Files and the folders that hold them.  A path is walked part by part: an empty part and `.` stay, `..` goes up, and every
part but the last has to be a folder.  Only where an empty file is made (`Files.clear`), the parts are taken together
first.
-/

namespace RequestRules

/-- The parts that lead to a file or a folder from the working folder; below the root the first of them is `/`. -/
abbrev Place := List Text

namespace Place

/-- The folder above a place; above the root is the root. -/
def up (a : Place) : Place :=
  if a = [[.char '/']] then a
  else if a.all (· = [.char '.', .char '.']) then a ++ [[.char '.', .char '.']]
  else a.dropLast

def step (a : Place) (p : Text) : Place :=
  if p = [] ∨ p = [.char '.'] then a else if p = [.char '.', .char '.'] then up a else a ++ [p]

def parts (p : Text) : List Text :=
  let ps := p.split '/'
  if Path.isAbsolute p then ['/'] :: ps else ps

/-- The place that a path leads to if all folders on it are there. -/
def ofPath (p : Text) : Place := (parts p).foldl step []

end Place

structure Files where
  folders : List Place := []
  texts : List (Place × Text) := []
  deriving DecidableEq, Repr

namespace Files

/-- The place is a folder; the working folder, all that is above it, and the root always are. -/
def isFolder (fs : Files) (a : Place) : Bool :=
  a.all (· = [.char '.', .char '.']) || a = [[.char '/']] || fs.folders.contains a

/-- The place that some parts lead to, if all but the last are folders. -/
def walk? (fs : Files) (a : Place) : List Text → Option Place
  | [] => some a
  | p :: ps => if fs.isFolder a then walk? fs (a.step p) ps else none

def place? (fs : Files) (p : Text) : Option Place := if p = [] then none else fs.walk? [] (Place.parts p)

def get? (fs : Files) (p : Text) : Option Text := (fs.place? p).bind fun a => fs.texts.lookup a

def onTheWay (a : Place) : List Text → List Place
  | [] | [_] => []
  | p :: ps => a.step p :: onTheWay (a.step p) ps

/-- Writes a file, and makes the folders that lead to it. -/
def put (fs : Files) (p t : Text) : Files where
  folders := onTheWay [] (Place.parts p) ++ fs.folders
  texts := (Place.ofPath p, t) :: fs.texts.filter fun e => e.1 ≠ Place.ofPath p

inductive Obstacle
  | folder
  /-- the path leads through a file -/
  | file
  | noFolder (path : Text)
  /-- a path that the system cannot be asked for -/
  | noName
  | nul
  deriving DecidableEq, Repr

/-- The files with an empty file at the place of a path; the folder has to be there. -/
def clear (fs : Files) (p : Text) : Except Obstacle Files :=
  let a := Place.ofPath p
  if !p.isEncodable then .error .noName
  else if p.contains '\x00' then .error .nul
  else if fs.isFolder a then .error .folder
  else match (List.range a.length).map a.take |>.find? fun b => !fs.isFolder b with
    | none => .ok { fs with texts := (a, []) :: fs.texts.filter fun e => e.1 ≠ a }
    | some b => .error (if (fs.texts.lookup b).isSome then .file else .noFolder p)

/-- The lines of a text end in `\n`, however they are written. -/
def newlines : Text → Text
  | [] => []
  | '\r' :: '\n' :: t => '\n' :: newlines t
  | '\r' :: t => '\n' :: newlines t
  | c :: t => c :: newlines t

def read? (fs : Files) (p : Text) : Option Text := (fs.get? p).map newlines

end Files

end RequestRules

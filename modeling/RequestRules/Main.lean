import RequestRules.Program

/-!
# The command line

A run needs the files and the variables that a configuration mentions.  It is made with those that are known; while it
ends for want of a file that is there, the file is read and the run is made again.
-/

open RequestRules

/-- The text as a string, with the number of a surrogate for itself. -/
def RequestRules.Text.toString (t : Text) : String :=
  .ofList (t.flatMap fun
    | .char c => [c]
    | .surrogate n => '\\' :: 'u' :: Nat.toDigits 16 (0xd800 + n))

def readText? (path : Text) : IO (Option Text) := do
  try
    return some (.of (← IO.FS.readFile path.toString))
  catch _ =>
    return none

def wanted? (o : Outcome) : Option Text :=
  match o.ending with
  | .failure (.configuration (.fault (.noFile path))) => some path
  | _ => none

/-- Adds a file and the variables that have a name among its words. -/
def addFile (s : Yaml.Surroundings) (path t : Text) : IO Yaml.Surroundings := do
  let words := Text.words (t.map fun c => if c.isAlphanum || c = .char '_' then c else .char ' ')
  let mut environment := s.environment
  for w in words do
    if let some v ← IO.getEnv w.toString then
      environment := environment.put w (.of v)
  return { s with files := s.files.put path t, environment := environment }

/-- Makes a run, and makes it again with each file that it wants and that is there. -/
partial def runWith (s : Yaml.Surroundings) (argv : List Text) : IO (Outcome × Option (Text × List Log.Record)) := do
  let r := Program.ofArguments s argv
  match wanted? r.1 with
  | none => return r
  | some path =>
    match ← readText? path with
    | some t =>
      let next ← addFile s path t
      if (s.files.get? path).isNone ∧ (next.files.get? path).isSome then runWith next argv else return r
    | none => return r

def lines (rs : List Log.Record) : String := Text.toString (rs.flatMap fun r => r.render ++ [.char '\n'])

/-- Makes the log file and the folders on its way known, if there is one. -/
def openLog (s : Yaml.Surroundings) (logFile : Option Text) : IO Yaml.Surroundings := do
  match logFile with
  | none => return s
  | some path =>
    IO.FS.writeFile path.toString ""
    return { s with files := s.files.put path [] }

def folderOf (home : Text) : Argument → Text
  | .text folder => folder
  | .nothing => Arguments.defaultFolder home

def main (args : List String) : IO UInt32 := do
  let argv := args.map Text.of
  let home := Text.of ((← IO.getEnv "HOME").getD "/")
  let s : Yaml.Surroundings := { home := home, environment := [(.of "HOME", home)] }
  let (folder, log) := match Arguments.read home argv with
    | .ok a => (folderOf home a.folder, Program.logFile? a)
    | .error _ => (Arguments.defaultFolder home, none)
  let s ← openLog s log
  let path := Path.append folder Program.fileName
  let s ← match ← readText? path with
    | some t => addFile s path t
    | none => pure s
  let (o, logFile) ← runWith s argv
  IO.print o.printed.toString
  IO.eprint (lines o.log)
  if let some (file, log) := logFile then
    IO.FS.writeFile file.toString (lines log)
  match o.ending with
  | .exit status => return UInt32.ofNat status
  | .failure e =>
    IO.eprintln ((HubError.message? e).getD (.of "The configuration cannot be used")).toString
    return 1
  | .noText | .noLog _ =>
    IO.eprintln "The options cannot be used"
    return 1

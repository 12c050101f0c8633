import RequestRules.Files.Path
import RequestRules.Text.Digit

/-!
# Arguments

The arguments of the command line are options, some of which take the argument behind them.  An option may be cut short
as long as it stays the only one, and its argument may follow it behind `=`, or directly behind a single letter; there
`--` stands for nothing.  What is no option is not accepted, and neither is anything behind an argument `--`.
-/

namespace RequestRules

inductive Flag
  | help
  | folder
  | item
  | verbose
  | noColor
  | logFile
  deriving DecidableEq, Repr

namespace Flag

def takesArgument : Flag → Bool
  | folder | item | logFile => true
  | help | verbose | noColor => false

def named : List (Text × Flag) := [
  (.of "-h", help),
  (.of "--help", help),
  (.of "--cfgdir", folder),
  (.of "-cd", folder),
  (.of "--item", item),
  (.of "-i", item),
  (.of "--verbose", verbose),
  (.of "--nocolor", noColor),
  (.of "--logfile", logFile)]

def find? (name : Text) : Option Flag := named.lookup name

end Flag

inductive Argument
  | text (t : Text)
  | nothing
  deriving DecidableEq, Repr

/-- The argument that is written as a text. -/
def Argument.ofText (t : Text) : Argument := if t = .of "--" then nothing else text t

structure Arguments where
  folder : Argument
  items : Option (List Argument) := none
  verbose : Bool := false
  noColor : Bool := false
  logFile : Option Argument := none
  deriving DecidableEq, Repr

namespace Arguments

/-- Why the arguments do not lead on: they ask for help, or they are wrong. -/
inductive Stop
  | help
  | usage
  deriving DecidableEq, Repr

def Stop.status : Stop → Nat
  | help => 0
  | usage => 2

/-! ## Kinds of arguments -/

/-- An option with what is written in the same argument. -/
structure Written where
  flag : Flag
  value : Option Text
  short : Bool := false
  deriving DecidableEq, Repr

inductive Piece
  | plain (t : Text)
  | option (w : Written)
  | unknown
  /-- `--` -/
  | separator
  deriving DecidableEq, Repr

def isDigit (c : CodePoint) : Bool := (digitValue? c).isSome

/-- `-` and digits, perhaps with a point before the last of them. -/
def isNegativeNumber (t : Text) : Bool :=
  let t := if t.getLast? = some (.char '\n') then t.dropLast else t
  match t with
  | '-' :: t =>
    (!t.isEmpty && t.all isDigit) ||
      (match Text.cut? '.' t with
        | some (whole, fraction) => whole.all isDigit && !fraction.isEmpty && fraction.all isDigit
        | none => false)
  | _ => false

/-- The options that a name cut short may be, with what follows `=`. -/
def longMatches (t : Text) : List Written :=
  let (start, value) := match Text.cut? '=' t with
    | some (start, value) => (start, some value)
    | none => (t, none)
  (Flag.named.filter fun e => start.isPrefixOf e.1).map fun (_, flag) => { flag, value }

/-- The options that begin like `t`, or are a single letter with its argument. -/
def shortMatches (t : Text) : List Written :=
  Flag.named.filterMap fun (name, flag) =>
    if name = t.take 2 then some { flag, value := some (t.drop 2), short := true }
    else if t.isPrefixOf name then some { flag, value := none }
    else none

/-- An option with its whole name, perhaps with an argument behind `=`. -/
def whole? (t : Text) : Option Written :=
  match Flag.find? t with
  | some flag => some { flag, value := none }
  | none => do
    let (name, value) ← Text.cut? '=' t
    return { flag := ← Flag.find? name, value := some value, short := name.length = 2 }

/-- What an argument is, unless it may be several options. -/
def classify (t : Text) : Except Stop Piece :=
  match t with
  | '-' :: c :: _ =>
    match whole? t with
    | some w => .ok (.option w)
    | none =>
      match if c = '-' then longMatches t else shortMatches t with
      | [w] => .ok (.option w)
      | _ :: _ :: _ => .error .usage
      | [] => .ok (if isNegativeNumber t ∨ t.contains ' ' then .plain t else .unknown)
  | _ => .ok (.plain t)

/-- The arguments by their kinds; behind `--` there are no options. -/
def classifyAll : List Text → Except Stop (List Piece)
  | [] => .ok []
  | t :: ts =>
    if t = .of "--" then .ok (.separator :: ts.map .plain)
    else do return (← classify t) :: (← classifyAll ts)

/-! ## Reading -/

def raise (a : Arguments) : Flag → Arguments
  | .verbose => { a with verbose := true }
  | .noColor => { a with noColor := true }
  | .help | .folder | .item | .logFile => a

def set (a : Arguments) (value : Argument) : Flag → Arguments
  | .folder => { a with folder := value }
  | .item => { a with items := some (a.items.getD [] ++ [value]) }
  | .logFile => { a with logFile := some value }
  | .help | .verbose | .noColor => a

/-- Letters of options behind `-h`, of which each has to exist, and the last may take an argument. -/
def letters (argumentFollows : Bool) : Text → Stop
  | [] => .usage
  | c :: t =>
    match Flag.find? ['-', c] with
    | none => .usage
    | some flag =>
      if flag.takesArgument then if !t.isEmpty ∨ argumentFollows then .help else .usage
      else if t.isEmpty then .help
      else letters argumentFollows t

def isPlain : List Piece → Bool
  | .plain _ :: _ => true
  | _ => false

/-- Each option that takes an argument gets the one behind it, unless it has one. -/
def attach : List Piece → List Piece
  | [] => []
  | .option w :: .plain v :: ps =>
    if w.flag.takesArgument ∧ w.value = none then .option { w with value := some v } :: attach ps
    else .option w :: attach (.plain v :: ps)
  | p :: ps => p :: attach ps

/-- Sets the options one after the other; `extra` says that something was not accepted. -/
def readPieces (extra : Bool) (a : Arguments) : List Piece → Except Stop Arguments
  | [] => if extra then .error .usage else .ok a
  | .plain _ :: ps | .unknown :: ps | .separator :: ps => readPieces true a ps
  | .option w :: ps =>
    match w.flag.takesArgument, w.value with
    | true, some v => readPieces extra (a.set (.ofText v) w.flag) ps
    | true, none => .error .usage
    | false, none => if w.flag = .help then .error .help else readPieces extra (a.raise w.flag) ps
    | false, some v => .error (if w.short then letters (isPlain ps) v else .usage)

def defaultFolder (home : Text) : Text := Path.expandHome home (.of "~/.httpbinding/")

def read (home : Text) (argv : List Text) : Except Stop Arguments := do
  readPieces false { folder := .text (defaultFolder home) } (attach (← classifyAll argv))

end Arguments

end RequestRules

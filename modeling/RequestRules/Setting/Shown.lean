import RequestRules.Number.Binary64.Shortest
import RequestRules.Setting
import RequestRules.Text.Quoted

/-!
# How a message shows a setting

A path in a message lists keys of maps and places in lists.  Texts and bytes are quoted, dates and moments are shown with
the numbers that they are made of, and containers with what they hold.
-/

namespace RequestRules

/-- Bytes in quotes, as characters where they are printable in ASCII. -/
def quotedBytes (bs : List UInt8) : Text :=
  let t : Text := bs.map fun b => CodePoint.ofNat b.toNat
  let q := Quoted.mark t
  'b' :: q :: (t.flatMap (fun c => if c.toNat < 0x7f then Quoted.escape q c else Quoted.code c) ++ [q])

def Moment.shownOffset (micros : Int) : Text :=
  if micros = 0 then .of "datetime.timezone.utc"
  else .of "datetime.timezone(" ++ CalendarError.duration micros ++ [.char ')']

/-- The numbers of a moment; seconds and their fraction are left out at the end if they are zero. -/
def Moment.numbers (m : Moment) : List Nat :=
  [m.date.year, m.date.month, m.date.day, m.hour, m.minute] ++
    (if m.micro ≠ 0 then [m.second, m.micro] else if m.second ≠ 0 then [m.second] else [])

namespace Setting

mutual
def shown : Setting → Text
  | null => .of "None"
  | bool b => .of (if b then "True" else "False")
  | int n => Numeral.ofInt n
  | real x => x.render
  | noNumber => Binary64.nan.render
  | text t => t.quoted
  | bytes bs => quotedBytes bs
  | date d =>
    .of "datetime.date(" ++ Text.join (.of ", ") ([d.year, d.month, d.day].map Numeral.ofNat) ++ [.char ')']
  | moment m =>
    .of "datetime.datetime(" ++ Text.join (.of ", ") (m.numbers.map Numeral.ofNat) ++
      (match m.offset with | none => [] | some o => .of ", tzinfo=" ++ Moment.shownOffset o) ++ [.char ')']
  | list xs => '[' :: (Text.join (.of ", ") (shownItems xs) ++ [.char ']'])
  | pair a b => '(' :: (shown a ++ Text.of ", " ++ shown b ++ [.char ')'])
  | set [] => .of "set()"
  | set (x :: xs) => '\x7b' :: (Text.join (.of ", ") (shown x :: shownItems xs) ++ [.char '\x7d'])
  | map es => '\x7b' :: (Text.join (.of ", ") (shownEntries es) ++ [.char '\x7d'])
  | endless => .of "[...]"
def shownItems : List Setting → List Text
  | [] => []
  | x :: xs => shown x :: shownItems xs
def shownEntries : List (Setting × Setting) → List Text
  | [] => []
  | (k, v) :: es => (shown k ++ Text.of ": " ++ shown v) :: shownEntries es
end

end Setting

end RequestRules

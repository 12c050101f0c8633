import RequestRules.Proofs.Grammar.Reread
import RequestRules.Proofs.Pattern

/-!
# The pattern of an address

An address, and a body behind it, are what a backtracking search for
`^((([^:/?#]+):)?(//([^/?#]*))?([^?#:]*)(\?([^#:]*))?(#(.*))?)(:.*)?` finds.  No part of the pattern has to give up what it
has taken but the scheme, which needs its colon (`Address.first?_schemeRun`); so the match is one first match behind the
other (`Address.first?_read`, `Located.first?_read`), and reading takes the same parts.

`Located.read_first_match` says that, and that nothing is lost.
-/

namespace RequestRules

namespace Address

/-- `(([^:/?#]+):)?` -/
def schemePattern : Pattern :=
  .maybe (.group 2 (.row [.group 3 (.several (.noneOf (.of ":/?#"))), .text [':']]))

/-- A part that is there only behind a mark; it is captured with the mark. -/
def partPattern (m : Nat) (mark : Text) (a : Pattern) : Pattern := .maybe (.group m (.row [.text mark, a]))

def runPattern (n : Nat) (k : CharClass) : Pattern := .group n (.greedy k)

/-- `(([^:/?#]+):)?(//([^/?#]*))?([^?#:]*)(\?([^#:]*))?(#(.*))?` -/
def pattern : Pattern :=
  .row [schemePattern, partPattern 4 (.of "//") (runPattern 5 (.noneOf (.of "/?#"))), runPattern 6 (.noneOf (.of "?#:")),
    partPattern 7 (.of "?") (runPattern 8 (.noneOf (.of "#:"))), partPattern 9 (.of "#") (runPattern 10 .any)]

def capturedScheme : Option Text → List (Nat × Text)
  | none => []
  | some s => [(2, s ++ [.char ':']), (3, s)]

def captured (m : Nat) (mark : Text) (inner : Text → List (Nat × Text)) : Option Text → List (Nat × Text)
  | none => []
  | some s => (m, mark ++ s) :: inner s

def groups (a : Address) : List (Nat × Text) :=
  capturedScheme a.scheme ++ (captured 4 (.of "//") (fun s => [(5, s)]) a.authority ++ ((6, a.path) ::
    (captured 7 (.of "?") (fun s => [(8, s)]) a.query ++ captured 9 (.of "#") (fun s => [(10, s)]) a.fragment)))

section Parts

variable {m n : Nat} {mark stops t r : Text} {k : CharClass} {a : Pattern} {p : Option Text}
  {inner : Text → List (Nat × Text)}

theorem has_any (c : CodePoint) : CharClass.any.has c = !(Text.of "\n").contains c := by simp [CharClass.has, Text.of]

/-- A run of the characters that are no stops. -/
theorem first?_upTo (hk : ∀ c, k.has c = !stops.contains c) {s : Text} (h : upTo stops t = (s, r)) :
    (Pattern.greedy k).first? t = some ⟨s, r, []⟩ := by
  have hhas : k.has = fun c => !stops.contains c := funext hk
  unfold upTo at h
  rw [List.span_eq_takeWhile_dropWhile] at h
  obtain ⟨rfl, rfl⟩ := Prod.mk.inj h
  rw [Pattern.first?_greedy, hhas]

theorem first?_run (hk : ∀ c, k.has c = !stops.contains c) {s : Text} (h : upTo stops t = (s, r)) :
    (runPattern n k).first? t = some ⟨s, r, [(n, s)]⟩ := by
  rw [runPattern, Pattern.first?_group, first?_upTo hk h]
  rfl

theorem first?_part (ha : ∀ {s l r}, upTo stops s = (l, r) → a.first? s = some ⟨l, r, inner l⟩)
    (h : part mark stops t = (p, r)) :
    (partPattern m mark a).first? t = some ⟨marked mark p, r, captured m mark inner p⟩ := by
  rw [partPattern, Pattern.first?_maybe, Pattern.first?_group, Pattern.row_cons_cons, Pattern.row_singleton]
  unfold part at h
  split at h
  · next hstrip =>
    cases h
    rw [Pattern.first?_seq_of_none (by rw [Pattern.first?_text, hstrip]; rfl)]
    rfl
  · next s hstrip =>
    cases h
    have htext : (Pattern.text mark).first? t = some ⟨mark, s, []⟩ := by
      rw [Pattern.first?_text, hstrip]
      rfl
    rw [Pattern.first?_seq htext (ha rfl)]
    rfl

/-- A run before a colon that is not empty. -/
theorem first?_schemeRun (t : Text) :
    (Pattern.seq (.group 3 (.several (.noneOf (.of ":/?#")))) (.text [':'])).first? t =
      (readScheme t).1.map fun s => ⟨s ++ [.char ':'], (readScheme t).2, [(3, s)]⟩ := by
  have hstop : ∀ l c r, (CharClass.noneOf (.of ":/?#")).has c = true →
      ((Pattern.text [':']).search ((⟨l, c :: r, []⟩ : Way).capture 3).rest fun w =>
        some (((⟨l, c :: r, []⟩ : Way).capture 3).append w)) = none := by
    intro l c r hc
    have hne : (c :: r).head? ≠ some (.char ':') := by
      rintro ⟨⟩
      exact absurd hc (by decide)
    rw [Pattern.search_text, Way.capture_rest, Text.strip?_of_head?_ne hne]
    rfl
  have hupTo : upTo (.of ":/?#") t = (t.takeWhile (CharClass.noneOf (.of ":/?#")).has,
      t.dropWhile (CharClass.noneOf (.of ":/?#")).has) := List.span_eq_takeWhile_dropWhile ..
  rw [Pattern.first?, Pattern.search_seq, Pattern.search_group, Pattern.search_several_of_stop hstop,
    Pattern.search_text, Way.capture_rest, readScheme, hupTo]
  cases t.takeWhile (CharClass.noneOf (.of ":/?#")).has with
  | nil => rfl
  | cons c s =>
    cases t.dropWhile (CharClass.noneOf (.of ":/?#")).has with
    | nil => rfl
    | cons d r =>
      by_cases hd : d = ':'
      · subst hd
        rw [if_neg (by simp), Text.strip?_cons_self]
        rfl
      · rw [if_neg (by simp), Text.strip?_of_head?_ne (by simpa using hd)]
        simp [hd]

theorem first?_scheme (h : readScheme t = (p, r)) :
    schemePattern.first? t = some ⟨schemePart p, r, capturedScheme p⟩ := by
  have htext := (readScheme_spec h).1
  rw [schemePattern, Pattern.first?_maybe, Pattern.first?_group, Pattern.row_cons_cons, Pattern.row_singleton,
    first?_schemeRun, h]
  cases p with
  | none =>
    rw [htext]
    rfl
  | some s => rfl

end Parts

/-- **The address at the front of a text** is the match there. -/
theorem first?_read (t : Text) : pattern.first? t = some ⟨(read t).1.render, (read t).2, (read t).1.groups⟩ := by
  obtain ⟨t₁, t₂, t₃, t₄, hscheme, hauthority, hpath, hquery, hfragment⟩ := exists_read t
  have hauthority' := first?_part (m := 4) (first?_run (n := 5) (k := .noneOf (.of "/?#")) fun _ => rfl) hauthority
  have hquery' := first?_part (m := 7) (first?_run (n := 8) (k := .noneOf (.of "#:")) fun _ => rfl) hquery
  have hfragment' := first?_part (m := 9) (first?_run (n := 10) has_any) hfragment
  rw [pattern, render_eq_schemePart]
  exact Pattern.first?_seq (first?_scheme hscheme) <| Pattern.first?_seq hauthority' <|
    Pattern.first?_seq (first?_run (fun _ => rfl) hpath) <| Pattern.first?_seq hquery' hfragment'

end Address

namespace Located

/-- `((([^:/?#]+):)?(//([^/?#]*))?([^?#:]*)(\?([^#:]*))?(#(.*))?)(:.*)?` -/
def pattern : Pattern := .row [.group 1 Address.pattern, Address.partPattern 11 [':'] (.greedy .any)]

def way (l : Located) (rest : Text) : Way where
  taken := l.address.render ++ bodyPart l.body
  rest := rest
  groups := (1, l.address.render) :: l.address.groups ++ Address.captured 11 [':'] (fun _ => []) l.body

/-- The groups are the components. -/
theorem group?_way (l : Located) (rest : Text) : (l.way rest).group? 1 = some l.address.render ∧
    (l.way rest).group? 3 = l.address.scheme ∧ (l.way rest).group? 5 = l.address.authority ∧
      (l.way rest).group? 6 = some l.address.path ∧ (l.way rest).group? 8 = l.address.query ∧
        (l.way rest).group? 10 = l.address.fragment ∧ (l.way rest).group? 11 = l.body.map fun b => .char ':' :: b := by
  obtain ⟨⟨scheme, authority, path, query, fragment⟩, body⟩ := l
  cases scheme <;> cases authority <;> cases query <;> cases fragment <;> cases body <;>
    exact ⟨rfl, rfl, rfl, rfl, rfl, rfl, rfl⟩

/-- **An address and the body behind it** are the match at the front of a text. -/
theorem first?_read (t : Text) : ∃ rest, pattern.first? t = some ((read t).way rest) := by
  have haddress := congrArg (Option.map (Way.capture 1)) (Address.first?_read t)
  rw [← Pattern.first?_group] at haddress
  have hbody := Address.first?_part (m := 11) (Address.first?_upTo Address.has_any) (Prod.ext (read_body t).symm rfl)
  have hseq := Pattern.first?_seq haddress hbody
  exact ⟨_, hseq⟩

/-- **Where an address ends.**  An address and the body behind it are the groups that are captured in the match of the
pattern at the front of a text.  The written address is what was in front of the body, no text with a fragment has a body,
and the address alone is read as it was. -/
theorem read_first_match (t : Text) :
    .char '^' :: pattern.shown = Text.of "^((([^:/?#]+):)?(//([^/?#]*))?([^?#:]*)(\\?([^#:]*))?(#(.*))?)(:.*)?" ∧
      (∃ w, pattern.first? t = some w ∧ w.group? 1 = some (read t).address.render ∧
        w.group? 3 = (read t).address.scheme ∧ w.group? 5 = (read t).address.authority ∧
          w.group? 6 = some (read t).address.path ∧ w.group? 8 = (read t).address.query ∧
            w.group? 10 = (read t).address.fragment ∧ w.group? 11 = (read t).body.map fun b => .char ':' :: b) ∧
        (read t).address.render <+: t ∧
          (.char '\n' ∉ t → (read t).address.render ++ bodyPart (read t).body = t) ∧
            (∀ s, (read t).address.fragment = some s → (read t).body = none) ∧
              read (read t).address.render = ⟨(read t).address, none⟩ :=
  by
  obtain ⟨rest, hfirst⟩ := first?_read t
  exact ⟨by decide, ⟨_, hfirst, group?_way _ rest⟩, ⟨_, Address.render_append t⟩, render_append_body,
    fun _ => body_of_fragment, read_again t⟩

end Located

end RequestRules

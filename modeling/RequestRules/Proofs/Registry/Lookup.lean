import RequestRules.Proofs.Descriptor
import RequestRules.Proofs.Registry.Run

/-!
# What a registry answers

Whatever has been done to a registry, all questions about an item and a command are answered from one segment of the
text that stands for the item (`Registry.answersFrom_run`), or all with nothing.
-/

namespace RequestRules

namespace Registry

/-- All questions about an item are answered from the segments that `f` gives. -/
structure AnswersFrom (r : Registry) (name : Text) (f : Option Key → Option Segment) : Prop where
  method? : ∀ k, r.method? name k = (f k).bind Segment.method?
  url? : ∀ k, r.url? name k = (f k).map Segment.url
  headers? : ∀ k, r.headers? name k = (f k).map Segment.headers
  body? : ∀ k, r.body? name k = (f k).bind Segment.body?
  transformation? : ∀ k, r.transformation? name k = (f k).bind Segment.transformation?
  /-- zero without a segment -/
  interval : r.interval name = ((f none).map Segment.interval).getD 0

variable {r : Registry} {name : Text}

theorem AnswersFrom.of_request? {f : Option Key → Option Segment}
    (h : ∀ k, r.request? name k = (f k).map Segment.request) : r.AnswersFrom name f := by
  constructor
  case interval =>
    unfold Registry.interval
    rw [h]
    cases f none <;> rfl
  all_goals
    intro k
    simp only [Registry.method?, Registry.url?, Registry.headers?, Registry.body?, Registry.transformation?, h]
    cases f k <;> rfl

theorem request?_of_none (h : r.descriptor? name = none) (k : Option Key) : r.request? name k = none := by
  unfold request?
  rw [h]
  rfl

theorem request?_of_some {d : Descriptor} (h : r.descriptor? name = some d) (k : Option Key) :
    r.request? name k = match k with
      | none => d.inbound
      | some k => d.resolve k := by
  unfold request?
  rw [h]
  rfl

/-- **Every question is answered from one segment** of the text that stands for the item after a run: from the segment
that answers for the command.  If no text stands, there are no answers. -/
theorem answersFrom_run (ss : List Step) :
    (∀ item text, Standing ss item text → ∃ segments, Segment.readAll text = .ok segments ∧
      (run empty ss).AnswersFrom item.name (Segment.answering? item.type.commands segments)) ∧
    ∀ name, (∀ item text, Standing ss item text → item.name ≠ name) →
      (run empty ss).AnswersFrom name fun _ => none := by
  constructor
  · intro item text hst
    obtain ⟨d, hp⟩ : ∃ d, Descriptor.parse item text = .ok d := by
      obtain ⟨_, _, _, _, hok, _⟩ := hst
      exact hok
    have hd : (run empty ss).descriptor? item.name = some d :=
      (descriptor?_run ss item.name d).2 ⟨item, text, hst, rfl, hp⟩
    obtain ⟨segments, hread, hin, hresolve⟩ := Descriptor.answer_of_parse hp
    refine ⟨segments, hread, AnswersFrom.of_request? fun k => ?_⟩
    rw [request?_of_some hd]
    cases k with
    | none => exact hin
    | some k => exact hresolve k
  · intro name hno
    have hd : (run empty ss).descriptor? name = none := by
      rw [Option.eq_none_iff_forall_not_mem]
      intro d hd
      obtain ⟨item, text, hst, hname, _⟩ := (descriptor?_run ss name d).1 hd
      exact hno item text hst hname
    exact AnswersFrom.of_request? (request?_of_none hd)

/-- A lamp whose rules stand although they are gone through again without a text and other things are dropped. -/
theorem answersFrom_run_lamp :
    let lamp : Item := ⟨.switch, .of "Lamp", .of "Lamp"⟩
    let text := Text.of ">[ON:POST:http://x/on] >[*:GET:http://x/off] <[http://x/s:60:default]"
    let ss : List Step := [.process (.of "a") lamp (some text), .process (.of "b") lamp none, .remove (.of "Fan"),
      .removeContext (.of "b")]
    Standing ss lamp text ∧ ∃ segments, Segment.readAll text = .ok segments ∧
      (run empty ss).AnswersFrom lamp.name (Segment.answering? lamp.type.commands segments) := by
  intro lamp text ss
  have hparse : Descriptor.parse lamp text = .ok ⟨lamp.name, lamp.type.states, [
      (.command (.word .onOff true), { url := .of "http://x/on", method := some (.of "POST") }),
      (.wildcard, { url := .of "http://x/off", method := some (.of "GET") }),
      (.inbound, { url := .of "http://x/s", interval := 60, transformation := some (.of "default") })]⟩ := by
    decide +kernel
  have hst : Standing ss lamp text := by
    refine ⟨[], .of "a", _, rfl, ⟨_, hparse⟩, ?_, ?_, ?_, trivial⟩
    · exact fun _ t ht => absurd ht (by simp)
    · show Text.of "Fan" ≠ Text.of "Lamp"
      decide
    · show lamp.name ∉ _
      decide +kernel
  exact ⟨hst, (answersFrom_run ss).1 lamp text hst⟩

end Registry

end RequestRules

import RequestRules.Proofs.Document
import RequestRules.Proofs.Inventory.Fault
import RequestRules.Proofs.Program

/-!
# What is printed

`Program.report` is what the entries of a configuration say about some names: for each name, in the order in which the
names first stand there, the plain form of the descriptor that is read from the rules of its last enabled entry.

Loading leaves exactly these descriptors, under the names that `Inventory.registered` counts up along the entries
(`Inventory.registry_addAll`).  So a run prints the report, and from the printed text it is read again, with its pairs of
surrogates joined (`Program.printed_run`).
-/

namespace RequestRules

/-- The first occurrences in a list that has one more element. -/
theorem eraseDups_snoc {α : Type} [BEq α] [LawfulBEq α] (xs : List α) (x : α) :
    (xs ++ [x]).eraseDups = if x ∈ xs then xs.eraseDups else xs.eraseDups ++ [x] := by
  rw [List.eraseDups_append]
  by_cases h : x ∈ xs <;> simp [List.removeAll, h, List.eraseDups_cons]

theorem nodup_eraseDups {α : Type} [BEq α] [LawfulBEq α] (xs : List α) : xs.eraseDups.Nodup := by
  induction xs using List.reverseRecOn with
  | nil => exact List.nodup_nil
  | append_singleton xs x ih =>
    rw [eraseDups_snoc]
    split
    · exact ih
    · next h =>
      rw [← List.concat_eq_append]
      exact ih.concat fun hx => h (List.mem_eraseDups.1 hx)

namespace Table

variable {α : Type} {t : Table α} {k : Text} {a : α}

theorem put_of_mem (h : (k, a) ∈ t) (hnodup : t.names.Nodup) : t.put k a = t := by
  induction t with
  | nil => exact absurd h List.not_mem_nil
  | cons e t ih =>
    obtain ⟨l, b⟩ := e
    obtain ⟨hl, hnodup⟩ := List.nodup_cons.1 hnodup
    rcases List.mem_cons.1 h with heq | h
    · cases heq
      exact if_pos rfl
    · have hne : ¬ k = l := fun heq => hl (heq ▸ List.mem_map.2 ⟨(k, a), h, rfl⟩)
      rw [put, if_neg hne, ih h hnodup]

theorem put_of_not_mem (h : k ∉ t.names) : t.put k a = t ++ [(k, a)] := by
  induction t with
  | nil => rfl
  | cons e t ih =>
    obtain ⟨l, b⟩ := e
    obtain ⟨hne, h⟩ := not_or.1 fun hor => h (List.mem_cons.2 hor)
    rw [put, if_neg hne, ih h, List.cons_append]

end Table

/-! ## The last entry of a name -/

/-- The item of an enabled entry and its rules, if there are any. -/
def Entry.enabled? (e : Setting) : Option (Item × Text) :=
  match read e with
  | .ok (.enabled item (.ok (some t))) => some (item, t)
  | _ => none

namespace Inventory

def lastFor? (entries : List Setting) (name : Text) : Option (Item × Text) :=
  ((entries.filterMap Entry.enabled?).filter fun (item, _) => name = item.name).getLast?

/-- What is read from the rules of the last enabled entry, if they are accepted. -/
def descriptorOf? (entries : List Setting) (name : Text) : Option Descriptor :=
  (lastFor? entries name).bind fun (item, t) => (Descriptor.parse item t).toOption

/-- The names of the items whose rules are accepted.  A name stands where it has come in; it goes when the rules of an entry
are rejected, and may come in again. -/
def registered (entries : List Setting) : List Text :=
  (entries.filterMap Entry.enabled?).foldl (fun names (item, t) =>
    match Descriptor.parse item t with
    | .ok _ => Registry.addName names item.name
    | .error _ => names.filter (· ≠ item.name)) []

variable {v : Inventory} {e : Setting} {entries : List Setting}

/-- **What an entry does to the registry**: nothing if it is disabled, and otherwise it registers its item or drops it. -/
theorem registry_add (h : Entry.HasRules e) (hok : (v.add e).1 = .ok ()) :
    (Entry.enabled? e = none ∧ (v.add e).2.registry = v.registry) ∨
    ∃ item t, Entry.enabled? e = some (item, t) ∧
      ((∃ d, Descriptor.parse item t = .ok d ∧ (v.add e).2.registry = v.registry.register context item.name d) ∨
        ∃ r, Descriptor.parse item t = .error (.rejected r) ∧ (v.add e).2.registry = v.registry.remove item.name) := by
  unfold Entry.enabled?
  rcases add_ok hok with ⟨hread, hadd⟩ | ⟨item, rules, w, hread, rfl, ⟨b, hb⟩, hadd⟩ <;> rw [hread, hadd]
  · exact .inl ⟨rfl, rfl⟩
  · rcases h with h | ⟨item', t, h⟩ <;> cases hread.symm.trans h
    refine .inr ⟨item, t, rfl, ?_⟩
    rcases register_cases { v with items := v.items.put item.name item } context item (some t) with
      ⟨hnone, _⟩ | ⟨t', d, ht, hp, hr⟩ | ⟨t', r, ht, hp, hr⟩ | ⟨t', x, _, _, _, hr⟩
    · exact absurd hnone (by simp)
    · cases ht
      exact .inl ⟨d, hp, by rw [hr]⟩
    · cases ht
      exact .inr ⟨r, hp, by rw [hr]⟩
    · rw [hr] at hb
      exact absurd hb (by simp)

theorem descriptorOf?_snoc (entries : List Setting) (e : Setting) (name : Text) :
    descriptorOf? (entries ++ [e]) name = match Entry.enabled? e with
      | none => descriptorOf? entries name
      | some (item, t) =>
        if name = item.name then (Descriptor.parse item t).toOption else descriptorOf? entries name := by
  unfold descriptorOf? lastFor?
  rw [List.filterMap_append, List.filter_append, List.getLast?_append]
  cases h : Entry.enabled? e with
  | none => simp [h]
  | some p => by_cases hname : name = p.1.name <;> simp [h, hname]

theorem registered_snoc (entries : List Setting) (e : Setting) :
    registered (entries ++ [e]) = match Entry.enabled? e with
      | none => registered entries
      | some (item, t) => match Descriptor.parse item t with
        | .ok _ => Registry.addName (registered entries) item.name
        | .error _ => (registered entries).filter (· ≠ item.name) := by
  unfold registered
  rw [List.filterMap_append, List.foldl_append]
  cases h : Entry.enabled? e <;> simp [h]

/-- **Loading leaves the descriptors of the last entries**, in the order in which their names have come in. -/
theorem registry_addAll (h : ∀ e ∈ entries, Entry.HasRules e) (hok : (({} : Inventory).addAll entries).1 = .ok ()) :
    (∀ name, (({} : Inventory).addAll entries).2.registry.descriptor? name = descriptorOf? entries name) ∧
      (({} : Inventory).addAll entries).2.registry.itemNames = registered entries := by
  -- on the last entry, since a later entry of a name replaces what the earlier ones have left
  induction entries using List.reverseRecOn with
  | nil => exact ⟨fun _ => rfl, rfl⟩
  | append_singleton entries e ih =>
    rw [addAll_snoc] at hok ⊢
    have hrest : ∀ e ∈ entries, Entry.HasRules e := fun e he => h e (List.mem_append_left _ he)
    have hrules : Entry.HasRules e := h e (by simp)
    rcases hr : ({} : Inventory).addAll entries with ⟨x | _, w⟩ <;> rw [hr] at hok ih
    · exact absurd hok (by simp)
    · obtain ⟨hdescriptor, hnames⟩ := ih hrest rfl
      simp only at hok hdescriptor hnames ⊢
      simp only [descriptorOf?_snoc, registered_snoc, ← hdescriptor, ← hnames]
      rcases registry_add hrules hok with ⟨he, hadd⟩ | ⟨item, t, he, ⟨d, hp, hadd⟩ | ⟨r, hp, hadd⟩⟩ <;>
        rw [he, hadd]
      · exact ⟨fun _ => rfl, rfl⟩
      · simp only [hp]
        exact ⟨fun name => w.registry.descriptor?_register context item.name name d, Table.names_put ..⟩
      · simp only [hp]
        exact ⟨fun name => w.registry.descriptor?_remove item.name name, Table.names_erase ..⟩

theorem isInLimit_of_descriptorOf? {name : Text} {d : Descriptor} (h : descriptorOf? entries name = some d) :
    ∀ e ∈ d.entries, Numeral.isInLimit e.2.interval = true := by
  obtain ⟨⟨item, t⟩, _, hd⟩ := Option.bind_eq_some_iff.1 h
  have hparse : Descriptor.parse item t = .ok d := by
    cases hp : Descriptor.parse item t <;> simp_all [Except.toOption]
  exact Descriptor.isInLimit_of_parse hparse

end Inventory

/-! ## Reports -/

theorem Json.field?_eq_some {fs : List (Text × Json)} (hnodup : (fs.map (·.1)).Nodup) {name : Text} {j : Json} :
    (Json.object fs).field? name = some j ↔ (name, j) ∈ fs := by
  unfold Json.field?
  induction fs with
  | nil => simp
  | cons f fs ih =>
    obtain ⟨k, i⟩ := f
    obtain ⟨hk, hnodup⟩ := List.nodup_cons.1 hnodup
    by_cases hname : k = name
    · subst hname
      have hrest : (k, j) ∉ fs := fun h => hk (List.mem_map.2 ⟨(k, j), h, rfl⟩)
      simp [hrest, eq_comm]
    · simp [hname, Ne.symm hname, ← ih hnodup]

theorem Json.field?_cons (l : Text) (v : Json) (fs : List (Text × Json)) (k : Text) :
    (Json.object ((l, v) :: fs)).field? k = if l = k then some v else (Json.object fs).field? k := by
  by_cases h : l = k <;> simp [Json.field?, h]

theorem Json.field?_setField (fs : List (Text × Json)) (l : Text) (v : Json) (k : Text) :
    (Json.object (Json.setField fs l v)).field? k = if l = k then some v else (Json.object fs).field? k := by
  induction fs with
  | nil => exact Json.field?_cons l v [] k
  | cons f fs ih =>
    obtain ⟨m, w⟩ := f
    rw [Json.setField, Json.field?_cons m]
    by_cases hm : l = m
    · subst hm
      rw [if_pos rfl, Json.field?_cons]
      split <;> rfl
    · rw [if_neg hm, Json.field?_cons, ih]
      by_cases hk : m = k
      · rw [if_pos hk, if_neg fun hl => hm (hl.trans hk.symm), if_pos hk]
      · rw [if_neg hk, if_neg hk]

/-- The joined form of a field, if no other name is joined to the same, and else what stood there. -/
theorem Json.field?_joinedFields {fs : List (Text × Json)} {k : Text} (hnodup : (fs.map (·.1)).Nodup)
    (honly : ∀ f ∈ fs, f.1.joined = k.joined → f.1 = k) (acc : List (Text × Json)) :
    (Json.object (Json.joinedFields acc fs)).field? k.joined =
      (((Json.object fs).field? k).map Json.joined).or ((Json.object acc).field? k.joined) := by
  induction fs generalizing acc with
  | nil => rfl
  | cons f fs ih =>
    obtain ⟨l, v⟩ := f
    obtain ⟨hl, hrest⟩ := List.nodup_cons.1 hnodup
    rw [Json.joinedFields, ih hrest fun f hf => honly f (List.mem_cons_of_mem _ hf), Json.field?_setField, Json.field?_cons]
    by_cases hname : l = k
    · subst hname
      have hnone : (Json.object fs).field? l = none :=
        Option.eq_none_iff_forall_ne_some.2 fun j hj => hl (List.mem_map.2 ⟨_, (Json.field?_eq_some hrest).1 hj, rfl⟩)
      rw [hnone, if_pos rfl, if_pos rfl]
      rfl
    · rw [if_neg fun heq => hname (honly (l, v) List.mem_cons_self heq), if_neg hname]

namespace Program

variable {entries : List Setting} {names : List Text} {name : Text} {fields : List (Setting × Setting)}

/-- The plain forms of the descriptors of some names, in the order in which the names first stand there. -/
def report (entries : List Setting) (names : List Text) : List (Text × Json) :=
  names.eraseDups.filterMap fun name => (Inventory.descriptorOf? entries name).map fun d => (name, d.plain)

/-- The names that are asked for, or else all that are registered. -/
def selection (entries : List Setting) (asked : Option (List Text)) : List Text :=
  match asked with
  | none | some [] => Inventory.registered entries
  | some names => names

theorem mem_report {j : Json} : (name, j) ∈ report entries names ↔
    name ∈ names ∧ (Inventory.descriptorOf? entries name).map Descriptor.plain = some j := by
  unfold report
  rw [List.mem_filterMap]
  constructor
  · rintro ⟨n, hn, hd⟩
    obtain ⟨d, hdescriptor, heq⟩ := Option.map_eq_some_iff.1 hd
    cases heq
    exact ⟨List.mem_eraseDups.1 hn, by rw [hdescriptor]; rfl⟩
  · rintro ⟨hn, hd⟩
    obtain ⟨d, hdescriptor, rfl⟩ := Option.map_eq_some_iff.1 hd
    exact ⟨name, List.mem_eraseDups.2 hn, by rw [hdescriptor]; rfl⟩

theorem nodup_report (entries : List Setting) (names : List Text) : ((report entries names).map (·.1)).Nodup := by
  unfold report
  rw [List.map_filterMap]
  refine (nodup_eraseDups names).filterMap fun n n' m hm hm' => ?_
  simp only [Option.map_map, Option.mem_def, Option.map_eq_some_iff, Function.comp_apply] at hm hm'
  obtain ⟨_, _, rfl⟩ := hm
  obtain ⟨_, _, rfl⟩ := hm'
  rfl

theorem field?_report (h : name ∈ names) : (Json.object (report entries names)).field? name =
    (Inventory.descriptorOf? entries name).map Descriptor.plain := by
  ext j
  rw [Json.field?_eq_some (nodup_report entries names), mem_report]
  exact and_iff_right h

theorem exact_report (entries : List Setting) (names : List Text) : (Json.object (report entries names)).Exact := by
  refine .object (nodup_report entries names) fun f hf => ?_
  obtain ⟨d, _, hd⟩ := Option.map_eq_some_iff.1 (mem_report.1 hf).2
  rw [← hd]
  exact d.exact_plain

theorem report_snoc (entries : List Setting) (names : List Text) (name : Text) :
    report entries (names ++ [name]) = if name ∈ names then report entries names
      else report entries names ++ ((Inventory.descriptorOf? entries name).map fun d => (name, d.plain)).toList := by
  unfold report
  rw [eraseDups_snoc]
  split
  · rfl
  · rw [List.filterMap_append]
    cases hd : Inventory.descriptorOf? entries name <;> simp [hd]

/-- **A registry with the descriptors of the last entries gives the report.** -/
theorem descriptors_eq_report {r : Registry} (h : ∀ name, r.descriptor? name = Inventory.descriptorOf? entries name)
    (names : List Text) : descriptors r names = report entries names := by
  induction names using List.reverseRecOn with
  | nil => rfl
  | append_singleton names name ih =>
    rw [report_snoc, ← ih]
    cases hd : Inventory.descriptorOf? entries name with
    | none =>
      have hsnoc : descriptors r (names ++ [name]) = descriptors r names := by
        simp only [descriptors, List.foldl_append, List.foldl_cons, List.foldl_nil, h, hd]
      simp [hsnoc]
    | some d =>
      have hsnoc : descriptors r (names ++ [name]) = (descriptors r names).put name d.plain := by
        simp only [descriptors, List.foldl_append, List.foldl_cons, List.foldl_nil, h, hd]
      rw [hsnoc, ih]
      by_cases hname : name ∈ names
      · rw [if_pos hname]
        exact Table.put_of_mem (mem_report.2 ⟨hname, by rw [hd]; rfl⟩) (nodup_report entries names)
      · rw [if_neg hname]
        refine Table.put_of_not_mem fun hmem => hname ?_
        obtain ⟨f, hf, rfl⟩ := List.mem_map.1 hmem
        exact (mem_report.1 hf).1

theorem read?_report (entries : List Setting) (names : List Text) :
    Json.read? ((Json.object (report entries names)).render (some (Json.blanks 2)) ++ [.char '\n']) =
      some (Json.object (report entries names)).joined :=
  Json.read?_render_append (exact_report entries names) (Json.isBlank_blanks 2) (by simp [Json.IsGap])
    (by simp [Json.EndsNumber])

/-- The dump of a name, if no other name is joined to the same. -/
theorem field?_joined_report (h : name ∈ names) (honly : ∀ n ∈ names, n.joined = name.joined → n = name) :
    (Json.object (report entries names)).joined.field? name.joined =
      (Inventory.descriptorOf? entries name).map fun d => d.joined.plain := by
  have hnames : ∀ f ∈ report entries names, f.1.joined = name.joined → f.1 = name := fun f hf =>
    honly f.1 (mem_report.1 hf).1
  rw [Json.joined, Json.field?_joinedFields (nodup_report entries names) hnames, field?_report h, Option.map_map]
  cases Inventory.descriptorOf? entries name with
  | none => rfl
  | some d => exact congrArg some d.plain_joined.symm

/-! ## Runs -/

/-- The names that are asked for in a registry, where nothing that is asked for is no name. -/
theorem selected?_text (r : Registry) (asked : Option (List Text)) : selected? r (asked.map (·.map .text)) =
    some (match asked with
      | none | some [] => r.itemNames
      | some names => names) := by
  rcases asked with _ | _ | ⟨name, names⟩
  · rfl
  · rfl
  · show ((name :: names).map Argument.text).mapM _ = _
    exact mapM_map_eq_some fun _ _ => rfl

/-- A hub that starts has loaded all entries. -/
theorem addAll_of_start
    (hcheck : Inventory.schema.check ((Setting.find? Hub.itemsKey fields).getD (.list [])) = .ok (.list entries))
    (hstart : (Hub.ofContent (.map fields)).start.1 = .ok ()) : (({} : Inventory).addAll entries).1 = .ok () := by
  rw [Hub.start_map, hcheck] at hstart
  exact Outcome.mapError_eq_ok.1 hstart

/-- What a run does whose entries are loaded. -/
theorem run_loaded
    (hcheck : Inventory.schema.check ((Setting.find? Hub.itemsKey fields).getD (.list [])) = .ok (.list entries))
    (hok : (({} : Inventory).addAll entries).1 = .ok ()) (asked : Option (List Text)) :
    let v := (({} : Inventory).addAll entries).2
    let o := run (.map fields) (asked.map (·.map .text))
    o.ending = .exit (if v.errors.isEmpty then 0 else 1) ∧ o.printed = render v.registry (selection entries asked) := by
  intro v o
  have hv : ({} : Inventory).addAll entries = (.ok (), v) := Prod.ext hok rfl
  have hnames : v.registry.itemNames = Inventory.registered entries :=
    (Inventory.registry_addAll (Inventory.hasRules_of_check hcheck) hok).2
  have hselect : selected? v.registry (asked.map (·.map .text)) = some (selection entries asked) := by
    rw [selected?_text, hnames]
    rfl
  have ho : o = run (.map fields) (asked.map (·.map .text)) := rfl
  rw [run_map hcheck, hv] at ho
  simp only [hselect] at ho
  rw [ho]
  exact ⟨rfl, rfl⟩

theorem read?_run
    (hcheck : Inventory.schema.check ((Setting.find? Hub.itemsKey fields).getD (.list [])) = .ok (.list entries))
    (hstart : (Hub.ofContent (.map fields)).start.1 = .ok ()) (asked : Option (List Text)) :
    Json.read? (run (.map fields) (asked.map (·.map .text))).printed =
      some (Json.object (report entries (selection entries asked))).joined := by
  have hok := addAll_of_start hcheck hstart
  rw [(run_loaded hcheck hok asked).2]
  unfold render
  rw [descriptors_eq_report (Inventory.registry_addAll (Inventory.hasRules_of_check hcheck) hok).1]
  exact read?_report entries (selection entries asked)

/-- **The printed text is the report**, whatever is asked for.  A hub that is started from a content binds the names that
are registered, with no number that is too long to be written; and a run prints one object, of the names that are asked
for, each once, with the descriptors that are read from the rules of their last enabled entries, and all pairs of
surrogates in it are joined.  Without such pairs it is the report itself; and a name that no other one is joined to stands
there with the dump of its descriptor.  So if it is asked for twice, it stands in both objects with the same descriptor or
in neither, and all runs have the same status. -/
theorem printed_run
    (hcheck : Inventory.schema.check ((Setting.find? Hub.itemsKey fields).getD (.list [])) = .ok (.list entries))
    (hstart : (Hub.ofContent (.map fields)).start.1 = .ok ()) :
    (Hub.ofContent (.map fields)).start.2.inventory.registry.itemNames = Inventory.registered entries ∧
    (∀ name d, Inventory.descriptorOf? entries name = some d →
      ∀ e ∈ d.entries, Numeral.isInLimit e.2.interval = true) ∧
    ∃ status, ∀ asked : Option (List Text),
      let names := selection entries asked
      let o := run (.map fields) (asked.map (·.map .text))
      o.ending = .exit status ∧
      Json.read? o.printed = some (Json.object (report entries names)).joined ∧
      ((Json.object (report entries names)).Unpaired → Json.read? o.printed = some (.object (report entries names))) ∧
      (∀ (j : Json) (name : Text), Json.read? o.printed = some j → name ∈ names →
        (∀ n ∈ names, n.joined = name.joined → n = name) →
        j.field? name.joined = (Inventory.descriptorOf? entries name).map fun d => d.joined.plain) ∧
      ∀ (asked' : Option (List Text)) (j j' : Json) (name : Text), Json.read? o.printed = some j →
        Json.read? (run (.map fields) (asked'.map (·.map .text))).printed = some j' →
        name ∈ names → name ∈ selection entries asked' →
        (∀ n ∈ names ++ selection entries asked', n.joined = name.joined → n = name) →
        j.field? name.joined = j'.field? name.joined := by
  have hok := addAll_of_start hcheck hstart
  have hnames := (Inventory.registry_addAll (Inventory.hasRules_of_check hcheck) hok).2
  have hread := read?_run hcheck hstart
  have hfield : ∀ (asked : Option (List Text)) (j : Json) (name : Text),
      Json.read? (run (.map fields) (asked.map (·.map .text))).printed = some j → name ∈ selection entries asked →
      (∀ n ∈ selection entries asked, n.joined = name.joined → n = name) →
      j.field? name.joined = (Inventory.descriptorOf? entries name).map fun d => d.joined.plain := by
    intro asked j name hj hname honly
    cases (hread asked).symm.trans hj
    exact field?_joined_report hname honly
  refine ⟨?_, fun name d => Inventory.isInLimit_of_descriptorOf?, _, fun asked =>
    ⟨(run_loaded hcheck hok asked).1, hread asked, fun hpairs => ?_, hfield asked,
      fun asked' j j' name hj hj' hname hname' honly => ?_⟩⟩
  · rw [Hub.start_map, hcheck]
    exact hnames
  · rw [hread asked, (exact_report entries _).joined_eq hpairs]
  · rw [hfield asked j name hj hname fun n hn => honly n (List.mem_append_left _ hn),
      hfield asked' j' name hj' hname' fun n hn => honly n (List.mem_append_right _ hn)]

/-- A door that is rejected in the end, and a fan that is rejected at first, so that it comes in behind the lamp; somebody
asks for the fan twice, and for an oven that is not there. -/
theorem printed_run_house :
    let entries := [switchEntry "Door" ">[ON:GET:http://x/open]", switchEntry "Fan" "-",
      switchEntry "Lamp" ">[ON:GET:http://x/on]", switchEntry "Fan" ">[OFF:GET:http://x/off]", switchEntry "Door" "-"]
    let asked := [Text.of "Fan", .of "Oven", .of "Fan"]
    Inventory.schema.check (.list entries) = .ok (.list entries) ∧
      (Hub.ofContent (.map (contentOf entries))).start.1 = .ok () ∧ ∃ lamp fan,
        Json.read? (run (.map (contentOf entries)) none).printed =
          some (.object [(.of "Lamp", lamp), (.of "Fan", fan)]) ∧
        Json.read? (run (.map (contentOf entries)) (some (asked.map .text))).printed =
          some (.object [(.of "Fan", fan)]) := by
  intro entries asked
  have hcheck : Inventory.schema.check ((Setting.find? Hub.itemsKey (contentOf entries)).getD (.list [])) =
      .ok (.list entries) := rfl
  have hstart : (Hub.ofContent (.map (contentOf entries))).start.1 = .ok () := by
    rw [Hub.start_map, hcheck]
    have hok : (({} : Inventory).addAll entries).1 = .ok () := by decide +kernel
    exact Outcome.mapError_eq_ok.2 hok
  obtain ⟨lamp, hlamp⟩ : ∃ d, Inventory.descriptorOf? entries (.of "Lamp") = some d :=
    Option.isSome_iff_exists.1 (by decide +kernel)
  obtain ⟨fan, hfan⟩ : ∃ d, Inventory.descriptorOf? entries (.of "Fan") = some d :=
    Option.isSome_iff_exists.1 (by decide +kernel)
  have hoven : Inventory.descriptorOf? entries (.of "Oven") = none := by decide +kernel
  have hregistered : (selection entries none).eraseDups = [.of "Lamp", .of "Fan"] := by decide +kernel
  have hasked : (selection entries (some asked)).eraseDups = [.of "Fan", .of "Oven"] := by decide +kernel
  obtain ⟨_, _, status, hrun⟩ := printed_run hcheck hstart
  have hall : (Json.object (report entries (selection entries none))).Unpaired := by decide +kernel
  have hone : (Json.object (report entries (selection entries (some asked)))).Unpaired := by decide +kernel
  refine ⟨hcheck, hstart, lamp.plain, fan.plain, ?_, ?_⟩
  · have hreport : report entries (selection entries none) = [(.of "Lamp", lamp.plain), (.of "Fan", fan.plain)] := by
      rw [report, hregistered]
      simp [hlamp, hfan]
    rw [← hreport]
    exact (hrun none).2.2.1 hall
  · have hreport : report entries (selection entries (some asked)) = [(.of "Fan", fan.plain)] := by
      rw [report, hasked]
      simp [hfan, hoven]
    rw [← hreport]
    exact (hrun (some asked)).2.2.1 hone

/-- Two names are bound, of which one is a pair of surrogates and the other the character that they stand for; the printed
text has one field. -/
theorem not_printed_run_of_pair :
    let pair : Text := [.surrogate 0x3d, .surrogate 0x600]
    let entry : Text → Setting := fun name => .map [(.text (.of "name"), .text name),
      (.text (.of "type"), .text (.of "Switch")), (.text (.of "http"), .text (.of ">[ON:GET:http://x/on]")),
      (.text (.of "enabled"), .bool true)]
    let entries := [entry pair, entry (.of "😀")]
    Inventory.schema.check (.list entries) = .ok (.list entries) ∧
      (Hub.ofContent (.map (contentOf entries))).start.1 = .ok () ∧
      (selection entries none).eraseDups = [pair, .of "😀"] ∧
      (∀ name ∈ selection entries none, (Inventory.descriptorOf? entries name).isSome = true) ∧
      ∃ j, Json.read? (run (.map (contentOf entries)) none).printed = some (.object [(.of "😀", j)]) := by
  intro pair entry entries
  have hcheck : Inventory.schema.check ((Setting.find? Hub.itemsKey (contentOf entries)).getD (.list [])) =
      .ok (.list entries) := rfl
  have hstart : (Hub.ofContent (.map (contentOf entries))).start.1 = .ok () := by
    rw [Hub.start_map, hcheck]
    have hok : (({} : Inventory).addAll entries).1 = .ok () := by decide +kernel
    exact Outcome.mapError_eq_ok.2 hok
  have hregistered : (selection entries none).eraseDups = [pair, .of "😀"] := by decide +kernel
  obtain ⟨first, hfirst⟩ : ∃ d, Inventory.descriptorOf? entries pair = some d :=
    Option.isSome_iff_exists.1 (by decide +kernel)
  obtain ⟨second, hsecond⟩ : ∃ d, Inventory.descriptorOf? entries (.of "😀") = some d :=
    Option.isSome_iff_exists.1 (by decide +kernel)
  have hreport : report entries (selection entries none) = [(pair, first.plain), (.of "😀", second.plain)] := by
    rw [report, hregistered]
    simp [hfirst, hsecond]
  have hnames : pair.joined = .of "😀" ∧ Text.joined (.of "😀") = .of "😀" := by decide +kernel
  refine ⟨hcheck, hstart, hregistered, by decide +kernel, second.plain.joined, ?_⟩
  have hread := read?_run hcheck hstart none
  rw [hreport] at hread
  refine hread.trans ?_
  simp [Json.joined, Json.joinedFields, Json.setField, hnames]

end Program

end RequestRules

import Bindery.Proofs.Event.Spelling
import Bindery.Proofs.Generation.Rendering

/-!
# Headers with halves of surrogate pairs

Nothing of a header depends on the events but the lines that declare them, and these are put
together from names and types. So two spellings of the events give two spellings of the header, and
the code points of its text are known from both. A run that gets as far as writing the header then
ends with the first halves of this text, or, where it holds none, with the file.
-/

namespace Bindery

namespace Header

variable {f g : Text.Spelling}

/-- Two lists of lines are spellings of one list. -/
abbrev LinesRespell (f g : Text.Spelling) : List String → List String → Prop :=
  List.Forall₂ (Text.Respells f g)

/-- Lines without halves are spelled in one way. -/
theorem linesRespell_refl (ls : List String) : LinesRespell f g ls ls :=
  List.forall₂_same.mpr fun l _ => .refl l

/-- A name that is made of a fixed part and a text is spelled like the text. -/
theorem respells_between {s s' : String} (before after : String) (h : Text.Respells f g s s') :
    Text.Respells f g (before ++ s ++ after) (before ++ s' ++ after) :=
  ((Text.Respells.refl before).append h).append (.refl after)

/-- The lines of the arguments of an event. -/
def argumentLines (e : Event) : List String :=
  if e.arguments.isEmpty then [""]
  else e.arguments.map fun p => "        " ++ p.type ++ "* " ++ p.name ++ ";"

/-- The lines that declare an event. -/
theorem linesOf_eventItems (e : Event) :
    linesOf (eventItems e) =
      ["struct " ++ argumentsTag e.name ++ " \x7b", "    int size;", "    struct \x7b"] ++
        argumentLines e ++ ["    \x7d *list;", "\x7d;"] ++
        ["typedef " ++ "bool" ++ " (*" ++ callbackType e.name ++ ")(" ++
          ("struct " ++ argumentsTag e.name ++ " args") ++ ");"] := by
  have hempty : (e.arguments.map fun p => (⟨p.type, p.name⟩ : Field)).isEmpty =
      e.arguments.isEmpty := List.isEmpty_map
  simp only [linesOf, eventItems, List.flatMap_cons, List.flatMap_nil, List.append_nil, Item.lines,
    hempty, List.map_map, argumentLines]
  rfl

/-- The lines of arguments are spelled like the arguments. -/
theorem linesRespell_argumentLines {e d : Event} (h : Event.Respells (Text.Respells f g) e d) :
    LinesRespell f g (argumentLines e) (argumentLines d) := by
  have harguments := h.arguments
  have hline : ∀ p q, Parameter.Respells (Text.Respells f g) p q →
      Text.Respells f g ("        " ++ p.type ++ "* " ++ p.name ++ ";")
        ("        " ++ q.type ++ "* " ++ q.name ++ ";") := by
    intro p q hpq
    exact ((respells_between "        " "* " hpq.type).append hpq.name).append (.refl ";")
  rw [argumentLines, argumentLines]
  generalize e.arguments = ps at harguments ⊢
  generalize d.arguments = qs at harguments ⊢
  cases harguments with
  | nil => exact linesRespell_refl [""]
  | @cons p q ps qs hfirst hrest =>
    simp only [List.isEmpty_cons, Bool.false_eq_true, if_false]
    exact List.rel_map (fun a b hab => hline a b hab) (.cons hfirst hrest)

/-- The declarations of an event are spelled like the event. -/
theorem linesRespell_eventItems {e d : Event} (h : Event.Respells (Text.Respells f g) e d) :
    LinesRespell f g (linesOf (eventItems e)) (linesOf (eventItems d)) := by
  have htag : Text.Respells f g (argumentsTag e.name) (argumentsTag d.name) :=
    (Text.Respells.refl "EventArgs_").append h.name
  have hcallback : Text.Respells f g (callbackType e.name) (callbackType d.name) :=
    (Text.Respells.refl "EventCallback_").append h.name
  have hstruct := respells_between "struct " " \x7b" htag
  have htypedef := respells_between ("typedef " ++ "bool" ++ " (*") ")(" hcallback
  have hparameter := respells_between "struct " " args" htag
  rw [linesOf_eventItems, linesOf_eventItems]
  refine List.rel_append (List.rel_append (List.rel_append ?_ (linesRespell_argumentLines h))
    (linesRespell_refl _)) ?_
  · exact .cons hstruct (linesRespell_refl _)
  · exact .cons ((htypedef.append hparameter).append (.refl ");")) .nil

/-- Declarations one after another are spelled like what they declare. -/
theorem linesRespell_flatMap {α : Type} {R : α → α → Prop} {items : α → List Item} {as bs : List α}
    (h : List.Forall₂ R as bs)
    (hitems : ∀ a b, R a b → LinesRespell f g (linesOf (items a)) (linesOf (items b))) :
    LinesRespell f g (linesOf (as.flatMap items)) (linesOf (bs.flatMap items)) := by
  induction h with
  | nil => exact .nil
  | cons hab _ ih =>
    rw [List.flatMap_cons, List.flatMap_cons, linesOf, linesOf, List.flatMap_append,
      List.flatMap_append]
    exact List.rel_append (hitems _ _ hab) ih

/-- The declarations of all events are spelled like the events. -/
theorem linesRespell_eventTypes {s u : EventSchema}
    (h : EventSchema.Respells (Text.Respells f g) s u) :
    LinesRespell f g (linesOf (eventTypes s)) (linesOf (eventTypes u)) := by
  refine linesRespell_flatMap h fun c d hcd => ?_
  have htitle := respells_between "// " " event type and arguments definitions" hcd.name
  have hevents := linesRespell_flatMap hcd.events fun e e' he => linesRespell_eventItems he
  exact .cons (.refl "") (.cons (.refl "") (.cons htitle hevents))

/-- Lines are put together in both spellings. -/
theorem respells_intercalate (separator : String) {ls ls' : List String}
    (h : LinesRespell f g ls ls') :
    Text.Respells f g (separator.intercalate ls) (separator.intercalate ls') := by
  induction h with
  | nil => exact .refl _
  | @cons l l' ls ls' hl hls ih =>
    cases hls with
    | nil =>
      rw [String.intercalate_singleton, String.intercalate_singleton]
      exact hl
    | cons hnext hlater =>
      rw [String.intercalate_cons_cons, String.intercalate_cons_cons]
      exact (hl.append (.refl separator)).append ih

/-- With events in two spellings a header is rendered in two spellings, or in neither. -/
theorem respells_render {h : Header} {events : EventSchema}
    (hevents : EventSchema.Respells (Text.Respells f g) h.events events) :
    Logged.Outcome Eq (Text.Respells f g) h.render { h with events }.render := by
  have hdeclarations : LinesRespell f g (linesOf h.declarations)
      (linesOf { h with events }.declarations) := by
    have htypes := linesRespell_eventTypes hevents
    simp only [linesOf, declarations, List.flatMap_append] at htypes ⊢
    refine List.rel_append (List.rel_append (List.rel_append (List.rel_append ?_ htypes) ?_) ?_) ?_
    all_goals exact linesRespell_refl _
  rw [render, render, lines, lines, statements, statements]
  dsimp only
  cases initializer h.surface h.library h.sentinel with
  | error missing => exact .error rfl
  | ok ss =>
    refine .ok ((respells_intercalate "\n" ?_).append (.refl "\n"))
    exact List.rel_append (List.rel_append hdeclarations (linesRespell_refl _))
      (linesRespell_refl _)

end Header

namespace Generation

variable {t u : FileTree} {s : Settings} {h : Header} {ns : List Nat}

/-- The text of a header has some code points: so it is spelled in the plain way, and in the
numbered one with the events of the same file. -/
structure HasPoints (t : FileTree) (s : Settings) (h : Header) (ns : List Nat) : Prop where
  /-- The plain spelling is the text of the header. -/
  plain : h.render = .ok (Text.ofPoints .plain ns)
  /-- The numbered spelling is that with the numbered events. -/
  numbered : ∃ events, EventSchema.loadSpelled .numbered .header t s.events = .ok events ∧
    { h with events }.render = .ok (Text.ofPoints .numbered ns)

/-- The words of the type map of the header hold no foreign characters. -/
theorem familiar_of_mem_header : ∀ p ∈ TypeMap.header.table, Text.Familiar p.1 := by
  have hall : (TypeMap.header.table.all fun p =>
      p.1.toList.all fun c => c.toNat < 0xfffd) = true := by
    decide
  simpa only [Text.Familiar, List.all_eq_true, decide_eq_true_iff] using hall

/-- The text of every header that is rendered has some code points. -/
theorem exists_hasPoints {text : String} (hheader : (header t s).result = .ok h)
    (htext : h.render = .ok text) : ∃ ns, HasPoints t s h ns := by
  obtain ⟨surface, events, -, hevents, rfl⟩ := header_eq_ok hheader
  have hloaded := EventSchema.loadSpelled_respells Text.foreign_plain Text.foreign_numbered
    familiar_of_mem_header t s.events
  rw [EventSchema.load] at hevents
  rw [hevents] at hloaded
  generalize hnumbered : EventSchema.loadSpelled .numbered .header t s.events = loaded at hloaded
  cases hloaded with
  | @ok _ events' hspelled =>
    have hrendered := Header.respells_render
      (h := { surface, events, library := s.library }) hspelled
    rw [htext] at hrendered
    generalize hother : Header.render _ = other at hrendered
    cases hrendered with
    | ok hpoints =>
      obtain ⟨ns, rfl, rfl⟩ := hpoints
      exact ⟨ns, htext, events', hnumbered, hother⟩

/-- What is found in the text of a header is the first of its halves. -/
theorem headerHalves?_eq (hpoints : HasPoints t s h ns) :
    headerHalves? t s h (Text.ofPoints .plain ns) = Text.firstHalves? ns := by
  obtain ⟨hplain, events, hevents, hnumbered⟩ := hpoints
  rw [headerHalves?, hevents, ← Text.halves?_ofPoints]
  change (if events = h.events then none else _) = _
  split
  next heq =>
    have hsame : Text.ofPoints .numbered ns = Text.ofPoints .plain ns := by
      subst heq
      exact Except.ok.inj (hnumbered.symm.trans hplain)
    rw [hsame, Text.halves?_self]
  next =>
    rw [hnumbered]
    rfl

/-- What is rendered for a header with some code points. -/
theorem headerRendering_eq (hheader : (header t s).result = .ok h) (hpoints : HasPoints t s h ns) :
    (headerRendering t s).result = .ok ⟨Utf8.encode (Text.ofPoints .plain ns),
      Text.firstHalves? ns, headerTotals h, h.surface.size⟩ := by
  rw [headerRendering, Logged.bind_of_ok hheader, hpoints.plain, ← headerHalves?_eq hpoints]
  rfl

/-- A header without halves is in its file, once this can be written. -/
theorem writeHeader_of_whole (hheader : (header t s).result = .ok h)
    (hpoints : HasPoints t s h ns) (hwhole : ∀ n ∈ ns, Text.isHalf n = false)
    (hwrite : t.writeBelow s.header (Utf8.encode (Text.ofPoints .plain ns)) = (u, .ok ())) :
    (writeHeader t s).1 = u ∧
      (writeHeader t s).2.result = .ok ⟨s.header, h.surface.size⟩ := by
  have hrendered := headerRendering_eq hheader hpoints
  rw [writeHeader_eq_produce,
    produce_of_written hrendered (Text.firstHalves?_eq_none_iff.mpr hwhole) hwrite]
  exact ⟨rfl, rfl⟩

/-- A header with halves leaves its file empty, once this is open, and the run ends with the first
of them. -/
theorem writeHeader_of_halves {halves : Text.Halves} (hheader : (header t s).result = .ok h)
    (hpoints : HasPoints t s h ns) (hhalves : Text.firstHalves? ns = some halves)
    (hopen : t.writeBelow s.header [] = (u, .ok ())) :
    (writeHeader t s).1 = u ∧ (writeHeader t s).2.result = .error (.unencodable halves) := by
  have hrendered := headerRendering_eq hheader hpoints
  rw [writeHeader_eq_produce, produce_of_halves hrendered hhalves hopen]
  exact ⟨rfl, rfl⟩

end Generation

end Bindery

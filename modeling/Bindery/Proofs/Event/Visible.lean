import Bindery.Header.Declarations
import Bindery.Proofs.Event.Schema
import Bindery.Proofs.Keyed
import Bindery.Proofs.Text.Blank

/-!
# Names and types that are blank

A name or a type of an event document has to be a text that is not empty. The text is looked at as
it is written, but a type loses the blanks at its ends when it is respelled. So a type of blanks is
accepted and comes out empty, and a name of blanks is accepted and stays. Nothing else comes out
blank: a schema and the struct members that a header declares for it show all their names and types
exactly if the document does.
-/

namespace Bindery

/-- A text shows something: it is not empty without the blanks at its ends. -/
def Text.IsVisible (s : String) : Prop := Text.stripped s ≠ ""

instance (s : String) : Decidable (Text.IsVisible s) := inferInstanceAs (Decidable (_ ≠ _))

/-- A type map lists only words that show something, with spellings that do. -/
def TypeMap.IsVisible (types : TypeMap) : Prop :=
  ∀ e ∈ types.table, Text.IsVisible e.1 ∧ Text.IsVisible e.2

instance (types : TypeMap) : Decidable types.IsVisible :=
  inferInstanceAs (Decidable (∀ e ∈ types.table, _))

/-- A parameter shows its name and its type. -/
def Parameter.IsVisible (p : Parameter) : Prop :=
  Text.IsVisible p.name ∧ Text.IsVisible p.type

/-- An event shows its name. -/
def EventSchema.NamesVisible (s : EventSchema) : Prop :=
  ∀ c ∈ s.components, ∀ e ∈ c.2, Text.IsVisible e.name

/-- The arguments of all events show their names and types. -/
def EventSchema.ArgumentsVisible (s : EventSchema) : Prop :=
  ∀ c ∈ s.components, ∀ e ∈ c.2, ∀ p ∈ e.arguments, p.IsVisible

/-- The members that items declare for the arguments of events. -/
def Header.argumentMembers (items : List Header.Item) : List Header.Field :=
  items.flatMap fun
    | .arguments _ fields => fields
    | _ => []

variable {types : TypeMap} {s : EventSchema}

/-- Under such a map a type shows something exactly if it did as it was written. -/
theorem TypeMap.isVisible_normalize_iff (h : types.IsVisible) (written : String) :
    Text.IsVisible (types.normalize written) ↔ Text.IsVisible written := by
  unfold Text.IsVisible
  rw [TypeMap.normalize, TypeMap.spelling]
  cases hfound : Keyed.get? (Text.stripped written) types.table with
  | none => rw [Option.getD_none, Text.stripped_stripped]
  | some spelling =>
    obtain ⟨hword, hspelling⟩ := h _ (Keyed.mem_of_get?_eq_some hfound)
    have hwritten : Text.stripped written ≠ "" := by
      unfold Text.IsVisible at hword
      rwa [Text.stripped_stripped] at hword
    exact iff_of_true hspelling hwritten

/-- Respelling keeps which parameters show their names and types. -/
theorem Parameter.isVisible_respell_iff (h : types.IsVisible) (p : Parameter) :
    (p.respell types).IsVisible ↔ p.IsVisible :=
  and_congr_right fun _ => types.isVisible_normalize_iff h p.type

namespace EventSchema

/-- Respelling leaves the names of events. -/
theorem namesVisible_respell_iff : (s.respell types).NamesVisible ↔ s.NamesVisible := by
  simp only [NamesVisible, respell, List.forall_mem_map, Event.respell]

/-- Respelling keeps whether all arguments show their names and types. -/
theorem argumentsVisible_respell_iff (h : types.IsVisible) :
    (s.respell types).ArgumentsVisible ↔ s.ArgumentsVisible := by
  simp only [ArgumentsVisible, respell, List.forall_mem_map, Event.respell,
    Parameter.isVisible_respell_iff h]

/-- The members that are declared for a schema are its arguments, in order. -/
theorem argumentMembers_eventTypes :
    Header.argumentMembers (Header.eventTypes s) =
      s.components.flatMap fun c =>
        c.2.flatMap fun e => e.arguments.map fun p => ⟨p.type, p.name⟩ := by
  simp [Header.argumentMembers, Header.eventTypes, Header.eventItems, List.flatMap_assoc]

/-- The members that are declared show their types and names exactly if the arguments do. -/
theorem members_visible_iff :
    (∀ f ∈ Header.argumentMembers (Header.eventTypes s),
      Text.IsVisible f.type ∧ Text.IsVisible f.name) ↔ s.ArgumentsVisible := by
  rw [argumentMembers_eventTypes]
  simp only [List.forall_mem_flatMap, List.forall_mem_map]
  have hpair (p : Parameter) : Text.IsVisible p.type ∧ Text.IsVisible p.name ↔ p.IsVisible :=
    and_comm
  simp only [hpair, ArgumentsVisible]

/-- A document is read to a schema that shows all its names and types exactly if the document does,
and exactly if the arguments do in the document, every member that a header declares for the schema
has a type and a name that show something. -/
theorem schema_visible_iff_written (v : Json) (s : EventSchema) (h : read .header v = .ok s) :
    ∃ w, Says v w ∧
      (s.NamesVisible ∧ s.ArgumentsVisible ↔ w.NamesVisible ∧ w.ArgumentsVisible) ∧
      ((∀ f ∈ Header.argumentMembers (Header.eventTypes s),
        Text.IsVisible f.type ∧ Text.IsVisible f.name) ↔ w.ArgumentsVisible) := by
  obtain ⟨w, hw, rfl⟩ := (settles_read .header v).eq_ok_iff.mp h
  have hvisible : TypeMap.header.IsVisible := by decide
  have harguments : (w.respell .header).ArgumentsVisible ↔ w.ArgumentsVisible :=
    argumentsVisible_respell_iff hvisible
  refine ⟨w, hw, and_congr namesVisible_respell_iff harguments, ?_⟩
  rw [members_visible_iff, harguments]

/-- A document in which names and types have blanks at their ends, but not only blanks. -/
def paddedDocument : Json :=
  .object [("Player", .list [.object [
    ("args", .list [.object [("type", .text " StringCharPtr\t"), ("name", .text "ip ")]]),
    ("name", .text " OnConnect")]])]

/-- The schema of that document. -/
def paddedSchema : EventSchema :=
  ⟨[("Player", [⟨" OnConnect", [⟨"const char*", "ip "⟩]⟩])]⟩

/-- In this document all names and types show something, and so they do in the schema. -/
theorem schema_visible_of_padded :
    read .header paddedDocument = .ok paddedSchema ∧ paddedSchema.NamesVisible ∧
      paddedSchema.ArgumentsVisible ∧ ∃ w, Says paddedDocument w ∧ w.NamesVisible ∧
        w.ArgumentsVisible := by
  have hread : read .header paddedDocument = .ok paddedSchema := rfl
  have hnames : paddedSchema.NamesVisible := by
    simp only [NamesVisible, paddedSchema, List.forall_mem_singleton]
    decide
  have harguments : paddedSchema.ArgumentsVisible := by
    simp only [ArgumentsVisible, paddedSchema, List.forall_mem_singleton, Parameter.IsVisible]
    decide
  obtain ⟨w, hw, hvisible, -⟩ := schema_visible_iff_written paddedDocument paddedSchema hread
  exact ⟨hread, hnames, harguments, w, hw, hvisible.mp ⟨hnames, harguments⟩⟩

/-- A document with an argument whose type is a blank. -/
def blankDocument : Json :=
  .object [("Player", .list [.object [("name", .text "OnSpawn"),
    ("args", .list [.object [("name", .text "playerid"), ("type", .text " ")]])]])]

/-- The blank is accepted as a type, the schema has an empty type, and the header declares a member
without one. -/
theorem blank_type_is_accepted :
    read .header blankDocument = .ok ⟨[("Player", [⟨"OnSpawn", [⟨"", "playerid"⟩]⟩])]⟩ ∧
      ¬Text.IsVisible "" ∧
      "        * playerid;" ∈ Header.linesOf
        (Header.eventTypes ⟨[("Player", [⟨"OnSpawn", [⟨"", "playerid"⟩]⟩])]⟩) :=
  ⟨rfl, by decide, by decide⟩

end EventSchema

end Bindery

import Bindery.Event.Load
import Bindery.Proofs.Json.Spelling

/-!
# Event schemas in two spellings

What a schema takes from its document are names and types. A name is taken as it is. A type loses
the blanks at its ends, and is looked up among words in which no half can be; so both are spelled
as they are in the document. Keys with a meaning hold no halves either, so that the same members
are found. A document that gives a schema in one spelling gives one in the other, and the two
differ by the spelling of names and types.
-/

namespace Bindery

/-- Two parameters differ by the spelling of their texts. -/
structure Parameter.Respells (R : String → String → Prop) (p q : Parameter) : Prop where
  /-- The types are spellings of one text. -/
  type : R p.type q.type
  /-- The names are spellings of one text. -/
  name : R p.name q.name

/-- Two events differ by the spelling of their texts. -/
structure Event.Respells (R : String → String → Prop) (e d : Event) : Prop where
  /-- The names are spellings of one text. -/
  name : R e.name d.name
  /-- The arguments correspond in order. -/
  arguments : List.Forall₂ (Parameter.Respells R) e.arguments d.arguments

/-- Two components differ by the spelling of their texts. -/
structure ComponentRespells (R : String → String → Prop) (c d : String × List Event) : Prop where
  /-- The names are spellings of one text. -/
  name : R c.1 d.1
  /-- The events correspond in order. -/
  events : List.Forall₂ (Event.Respells R) c.2 d.2

/-- Two schemas differ by the spelling of their texts. -/
def EventSchema.Respells (R : String → String → Prop) (s u : EventSchema) : Prop :=
  List.Forall₂ (ComponentRespells R) s.components u.components

variable {f g : Text.Spelling}

/-- A type is normalized in both spellings, where no listed word has foreign characters. -/
theorem TypeMap.respells_normalize (hf : f.Foreign) (hg : g.Foreign) {types : TypeMap}
    (hwords : ∀ p ∈ types.table, Text.Familiar p.1) {type type' : String}
    (h : Text.Respells f g type type') :
    Text.Respells f g (types.normalize type) (types.normalize type') := by
  have hstripped := h.stripped hf hg
  rw [normalize, normalize, spelling, spelling]
  generalize Text.stripped type = word at hstripped ⊢
  generalize Text.stripped type' = word' at hstripped ⊢
  by_cases hlisted : ∃ p ∈ types.table, p.1 = word
  · obtain ⟨p, hp, hword⟩ := hlisted
    have hsame : word' = p.1 := (hstripped.eq_iff hf hg (hwords p hp)).mp hword.symm
    rw [hsame, ← hword]
    exact .refl _
  · have hother : ¬∃ p ∈ types.table, p.1 = word' := by
      rintro ⟨p, hp, hword⟩
      exact hlisted ⟨p, hp, ((hstripped.eq_iff hf hg (hwords p hp)).mpr hword.symm).symm⟩
    have hnone : ∀ w, (¬∃ p ∈ types.table, p.1 = w) → Keyed.get? w types.table = none := by
      intro w hw
      refine Keyed.get?_eq_none_iff.mpr fun hmem => ?_
      obtain ⟨p, hp, hword⟩ := List.mem_map.mp hmem
      exact hw ⟨p, hp, hword⟩
    rw [hnone word hlisted, hnone word' hother]
    exact hstripped

namespace Json

/-- The members of values that differ by spelling differ by spelling. -/
theorem Respells.members? {R : String → String → Prop} {v w : Json} (h : Respells R v w) :
    Option.Rel (List.Forall₂ (MemberRespells R)) v.members? w.members? := by
  cases h with
  | object h => exact .some h
  | null => exact .none
  | bool => exact .none
  | int => exact .none
  | real => exact .none
  | text => exact .none
  | list => exact .none

/-- The items of values that differ by spelling differ by spelling. -/
theorem Respells.items? {R : String → String → Prop} {v w : Json} (h : Respells R v w) :
    Option.Rel (List.Forall₂ (Respells R)) v.items? w.items? := by
  cases h with
  | list h => exact .some h
  | null => exact .none
  | bool => exact .none
  | int => exact .none
  | real => exact .none
  | text => exact .none
  | object => exact .none

/-- A text is empty in both spellings or in neither. -/
theorem Respells.nonempty? {v w : Json} (h : Alike f g v w) :
    Option.Rel (Text.Respells f g) v.nonempty? w.nonempty? := by
  cases h with
  | @text s s' h =>
    rw [Json.nonempty?, Json.nonempty?, ← h.isEmpty_eq]
    cases s.isEmpty with
    | true => exact .none
    | false => exact .some h
  | null => exact .none
  | bool => exact .none
  | int => exact .none
  | real => exact .none
  | list => exact .none
  | object => exact .none

/-- Under a key without foreign characters the same member is found in both spellings. -/
theorem get?_respells (hf : f.Foreign) (hg : g.Foreign) (key : String)
    (hkey : Text.Familiar key) {ms ms' : List (String × Json)}
    (h : List.Forall₂ (MemberRespells (Text.Respells f g)) ms ms') :
    Option.Rel (Alike f g) (Keyed.get? key ms) (Keyed.get? key ms') := by
  have hsame : ∀ e e', MemberRespells (Text.Respells f g) e e' → (e.1 = key ↔ e'.1 = key) := by
    intro e e' he
    cases he with
    | mk hname _ => exact hname.eq_iff hf hg hkey
  have hfound := Keyed.get?_beside hsame h
  generalize Keyed.get? key ms = found at hfound ⊢
  generalize Keyed.get? key ms' = found' at hfound ⊢
  cases hfound with
  | none => exact .none
  | some hmember =>
    cases hmember with
    | mk _ hvalue => exact .some hvalue

end Json

namespace EventSchema

/-- Two readings both fail, in whatever way, or give what is related. -/
abbrev EndAlike {ε ε' α β : Type} (R : α → β → Prop) : Except ε α → Except ε' β → Prop :=
  Logged.Outcome (fun _ _ => True) R

variable {types : TypeMap} {component component' : String} {v w : Json}
  {members members' : List (String × Json)}

/-- Under a key without foreign characters the same text is found in both spellings. -/
theorem textMember?_respells (hf : f.Foreign) (hg : g.Foreign) (key : String)
    (hkey : Text.Familiar key)
    (h : List.Forall₂ (Json.MemberRespells (Text.Respells f g)) members members') :
    Option.Rel (Text.Respells f g) (textMember? members key) (textMember? members' key) := by
  have hfound := Json.get?_respells hf hg key hkey h
  rw [textMember?, textMember?]
  generalize Keyed.get? key members = found at hfound ⊢
  generalize Keyed.get? key members' = found' at hfound ⊢
  cases hfound with
  | none => exact .none
  | some hvalue => exact hvalue.nonempty?

/-- The arguments of an event are listed in both spellings or in neither. -/
theorem argumentItems?_respells (hf : f.Foreign) (hg : g.Foreign)
    (h : List.Forall₂ (Json.MemberRespells (Text.Respells f g)) members members') :
    Option.Rel (List.Forall₂ (Json.Alike f g)) (argumentItems? members)
      (argumentItems? members') := by
  have hfound := Json.get?_respells hf hg "args" (by simp [Text.Familiar]) h
  rw [argumentItems?, argumentItems?]
  generalize Keyed.get? "args" members = found at hfound ⊢
  generalize Keyed.get? "args" members' = found' at hfound ⊢
  cases hfound with
  | none => exact .some .nil
  | some hvalue => exact hvalue.items?

variable (hf : f.Foreign) (hg : g.Foreign)
  (hwords : ∀ p ∈ types.table, Text.Familiar p.1)

include hf hg hwords

/-- An argument is read in both spellings or in neither. -/
theorem readArgument_respells {event event' : String} (h : Json.Alike f g v w) :
    EndAlike (Parameter.Respells (Text.Respells f g)) (readArgument types component event v)
      (readArgument types component' event' w) := by
  have hmembers := h.members?
  rw [readArgument, readArgument]
  generalize v.members? = found at hmembers ⊢
  generalize w.members? = found' at hmembers ⊢
  cases hmembers with
  | none => exact .error trivial
  | @some members members' hmembers =>
    have hname := textMember?_respells hf hg "name" (by simp [Text.Familiar]) hmembers
    have htype := textMember?_respells hf hg "type" (by simp [Text.Familiar]) hmembers
    dsimp only
    generalize textMember? members "name" = name at hname ⊢
    generalize textMember? members' "name" = name' at hname ⊢
    generalize textMember? members "type" = type at htype ⊢
    generalize textMember? members' "type" = type' at htype ⊢
    cases hname with
    | none => exact .error trivial
    | some hname =>
      cases htype with
      | none => exact .error trivial
      | some htype => exact .ok ⟨types.respells_normalize hf hg hwords htype, hname⟩

/-- An event is read in both spellings or in neither. -/
theorem readEvent_respells (h : Json.Alike f g v w) :
    EndAlike (Event.Respells (Text.Respells f g)) (readEvent types component v)
      (readEvent types component' w) := by
  have hmembers := h.members?
  rw [readEvent, readEvent]
  generalize v.members? = found at hmembers ⊢
  generalize w.members? = found' at hmembers ⊢
  cases hmembers with
  | none => exact .error trivial
  | @some members members' hmembers =>
    have hname := textMember?_respells hf hg "name" (by simp [Text.Familiar]) hmembers
    have hitems := argumentItems?_respells hf hg hmembers
    dsimp only
    generalize textMember? members "name" = name at hname ⊢
    generalize textMember? members' "name" = name' at hname ⊢
    generalize argumentItems? members = items at hitems ⊢
    generalize argumentItems? members' = items' at hitems ⊢
    cases hname with
    | none => exact .error trivial
    | some hname =>
      cases hitems with
      | none => exact .error trivial
      | some hitems =>
        refine Logged.Outcome.bind (Logged.Outcome.mapM hitems fun a b hab => ?_)
          fun arguments arguments' harguments => .ok ⟨hname, harguments⟩
        exact readArgument_respells hf hg hwords hab

/-- A component is read in both spellings or in neither. -/
theorem readComponent_respells (h : Json.Alike f g v w) :
    EndAlike (List.Forall₂ (Event.Respells (Text.Respells f g)))
      (readComponent types component v) (readComponent types component' w) := by
  have hitems := h.items?
  rw [readComponent, readComponent]
  generalize v.items? = items at hitems ⊢
  generalize w.items? = items' at hitems ⊢
  cases hitems with
  | none => exact .error trivial
  | some hitems =>
    exact Logged.Outcome.mapM hitems fun a b hab => readEvent_respells hf hg hwords hab

/-- A schema is read in both spellings or in neither. -/
theorem read_respells (h : Json.Alike f g v w) :
    EndAlike (EventSchema.Respells (Text.Respells f g)) (read types v) (read types w) := by
  have hmembers := h.members?
  rw [read, read]
  generalize v.members? = found at hmembers ⊢
  generalize w.members? = found' at hmembers ⊢
  cases hmembers with
  | none => exact .error trivial
  | some hmembers =>
    refine Logged.Outcome.bind (Logged.Outcome.mapM hmembers fun m n hmn => ?_)
      fun components components' hcomponents => .ok hcomponents
    cases hmn with
    | mk hname hvalue =>
      refine Logged.Outcome.bind (readComponent_respells hf hg hwords hvalue) ?_
      exact fun events events' hevents => .ok ⟨hname, hevents⟩

/-- The schema of a file is loaded in both spellings or in neither. -/
theorem loadSpelled_respells (t : FileTree) (p : Path) :
    EndAlike (EventSchema.Respells (Text.Respells f g)) (loadSpelled f types t p)
      (loadSpelled g types t p) := by
  rw [loadSpelled, loadSpelled]
  split
  · exact .error trivial
  · split
    next => exact .error trivial
    next bytes _ =>
      split
      next => exact .error trivial
      next cs _ =>
        have hparse := Json.parseSpelled_alike f g (String.ofList (unifyLines cs))
        generalize Json.parseSpelled f (String.ofList (unifyLines cs)) = x at hparse ⊢
        generalize Json.parseSpelled g (String.ofList (unifyLines cs)) = y at hparse ⊢
        cases hparse with
        | @error fault _ hfault =>
          subst hfault
          cases fault with
          | form => exact .error trivial
          | tooLong => exact .error trivial
          | tooDeep => exact .error trivial
        | ok hv => exact (read_respells hf hg hwords hv).mapError fun _ _ _ => trivial

end EventSchema

end Bindery

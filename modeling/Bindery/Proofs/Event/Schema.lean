import Bindery.Event.Schema
import Mathlib.Data.List.Forall2

/-!
# What an event document says

A document that has the form says one schema: its components, events and arguments in the order in
which they are written, the types as they are written. A document that does not have the form
violates it at one place or more. Places are told by numbers, and the first one in the order of the
document is the one with the smallest number where two places part. Reading a document gives the
schema that it says, with the types respelled, or else the first violation. Each level of the
document is settled by what its items are, so one law about lists serves them all.
-/

namespace Bindery

/-- A parameter with its type respelled. -/
def Parameter.respell (types : TypeMap) (p : Parameter) : Parameter :=
  ⟨types.normalize p.type, p.name⟩

/-- An event with the types of its arguments respelled. -/
def Event.respell (types : TypeMap) (e : Event) : Event :=
  ⟨e.name, e.arguments.map (Parameter.respell types)⟩

namespace EventSchema

/-- A schema with the types of all arguments respelled. -/
def respell (types : TypeMap) (s : EventSchema) : EventSchema :=
  ⟨s.components.map fun c => (c.1, c.2.map (Event.respell types))⟩

/-- A member of an object is a text that is not empty. -/
def HasText (members : List (String × Json)) (key text : String) : Prop :=
  Keyed.get? key members = some (.text text) ∧ text ≠ ""

/-- The arguments of an object: the list under `args`, or none if there is no such member. -/
def ListsArguments (members : List (String × Json)) (items : List Json) : Prop :=
  Keyed.get? "args" members = some (.list items) ∨ Keyed.get? "args" members = none ∧ items = []

/-- An argument is an object with a name and a type. -/
def IsArgument (v : Json) : Prop :=
  ∃ members name type, v = .object members ∧ HasText members "name" name ∧
    HasText members "type" type

/-- An event is an object with a name, in which `args` is absent or a list of arguments. -/
def IsEvent (v : Json) : Prop :=
  ∃ members name, v = .object members ∧ HasText members "name" name ∧
    (Keyed.get? "args" members = none ∨
      ∃ items, Keyed.get? "args" members = some (.list items) ∧ ∀ a ∈ items, IsArgument a)

/-- A document is an object whose members are lists of events. -/
def IsDocument (v : Json) : Prop :=
  ∃ members, v = .object members ∧
    ∀ m ∈ members, ∃ items, m.2 = .list items ∧ ∀ e ∈ items, IsEvent e

/-- The events of a document, in order. -/
def writtenEvents (v : Json) : List Json :=
  (v.members?.getD []).flatMap fun m => m.2.items?.getD []

/-- A value says an argument. -/
def SaysArgument (v : Json) (p : Parameter) : Prop :=
  ∃ members, v = .object members ∧ HasText members "name" p.name ∧ HasText members "type" p.type

/-- A value says an event. -/
def SaysEvent (v : Json) (e : Event) : Prop :=
  ∃ members items, v = .object members ∧ HasText members "name" e.name ∧
    ListsArguments members items ∧ List.Forall₂ SaysArgument items e.arguments

/-- A member of a document says a component with its events. -/
def SaysComponent (m : String × Json) (c : String × List Event) : Prop :=
  c.1 = m.1 ∧ ∃ items, m.2 = .list items ∧ List.Forall₂ SaysEvent items c.2

/-- A document says a schema, with the types as they are written. -/
def Says (v : Json) (s : EventSchema) : Prop :=
  ∃ members, v = .object members ∧ List.Forall₂ SaysComponent members s.components

/-- A place in a document: the number of a member, the number of an event in it and the number of
an argument in that, or a beginning of these. -/
abbrev Place := List Nat

/-- A place comes before another one: it contains the other, or has the smaller number where the
two part. -/
def Precedes (p q : Place) : Prop := List.Lex (· < ·) p q

/-- What is wrong at the places of a list is what is wrong in one of its items. -/
inductive Among {α : Type} (wrong : α → Place → EventDefect → Prop) (xs : List α) :
    Place → EventDefect → Prop
  | item {i : Nat} {x : α} {place : Place} {d : EventDefect} (hx : xs[i]? = some x)
    (h : wrong x place d) : Among wrong xs (i :: place) d

/-- What is wrong with an argument of an event. -/
inductive ArgumentViolation (component event : String) (v : Json) : Place → EventDefect → Prop
  | noObject (h : ∀ members, v ≠ .object members) :
    ArgumentViolation component event v [] (.noArgumentObject component event)
  | incomplete {members : List (String × Json)} (hv : v = .object members)
    (h : ¬∃ name type, HasText members "name" name ∧ HasText members "type" type) :
    ArgumentViolation component event v [] (.incompleteArgument component event)

/-- What is wrong with an event of a component. What is wrong inside an event is told under its
name, so an event without a name has this one violation. -/
inductive EventViolation (component : String) (v : Json) : Place → EventDefect → Prop
  | unnamed (h : ¬∃ members name, v = .object members ∧ HasText members "name" name) :
    EventViolation component v [] (.unnamedEvent component)
  | noArgumentList {members : List (String × Json)} {name : String} {w : Json}
    (hv : v = .object members) (hname : HasText members "name" name)
    (hargs : Keyed.get? "args" members = some w) (h : ∀ items, w ≠ .list items) :
    EventViolation component v [] (.noArgumentList component name)
  | argument {members : List (String × Json)} {name : String} {items : List Json} {place : Place}
    {d : EventDefect} (hv : v = .object members) (hname : HasText members "name" name)
    (hargs : ListsArguments members items)
    (h : Among (ArgumentViolation component name) items place d) :
    EventViolation component v place d

/-- What is wrong with a member of a document. -/
inductive ComponentViolation (m : String × Json) : Place → EventDefect → Prop
  | noEventList (h : ∀ items, m.2 ≠ .list items) : ComponentViolation m [] (.noEventList m.1)
  | event {items : List Json} {place : Place} {d : EventDefect} (hv : m.2 = .list items)
    (h : Among (EventViolation m.1) items place d) : ComponentViolation m place d

/-- What is wrong with a document. -/
inductive Violation (v : Json) : Place → EventDefect → Prop
  | noObject (h : ∀ members, v ≠ .object members) : Violation v [] .noObject
  | component {members : List (String × Json)} {place : Place} {d : EventDefect}
    (hv : v = .object members) (h : Among ComponentViolation members place d) :
    Violation v place d

/-- A defect is what is wrong at the first place where anything is wrong. -/
def IsFirstViolation (v : Json) (d : EventDefect) : Prop :=
  ∃ place, Violation v place d ∧
    ∀ other d', Violation v other d' → other = place ∨ Precedes place other

variable {α α' β β' γ : Type} {types : TypeMap} {v : Json} {members : List (String × Json)}

/-- A value has members exactly if it is an object of them. -/
theorem members?_eq_some_iff : v.members? = some members ↔ v = .object members := by
  cases v <;> simp [Json.members?]

/-- A value has no members exactly if it is no object. -/
theorem members?_eq_none_iff : v.members? = none ↔ ∀ members, v ≠ .object members := by
  cases v <;> simp [Json.members?]

/-- A value has items exactly if it is a list of them. -/
theorem items?_eq_some_iff {items : List Json} : v.items? = some items ↔ v = .list items := by
  cases v <;> simp [Json.items?]

/-- A value has no items exactly if it is no list. -/
theorem items?_eq_none_iff : v.items? = none ↔ ∀ items, v ≠ .list items := by
  cases v <;> simp [Json.items?]

/-- A text member is found exactly if it is there and not empty. -/
theorem textMember?_eq_some_iff {key text : String} :
    textMember? members key = some text ↔ HasText members key text := by
  unfold textMember? HasText
  cases hfound : Keyed.get? key members with
  | none => simp
  | some w =>
    rw [Option.bind_some]
    cases w with
    | text value =>
      by_cases hempty : value = ""
      · subst hempty
        simp [Json.nonempty?]
      · have hkeep : Json.nonempty? (.text value) = some value := by
          rw [Json.nonempty?, if_neg (by simpa [String.isEmpty_iff] using hempty)]
        rw [hkeep]
        constructor
        · intro h
          obtain rfl := Option.some.inj h
          exact ⟨rfl, hempty⟩
        · rintro ⟨h, -⟩
          obtain rfl : value = text := by simpa using h
          rfl
    | _ => simp [Json.nonempty?]

/-- A member is one text at most. -/
theorem HasText.unique {key text text' : String} (h : HasText members key text)
    (h' : HasText members key text') : text = text' := by
  have hsame := h.1.symm.trans h'.1
  simpa using hsame

/-- The items of `args` are found exactly if there are arguments. -/
theorem argumentItems?_eq_some_iff {items : List Json} :
    argumentItems? members = some items ↔ ListsArguments members items := by
  unfold argumentItems? ListsArguments
  cases hfound : Keyed.get? "args" members with
  | none => simp [eq_comm]
  | some w => simp [items?_eq_some_iff]

/-- They are not found exactly if `args` is something else than a list. -/
theorem argumentItems?_eq_none_iff :
    argumentItems? members = none ↔
      ∃ w, Keyed.get? "args" members = some w ∧ ∀ items, w ≠ .list items := by
  unfold argumentItems?
  cases hfound : Keyed.get? "args" members with
  | none => simp
  | some w => simp [items?_eq_none_iff]

/-- The arguments of an object are one list. -/
theorem ListsArguments.unique {items items' : List Json} (h : ListsArguments members items)
    (h' : ListsArguments members items') : items = items' := by
  rw [← argumentItems?_eq_some_iff] at h h'
  exact Option.some.inj (h.symm.trans h')

/-- Where `args` is something else than a list, there are no arguments. -/
theorem not_listsArguments {w : Json} (hw : Keyed.get? "args" members = some w)
    (hno : ∀ items, w ≠ .list items) (items : List Json) : ¬ListsArguments members items := by
  rintro (hlist | ⟨habsent, -⟩)
  · exact hno items (Option.some.inj (hw.symm.trans hlist))
  · exact nomatch hw.symm.trans habsent

/-- An outcome settles what stands in some part of a document: the one thing that is said there,
respelled, where nothing is wrong, or else what is wrong first, where nothing is said. -/
inductive Settles (said : α → Prop) (respell : α → β) (wrong : Place → EventDefect → Prop) :
    Except EventDefect β → Prop
  | ok {a : α} (ha : said a) (hunique : ∀ b, said b → b = a)
    (hright : ∀ place d, ¬wrong place d) : Settles said respell wrong (.ok (respell a))
  | error {place : Place} {d : EventDefect} (hsaid : ∀ a, ¬said a) (hd : wrong place d)
    (hfirst : ∀ other d', wrong other d' → other = place ∧ d' = d ∨ Precedes place other) :
    Settles said respell wrong (.error d)

variable {said : α → Prop} {respell : α → β} {wrong : Place → EventDefect → Prop}
  {x : Except EventDefect β}

/-- What is wrong with the whole of a part, and nothing else, settles it. -/
theorem Settles.of_whole {d : EventDefect} (hsaid : ∀ a, ¬said a) (hd : wrong [] d)
    (honly : ∀ other d', wrong other d' → other = [] ∧ d' = d) :
    Settles said respell wrong (.error d) :=
  .error hsaid hd fun other d' h => .inl (honly other d' h)

/-- What is settled succeeds exactly with what is said, respelled. -/
theorem Settles.eq_ok_iff (h : Settles said respell wrong x) {b : β} :
    x = .ok b ↔ ∃ a, said a ∧ b = respell a := by
  cases h with
  | @ok a ha hunique hright =>
    rw [Except.ok.injEq]
    constructor
    · rintro rfl
      exact ⟨a, ha, rfl⟩
    · rintro ⟨c, hc, rfl⟩
      rw [hunique c hc]
  | error hsaid hd hfirst =>
    constructor
    · exact fun h => nomatch h
    · rintro ⟨a, ha, -⟩
      exact absurd ha (hsaid a)

/-- What is settled fails exactly with what is wrong first. -/
theorem Settles.eq_error_iff (h : Settles said respell wrong x) {d : EventDefect} :
    x = .error d ↔ ∃ place, wrong place d ∧
      ∀ other d', wrong other d' → other = place ∨ Precedes place other := by
  cases h with
  | ok ha hunique hright =>
    constructor
    · exact fun h => nomatch h
    · rintro ⟨place, hd, -⟩
      exact absurd hd (hright place d)
  | @error place d' hsaid hd hfirst =>
    rw [Except.error.injEq]
    constructor
    · rintro rfl
      exact ⟨place, hd, fun other e he => (hfirst other e he).imp And.left id⟩
    · rintro ⟨place', hd', hfirst'⟩
      rcases hfirst place' d hd' with ⟨-, rfl⟩ | hlater
      · rfl
      · -- Neither of two places that are both first comes after the other.
        rcases hfirst' place d' hd with rfl | hearlier
        · exact absurd hlater (List.lex_irrefl (fun _ => Nat.lt_irrefl _) place)
        · exact absurd hearlier (List.lex_asymm Nat.lt_asymm hlater)

/-- A part that is made of one other part is settled with it. -/
theorem Settles.map {said' : α' → Prop} {respell' : α' → β'}
    {wrong' : Place → EventDefect → Prop} {make : α → α'} {wrap : β → β'}
    (h : Settles said respell wrong x) (hsaid : ∀ a', said' a' ↔ ∃ a, said a ∧ a' = make a)
    (hrespell : ∀ a, wrap (respell a) = respell' (make a))
    (hwrong : ∀ place d, wrong' place d ↔ wrong place d) :
    Settles said' respell' wrong' (do return wrap (← x)) := by
  cases h with
  | @ok a ha hunique hright =>
    have hout : (do return wrap (← (.ok (respell a) : Except EventDefect β))) =
        (.ok (respell' (make a)) : Except EventDefect β') := congrArg Except.ok (hrespell a)
    rw [hout]
    refine .ok ((hsaid _).mpr ⟨a, ha, rfl⟩) (fun b hb => ?_)
      fun place d hd => hright place d ((hwrong place d).mp hd)
    obtain ⟨c, hc, rfl⟩ := (hsaid b).mp hb
    rw [hunique c hc]
  | @error place d hnone hd hfirst =>
    refine .error (fun a' ha' => ?_) ((hwrong place d).mpr hd)
      fun other d' hd' => hfirst other d' ((hwrong other d').mp hd')
    obtain ⟨a, ha, -⟩ := (hsaid a').mp ha'
    exact hnone a ha

/-- What is wrong in a list is wrong in its first item or in a later one. -/
theorem among_cons_iff {wrong : γ → Place → EventDefect → Prop} {first : γ} {xs : List γ}
    {place : Place} {d : EventDefect} :
    Among wrong (first :: xs) place d ↔
      (∃ inside, place = 0 :: inside ∧ wrong first inside d) ∨
        ∃ i inside, place = (i + 1) :: inside ∧ Among wrong xs (i :: inside) d := by
  constructor
  · rintro ⟨hx, h⟩
    next i x inside =>
    cases i with
    | zero =>
      obtain rfl : first = x := Option.some.inj hx
      exact .inl ⟨inside, rfl, h⟩
    | succ i => exact .inr ⟨i, inside, rfl, .item hx h⟩
  · rintro (⟨inside, rfl, h⟩ | ⟨i, inside, rfl, h⟩)
    · exact .item rfl h
    · cases h with
      | item hx h => exact .item hx h

/-- A place in a later item is a place of the list one further on. -/
theorem Precedes.later {i j : Nat} {p q : Place} (h : Precedes (i :: p) (j :: q)) :
    Precedes ((i + 1) :: p) ((j + 1) :: q) := by
  cases h with
  | rel hless => exact .rel (Nat.succ_lt_succ hless)
  | cons h => exact .cons h

/-- A list is settled by its items, the first one with something wrong in it before all others. -/
theorem settles_mapM {said : γ → α → Prop} {wrong : γ → Place → EventDefect → Prop}
    {read : γ → Except EventDefect β} (h : ∀ x, Settles (said x) respell (wrong x) (read x))
    (xs : List γ) :
    Settles (List.Forall₂ said xs) (List.map respell) (Among wrong xs) (xs.mapM read) := by
  induction xs with
  | nil =>
    have hright : ∀ place d, ¬Among wrong [] place d := by
      rintro place d ⟨hx, -⟩
      exact absurd hx (by simp)
    exact Settles.ok List.Forall₂.nil (fun b hb => List.forall₂_nil_left_iff.mp hb) hright
  | cons x xs ih =>
    rw [List.mapM_cons]
    have hx := h x
    generalize read x = first at hx
    generalize xs.mapM read = rest at ih
    cases hx with
    | error hsaid hd hfirst =>
      refine .error (fun a ha => ?_) (among_cons_iff.mpr (.inl ⟨_, rfl, hd⟩)) fun other d' h' => ?_
      · cases ha with
        | cons hhead _ => exact hsaid _ hhead
      · rcases among_cons_iff.mp h' with ⟨inside, rfl, hin⟩ | ⟨i, inside, rfl, -⟩
        · rcases hfirst inside d' hin with ⟨rfl, rfl⟩ | hlater
          · exact .inl ⟨rfl, rfl⟩
          · exact .inr (.cons hlater)
        · exact .inr (.rel (Nat.succ_pos i))
    | ok ha hunique hright =>
      cases ih with
      | error hsaid hd hfirst =>
        obtain ⟨hitem, hinside⟩ := hd
        refine .error (fun b hb => ?_)
          (among_cons_iff.mpr (.inr ⟨_, _, rfl, .item hitem hinside⟩)) fun other d' h' => ?_
        · cases hb with
          | cons _ htail => exact hsaid _ htail
        · rcases among_cons_iff.mp h' with ⟨inside, rfl, hin⟩ | ⟨i, inside, rfl, hin⟩
          · exact absurd hin (hright inside d')
          · rcases hfirst _ d' hin with ⟨hplace, rfl⟩ | hlater
            · obtain ⟨rfl, rfl⟩ := List.cons.inj hplace
              exact .inl ⟨rfl, rfl⟩
            · exact .inr hlater.later
      | ok hrest hrestUnique hrestRight =>
        refine Settles.ok (List.Forall₂.cons ha hrest) (fun b hb => ?_) fun place d h' => ?_
        · cases hb with
          | cons hhead htail => rw [hunique _ hhead, hrestUnique _ htail]
        · rcases among_cons_iff.mp h' with ⟨inside, rfl, hin⟩ | ⟨i, inside, rfl, hin⟩
          · exact hright inside d hin
          · exact hrestRight _ d hin

/-- Reading an argument settles it. -/
theorem settles_readArgument (types : TypeMap) (component event : String) (v : Json) :
    Settles (SaysArgument v) (Parameter.respell types) (ArgumentViolation component event v)
      (readArgument types component event v) := by
  unfold readArgument
  cases hv : v.members? with
  | none =>
    have hno := members?_eq_none_iff.mp hv
    refine .of_whole (fun p ⟨members, hp, _⟩ => hno members hp) (.noObject hno) ?_
    rintro other d' (_ | ⟨hobject, -⟩)
    · exact ⟨rfl, rfl⟩
    · exact absurd hobject (hno _)
  | some members =>
    obtain rfl := members?_eq_some_iff.mp hv
    dsimp only
    split
    next name type hname htype =>
      rw [textMember?_eq_some_iff] at hname htype
      have hsays : SaysArgument (.object members) ⟨type, name⟩ := ⟨members, rfl, hname, htype⟩
      change Settles _ _ _ (.ok (Parameter.respell types ⟨type, name⟩))
      refine .ok hsays (fun p ⟨members', hp, hname', htype'⟩ => ?_) ?_
      · obtain rfl := Json.object.inj hp
        obtain rfl : p.name = name := hname'.unique hname
        obtain rfl : p.type = type := htype'.unique htype
        rfl
      · rintro place d (hno | ⟨hobject, hmissing⟩)
        · exact hno members rfl
        · obtain rfl := Json.object.inj hobject
          exact hmissing ⟨name, type, hname, htype⟩
    next hmissing =>
      have hnone : ¬∃ name type, HasText members "name" name ∧ HasText members "type" type := by
        rintro ⟨name, type, hname, htype⟩
        exact hmissing name type (textMember?_eq_some_iff.mpr hname)
          (textMember?_eq_some_iff.mpr htype)
      refine .of_whole (fun p ⟨members', hp, hname, htype⟩ => ?_) (.incomplete rfl hnone) ?_
      · obtain rfl := Json.object.inj hp
        exact hnone ⟨_, _, hname, htype⟩
      · rintro other d' (hno | _)
        · exact absurd rfl (hno members)
        · exact ⟨rfl, rfl⟩

/-- An object without a name, or what is no object, is settled by that. -/
theorem settles_unnamed {component : String}
    (h : ¬∃ members name, v = .object members ∧ HasText members "name" name) :
    Settles (SaysEvent v) (Event.respell types) (EventViolation component v)
      (.error (.unnamedEvent component)) := by
  refine .of_whole (fun e ⟨members, items, he, hname, _⟩ => h ⟨members, e.name, he, hname⟩)
    (.unnamed h) ?_
  rintro other d' (_ | ⟨hobject, hname, -, -⟩ | ⟨hobject, hname, -, -⟩)
  · exact ⟨rfl, rfl⟩
  · exact absurd ⟨_, _, hobject, hname⟩ h
  · exact absurd ⟨_, _, hobject, hname⟩ h

/-- An object with a name, and something else than a list for its arguments, is settled by that. -/
theorem settles_noArgumentList {component name : String} {w : Json}
    (hname : HasText members "name" name) (hw : Keyed.get? "args" members = some w)
    (hno : ∀ items, w ≠ .list items) :
    Settles (SaysEvent (.object members)) (Event.respell types)
      (EventViolation component (.object members)) (.error (.noArgumentList component name)) := by
  refine .of_whole (fun e ⟨members', items, hobject, _, hitems, _⟩ => ?_)
    (.noArgumentList rfl hname hw hno) ?_
  · obtain rfl := Json.object.inj hobject
    exact not_listsArguments hw hno items hitems
  · rintro other d' (hmissing | ⟨hobject, hname', -, -⟩ | ⟨hobject, -, hitems, -⟩)
    · exact absurd ⟨members, name, rfl, hname⟩ hmissing
    · obtain rfl := Json.object.inj hobject
      rw [hname'.unique hname]
      exact ⟨rfl, rfl⟩
    · obtain rfl := Json.object.inj hobject
      exact absurd hitems (not_listsArguments hw hno _)

/-- An object with a name and arguments says the event of that name with what they say. -/
theorem saysEvent_object_iff {name : String} {items : List Json}
    (hname : HasText members "name" name) (hitems : ListsArguments members items) (e : Event) :
    SaysEvent (.object members) e ↔
      ∃ arguments, List.Forall₂ SaysArgument items arguments ∧ e = ⟨name, arguments⟩ := by
  constructor
  · rintro ⟨members', items', hobject, hname', hitems', hall⟩
    obtain rfl := Json.object.inj hobject
    obtain rfl := hitems'.unique hitems
    exact ⟨e.arguments, hall, by rw [← hname'.unique hname]⟩
  · rintro ⟨arguments, hall, rfl⟩
    exact ⟨members, items, rfl, hname, hitems, hall⟩

/-- What is wrong with such an object is what is wrong with its arguments. -/
theorem eventViolation_object_iff {component name : String} {items : List Json}
    (hname : HasText members "name" name) (hitems : ListsArguments members items) (place : Place)
    (d : EventDefect) :
    EventViolation component (.object members) place d ↔
      Among (ArgumentViolation component name) items place d := by
  constructor
  · rintro (hmissing | ⟨hobject, -, hw, hno⟩ | ⟨hobject, hname', hitems', h⟩)
    · exact absurd ⟨members, name, rfl, hname⟩ hmissing
    · obtain rfl := Json.object.inj hobject
      exact absurd hitems (not_listsArguments hw hno items)
    · obtain rfl := Json.object.inj hobject
      rwa [hname'.unique hname, hitems'.unique hitems] at h
  · exact fun h => .argument rfl hname hitems h

/-- Reading an event settles it. -/
theorem settles_readEvent (types : TypeMap) (component : String) (v : Json) :
    Settles (SaysEvent v) (Event.respell types) (EventViolation component v)
      (readEvent types component v) := by
  unfold readEvent
  cases hv : v.members? with
  | none =>
    have hno := members?_eq_none_iff.mp hv
    exact settles_unnamed fun ⟨members, name, hobject, _⟩ => hno members hobject
  | some members =>
    obtain rfl := members?_eq_some_iff.mp hv
    dsimp only
    cases hfound : textMember? members "name" with
    | none =>
      refine settles_unnamed fun ⟨members', name, hobject, hname⟩ => ?_
      obtain rfl := Json.object.inj hobject
      rw [textMember?_eq_some_iff.mpr hname] at hfound
      exact nomatch hfound
    | some name =>
      have hname := textMember?_eq_some_iff.mp hfound
      dsimp only
      cases hargs : argumentItems? members with
      | none =>
        obtain ⟨w, hw, hno⟩ := argumentItems?_eq_none_iff.mp hargs
        exact settles_noArgumentList hname hw hno
      | some items =>
        have hitems := argumentItems?_eq_some_iff.mp hargs
        have harguments := settles_mapM (settles_readArgument types component name) items
        exact harguments.map (saysEvent_object_iff hname hitems) (fun arguments => rfl)
          (eventViolation_object_iff hname hitems)

/-- Reading the events of a member settles the component. -/
theorem settles_readComponent (types : TypeMap) (m : String × Json) :
    Settles (SaysComponent m) (fun c => (c.1, c.2.map (Event.respell types)))
      (ComponentViolation m) (do return (m.1, ← readComponent types m.1 m.2)) := by
  unfold readComponent
  cases hv : m.2.items? with
  | none =>
    have hno := items?_eq_none_iff.mp hv
    refine Settles.of_whole (fun c ⟨_, items, hlist, _⟩ => hno items hlist) (.noEventList hno) ?_
    rintro other d' (_ | ⟨hlist, -⟩)
    · exact ⟨rfl, rfl⟩
    · exact absurd hlist (hno _)
  | some items =>
    have hlist := items?_eq_some_iff.mp hv
    have hevents := settles_mapM (settles_readEvent types m.1) items
    have hsaid (c : String × List Event) : SaysComponent m c ↔
        ∃ events, List.Forall₂ SaysEvent items events ∧ c = (m.1, events) := by
      constructor
      · rintro ⟨hname, items', hlist', hall⟩
        obtain rfl := Json.list.inj (hlist'.symm.trans hlist)
        exact ⟨c.2, hall, by rw [← hname]⟩
      · rintro ⟨events, hall, rfl⟩
        exact ⟨rfl, items, hlist, hall⟩
    have hwrong (place : Place) (d : EventDefect) :
        ComponentViolation m place d ↔ Among (EventViolation m.1) items place d := by
      constructor
      · rintro (hno | ⟨hlist', h⟩)
        · exact absurd hlist (hno items)
        · rwa [Json.list.inj (hlist'.symm.trans hlist)] at h
      · exact fun h => .event hlist h
    exact hevents.map hsaid (fun events => rfl) hwrong

/-- Reading a document settles it. -/
theorem settles_read (types : TypeMap) (v : Json) :
    Settles (Says v) (EventSchema.respell types) (Violation v) (read types v) := by
  unfold read
  cases hv : v.members? with
  | none =>
    have hno := members?_eq_none_iff.mp hv
    refine .of_whole (fun s ⟨members, hobject, _⟩ => hno members hobject) (.noObject hno) ?_
    rintro other d' (_ | ⟨hobject, -⟩)
    · exact ⟨rfl, rfl⟩
    · exact absurd hobject (hno _)
  | some members =>
    obtain rfl := members?_eq_some_iff.mp hv
    have hcomponents := settles_mapM (settles_readComponent types) members
    have hsaid (s : EventSchema) : Says (.object members) s ↔
        ∃ components, List.Forall₂ SaysComponent members components ∧ s = ⟨components⟩ := by
      constructor
      · rintro ⟨members', hobject, hall⟩
        obtain rfl := Json.object.inj hobject
        exact ⟨s.components, hall, rfl⟩
      · rintro ⟨components, hall, rfl⟩
        exact ⟨members, rfl, hall⟩
    have hwrong (place : Place) (d : EventDefect) :
        Violation (.object members) place d ↔ Among ComponentViolation members place d := by
      constructor
      · rintro (hno | ⟨hobject, h⟩)
        · exact absurd rfl (hno members)
        · rwa [Json.object.inj hobject]
      · exact fun h => .component rfl h
    exact hcomponents.map hsaid (fun components => rfl) hwrong

/-- There is something beside each element of a list exactly if there is a list beside it. -/
theorem exists_forall₂_iff {R : α → β → Prop} {xs : List α} :
    (∃ ys, List.Forall₂ R xs ys) ↔ ∀ x ∈ xs, ∃ y, R x y := by
  induction xs with
  | nil => simp
  | cons x xs ih =>
    rw [List.forall_mem_cons, ← ih]
    constructor
    · rintro ⟨_, hx | ⟨hx, hxs⟩⟩
      exact ⟨⟨_, hx⟩, _, hxs⟩
    · rintro ⟨⟨y, hy⟩, ys, hys⟩
      exact ⟨y :: ys, .cons hy hys⟩

/-- A value says an argument exactly if it is one. -/
theorem exists_saysArgument_iff : (∃ p, SaysArgument v p) ↔ IsArgument v := by
  constructor
  · rintro ⟨p, members, rfl, hname, htype⟩
    exact ⟨members, p.name, p.type, rfl, hname, htype⟩
  · rintro ⟨members, name, type, rfl, hname, htype⟩
    exact ⟨⟨type, name⟩, members, rfl, hname, htype⟩

/-- A value says an event exactly if it is one. -/
theorem exists_saysEvent_iff : (∃ e, SaysEvent v e) ↔ IsEvent v := by
  constructor
  · rintro ⟨e, members, items, rfl, hname, hitems, hall⟩
    refine ⟨members, e.name, rfl, hname, ?_⟩
    rcases hitems with hlist | ⟨habsent, -⟩
    · exact .inr ⟨items, hlist, fun a ha =>
        exists_saysArgument_iff.mp (exists_forall₂_iff.mp ⟨_, hall⟩ a ha)⟩
    · exact .inl habsent
  · rintro ⟨members, name, rfl, hname, habsent | ⟨items, hlist, hall⟩⟩
    · exact ⟨⟨name, []⟩, members, [], rfl, hname, .inr ⟨habsent, rfl⟩, .nil⟩
    · obtain ⟨arguments, harguments⟩ :=
        exists_forall₂_iff.mpr fun a ha => exists_saysArgument_iff.mpr (hall a ha)
      exact ⟨⟨name, arguments⟩, members, items, rfl, hname, .inl hlist, harguments⟩

/-- A value says a schema exactly if it is a document. -/
theorem exists_says_iff : (∃ s, Says v s) ↔ IsDocument v := by
  constructor
  · rintro ⟨s, members, rfl, hall⟩
    refine ⟨members, rfl, fun m hm => ?_⟩
    obtain ⟨c, -, items, hlist, hevents⟩ := exists_forall₂_iff.mp ⟨_, hall⟩ m hm
    exact ⟨items, hlist, fun e he =>
      exists_saysEvent_iff.mp (exists_forall₂_iff.mp ⟨_, hevents⟩ e he)⟩
  · rintro ⟨members, rfl, hall⟩
    have hcomponents : ∀ m ∈ members, ∃ c, SaysComponent m c := by
      intro m hm
      obtain ⟨items, hlist, hevents⟩ := hall m hm
      obtain ⟨events, hsaid⟩ :=
        exists_forall₂_iff.mpr fun e he => exists_saysEvent_iff.mpr (hevents e he)
      exact ⟨(m.1, events), rfl, items, hlist, hsaid⟩
    obtain ⟨components, hsaid⟩ := exists_forall₂_iff.mpr hcomponents
    exact ⟨⟨components⟩, members, rfl, hsaid⟩

/-- A schema that a document says has as many events as are written there. -/
theorem size_of_says {s : EventSchema} (h : Says v s) : s.size = (writtenEvents v).length := by
  obtain ⟨components⟩ := s
  obtain ⟨members, rfl, hall⟩ := h
  dsimp only at hall
  unfold size writtenEvents
  rw [Json.members?, Option.getD_some]
  induction hall with
  | nil => rfl
  | cons hm _ ih =>
    obtain ⟨-, items, hlist, hevents⟩ := hm
    rw [List.foldr_cons, ih, List.flatMap_cons, List.length_append, hlist, Json.items?,
      Option.getD_some, hevents.length_eq]

/-- Respelling types leaves the number of events. -/
theorem size_respell (types : TypeMap) (s : EventSchema) : (s.respell types).size = s.size := by
  unfold size EventSchema.respell
  rw [List.foldr_map]
  simp

/-- Reading gives a schema exactly for documents of the form: the one that the document says, with
the types respelled, which has all the events that are written. Any other document is refused for
the first thing that is wrong in it. -/
theorem read_tells_document (types : TypeMap) (v : Json) :
    ((∃ s, read types v = .ok s) ↔ IsDocument v) ∧
    (∀ s, read types v = .ok s ↔
      ∃ w, Says v w ∧ s = w.respell types ∧ s.size = (writtenEvents v).length) ∧
    ∀ d, read types v = .error d ↔ IsFirstViolation v d := by
  have hsettles := settles_read types v
  refine ⟨?_, fun s => ?_, fun d => hsettles.eq_error_iff⟩
  · rw [← exists_says_iff]
    constructor
    · rintro ⟨s, hs⟩
      obtain ⟨w, hw, -⟩ := hsettles.eq_ok_iff.mp hs
      exact ⟨w, hw⟩
    · rintro ⟨w, hw⟩
      exact ⟨w.respell types, hsettles.eq_ok_iff.mpr ⟨w, hw, rfl⟩⟩
  · rw [hsettles.eq_ok_iff]
    constructor
    · rintro ⟨w, hw, rfl⟩
      exact ⟨w, hw, rfl, by rw [size_respell, size_of_says hw]⟩
    · rintro ⟨w, hw, hs, -⟩
      exact ⟨w, hw, hs⟩

-- The second event has no name either, but an argument of the first one comes before it.
example : read .header (.object [("Player", .list [
    .object [("args", .list [.text "ip"]), ("name", .text "OnConnect")], .object []])]) =
      .error (.noArgumentObject "Player" "OnConnect") :=
  rfl

end EventSchema

end Bindery

import Bindery.Keyed
import Bindery.Log
import Bindery.Record

/-!
# Surfaces

The annotated functions of a library by group. Groups stand in the order in which they first came,
and so do the functions of a group. A record under a group and name that are present takes the
place of the earlier one, or is refused, as the policy says.
-/

namespace Bindery

/-- The functions of a library, by group and by name. -/
structure Surface where
  /-- Under each group its functions under their names. -/
  groups : List (String × List (String × Record))
  deriving DecidableEq, Repr

/-- What becomes of a record whose group and name are taken. -/
inductive Duplicates
  | replace
  | refuse
  deriving DecidableEq, Repr

/-- A record and the earlier one under the same group and name. -/
structure Clash where
  /-- The record that is added. -/
  record : Record
  /-- The record that is there. -/
  earlier : Record
  deriving DecidableEq, Repr

/-- The text of a clash, the same in a warning and in a refusal. -/
def Clash.message (c : Clash) : String :=
  "duplicate symbol " ++ c.record.symbol ++ ": " ++ c.record.place ++ " replaces " ++
     c.earlier.place

/-- The warning that a clash gives. -/
def Clash.warning (c : Clash) : Entry := ⟨.warning, .surface, c.message⟩

namespace Surface

/-- The surface without functions. -/
def empty : Surface := ⟨[]⟩

/-- The functions of a group under their names; an absent group has none. -/
def group (s : Surface) (group : String) : List (String × Record) :=
  (Keyed.get? group s.groups).getD []

/-- The names of the groups, in order. -/
def groupNames (s : Surface) : List String := Keyed.keys s.groups

/-- The records of a group, in order. -/
def recordsOf (s : Surface) (group : String) : List Record := Keyed.values (s.group group)

/-- The groups with their records, in order. -/
def sections (s : Surface) : List (String × List Record) :=
  s.groups.map fun (group, records) => (group, Keyed.values records)

/-- The record under a group and a name. -/
def get? (s : Surface) (group name : String) : Option Record := Keyed.get? name (s.group group)

/-- All records, group by group. -/
def toList (s : Surface) : List Record := s.groups.flatMap fun (_, records) => Keyed.values records

/-- The number of records. -/
def size (s : Surface) : Nat := s.groups.foldr (fun (_, records) n => records.length + n) 0

/-- Whether there is a record under a group and a name. -/
def contains (s : Surface) (group name : String) : Bool := Keyed.has name (s.group group)

/-- The surface with a record put under its group and name. -/
def put (s : Surface) (r : Record) : Surface :=
  ⟨Keyed.put r.group (Keyed.put r.name r (s.group r.group)) s.groups⟩

/-- Adding a record. A clash is a warning or, where duplicates are refused, a failure. -/
def add (duplicates : Duplicates) (s : Surface) (r : Record) : Logged Clash Surface :=
  match s.get? r.group r.name, duplicates with
  | none, _ => pure (s.put r)
  | some earlier, .replace => ⟨[Clash.warning ⟨r, earlier⟩], .ok (s.put r)⟩
  | some earlier, .refuse => .fail ⟨r, earlier⟩

/-- The surface with a group, which has no functions yet if it is new. -/
def withGroup (s : Surface) (group : String) : Surface := ⟨Keyed.ensure group [] s.groups⟩

/-- Adding a record as one change after another: the surface that is left behind, also by a
failure, and the report. The group is there before a clash is looked for. -/
def attempt (duplicates : Duplicates) (s : Surface) (r : Record) : Surface × Logged Clash Unit :=
  let opened := s.withGroup r.group
  match opened.get? r.group r.name, duplicates with
  | none, _ => (opened.put r, pure ())
  | some earlier, .replace => (opened.put r, ⟨[Clash.warning ⟨r, earlier⟩], .ok ()⟩)
  | some earlier, .refuse => (opened, .fail ⟨r, earlier⟩)

/-- Adding the records of a list, first to last, up to the first that is refused. -/
def addAll (duplicates : Duplicates) (s : Surface) (records : List Record) : Logged Clash Surface :=
  records.foldlM (add duplicates) s

/-- The size counts what the list of all records holds. -/
theorem size_eq_length_toList (s : Surface) : s.size = s.toList.length := by
  obtain ⟨groups⟩ := s
  simp only [size, toList]
  induction groups with
  | nil => rfl
  | cons head rest ih => simp [Keyed.values, ih]

/-- A record that was put is found under its group and name. -/
@[simp] theorem get?_put_self (s : Surface) (r : Record) :
    (s.put r).get? r.group r.name = some r := by
  simp [get?, group, put]

end Surface

end Bindery

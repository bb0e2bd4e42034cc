import Bindery.Documentation
import Bindery.Proofs.Json.RoundTrip
import Bindery.Proofs.MessagePack.RoundTrip
import Bindery.Proofs.Surface.History

/-!
# Documents can be read back

The document of a surface says of each function what it returns, its name and its parameters, in the
order of the surface. In both of its forms it is read back as it was, and so what a reader finds
under the keys of the document is what stands on the surface. The MessagePack form has a widest head
for each kind of item, and so holds every document whose texts and lists are shorter than 2^32; the
JSON form has no such limit.
-/

namespace Bindery

/-- What a document says of a function. -/
structure Description where
  /-- The type that it returns. -/
  returns : String
  /-- Its name in the group. -/
  name : String
  /-- Its parameters, in order. -/
  parameters : List Parameter
  deriving DecidableEq, Repr

/-- What a document has to say of a record. -/
def Record.described (r : Record) : Description := ⟨r.returns, r.name, r.parameters⟩

/-- A surface whose texts have fewer than 2^32 bytes, and its lists fewer than 2^32 elements. -/
structure Surface.Short (s : Surface) : Prop where
  /-- There are not too many groups. -/
  groups : s.sections.length < 0x100000000
  /-- No name of a group is too long. -/
  names : ∀ g ∈ s.sections, (Utf8.encode g.1).length < 0x100000000
  /-- No group has too many functions. -/
  records : ∀ g ∈ s.sections, g.2.length < 0x100000000
  /-- No text of a function is too long. -/
  texts : ∀ r ∈ s.toList,
    (Utf8.encode r.returns).length < 0x100000000 ∧ (Utf8.encode r.name).length < 0x100000000
  /-- No function has too many parameters. -/
  parameters : ∀ r ∈ s.toList, r.parameters.length < 0x100000000
  /-- No text of a parameter is too long. -/
  parameterTexts : ∀ r ∈ s.toList, ∀ p ∈ r.parameters,
    (Utf8.encode p.name).length < 0x100000000 ∧ (Utf8.encode p.type).length < 0x100000000

namespace Documentation

/-- The text under a key of an object. -/
def text? (key : String) (v : Json) : Option String :=
  match v.members?.bind (Keyed.get? key) with
  | some (.text s) => some s
  | _ => none

/-- The items of the list under a key of an object. -/
def list? (key : String) (v : Json) : Option (List Json) :=
  (v.members?.bind (Keyed.get? key)).bind Json.items?

/-- The parameter that an object shows. -/
def parameter? (v : Json) : Option Parameter := do
  return ⟨← text? "type" v, ← text? "name" v⟩

/-- The function that an object shows. -/
def function? (v : Json) : Option Description := do
  return ⟨← text? "ret" v, ← text? "name" v, ← (← list? "params" v).mapM parameter?⟩

/-- The groups that a document shows, each with its functions. -/
def contents? (v : Json) : Option (List (String × List Description)) := do
  (← v.members?).mapM fun (group, functions) => do
    return (group, ← (← functions.items?).mapM function?)

/-- What was written for each element of a list is found for each element. -/
theorem mapM_map_eq_some {α β γ : Type} {read : β → Option γ} {write : α → β} {shown : α → γ}
    (h : ∀ a, read (write a) = some (shown a)) (as : List α) :
    (as.map write).mapM read = some (as.map shown) := by
  induction as with
  | nil => rfl
  | cons a as ih => simp [h, ih]

/-- A parameter is found in its object. -/
theorem parameter?_parameter (p : Parameter) : parameter? (parameter p) = some p := rfl

/-- A function is found in its object. -/
theorem function?_function (r : Record) : function? (function r) = some r.described := by
  have hlist : list? "params" (function r) = some (r.parameters.map parameter) := rfl
  have hparameters : (r.parameters.map parameter).mapM parameter? = some r.parameters := by
    rw [mapM_map_eq_some parameter?_parameter, List.map_id']
  rw [function?, hlist]
  simp only [bind, Option.bind, hparameters]
  rfl

/-- The sections of a surface are found in its document. -/
theorem contents?_document (s : Surface) :
    contents? (document s) =
      some (s.sections.map fun (group, records) => (group, records.map Record.described)) := by
  refine mapM_map_eq_some (fun (group, records) => ?_) s.sections
  have hfunctions : (records.map function).mapM function? = some (records.map Record.described) :=
    mapM_map_eq_some function?_function records
  simp only [bind, Option.bind, Json.items?, hfunctions]
  rfl

/-- The document of a short surface fits the widest heads. -/
theorem sized_document {s : Surface} (h : s.Short) : MessagePack.Sized (document s) := by
  have hparameter : ∀ r ∈ s.toList, ∀ p ∈ r.parameters, MessagePack.Sized (parameter p) := by
    intro r hr p hp
    obtain ⟨hname, htype⟩ := h.parameterTexts r hr p hp
    refine .object (by simp) ?_ ?_ <;> simp
    · decide
    · exact ⟨.text hname, .text htype⟩
  have hfunction : ∀ r ∈ s.toList, MessagePack.Sized (function r) := by
    intro r hr
    obtain ⟨hreturns, hname⟩ := h.texts r hr
    have hparameters : MessagePack.Sized (.list (r.parameters.map parameter)) :=
      .list (by simpa using h.parameters r hr) (by simpa using hparameter r hr)
    refine .object (by simp) ?_ ?_ <;> simp
    · decide
    · exact ⟨.text hreturns, .text hname, hparameters⟩
  have hrecords : ∀ g ∈ s.sections, MessagePack.Sized (.list (g.2.map function)) := by
    intro g hg
    have hfunctions : ∀ r ∈ g.2, MessagePack.Sized (function r) := fun r hr =>
      hfunction r (Surface.mem_toList_iff_sections.mpr ⟨g, hg, hr⟩)
    exact .list (by simpa using h.records g hg) (by simpa using hfunctions)
  refine .object (by simpa using h.groups) ?_ ?_
  · exact List.forall_mem_map.mpr h.names
  · exact List.forall_mem_map.mpr hrecords

/-- The document of every surface is written as MessagePack. It holds texts only, in lists and
objects, so that no number can be out of range. -/
theorem exists_encode_document (s : Surface) :
    ∃ bytes, MessagePack.encode (document s) = .ok bytes := by
  have htext : ∀ text : String, ∃ bytes, MessagePack.encode (.text text) = .ok bytes :=
    fun text => ⟨_, by rw [MessagePack.encode]⟩
  have hparameter : ∀ p, ∃ bytes, MessagePack.encode (parameter p) = .ok bytes := by
    intro p
    refine MessagePack.exists_encode_object ?_
    simp [htext]
  have hfunction : ∀ r, ∃ bytes, MessagePack.encode (function r) = .ok bytes := by
    intro r
    have hparameters : ∃ bytes,
        MessagePack.encode (.list (r.parameters.map parameter)) = .ok bytes :=
      MessagePack.exists_encode_list (by simp [hparameter])
    refine MessagePack.exists_encode_object ?_
    simp [htext, hparameters]
  refine MessagePack.exists_encode_object (List.forall_mem_map.mpr fun g _ => ?_)
  exact MessagePack.exists_encode_list (by simp [hfunction])

/-- The MessagePack document of every surface whose texts and lists are shorter than 2^32 is read
back whole, with no byte left over, and shows the groups in order, with their functions in order. -/
theorem messagePack_reads_back {s : Surface} (h : s.Short) :
    ∃ bytes, encode (document s) .messagePack = .ok bytes ∧
      MessagePack.decode? bytes = some (document s) ∧
      contents? (document s) =
        some (s.sections.map fun (group, records) => (group, records.map Record.described)) := by
  obtain ⟨bytes, hbytes, hback⟩ := (sized_document h).decode?_encode
  exact ⟨bytes, hbytes, hback, contents?_document s⟩

/-- Functions with characters that JSON escapes, and with a text and a list that are too long for
the shortest heads of MessagePack. -/
def awkwardRecords : List Record := [
  ⟨"Actor", "Say\t\"héllo\"\\", "const char*\x01", [], "Actor_Say", none⟩,
  ⟨"A group with a name of over 31 bytes", "Create", "int", List.replicate 16 ⟨"float", "größe"⟩,
    "Create", none⟩]

/-- The surface of these functions. -/
def awkwardSurface : Surface := (Surface.History.of .replace awkwardRecords).surface

/-- The MessagePack document of these functions is read back. -/
theorem messagePack_reads_back_awkward :
    awkwardSurface.Short ∧
    ∃ bytes, encode (document awkwardSurface) .messagePack = .ok bytes ∧
      MessagePack.decode? bytes = some (document awkwardSurface) ∧
      contents? (document awkwardSurface) =
        some (awkwardSurface.sections.map
          fun (group, records) => (group, records.map Record.described)) := by
  have hshort : awkwardSurface.Short :=
    ⟨by decide, by decide, by decide, by decide, by decide, by decide⟩
  exact ⟨hshort, messagePack_reads_back hshort⟩

/-- The document of a surface on which no group repeats is plain. -/
theorem plain_document {s : Surface} (h : s.groupNames.Nodup) (room : Nat) :
    Json.Plain (room + 5) (document s) := by
  have hparameter : ∀ p, Json.Plain (room + 1) (parameter p) := fun p =>
    .object (by simp [Keyed.keys]) (by simp [Json.Plain.text])
  have hparameters : ∀ ps : List Parameter, Json.Plain (room + 2) (.list (ps.map parameter)) :=
    fun ps => .list (by simp [hparameter])
  have hfunction : ∀ r, Json.Plain (room + 3) (function r) := fun r =>
    .object (by simp [Keyed.keys]) (by simp [Json.Plain.text, hparameters])
  have hrecords : ∀ g ∈ s.sections, Json.Plain (room + 4) (.list (g.2.map function)) := fun g _ =>
    .list (by simp [hfunction])
  have hkeys : Keyed.keys (s.sections.map fun (group, records) =>
      (group, Json.list (records.map function))) = s.groupNames := by
    simp [Keyed.keys, Surface.sections, Surface.groupNames, Function.comp_def]
  exact .object (hkeys ▸ h) (List.forall_mem_map.mpr hrecords)

/-- The JSON document of every surface on which no group repeats, as none does where records were
added, is text with one new line at its end. Whatever characters its strings hold, it is read back
whole, and shows the groups in order, with their functions in order. -/
theorem json_reads_back {s : Surface} (h : s.groupNames.Nodup) :
    ∃ bytes text, encode (document s) .json = .ok bytes ∧
      Utf8.decode bytes = .ok (text ++ ['\n']) ∧ text.getLast? ≠ some '\n' ∧
      Json.parse (String.ofList (text ++ ['\n'])) = .ok (document s) ∧
      contents? (document s) =
        some (s.sections.map fun (group, records) => (group, records.map Record.described)) := by
  have hrender := Json.toList_render (document s)
  have hlast : (Json.print 0 (document s) []).getLast? = some '\x7d' :=
    Json.getLast?_print_object 0 _
  have hparse : Json.parse (document s).render = .ok (document s) :=
    Json.parse_render (plain_document h 985)
  refine ⟨_, Json.print 0 (document s) [], rfl, ?_, ?_, ?_, contents?_document s⟩
  · rw [Utf8.decode_encode, hrender]
  · rw [hlast]
    decide
  · rw [← hrender, String.ofList_toList]
    exact hparse

/-- The JSON document of the awkward functions is read back. -/
theorem json_reads_back_awkward :
    awkwardSurface.groupNames.Nodup ∧
    ∃ bytes text, encode (document awkwardSurface) .json = .ok bytes ∧
      Utf8.decode bytes = .ok (text ++ ['\n']) ∧ text.getLast? ≠ some '\n' ∧
      Json.parse (String.ofList (text ++ ['\n'])) = .ok (document awkwardSurface) ∧
      contents? (document awkwardSurface) =
        some (awkwardSurface.sections.map
          fun (group, records) => (group, records.map Record.described)) := by
  have hnames : awkwardSurface.groupNames.Nodup :=
    (Surface.History.follows_of .replace awkwardRecords).wellFormed.groups_nodup
  exact ⟨hnames, json_reads_back hnames⟩

end Documentation

end Bindery

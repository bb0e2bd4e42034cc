import Bindery.Proofs.Keyed
import Bindery.Proofs.Log
import Bindery.Proofs.Signature.Grammar
import Bindery.Scan

/-!
# The header's scan and the documentation's

The documentation is scanned apart from the header, with spellings of its own and with whole
symbols as names. The two scans go in step: every line gives both a record or neither, a record
clashes in both or in neither, and what is put takes the same place. They are compared record by
record, through the token that both spellings come from.
-/

namespace Bindery

/-- Two spellings are what one written token becomes in the header and in the documentation. -/
def SameToken (inHeader inDocs : String) : Prop :=
  ∃ token, inHeader = TypeMap.header.normalize token ∧ inDocs = TypeMap.docs.normalize token

/-- A token gives its two spellings. -/
theorem SameToken.normalize (token : String) :
    SameToken (TypeMap.header.normalize token) (TypeMap.docs.normalize token) :=
  ⟨token, rfl, rfl⟩

/-- A parameter of the header and the same parameter of the documentation. -/
structure Parameter.Counterpart (p q : Parameter) : Prop where
  /-- The name is the same. -/
  name_eq : q.name = p.name
  /-- The types are spellings of one token. -/
  type : SameToken p.type q.type

/-- A record of the header and the same record of the documentation. Records stand under the group
that they name, so their group is that of their section. -/
structure Record.Counterpart (h d : Record) : Prop where
  /-- The group is the same. -/
  group_eq : d.group = h.group
  /-- The symbol is the same. -/
  symbol_eq : d.symbol = h.symbol
  /-- The symbol names the documentation's record. -/
  name_eq : d.name = d.symbol
  /-- The symbol is made of the group of the section and the name, as the header has them. -/
  compound : h.symbol = Record.defaultSymbol h.group h.name
  /-- The place is the same. -/
  source_eq : d.source = h.source
  /-- The return types are spellings of one token. -/
  returns : SameToken h.returns d.returns
  /-- The parameters are the same in order. -/
  parameters : List.Forall₂ Parameter.Counterpart h.parameters d.parameters

/-- Two scans fail alike: for the same reason, with the same message. -/
inductive ScanFailure.Alike : ScanFailure → ScanFailure → Prop
  | sources (fault : ScanFault) : Alike (.sources fault) (.sources fault)
  | line (fault : Signature.Fault) : Alike (.line fault) (.line fault)
  | duplicate {clash clash' : Clash} (h : clash.message = clash'.message) :
    Alike (.duplicate clash) (.duplicate clash')

/-- Failures that are alike have the same message. -/
theorem ScanFailure.Alike.message_eq {e e' : ScanFailure} (h : e.Alike e') :
    e.message = e'.message := by
  cases h with
  | sources => rfl
  | line => rfl
  | duplicate h => exact h

/-- A group and a name can be told from the symbol that they make, once the group is known. -/
theorem Record.defaultSymbol_right_inj {group a b : String} :
    Record.defaultSymbol group a = Record.defaultSymbol group b ↔ a = b := by
  simp [Record.defaultSymbol, String.ext_iff]

namespace Signature

end Signature

namespace Surface

/-- An entry of a group of the header's surface and the entry beside it. Each is filed under its
own name. -/
structure Beside (group : String) (e e' : String × Record) : Prop where
  /-- The key in the header is the name. -/
  key_eq : e.1 = e.2.name
  /-- The key in the documentation is the name there. -/
  key_eq' : e'.1 = e'.2.name
  /-- The records belong to the group. -/
  filed : e.2.group = group
  /-- The records are counterparts. -/
  counterpart : e.2.Counterpart e'.2

/-- Two surfaces have the same groups in the same order, with entries beside each other. -/
def InStep (s d : Surface) : Prop :=
  List.Forall₂ (fun g g' => g.1 = g'.1 ∧ List.Forall₂ (Beside g.1) g.2 g'.2) s.groups d.groups

variable {s d : Surface} {r q : Record}

/-- Keys mean the same entries in both surfaces, since the group is known. -/
theorem Beside.key_iff (hr : r.Counterpart q) {e e' : String × Record}
    (h : Beside r.group e e') : e.1 = r.name ↔ e'.1 = q.name := by
  rw [h.key_eq, h.key_eq', h.counterpart.name_eq, h.counterpart.symbol_eq, h.counterpart.compound,
    h.filed, hr.name_eq, hr.symbol_eq, hr.compound, Record.defaultSymbol_right_inj]

/-- Groups of one name hold entries beside each other. -/
theorem InStep.group (h : InStep s d) (group : String) :
    List.Forall₂ (Beside group) (s.group group) (d.group group) := by
  have hkey : ∀ g g' : String × List (String × Record),
      (g.1 = g'.1 ∧ List.Forall₂ (Beside g.1) g.2 g'.2) → (g.1 = group ↔ g'.1 = group) :=
    fun g g' hg => by rw [hg.1]
  have hfound := Keyed.get?_beside hkey h
  unfold Surface.group
  generalize Keyed.get? group s.groups = found at hfound ⊢
  generalize Keyed.get? group d.groups = found' at hfound ⊢
  cases hfound with
  | none => exact .nil
  | some hrel => exact hrel.2

/-- A record is present in one surface exactly when its counterpart is in the other. -/
theorem InStep.get? (h : InStep s d) (hr : r.Counterpart q) :
    Option.Rel Record.Counterpart (s.get? r.group r.name) (d.get? q.group q.name) := by
  have hfound := Keyed.get?_beside (fun e e' he => Beside.key_iff hr he) (h.group r.group)
  unfold Surface.get?
  rw [hr.group_eq]
  generalize Keyed.get? r.name (s.group r.group) = found at hfound ⊢
  generalize Keyed.get? q.name (d.group r.group) = found' at hfound ⊢
  cases hfound with
  | none => exact .none
  | some hrel => exact .some hrel.counterpart

/-- Putting counterparts keeps surfaces in step. -/
theorem InStep.put (h : InStep s d) (hr : r.Counterpart q) : InStep (s.put r) (d.put q) := by
  have hentry : Beside r.group (r.name, r) (q.name, q) := ⟨rfl, rfl, rfl, hr⟩
  have hgroup := Keyed.put_beside (fun e e' he => Beside.key_iff hr he) hentry (h.group r.group)
  unfold Surface.put InStep
  rw [hr.group_eq]
  exact Keyed.put_beside (fun g g' hg => by rw [hg.1]) ⟨rfl, hgroup⟩ h

/-- Adding counterparts goes in step: the same warning or the same refusal, if any. -/
theorem InStep.add (h : InStep s d) (hr : r.Counterpart q) (duplicates : Duplicates) :
    Logged.Agree (fun c c' => c.message = c'.message) InStep (s.add duplicates r)
      (d.add duplicates q) := by
  have hfound := h.get? hr
  unfold Surface.add
  generalize s.get? r.group r.name = found at hfound ⊢
  generalize d.get? q.group q.name = found' at hfound ⊢
  cases hfound with
  | none => exact ⟨rfl, .ok (h.put hr)⟩
  | @some earlier later hrel =>
    have hmessage : Clash.message ⟨r, earlier⟩ = Clash.message ⟨q, later⟩ := by
      unfold Clash.message Record.place
      dsimp only
      rw [hr.symbol_eq, hr.source_eq, hrel.source_eq]
    cases duplicates with
    | replace =>
      have hwarning : Clash.warning ⟨r, earlier⟩ = Clash.warning ⟨q, later⟩ := by
        unfold Clash.warning
        rw [hmessage]
      exact ⟨congrArg ([·]) hwarning, .ok (h.put hr)⟩
    | refuse => exact ⟨rfl, .error hmessage⟩

/-- Surfaces in step hold as many records. -/
theorem InStep.size_eq (h : InStep s d) : s.size = d.size := by
  unfold InStep at h
  unfold Surface.size
  generalize s.groups = groups at h ⊢
  generalize d.groups = groups' at h ⊢
  induction h with
  | nil => rfl
  | cons hg _ ih =>
    simp only [List.foldr_cons, ih]
    rw [hg.2.length_eq]

/-- Surfaces in step show sections of counterparts. -/
theorem InStep.sections (h : InStep s d) :
    List.Forall₂ (fun g g' => g.1 = g'.1 ∧ List.Forall₂ Record.Counterpart g.2 g'.2) s.sections
      d.sections := by
  unfold Surface.sections
  rw [List.forall₂_map_left_iff, List.forall₂_map_right_iff]
  refine List.Forall₂.imp (fun g g' hg => ⟨hg.1, ?_⟩) h
  unfold Keyed.values
  rw [List.forall₂_map_left_iff, List.forall₂_map_right_iff]
  exact hg.2.imp fun e e' he => he.counterpart

end Surface

namespace Scan

end Scan

end Bindery

import Bindery.Json.Reader
import Bindery.Proofs.Keyed
import Bindery.Proofs.Log
import Bindery.Proofs.Text.Half

/-!
# Documents in two spellings

Halves of surrogate pairs are spelled when a string is finished, and the reader does not look at it
again. So it takes the same way in every spelling, and what it reads differs in the strings alone:
by induction on the fuel, one value, list or object at a time. Keys are told apart before they are
spelled, so that members correspond one to one.
-/

namespace Bindery.Json

mutual

/-- Two values differ by the spelling of their strings. -/
inductive Respells (R : String → String → Prop) : Json → Json → Prop
  | null : Respells R .null .null
  | bool (b : Bool) : Respells R (.bool b) (.bool b)
  | int (n : Int) : Respells R (.int n) (.int n)
  | real (spelling : String) : Respells R (.real spelling) (.real spelling)
  | text {s s' : String} (h : R s s') : Respells R (.text s) (.text s')
  | list {vs vs' : List Json} (h : List.Forall₂ (Respells R) vs vs') :
    Respells R (.list vs) (.list vs')
  | object {ms ms' : List (String × Json)} (h : List.Forall₂ (MemberRespells R) ms ms') :
    Respells R (.object ms) (.object ms')

/-- Two members differ by the spelling of their keys, and by that of strings in their values. -/
inductive MemberRespells (R : String → String → Prop) : String × Json → String × Json → Prop
  | mk {key key' : String} {v v' : Json} (hkey : R key key') (h : Respells R v v') :
    MemberRespells R (key, v) (key', v')

end

mutual

/-- A value whose strings are spelled in one way is spelled in one way. -/
theorem respells_refl {R : String → String → Prop} (h : ∀ s, R s s) : ∀ v : Json, Respells R v v
  | .null => .null
  | .bool b => .bool b
  | .int n => .int n
  | .real spelling => .real spelling
  | .text s => .text (h s)
  | .list vs => .list (itemsRespell_refl h vs)
  | .object ms => .object (membersRespell_refl h ms)

/-- Items whose strings are spelled in one way are spelled in one way. -/
theorem itemsRespell_refl {R : String → String → Prop} (h : ∀ s, R s s) :
    ∀ vs : List Json, List.Forall₂ (Respells R) vs vs
  | [] => .nil
  | v :: vs => .cons (respells_refl h v) (itemsRespell_refl h vs)

/-- Members whose strings are spelled in one way are spelled in one way. -/
theorem membersRespell_refl {R : String → String → Prop} (h : ∀ s, R s s) :
    ∀ ms : List (String × Json), List.Forall₂ (MemberRespells R) ms ms
  | [] => .nil
  | (key, v) :: ms => .cons (.mk (h key) (respells_refl h v)) (membersRespell_refl h ms)

end

/-- Two readings leave the same rest, and what they read is related. -/
def SameRest {α β : Type} (R : α → β → Prop) (x : α × List Char) (y : β × List Char) : Prop :=
  R x.1 y.1 ∧ x.2 = y.2

/-- Two readings stop in the same way, or read what is related and leave the same rest. -/
def ReadAlike {α β : Type} (R : α → β → Prop) (x : Except Stop (α × List Char))
    (y : Except Stop (β × List Char)) : Prop :=
  Logged.Outcome Eq (SameRest R) x y

/-- Two members have the same key, and their values differ by the spelling of their strings. -/
def SameKey (R : String → String → Prop) (m m' : List Nat × Json) : Prop :=
  m.1 = m'.1 ∧ Respells R m.2 m'.2

section Reading

variable {α β γ δ : Type} {R : α → β → Prop} {S : γ → δ → Prop}

/-- Two readings stop at one place. -/
theorem readAlike_error (stop : Stop) : ReadAlike R (.error stop) (.error stop) := .error rfl

/-- Two readings end with what is related. -/
theorem readAlike_ok {a : α} {b : β} (h : R a b) (rest : List Char) :
    ReadAlike R (.ok (a, rest)) (.ok (b, rest)) := .ok ⟨h, rfl⟩

/-- Two readings go on from one rest with what is related. -/
theorem ReadAlike.bind {x : Except Stop (α × List Char)} {y : Except Stop (β × List Char)}
    {next : α × List Char → Except Stop (γ × List Char)}
    {next' : β × List Char → Except Stop (δ × List Char)} (h : ReadAlike R x y)
    (hnext : ∀ a b rest, R a b → ReadAlike S (next (a, rest)) (next' (b, rest))) :
    ReadAlike S (x >>= next) (y >>= next') := by
  refine Logged.Outcome.bind h ?_
  intro ⟨a, rest⟩ ⟨b, rest'⟩ ⟨hab, hrest⟩
  dsimp only at hab hrest
  subst hrest
  exact hnext a b rest hab

end Reading

variable {f g : Text.Spelling}

/-- Two values differ by the spelling of halves. -/
abbrev Alike (f g : Text.Spelling) : Json → Json → Prop := Respells (Text.Respells f g)

/-- With some fuel the reader goes the same way in both spellings. -/
structure GoesAlike (f g : Text.Spelling) (fuel : Nat) : Prop where
  /-- It reads the same values. -/
  value : ∀ room cs, ReadAlike (Alike f g) (value f fuel room cs) (value g fuel room cs)
  /-- It reads the same lists. -/
  listBody : ∀ room cs, ReadAlike (Alike f g) (listBody f fuel room cs) (listBody g fuel room cs)
  /-- It reads the same objects. -/
  objectBody : ∀ room cs,
    ReadAlike (Alike f g) (objectBody f fuel room cs) (objectBody g fuel room cs)
  /-- It reads the same elements. -/
  elements : ∀ room cs, ReadAlike (List.Forall₂ (Alike f g)) (elements f fuel room cs)
    (elements g fuel room cs)
  /-- It reads the same members. -/
  members : ∀ room cs, ReadAlike (List.Forall₂ (SameKey (Text.Respells f g)))
    (members f fuel room cs) (members g fuel room cs)

/-- Without fuel it does not go. -/
theorem goesAlike_zero : GoesAlike f g 0 where
  value room cs := by
    rw [Json.value, Json.value]
    exact readAlike_error _
  listBody room cs := by
    rw [Json.listBody, Json.listBody]
    exact readAlike_error _
  objectBody room cs := by
    rw [Json.objectBody, Json.objectBody]
    exact readAlike_error _
  elements room cs := by
    rw [Json.elements, Json.elements]
    exact readAlike_error _
  members room cs := by
    rw [Json.members, Json.members]
    exact readAlike_error _

/-- Members with the same keys are spelled member by member. -/
theorem memberRespells_of_sameKey {ms ms' : List (List Nat × Json)}
    (h : List.Forall₂ (SameKey (Text.Respells f g)) ms ms') :
    List.Forall₂ (MemberRespells (Text.Respells f g))
      (ms.map fun (key, v) => (Text.ofPoints f key, v))
      (ms'.map fun (key, v) => (Text.ofPoints g key, v)) := by
  induction h with
  | nil => exact .nil
  | @cons m m' ms ms' hm _ ih =>
    obtain ⟨key, v⟩ := m
    obtain ⟨key', v'⟩ := m'
    obtain ⟨hkey, hv⟩ := hm
    dsimp only at hkey hv
    subst hkey
    exact .cons (.mk ⟨key, rfl, rfl⟩ hv) ih

/-- Members with the same keys are put in the same places. -/
theorem sameKey_ofPairs {ms ms' : List (List Nat × Json)}
    (h : List.Forall₂ (SameKey (Text.Respells f g)) ms ms') :
    List.Forall₂ (SameKey (Text.Respells f g)) (Keyed.ofPairs ms) (Keyed.ofPairs ms') := by
  have hput : ∀ table table', List.Forall₂ (SameKey (Text.Respells f g)) table table' →
      List.Forall₂ (SameKey (Text.Respells f g)) (Keyed.putAll table ms)
        (Keyed.putAll table' ms') := by
    induction h with
    | nil => exact fun _ _ htable => htable
    | @cons m m' ms ms' hm _ ih =>
      intro table table' htable
      obtain ⟨key, v⟩ := m
      obtain ⟨key', v'⟩ := m'
      obtain ⟨hkey, hv⟩ := hm
      dsimp only at hkey hv
      subst hkey
      refine ih _ _ (Keyed.put_beside (fun e e' he => ?_) ⟨rfl, hv⟩ htable)
      rw [he.1]
  exact hput [] [] .nil

namespace GoesAlike

variable {fuel : Nat}

/-- A value begins in one way in both spellings. -/
theorem value_succ (h : GoesAlike f g fuel) (room : Nat) (cs : List Char) :
    ReadAlike (Alike f g) (Json.value f (fuel + 1) room cs)
      (Json.value g (fuel + 1) room cs) := by
  rw [Json.value.eq_def f, Json.value.eq_def g]
  dsimp only
  split
  next rest =>
    cases string ('"' :: rest) rest with
    | error stop => exact readAlike_error stop
    | ok read => exact readAlike_ok (.text ⟨read.1, rfl, rfl⟩) read.2
  next rest => exact h.listBody room rest
  next rest => exact h.objectBody room rest
  next =>
    cases scalar cs with
    | error stop => exact readAlike_error stop
    | ok read => exact readAlike_ok (respells_refl Text.Respells.refl read.1) read.2

/-- A list is read in one way in both spellings. -/
theorem listBody_succ (h : GoesAlike f g fuel) (room : Nat) (cs : List Char) :
    ReadAlike (Alike f g) (Json.listBody f (fuel + 1) room cs)
      (Json.listBody g (fuel + 1) room cs) := by
  cases room with
  | zero => exact readAlike_error (.tooDeep .list)
  | succ room =>
    rw [Json.listBody.eq_def f, Json.listBody.eq_def g]
    dsimp only
    split
    next rest _ => exact readAlike_ok (.list .nil) rest
    next =>
      exact (h.elements room _).bind fun vs vs' rest hvs => readAlike_ok (.list hvs) rest

/-- An object is read in one way in both spellings. -/
theorem objectBody_succ (h : GoesAlike f g fuel) (room : Nat) (cs : List Char) :
    ReadAlike (Alike f g) (Json.objectBody f (fuel + 1) room cs)
      (Json.objectBody g (fuel + 1) room cs) := by
  cases room with
  | zero => exact readAlike_error (.tooDeep .object)
  | succ room =>
    rw [Json.objectBody.eq_def f, Json.objectBody.eq_def g]
    dsimp only
    split
    next rest _ => exact readAlike_ok (.object .nil) rest
    next =>
      exact (h.members room _).bind fun ms ms' rest hms =>
        readAlike_ok (.object (memberRespells_of_sameKey (sameKey_ofPairs hms))) rest

/-- Elements are read one by one in both spellings. -/
theorem elements_succ (h : GoesAlike f g fuel) (room : Nat) (cs : List Char) :
    ReadAlike (List.Forall₂ (Alike f g)) (Json.elements f (fuel + 1) room cs)
      (Json.elements g (fuel + 1) room cs) := by
  rw [Json.elements, Json.elements]
  refine (h.value room cs).bind fun v v' rest hv => ?_
  dsimp only
  split
  next rest _ => exact readAlike_ok (.cons hv .nil) rest
  next =>
    exact (h.elements room _).bind fun vs vs' rest hvs => readAlike_ok (.cons hv hvs) rest
  next => exact readAlike_error _

/-- Members are read one by one in both spellings. -/
theorem members_succ (h : GoesAlike f g fuel) (room : Nat) (cs : List Char) :
    ReadAlike (List.Forall₂ (SameKey (Text.Respells f g))) (Json.members f (fuel + 1) room cs)
      (Json.members g (fuel + 1) room cs) := by
  rw [Json.members.eq_def f, Json.members.eq_def g]
  dsimp only
  split
  next afterQuote =>
    cases string ('"' :: afterQuote) afterQuote with
    | error stop => exact readAlike_error stop
    | ok read =>
      obtain ⟨key, rest⟩ := read
      simp only [bind, Except.bind]
      split
      next =>
        refine (h.value room _).bind fun v v' rest hv => ?_
        dsimp only
        split
        next rest _ => exact readAlike_ok (.cons ⟨rfl, hv⟩ .nil) rest
        next =>
          exact (h.members room _).bind fun ms ms' rest hms =>
            readAlike_ok (.cons ⟨rfl, hv⟩ hms) rest
        next => exact readAlike_error _
      next => exact readAlike_error _
  next => exact readAlike_error _

end GoesAlike

/-- With any fuel the reader goes the same way in both spellings. -/
theorem goesAlike (f g : Text.Spelling) (fuel : Nat) : GoesAlike f g fuel := by
  induction fuel with
  | zero => exact goesAlike_zero
  | succ fuel ih =>
    exact ⟨ih.value_succ, ih.listBody_succ, ih.objectBody_succ, ih.elements_succ, ih.members_succ⟩

/-- A text is read in two spellings with the same fault, or as values that differ by the spelling of
halves. -/
theorem parseSpelled_alike (f g : Text.Spelling) (s : String) :
    Logged.Outcome Eq (Alike f g) (parseSpelled f s) (parseSpelled g s) := by
  have hdocument : Logged.Outcome Eq (Alike f g) (document f s.toList)
      (document g s.toList) := by
    rw [document.eq_def f, document.eq_def g]
    split
    next => exact .error rfl
    next =>
      refine Logged.Outcome.bind ((goesAlike f g _).value maxDepth _) ?_
      intro ⟨v, rest⟩ ⟨v', rest'⟩ ⟨hv, hrest⟩
      dsimp only at hv hrest ⊢
      subst hrest
      split
      next => exact .ok hv
      next => exact .error rfl
  rw [parseSpelled, parseSpelled]
  generalize document f s.toList = x at hdocument ⊢
  generalize document g s.toList = y at hdocument ⊢
  cases hdocument with
  | error he =>
    rw [he]
    exact .error rfl
  | ok hv => exact .ok hv

end Bindery.Json

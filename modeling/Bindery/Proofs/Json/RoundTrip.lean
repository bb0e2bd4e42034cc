import Bindery.Json.Printer
import Bindery.Json.Reader
import Bindery.Proofs.Keyed
import Bindery.Proofs.Text.Half
import Mathlib.Tactic.SplitIfs

/-!
# What is printed as JSON is read back

A value without numbers is read back from its print, whatever characters its strings hold. The
reader goes through a string one character at a time: each escape is undone, every other character
stands for itself, and the code points of characters hold no halves of surrogate pairs that could be
joined. Blanks stand between tokens only, and every printed value begins with a token. A value is
then read back with its items, in front of any rest, by induction on the value; each call of the
reader is paid for by a printed character. Keys that do not repeat stay where they are.
-/

namespace Bindery.Json

/-- In the code points of characters there is nothing to join. -/
theorem joinPairs_map_toNat (cs : List Char) :
    joinPairs (cs.map Char.toNat) = cs.map Char.toNat := by
  induction cs with
  | nil => rfl
  | cons c cs ih =>
    cases cs with
    | nil => rfl
    | cons d cs =>
      have hc := Text.isHalf_toNat c
      have hno : ¬(0xd800 ≤ c.toNat ∧ c.toNat < 0xdc00 ∧ 0xdc00 ≤ d.toNat ∧ d.toNat < 0xe000) := by
        rw [Text.isHalf, ← Bool.not_eq_true, Bool.and_eq_true, decide_eq_true_iff,
          decide_eq_true_iff] at hc
        omega
      rw [List.map_cons, List.map_cons, joinPairs, if_neg hno, ← List.map_cons, ih]

/-- The closing quote ends a string. -/
theorem stringPoints_quote (opening rest : List Char) :
    stringPoints opening ('"' :: rest) = .ok ([], rest) := by
  rw [stringPoints.eq_def]
  rfl

/-- An escape by a letter is read as the character that it stands for. -/
theorem stringPoints_letter (opening : List Char) {e c : Char} (hu : e ≠ 'u')
    (h : unescape? e = some c) (rest : List Char) :
    stringPoints opening ('\\' :: e :: rest) = consPoint c.toNat (stringPoints opening rest) := by
  rw [stringPoints.eq_def]
  dsimp only
  rw [if_neg (by decide), if_pos rfl]
  split
  next heq => exact nomatch heq
  next digits heq => exact absurd (List.cons.inj heq).1 hu
  next e' rest' _ heq =>
    obtain ⟨rfl, rfl⟩ := List.cons.inj heq
    rw [h]

/-- An escape by number is read as the number, if anything follows it. -/
theorem stringPoints_number (opening : List Char) {a b c d : Char} {n : Nat}
    (h : unit? a b c d = some n) {rest : List Char} (hrest : rest ≠ []) :
    stringPoints opening ('\\' :: 'u' :: a :: b :: c :: d :: rest) =
      consPoint n (stringPoints opening rest) := by
  have hempty : rest.isEmpty = false := by simpa using hrest
  rw [stringPoints.eq_def]
  dsimp only
  rw [if_neg (by decide), if_pos rfl]
  simp [hempty, h]

/-- Any other character stands for itself, unless it is a control. -/
theorem stringPoints_self (opening : List Char) {c : Char} (hquote : c ≠ '"') (hslash : c ≠ '\\')
    (hcontrol : ¬c < ' ') (rest : List Char) :
    stringPoints opening (c :: rest) = consPoint c.toNat (stringPoints opening rest) := by
  rw [stringPoints.eq_def]
  dsimp only
  rw [if_neg hquote, if_neg hslash, if_neg hcontrol]

/-- The number of a control is read back from its four digits. -/
theorem unit?_control : ∀ n < 32, ∃ a b c d, Text.hex 4 n = [a, b, c, d] ∧
    unit? a b c d = some n := by
  intro n hn
  refine ⟨_, _, _, _, rfl, ?_⟩
  revert n
  decide

/-- How a character is written inside a string: with the letter that stands for it, with its number
if it is another control, or as it is. -/
theorem escaped_cases (c : Char) :
    (∃ e, escaped c = ['\\', e] ∧ e ≠ 'u' ∧ unescape? e = some c) ∨
      (escaped c = '\\' :: 'u' :: Text.hex 4 c.toNat ∧ c.toNat < 32) ∨
      (escaped c = [c] ∧ c ≠ '"' ∧ c ≠ '\\' ∧ ¬c < ' ') := by
  unfold escaped
  split_ifs with hquote hslash hb ht hn hf hr hcontrol
  · exact .inl ⟨'"', rfl, by decide, by rw [hquote]; rfl⟩
  · exact .inl ⟨'\\', rfl, by decide, by rw [hslash]; rfl⟩
  · exact .inl ⟨'b', rfl, by decide, by rw [hb]; rfl⟩
  · exact .inl ⟨'t', rfl, by decide, by rw [ht]; rfl⟩
  · exact .inl ⟨'n', rfl, by decide, by rw [hn]; rfl⟩
  · exact .inl ⟨'f', rfl, by decide, by rw [hf]; rfl⟩
  · exact .inl ⟨'r', rfl, by decide, by rw [hr]; rfl⟩
  · exact .inr (.inl ⟨rfl, hcontrol⟩)
  · exact .inr (.inr ⟨rfl, hquote, hslash, hcontrol⟩)

/-- An escaped character is read back as its code point, if anything follows it. -/
theorem stringPoints_escaped (opening : List Char) (c : Char) {more : List Char} (h : more ≠ []) :
    stringPoints opening (escaped c ++ more) = consPoint c.toNat (stringPoints opening more) := by
  obtain ⟨e, hletter, hu, he⟩ | ⟨hnumber, hsmall⟩ | ⟨hself, hquote, hslash, hcontrol⟩ :=
    escaped_cases c
  · rw [hletter]
    exact stringPoints_letter opening hu he more
  · obtain ⟨a, b, d, e, hdigits, hunit⟩ := unit?_control c.toNat hsmall
    rw [hnumber, hdigits]
    exact stringPoints_number opening hunit h
  · rw [hself]
    exact stringPoints_self opening hquote hslash hcontrol more

/-- A printed string is read back after its opening quote, in front of any rest. -/
theorem string_escaped (opening : List Char) (s : String) (rest : List Char) :
    string opening (s.toList.flatMap escaped ++ '"' :: rest) = .ok (Text.points s, rest) := by
  have hpoints : ∀ cs : List Char, stringPoints opening (cs.flatMap escaped ++ '"' :: rest) =
      .ok (cs.map Char.toNat, rest) := by
    intro cs
    induction cs with
    | nil => exact stringPoints_quote opening rest
    | cons c cs ih =>
      rw [List.flatMap_cons, List.append_assoc, stringPoints_escaped opening c (by simp), ih]
      rfl
  rw [string, hpoints]
  exact congrArg (fun read => Except.ok (read, rest)) (joinPairs_map_toNat s.toList)

/-- A new line is written in front of what follows. -/
theorem newline_append (level : Nat) (cs rest : List Char) :
    newline level (cs ++ rest) = newline level cs ++ rest := by
  simp [newline]

/-- A string is written in front of what follows. -/
theorem printString_append (s : String) (cs rest : List Char) :
    printString s (cs ++ rest) = printString s cs ++ rest := by
  simp [printString]

mutual

/-- A value is written in front of what follows. -/
theorem print_append (level : Nat) (cs rest : List Char) :
    ∀ v : Json, print level v (cs ++ rest) = print level v cs ++ rest
  | .null => by rw [print, print, List.append_assoc]
  | .bool true => by rw [print, print, List.append_assoc]
  | .bool false => by rw [print, print, List.append_assoc]
  | .int n => by rw [print, print, List.append_assoc]
  | .real spelling => by rw [print, print, List.append_assoc]
  | .text s => by rw [print, print, printString_append]
  | .list [] => by rw [print, print, List.cons_append, List.cons_append]
  | .list (v :: vs) => by
    simp only [print, ← List.cons_append, newline_append, printItems_append, print_append]
  | .object [] => by rw [print, print, List.cons_append, List.cons_append]
  | .object ((key, v) :: ms) => by
    simp only [print, ← List.cons_append, newline_append, printString_append,
      printMembers_append, print_append]

/-- Items are written in front of what follows. -/
theorem printItems_append (level : Nat) (cs rest : List Char) :
    ∀ vs : List Json, printItems level vs (cs ++ rest) = printItems level vs cs ++ rest
  | [] => by rw [printItems, printItems]
  | v :: vs => by
    simp only [printItems, ← List.cons_append, newline_append, printItems_append, print_append]

/-- Members are written in front of what follows. -/
theorem printMembers_append (level : Nat) (cs rest : List Char) :
    ∀ ms : List (String × Json),
      printMembers level ms (cs ++ rest) = printMembers level ms cs ++ rest
  | [] => by rw [printMembers, printMembers]
  | (key, v) :: ms => by
    simp only [printMembers, ← List.cons_append, newline_append, printString_append,
      printMembers_append, print_append]

end

/-- The length of what is written in front of something. -/
theorem length_print (level : Nat) (v : Json) (rest : List Char) :
    (print level v rest).length = (print level v []).length + rest.length := by
  rw [← List.length_append, ← print_append, List.nil_append]

/-- The length of items in front of something. -/
theorem length_printItems (level : Nat) (vs : List Json) (rest : List Char) :
    (printItems level vs rest).length = (printItems level vs []).length + rest.length := by
  rw [← List.length_append, ← printItems_append, List.nil_append]

/-- The length of members in front of something. -/
theorem length_printMembers (level : Nat) (ms : List (String × Json)) (rest : List Char) :
    (printMembers level ms rest).length = (printMembers level ms []).length + rest.length := by
  rw [← List.length_append, ← printMembers_append, List.nil_append]

/-- A new line takes at least a character. -/
theorem length_newline (level : Nat) (rest : List Char) :
    (newline level rest).length = 2 * level + 1 + rest.length := by
  simp only [newline, List.cons_append, List.length_cons, List.length_append,
    List.length_replicate]
  omega

/-- A string takes at least its quotes. -/
theorem length_printString (s : String) (rest : List Char) :
    (printString s rest).length = (s.toList.flatMap escaped).length + 2 + rest.length := by
  simp only [printString, List.cons_append, List.length_cons, List.length_append]
  omega

/-- The blanks of a new line are skipped. -/
theorem skipSpace_newline (level : Nat) (rest : List Char) :
    skipSpace (newline level rest) = skipSpace rest := by
  have hblank : ∀ c ∈ '\n' :: List.replicate (2 * level) ' ', isSpace c = true := by
    intro c hc
    rcases List.mem_cons.mp hc with rfl | hc
    · rfl
    · rw [List.eq_of_mem_replicate hc]
      rfl
  exact List.dropWhile_append_of_pos hblank

/-- A token is not skipped. -/
theorem skipSpace_cons {c : Char} (h : isSpace c = false) (rest : List Char) :
    skipSpace (c :: rest) = c :: rest := by
  rw [skipSpace, List.dropWhile_cons_of_neg (by simp [h])]

/-- A token on a new line is found. -/
theorem skipSpace_newline_cons (level : Nat) {c : Char} (h : isSpace c = false)
    (rest : List Char) : skipSpace (newline level (c :: rest)) = c :: rest := by
  rw [skipSpace_newline, skipSpace_cons h]

/-- A string on a new line is found. -/
theorem skipSpace_newline_printString (level : Nat) (s : String) (rest : List Char) :
    skipSpace (newline level (printString s rest)) = printString s rest :=
  skipSpace_newline_cons level rfl _

/-- The characters with which the values begin that are read back here. -/
def starts : List Char := ['n', 't', 'f', '"', '[', '\x7b']

/-- A value begins with no blank, with nothing that closes a list, and with no byte order mark. -/
theorem of_mem_starts : ∀ c ∈ starts, isSpace c = false ∧ c ≠ ']' ∧ c ≠ '\ufeff' := by
  simp [starts, isSpace]

/-- A value is read back from its print. -/
structure ReadsBack (spelling : Text.Spelling) (room : Nat) (v : Json) : Prop where
  /-- The print begins like one of a value. -/
  begins : ∀ level rest, ∃ c ∈ starts, ∃ more, print level v rest = c :: more
  /-- The value is read from it, in front of any rest. Each character is worth three calls. -/
  value_print : ∀ level fuel rest, 3 * (print level v []).length ≤ fuel →
    value spelling fuel room (print level v rest) = .ok (v, rest)

variable {spelling : Text.Spelling}

/-- The beginning of a value is not skipped. -/
theorem ReadsBack.skipSpace_print {room : Nat} {v : Json} (h : ReadsBack spelling room v)
    (level : Nat) (rest : List Char) : skipSpace (print level v rest) = print level v rest := by
  obtain ⟨c, hc, more, hprint⟩ := h.begins level rest
  rw [hprint, skipSpace_cons (of_mem_starts c hc).1]

section Parts

variable {room level fuel : Nat} {key : String} {v : Json} {tail rest : List Char}

/-- After an item that is read back the next token tells how the list goes on. -/
theorem elements_print (hv : ReadsBack spelling room v)
    (hfuel : 3 * (print level v []).length ≤ fuel) (tail : List Char) :
    elements spelling (fuel + 1) room (print level v tail) =
      match skipSpace tail with
      | ']' :: rest => .ok ([v], rest)
      | ',' :: rest => do
        let (vs, rest) ← elements spelling fuel room (skipSpace rest)
        return (v :: vs, rest)
      | rest => .error (.form .comma rest) := by
  rw [elements, hv.value_print level fuel tail hfuel]
  rfl

/-- Items that are read back one by one are read back together, up to the closing bracket. -/
theorem elements_printItems {vs : List Json} (h : ∀ w ∈ v :: vs, ReadsBack spelling room w)
    (htail : skipSpace tail = ']' :: rest)
    (hfuel : 3 * ((print level v []).length + (printItems level vs []).length) < fuel) :
    elements spelling fuel room (print level v (printItems level vs tail)) =
      .ok (v :: vs, rest) := by
  have hv := h v List.mem_cons_self
  induction vs generalizing v fuel with
  | nil =>
    obtain ⟨fuel, rfl⟩ : ∃ less, fuel = less + 1 := ⟨fuel - 1, by omega⟩
    rw [printItems, elements_print hv (by omega), htail]
    rfl
  | cons w ws ih =>
    obtain ⟨fuel, rfl⟩ : ∃ less, fuel = less + 1 := ⟨fuel - 1, by omega⟩
    have hrest : ∀ x ∈ w :: ws, ReadsBack spelling room x :=
      fun x hx => h x (List.mem_cons_of_mem v hx)
    have hw := hrest w List.mem_cons_self
    rw [printItems, List.length_cons, length_newline, length_print level w] at hfuel
    have hlater : elements spelling fuel room (print level w (printItems level ws tail)) =
        .ok (w :: ws, rest) := ih hrest (by omega) hw
    rw [elements_print hv (by omega), printItems, skipSpace_cons rfl]
    simp only [skipSpace_newline, hw.skipSpace_print, hlater]
    rfl

/-- A member with the code points of its key. -/
def pointed (m : String × Json) : List Nat × Json := (Text.points m.1, m.2)

/-- After a member whose value is read back the next token tells how the object goes on. -/
theorem members_print (hv : ReadsBack spelling room v)
    (hfuel : 3 * (print level v []).length ≤ fuel) (key : String) (tail : List Char) :
    members spelling (fuel + 1) room (printString key (':' :: ' ' :: print level v tail)) =
      match skipSpace tail with
      | '\x7d' :: rest => .ok ([pointed (key, v)], rest)
      | ',' :: rest => do
        let (ms, rest) ← members spelling fuel room (skipSpace rest)
        return (pointed (key, v) :: ms, rest)
      | rest => .error (.form .comma rest) := by
  have hcolon : skipSpace (':' :: ' ' :: print level v tail) = ':' :: ' ' :: print level v tail :=
    skipSpace_cons rfl _
  have hvalue : skipSpace (' ' :: print level v tail) = print level v tail :=
    hv.skipSpace_print level tail
  rw [printString, List.cons_append, members]
  simp only [bind, Except.bind, string_escaped, hcolon, hvalue,
    hv.value_print level fuel tail hfuel]
  rfl

/-- Members whose values are read back one by one are read back together, up to the closing
brace. -/
theorem members_printMembers {ms : List (String × Json)}
    (h : ∀ m ∈ (key, v) :: ms, ReadsBack spelling room m.2)
    (htail : skipSpace tail = '\x7d' :: rest)
    (hfuel : 3 * ((print level v []).length + (printMembers level ms []).length) < fuel) :
    members spelling fuel room
        (printString key (':' :: ' ' :: print level v (printMembers level ms tail))) =
      .ok (((key, v) :: ms).map pointed, rest) := by
  have hv : ReadsBack spelling room v := h (key, v) List.mem_cons_self
  induction ms generalizing key v fuel with
  | nil =>
    obtain ⟨fuel, rfl⟩ : ∃ less, fuel = less + 1 := ⟨fuel - 1, by omega⟩
    rw [printMembers, members_print hv (by omega), htail]
    rfl
  | cons m ms ih =>
    obtain ⟨name, w⟩ := m
    obtain ⟨fuel, rfl⟩ : ∃ less, fuel = less + 1 := ⟨fuel - 1, by omega⟩
    have hrest : ∀ m ∈ (name, w) :: ms, ReadsBack spelling room m.2 :=
      fun m hm => h m (List.mem_cons_of_mem (key, v) hm)
    rw [printMembers, List.length_cons, length_newline, length_printString, List.length_cons,
      List.length_cons, length_print level w] at hfuel
    have hlater : members spelling fuel room
        (printString name (':' :: ' ' :: print level w (printMembers level ms tail))) =
        .ok (((name, w) :: ms).map pointed, rest) :=
      ih hrest (by omega) (hrest (name, w) List.mem_cons_self)
    rw [members_print hv (by omega), printMembers, skipSpace_cons rfl]
    simp only [skipSpace_newline_printString, hlater]
    rfl

end Parts

/-- Keys that do not repeat stay where they are, and are the strings of their code points. -/
theorem map_ofPoints_ofPairs_pointed {ms : List (String × Json)}
    (hkeys : (Keyed.keys ms).Nodup) : (Keyed.ofPairs (ms.map pointed)).map
      (fun (key, v) => (Text.ofPoints spelling key, v)) = ms := by
  have hpointed : (Keyed.keys (ms.map pointed)).Nodup := by
    have hmap : Keyed.keys (ms.map pointed) = (Keyed.keys ms).map Text.points := by
      simp [Keyed.keys, pointed, Function.comp_def]
    rw [hmap]
    exact hkeys.map Text.points_injective
  rw [Keyed.ofPairs_eq_self hpointed, List.map_map]
  simp [Function.comp_def, pointed, Text.ofPoints_points]

/-- A value without numbers in which no object repeats a key, and no more containers than there is
room for stand inside each other. -/
inductive Plain : (room : Nat) → Json → Prop
  | null {room : Nat} : Plain room .null
  | bool {room : Nat} (b : Bool) : Plain room (.bool b)
  | text {room : Nat} (s : String) : Plain room (.text s)
  | list {room : Nat} {vs : List Json} (h : ∀ v ∈ vs, Plain room v) : Plain (room + 1) (.list vs)
  | object {room : Nat} {ms : List (String × Json)} (hkeys : (Keyed.keys ms).Nodup)
    (h : ∀ m ∈ ms, Plain room m.2) : Plain (room + 1) (.object ms)

/-- A list that does not close at once has items. -/
theorem listBody_of_begins {fuel room : Nat} {cs more : List Char} {c : Char}
    (hskip : skipSpace cs = c :: more) (hc : c ≠ ']') :
    listBody spelling (fuel + 1) (room + 1) cs = do
      let (vs, rest) ← elements spelling fuel room (c :: more)
      return (.list vs, rest) := by
  rw [listBody, hskip]
  split
  next heq => exact absurd (List.cons.inj heq).1 hc
  next => rfl

/-- An object that does not close at once has members. -/
theorem objectBody_of_begins {fuel room : Nat} {cs more : List Char} {c : Char}
    (hskip : skipSpace cs = c :: more) (hc : c ≠ '\x7d') :
    objectBody spelling (fuel + 1) (room + 1) cs = do
      let (ms, rest) ← members spelling fuel room (c :: more)
      let read := (Keyed.ofPairs ms).map fun (key, v) => (Text.ofPoints spelling key, v)
      return (.object read, rest) := by
  rw [objectBody, hskip]
  split
  next heq => exact absurd (List.cons.inj heq).1 hc
  next => rfl

/-- A list of values that are read back is read back. -/
theorem readsBack_list {room : Nat} {vs : List Json} (h : ∀ v ∈ vs, ReadsBack spelling room v) :
    ReadsBack spelling (room + 1) (.list vs) where
  begins level rest := by
    cases vs <;> rw [print] <;> exact ⟨_, by decide, _, rfl⟩
  value_print level fuel rest hfuel := by
    cases vs with
    | nil =>
      rw [print, List.length_cons] at hfuel
      obtain ⟨fuel, rfl⟩ : ∃ less, fuel = less + 2 := ⟨fuel - 2, by omega⟩
      rw [print, value, listBody, skipSpace_cons rfl]
      rfl
    | cons v vs =>
      have hv := h v List.mem_cons_self
      obtain ⟨c, hstart, more, hprint⟩ := hv.begins (level + 1)
        (printItems (level + 1) vs (newline level (']' :: rest)))
      obtain ⟨hspace, hc, -⟩ := of_mem_starts c hstart
      rw [print, List.length_cons, length_newline, length_print (level + 1) v,
        length_printItems (level + 1) vs] at hfuel
      obtain ⟨fuel, rfl⟩ : ∃ less, fuel = less + 2 := ⟨fuel - 2, by omega⟩
      have hitems : elements spelling fuel room (print (level + 1) v (printItems (level + 1) vs
          (newline level (']' :: rest)))) = .ok (v :: vs, rest) :=
        elements_printItems h (skipSpace_newline_cons level rfl rest) (by omega)
      have hskip := skipSpace_newline_cons (level + 1) hspace more
      rw [print, value, hprint, listBody_of_begins hskip hc, ← hprint, hitems]
      rfl

/-- An object of values that are read back is read back if its keys do not repeat. -/
theorem readsBack_object {room : Nat} {ms : List (String × Json)} (hkeys : (Keyed.keys ms).Nodup)
    (h : ∀ m ∈ ms, ReadsBack spelling room m.2) : ReadsBack spelling (room + 1) (.object ms) where
  begins level rest := by
    cases ms <;> rw [print] <;> exact ⟨_, by decide, _, rfl⟩
  value_print level fuel rest hfuel := by
    cases ms with
    | nil =>
      rw [print, List.length_cons] at hfuel
      obtain ⟨fuel, rfl⟩ : ∃ less, fuel = less + 2 := ⟨fuel - 2, by omega⟩
      rw [print, value, objectBody, skipSpace_cons rfl]
      rfl
    | cons m ms =>
      obtain ⟨key, v⟩ := m
      rw [print, List.length_cons, length_newline, length_printString, List.length_cons,
        List.length_cons, length_print (level + 1) v, length_printMembers (level + 1) ms] at hfuel
      obtain ⟨fuel, rfl⟩ : ∃ less, fuel = less + 2 := ⟨fuel - 2, by omega⟩
      have hmembers : members spelling fuel room (printString key (':' :: ' ' :: print (level + 1) v
          (printMembers (level + 1) ms (newline level ('\x7d' :: rest))))) =
          .ok (((key, v) :: ms).map pointed, rest) :=
        members_printMembers h (skipSpace_newline_cons level rfl rest) (by omega)
      rw [printString, List.cons_append] at hmembers
      rw [print, value, printString, List.cons_append,
        objectBody_of_begins (skipSpace_newline_cons (level + 1) rfl _) (by decide), hmembers]
      exact congrArg (fun found => Except.ok (Json.object found, rest))
        (map_ofPoints_ofPairs_pointed hkeys)

/-- Every plain value is read back. -/
theorem Plain.readsBack {room : Nat} {v : Json} (h : Plain room v) : ReadsBack spelling room v := by
  induction h with
  | null =>
    refine ⟨fun level rest => ?_, fun level fuel rest hfuel => ?_⟩
    · rw [print]
      exact ⟨_, by decide, _, rfl⟩
    · obtain ⟨fuel, rfl⟩ : ∃ less, fuel = less + 1 := ⟨fuel - 1, by simp [print] at hfuel; omega⟩
      rw [print]
      rfl
  | bool b =>
    refine ⟨fun level rest => ?_, fun level fuel rest hfuel => ?_⟩
    · cases b <;> rw [print] <;> exact ⟨_, by decide, _, rfl⟩
    · obtain ⟨fuel, rfl⟩ : ∃ less, fuel = less + 1 :=
        ⟨fuel - 1, by cases b <;> simp [print] at hfuel <;> omega⟩
      cases b <;> rw [print] <;> rfl
  | text s =>
    refine ⟨fun level rest => ?_, fun level fuel rest hfuel => ?_⟩
    · rw [print]
      exact ⟨_, by decide, _, rfl⟩
    · rw [print, length_printString] at hfuel
      obtain ⟨fuel, rfl⟩ : ∃ less, fuel = less + 1 := ⟨fuel - 1, by omega⟩
      rw [print, printString, List.cons_append, value, string_escaped]
      simp only [bind, Except.bind, Text.ofPoints_points]
      rfl
  | list _ ih => exact readsBack_list ih
  | object hkeys _ ih => exact readsBack_object hkeys ih

/-- A document is the print of its value and a new line. -/
theorem toList_render (v : Json) : v.render.toList = print 0 v [] ++ ['\n'] := by
  rw [render, String.toList_ofList, ← print_append, List.nil_append]

/-- The print of an object ends with its brace. -/
theorem getLast?_print_object (level : Nat) (ms : List (String × Json)) :
    (print level (.object ms) []).getLast? = some '\x7d' := by
  cases ms with
  | nil => rw [print]; rfl
  | cons m ms =>
    have hclose : newline level ['\x7d'] = newline level [] ++ ['\x7d'] :=
      newline_append level [] ['\x7d']
    rw [print, hclose]
    simp only [printMembers_append, print_append, printString_append, newline_append,
      ← List.cons_append]
    exact List.getLast?_concat

/-- A plain value is read back from its document. It holds no halves, so that all spellings are the
same. -/
theorem parseSpelled_render (spelling : Text.Spelling) {v : Json} (h : Plain maxDepth v) :
    parseSpelled spelling v.render = .ok v := by
  have hback : ReadsBack spelling maxDepth v := h.readsBack
  obtain ⟨c, hstart, more, hprint⟩ := hback.begins 0 ['\n']
  obtain ⟨hspace, -, hmark⟩ := of_mem_starts c hstart
  have hread : value spelling (3 * (print 0 v ['\n']).length + 3) maxDepth (print 0 v ['\n']) =
      .ok (v, ['\n']) := by
    refine hback.value_print 0 _ ['\n'] ?_
    rw [length_print 0 v ['\n']]
    omega
  have hdocument : document spelling (print 0 v ['\n']) = .ok v := by
    rw [hprint] at hread ⊢
    rw [document.eq_def]
    split
    next heq => exact absurd (List.cons.inj heq).1 hmark
    next =>
      rw [skipSpace_cons hspace, hread]
      rfl
  rw [parseSpelled, render, String.toList_ofList, hdocument]
  rfl

/-- A plain value is read back from its document. -/
theorem parse_render {v : Json} (h : Plain maxDepth v) : parse v.render = .ok v :=
  parseSpelled_render .plain h

end Bindery.Json

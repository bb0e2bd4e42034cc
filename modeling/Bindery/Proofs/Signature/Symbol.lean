import Bindery.Proofs.Signature.Grammar
import Bindery.Proofs.Signature.TopLevel
import Bindery.Proofs.Text.Blank

/-!
# What a symbol can hold

The name of an annotation ends at the first comma with a blank, wherever in the line that stands.
If the comma after the name is missing, a later one takes its place, and the symbol goes on through
the return type and into the parameters. This is not noticed if a later parameter looks like a
signature, so the symbol of an accepted line is the name in the line exactly if that name is
followed by a comma and a blank.
-/

namespace Bindery.Signature

/-- A character that no name has: a blank, a comma or a parenthesis. -/
def isDelimiter (c : Char) : Bool := Text.isBlank c || isMark c

/-- What stands in a line after the marker and the blanks that follow it. A line that does not
begin with the marker has nothing there. -/
def afterMarker (line : List Char) : List Char :=
  Text.dropBlank ((Text.dropFront? marker.toList (Text.strip line)).getD [])

/-- The name in a line: what stands after the marker up to the first delimiter. -/
def writtenName (line : List Char) : List Char := (afterMarker line).takeWhile (!isDelimiter ·)

/-- The name in a line is followed by a comma and a blank, with further blanks in front of the
comma at most. -/
def NameDelimited (line : List Char) : Prop :=
  [',', ' '] <+: Text.dropBlank ((afterMarker line).dropWhile (!isDelimiter ·))

instance (line : List Char) : Decidable (NameDelimited line) :=
  inferInstanceAs (Decidable (_ <+: _))

/-- A run of characters with some property ends where a text follows that begins without it. -/
theorem takeWhile_append_of_head {p : Char → Bool} {rest : List Char}
    (h : ∀ c ∈ rest.head?, p c = false) (text : List Char) :
    (text ++ rest).takeWhile p = text.takeWhile p := by
  have hrest : rest.takeWhile p = [] := by
    cases rest with
    | nil => rfl
    | cons c rest => exact List.takeWhile_cons_of_neg (by simp [h c rfl])
  rw [List.takeWhile_append, hrest, List.append_nil]
  split
  next hlength => exact ((List.takeWhile_prefix p).eq_of_length hlength).symm
  next => rfl

/-- What remains after such a run goes on with that text. -/
theorem dropWhile_append_of_head {p : Char → Bool} {rest : List Char}
    (h : ∀ c ∈ rest.head?, p c = false) (text : List Char) :
    (text ++ rest).dropWhile p = text.dropWhile p ++ rest := by
  have hwhole : (text ++ rest).takeWhile p ++ (text ++ rest).dropWhile p = text ++ rest :=
    List.takeWhile_append_dropWhile
  have htext : text.takeWhile p ++ text.dropWhile p = text := List.takeWhile_append_dropWhile
  rw [takeWhile_append_of_head h text] at hwhole
  refine List.append_cancel_left (hwhole.trans ?_)
  rw [← List.append_assoc, htext]

/-- Blanks and the separator begin with a delimiter. -/
theorem isDelimiter_head_separator {back : List Char} (h : ∀ c ∈ back, Text.isBlank c = true)
    (tail : List Char) :
    ∀ c ∈ (back ++ ',' :: ' ' :: tail).head?, (!isDelimiter c) = false := by
  intro c hc
  cases back with
  | nil =>
    obtain rfl : ',' = c := Option.some.inj hc
    decide
  | cons b back =>
    obtain rfl : b = c := Option.some.inj hc
    simp [isDelimiter, h b List.mem_cons_self]

/-- Blanks have no comma among them. -/
theorem comma_not_mem_of_isBlank {back : List Char} (h : ∀ c ∈ back, Text.isBlank c = true) :
    ',' ∉ back :=
  fun hmem => absurd (h ',' hmem) (by decide)

/-- The name in a line has no delimiter. -/
theorem isDelimiter_of_mem_writtenName {line : List Char} {c : Char} (h : c ∈ writtenName line) :
    isDelimiter c = false := by
  simpa using List.mem_takeWhile_imp h

/-- A delimited name is followed by blanks and the separator. -/
theorem exists_of_nameDelimited {line : List Char} (h : NameDelimited line) :
    ∃ blanks tail, (∀ c ∈ blanks, Text.isBlank c = true) ∧
      afterMarker line = writtenName line ++ (blanks ++ ',' :: ' ' :: tail) := by
  obtain ⟨tail, htail⟩ := h
  have hmore : ∀ cs : List Char, cs.takeWhile Text.isBlank ++ Text.dropBlank cs = cs :=
    fun cs => List.takeWhile_append_dropWhile
  refine ⟨((afterMarker line).dropWhile (!isDelimiter ·)).takeWhile Text.isBlank, tail,
    fun c hc => List.mem_takeWhile_imp hc, ?_⟩
  have hseparator : ',' :: ' ' :: tail =
      Text.dropBlank ((afterMarker line).dropWhile (!isDelimiter ·)) := htail
  rw [hseparator, hmore, writtenName, List.takeWhile_append_dropWhile]

namespace Annotation

variable {line : List Char} {a : Annotation}

/-- After the marker of an annotation stand its symbol and, behind further blanks, the separator,
which does not stand earlier. -/
theorem IsOf.exists_afterMarker (h : a.IsOf marker.toList (Text.strip line)) :
    ∃ back tail, afterMarker line = Text.strip a.full ++ (back ++ ',' :: ' ' :: tail) ∧
      (∀ c ∈ back, Text.isBlank c = true) ∧ ¬[',', ' '] <:+: Text.strip a.full ++ back := by
  obtain ⟨front, back, hfull, hfront, hback⟩ := Text.exists_blanks_strip a.full
  have hne : Text.strip a.full ≠ [] := by
    rw [h.symbol_eq]
    simp
  have hstart : ∀ rest, Text.dropBlank (a.full ++ rest) = Text.strip a.full ++ (back ++ rest) := by
    intro rest
    have hhead : ∀ c ∈ (Text.strip a.full ++ (back ++ rest)).head?, Text.isBlank c = false := by
      rw [List.head?_append_of_ne_nil _ hne]
      exact Text.isBlank_head_strip a.full
    conv_lhs => rw [hfull]
    rw [List.append_assoc, List.append_assoc, Text.dropBlank_append hfront,
      Text.dropBlank_of_head hhead]
  have hcontent : Text.dropFront? marker.toList (Text.strip line) = some (a.full ++
      ',' :: ' ' :: (a.returns ++ ['('] ++ a.parameters ++ [')'] ++ a.rest)) := by
    rw [Text.dropFront?_eq_some_iff, h.text_eq]
    simp
  have hpiece : Text.strip a.full ++ back <:+: a.full :=
    ⟨front, [], by rw [List.append_nil, ← List.append_assoc, ← hfull]⟩
  have hafter : afterMarker line = Text.strip a.full ++ (back ++
      ',' :: ' ' :: (a.returns ++ ['('] ++ a.parameters ++ [')'] ++ a.rest)) := by
    rw [afterMarker, hcontent, Option.getD_some, hstart]
  exact ⟨back, _, hafter, hback, fun hpair => h.full_cut (hpair.trans hpiece)⟩

/-- The name in an annotation is its symbol up to the first delimiter. -/
theorem IsOf.writtenName_eq (h : a.IsOf marker.toList (Text.strip line)) :
    writtenName line = (Text.strip a.full).takeWhile (!isDelimiter ·) := by
  obtain ⟨back, tail, hafter, hback, -⟩ := h.exists_afterMarker
  rw [writtenName, hafter, takeWhile_append_of_head (isDelimiter_head_separator hback tail)]

/-- The symbol of an annotation has no delimiter exactly if it is the name in the line. -/
theorem IsOf.symbol_eq_writtenName_iff (h : a.IsOf marker.toList (Text.strip line)) :
    Text.strip a.full = writtenName line ↔ ∀ c ∈ Text.strip a.full, isDelimiter c = false := by
  rw [h.writtenName_eq, eq_comm, List.takeWhile_eq_self_iff]
  simp

/-- A delimited name is the symbol: the separator after the name is the first one in the text, and
so is the one after the symbol. -/
theorem IsOf.symbol_eq_of_nameDelimited (h : a.IsOf marker.toList (Text.strip line))
    (hdelimited : NameDelimited line) : Text.strip a.full = writtenName line := by
  obtain ⟨back, tail, hafter, hback, hfirst⟩ := h.exists_afterMarker
  obtain ⟨blanks, tail', hblanks, hafter'⟩ := exists_of_nameDelimited hdelimited
  have hcomma : ',' ∉ writtenName line ++ blanks := by
    rw [List.mem_append, not_or]
    exact ⟨fun hmem => absurd (isDelimiter_of_mem_writtenName hmem) (by decide),
      comma_not_mem_of_isBlank hblanks⟩
  have hcut : Text.cutAt? [',', ' '] (afterMarker line) =
      some (Text.strip a.full ++ back, tail) := by
    rw [Text.cutAt?_pair_eq_some_iff (by decide), hafter, List.append_assoc]
    exact ⟨rfl, hfirst⟩
  have hcut' : Text.cutAt? [',', ' '] (afterMarker line) =
      some (writtenName line ++ blanks, tail') := by
    rw [Text.cutAt?_pair_eq_some_iff (by decide), hafter', List.append_assoc]
    exact ⟨rfl, fun hpair => hcomma (hpair.subset List.mem_cons_self)⟩
  have hsame : Text.strip a.full ++ back = writtenName line ++ blanks :=
    congrArg Prod.fst (Option.some.inj (hcut.symm.trans hcut'))
  have hsymbol : Text.strip (Text.strip a.full ++ back) = Text.strip a.full :=
    Text.strip_append hback (Text.isBlank_head_strip a.full)
      (Text.isBlank_getLast_dropFinalBlank _)
  have hnonblank : ∀ c ∈ writtenName line, Text.isBlank c = false := fun c hc =>
    (Bool.or_eq_false_iff.mp (isDelimiter_of_mem_writtenName hc)).1
  have hwritten : Text.strip (writtenName line ++ blanks) = writtenName line :=
    Text.strip_append hblanks (fun c hc => hnonblank c (List.mem_of_mem_head? hc))
      (fun c hc => hnonblank c (List.mem_of_getLast? hc))
  rw [← hsymbol, hsame, hwritten]

/-- The symbol of an annotation is the name in the line exactly if that name is delimited. -/
theorem IsOf.nameDelimited_iff (h : a.IsOf marker.toList (Text.strip line)) :
    NameDelimited line ↔ Text.strip a.full = writtenName line := by
  refine ⟨h.symbol_eq_of_nameDelimited, fun hsymbol => ?_⟩
  obtain ⟨back, tail, hafter, hback, -⟩ := h.exists_afterMarker
  have hnone : (writtenName line).dropWhile (!isDelimiter ·) = [] := by
    rw [List.dropWhile_eq_nil_iff]
    intro c hc
    rw [isDelimiter_of_mem_writtenName hc]
    rfl
  rw [NameDelimited, hafter, dropWhile_append_of_head (isDelimiter_head_separator hback tail),
    hsymbol, hnone, List.nil_append, Text.dropBlank_append hback, Text.dropBlank_of_head]
  · exact ⟨tail, rfl⟩
  · intro c hc
    obtain rfl : ',' = c := Option.some.inj hc
    decide

end Annotation

/-- The symbol of an accepted line stands in front of the first comma with a blank, and an opening
parenthesis follows that. It begins with the name in the line. It has no blank, comma or parenthesis
exactly if that name is followed by a comma and a blank, and exactly then it is that name. -/
theorem symbol_plain_iff_nameDelimited (types : TypeMap) (flatNames : Bool)
    (source : Option Source) (line : String) (r : Record)
    (h : (read ⟨types, flatNames, marker⟩ source line).result = .ok r) :
    (∃ full tail, Text.strip line.toList = marker.toList ++ full ++ [',', ' '] ++ tail ∧
      ¬[',', ' '] <:+: full ∧ r.symbol.toList = Text.strip full ∧ '(' ∈ tail) ∧
    writtenName line.toList <+: r.symbol.toList ∧
    ((∀ c ∈ r.symbol.toList, isDelimiter c = false) ↔ NameDelimited line.toList) ∧
    (NameDelimited line.toList ↔ r.symbol.toList = writtenName line.toList) := by
  obtain ⟨parts, hparts, rfl⟩ := result_read_eq_ok_iff_cut.mp h
  obtain ⟨a, ha, rfl⟩ := cut_eq_ok_iff.mp hparts
  have hsymbol : (a.parts.record ⟨types, flatNames, marker⟩ source).symbol.toList =
      Text.strip a.full := String.toList_ofList
  have hbegins : writtenName line.toList <+: Text.strip a.full := by
    rw [ha.writtenName_eq]
    exact List.takeWhile_prefix _
  rw [hsymbol, ← ha.symbol_eq_writtenName_iff, ha.nameDelimited_iff]
  refine ⟨⟨a.full, a.returns ++ '(' :: (a.parameters ++ ')' :: a.rest), ?_, ha.full_cut, rfl,
    by simp⟩, hbegins, Iff.rfl, Iff.rfl⟩
  rw [ha.text_eq]
  simp

/-- A name with blanks around it is delimited, whatever its parameters are. -/
theorem symbol_plain_in_blanks :
    (read ⟨.header, true, marker⟩ none "OMP_CAPI( Timer_Start , bool(TimerFn(int) run))").result =
      .ok ⟨"Timer", "Timer_Start", "bool", [⟨"TimerFn(int)", "run"⟩], "Timer_Start", none⟩ ∧
    NameDelimited "OMP_CAPI( Timer_Start , bool(TimerFn(int) run))".toList ∧
    ∀ c ∈ "Timer_Start".toList, isDelimiter c = false := by
  have hread : (read ⟨.header, true, marker⟩ none
      "OMP_CAPI( Timer_Start , bool(TimerFn(int) run))").result =
      .ok ⟨"Timer", "Timer_Start", "bool", [⟨"TimerFn(int)", "run"⟩], "Timer_Start", none⟩ := by
    rfl
  have hdelimited : NameDelimited "OMP_CAPI( Timer_Start , bool(TimerFn(int) run))".toList := by
    decide
  obtain ⟨-, -, hplain, -⟩ := symbol_plain_iff_nameDelimited .header true none
    "OMP_CAPI( Timer_Start , bool(TimerFn(int) run))" _ hread
  exact ⟨hread, hdelimited, hplain.mpr hdelimited⟩

/-- Without the comma after the name, the symbol goes on into the parameters: the comma between
two of them takes its place, and the later parameter is read as the signature. -/
theorem symbol_swallows_parameter :
    (read ⟨.header, false, marker⟩ none
      "OMP_CAPI(Actor_Create objectPtr(int modelid, TimerFn(int) callback))").result =
      .ok ⟨"Actor", "Create objectPtr(int modelid", "TimerFn", [],
        "Actor_Create objectPtr(int modelid", none⟩ ∧
    ¬∀ c ∈ "Actor_Create objectPtr(int modelid".toList, isDelimiter c = false :=
  ⟨rfl, fun h => absurd (h '(' (by decide)) (by decide)⟩

end Bindery.Signature

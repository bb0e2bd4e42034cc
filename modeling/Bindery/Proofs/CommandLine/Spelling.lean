import Bindery.CommandLine.Invocation
import Bindery.Proofs.Keyed
import Bindery.Proofs.Text.Cut

/-!
# Words that name options

A word names an option in one of three ways: by a beginning of one of its spellings that begins no
other spelling, by such a beginning with a value after an equals sign, or by an option of one letter
with more behind it. No spelling begins another one and none has an equals sign, so these ways do
not meet, and a full spelling is a beginning like any other.
-/

namespace Bindery.CommandLine

variable {of : Option Command} {c : Choice} {spelling : String} {front : List Char}

/-- What the options have in common, in front of the command and behind each, can be checked. -/
instance decidableForallOptions {p : Option Command → Prop} [DecidablePred p] :
    Decidable (∀ of, p of) :=
  decidable_of_iff
    (p none ∧ p (some .version) ∧ p (some .header) ∧ p (some .docs) ∧ p (some .all))
    ⟨fun ⟨hnone, hversion, hheader, hdocs, hall⟩ of => match of with
      | none => hnone
      | some .version => hversion
      | some .header => hheader
      | some .docs => hdocs
      | some .all => hall,
    fun h => ⟨h _, h _, h _, h _, h _⟩⟩

/-- An option of one letter, or a spelling that begins with two dashes. -/
theorem spelling_cases : ∀ of, ∀ e ∈ spellingsOf (choicesOf of),
    e = ("-h", .help) ∨ e = ("-v", .verbose) ∨ ['-', '-'] <+: e.1.toList := by
  decide

/-- Every spelling is a dash with more behind it. -/
theorem dash_next_of_mem (h : (spelling, c) ∈ spellingsOf (choicesOf of)) :
    ∃ next rest, spelling.toList = '-' :: next :: rest := by
  rcases spelling_cases of _ h with heq | heq | ⟨rest, hrest⟩
  · exact ⟨_, _, congrArg (fun e => e.1.toList) heq⟩
  · exact ⟨_, _, congrArg (fun e => e.1.toList) heq⟩
  · exact ⟨_, _, hrest.symm⟩

/-- No spelling stands twice. -/
theorem nodup_spellings : ∀ of, (Keyed.keys (spellingsOf (choicesOf of))).Nodup := by
  decide

/-- No spelling has an equals sign. -/
theorem equals_not_mem_spelling : ∀ of, ∀ e ∈ spellingsOf (choicesOf of), '=' ∉ e.1.toList := by
  decide

/-- The help has two spellings everywhere. -/
theorem help_mem_spellings : ∀ of, ("-h", .help) ∈ spellingsOf (choicesOf of) ∧
    ("--help", .help) ∈ spellingsOf (choicesOf of) := by
  decide

/-- A text is the beginning of one spelling and of no other. -/
def Fits (of : Option Command) (front : List Char) (spelling : String) (c : Choice) : Prop :=
  (spellingsOf (choicesOf of)).filter (fun e => beginsWith front e.1.toList) = [(spelling, c)]

instance (of : Option Command) (front : List Char) (spelling : String) (c : Choice) :
    Decidable (Fits of front spelling c) :=
  inferInstanceAs (Decidable (_ = _))

/-- A text begins with another if this is its front. -/
theorem beginsWith_iff {front text : List Char} : beginsWith front text = true ↔ front <+: text :=
  Text.isSome_dropFront?

/-- A full spelling fits itself. -/
theorem fits_of_mem (h : (spelling, c) ∈ spellingsOf (choicesOf of)) :
    Fits of spelling.toList spelling c := by
  have hall : ∀ of, ∀ e ∈ spellingsOf (choicesOf of), (spellingsOf (choicesOf of)).filter
      (fun e' => beginsWith e.1.toList e'.1.toList) = [e] := by
    decide
  exact hall of (spelling, c) h

namespace Fits

/-- What fits is a spelling that begins with the text. -/
theorem mem (h : Fits of front spelling c) :
    (spelling, c) ∈ spellingsOf (choicesOf of) ∧ front <+: spelling.toList := by
  have hmem : (spelling, c) ∈ (spellingsOf (choicesOf of)).filter
      (fun e => beginsWith front e.1.toList) := by
    rw [h]
    exact List.mem_singleton_self _
  obtain ⟨hspelling, hfront⟩ := List.mem_filter.mp hmem
  exact ⟨hspelling, beginsWith_iff.mp hfront⟩

/-- Of the spellings only one fits. -/
theorem eq_of_mem (h : Fits of front spelling c) {e : String × Choice}
    (he : e ∈ spellingsOf (choicesOf of)) (hfront : front <+: e.1.toList) : e = (spelling, c) := by
  have hmem : e ∈ (spellingsOf (choicesOf of)).filter fun e => beginsWith front e.1.toList :=
    List.mem_filter.mpr ⟨he, beginsWith_iff.mpr hfront⟩
  rw [h] at hmem
  exact List.mem_singleton.mp hmem

/-- No text that fits has an equals sign. -/
theorem equals_not_mem (h : Fits of front spelling c) : '=' ∉ front := by
  intro hmem
  obtain ⟨hspelling, hfront⟩ := h.mem
  exact equals_not_mem_spelling of _ hspelling (hfront.mem hmem)

/-- What fits is an option of one letter as a whole, or begins with two dashes. -/
theorem cases (h : Fits of front spelling c) :
    (front = spelling.toList ∧ ∃ letter, letter ≠ '-' ∧ front = ['-', letter]) ∨
      ['-', '-'] <+: front := by
  obtain ⟨hspelling, hfront⟩ := h.mem
  -- Anything shorter begins both spellings of the help.
  have hlong : ¬front <+: ['-'] := by
    intro hshort
    have hone := h.eq_of_mem (help_mem_spellings of).1 (hshort.trans ⟨['h'], rfl⟩)
    have hother := h.eq_of_mem (help_mem_spellings of).2 (hshort.trans ⟨"-help".toList, rfl⟩)
    exact absurd (hone.trans hother.symm) (by decide)
  have hletter : ∀ letter, front <+: ['-', letter] → front = ['-', letter] := by
    intro letter hbegins
    have happend : front <+: ['-'] ++ [letter] := hbegins
    rcases List.prefix_concat_iff.mp happend with heq | hshort
    · exact heq
    · exact absurd hshort hlong
  rcases spelling_cases of _ hspelling with heq | heq | hdashes
  · obtain ⟨rfl, rfl⟩ := Prod.mk.inj heq
    exact .inl ⟨hletter 'h' hfront, 'h', by decide, hletter 'h' hfront⟩
  · obtain ⟨rfl, rfl⟩ := Prod.mk.inj heq
    exact .inl ⟨hletter 'v' hfront, 'v', by decide, hletter 'v' hfront⟩
  · rcases List.prefix_or_prefix_of_prefix hfront hdashes with hshort | hdashed
    · exact .inr (hletter '-' hshort ▸ List.prefix_refl _)
    · exact .inr hdashed

end Fits

/-- The option of a full spelling. -/
theorem spelled?_eq_some_iff {word : List Char} : spelled? (choicesOf of) word = some c ↔
    (String.ofList word, c) ∈ spellingsOf (choicesOf of) :=
  Keyed.get?_eq_some_iff_mem (nodup_spellings of)

/-- What is spelled out fits itself. -/
theorem fits_of_spelled (h : spelled? (choicesOf of) front = some c) :
    Fits of front (String.ofList front) c := by
  have hfits := fits_of_mem (spelled?_eq_some_iff.mp h)
  rwa [String.toList_ofList] at hfits

/-- A word without an equals sign is not cut. -/
theorem atEquals_of_not_mem {word : List Char} (h : '=' ∉ word) : atEquals word = (word, none) := by
  rw [atEquals, Text.cutAt?_eq_none_of_not_mem h]

/-- A word is cut at its first equals sign. -/
theorem atEquals_append (h : '=' ∉ front) (value : List Char) :
    atEquals (front ++ '=' :: value) = (front, some (String.ofList value)) := by
  rw [atEquals, Text.cutAt?_singleton_eq_some_iff.mpr ⟨rfl, h⟩]

/-- A word has no equals sign, or it has a first one. -/
theorem atEquals_cases (word : List Char) : '=' ∉ word ∧ atEquals word = (word, none) ∨
    ∃ front value, word = front ++ '=' :: value ∧ '=' ∉ front ∧
      atEquals word = (front, some (String.ofList value)) := by
  by_cases hmem : '=' ∈ word
  · obtain ⟨front, value, rfl, hfront⟩ := List.eq_append_cons_of_mem hmem
    exact .inr ⟨front, value, rfl, hfront, atEquals_append hfront value⟩
  · exact .inl ⟨hmem, atEquals_of_not_mem hmem⟩

/-- A word names an option. -/
inductive Names (of : Option Command) : String → Named → Prop
  /-- The beginning of a spelling names its option. -/
  | alone {text spelling c} (hfits : Fits of text.toList spelling c) :
      Names of text ⟨c, spelling, none⟩
  /-- So it does with a value behind an equals sign. -/
  | attached {text front value spelling c} (hfits : Fits of front spelling c)
      (htext : text.toList = front ++ '=' :: value) :
      Names of text ⟨c, spelling, some (String.ofList value)⟩
  /-- An option of one letter is named with anything else behind it. -/
  | letter {text letter next rest spelling c} (hfits : Fits of ['-', letter] spelling c)
      (hletter : letter ≠ '-') (hnext : next ≠ '=')
      (htext : text.toList = '-' :: letter :: next :: rest) :
      Names of text ⟨c, spelling, some (String.ofList (next :: rest))⟩

/-- A word that begins with two dashes may be short for the spellings that begin with it. -/
theorem candidates_dashes (of : Option Command) (rest : List Char) :
    candidates (choicesOf of) ('-' :: '-' :: rest) =
      ((spellingsOf (choicesOf of)).filter fun e =>
        beginsWith (atEquals ('-' :: '-' :: rest)).1 e.1.toList).map fun e =>
          ⟨e.2, e.1, (atEquals ('-' :: '-' :: rest)).2⟩ := by
  rw [candidates, ← List.filterMap_eq_map, List.filterMap_filter]
  rfl

/-- Only an option of one letter is spelled with one dash. -/
theorem eq_of_letter_begins {letter : Char} {rest : List Char} (hletter : letter ≠ '-')
    {e : String × Choice} (he : e ∈ spellingsOf (choicesOf of))
    (hbegins : '-' :: letter :: rest <+: e.1.toList) : e.1.toList = ['-', letter] ∧ rest = [] := by
  have hshort : ∀ other, e.1.toList = ['-', other] → e.1.toList = ['-', letter] ∧ rest = [] := by
    intro other hspelling
    have hwhole := hbegins.eq_of_length_le (by rw [hspelling]; simp)
    obtain ⟨rfl, rfl⟩ : letter = other ∧ rest = [] := by simpa using hwhole.trans hspelling
    exact ⟨hspelling, rfl⟩
  rcases spelling_cases of e he with rfl | rfl | hdashes
  · exact hshort 'h' rfl
  · exact hshort 'v' rfl
  · rcases List.prefix_or_prefix_of_prefix hbegins hdashes with h | h
    · exact absurd (List.cons_prefix_cons.mp (List.cons_prefix_cons.mp h).2).1 hletter
    · exact absurd (List.cons_prefix_cons.mp (List.cons_prefix_cons.mp h).2).1.symm hletter

/-- A word with one dash may only be an option of one letter with something behind it. -/
theorem candidates_letter {letter : Char} {rest : List Char} (hletter : letter ≠ '-') :
    candidates (choicesOf of) ('-' :: letter :: rest) =
      ((spellingsOf (choicesOf of)).filter fun e =>
        beginsWith ['-', letter] e.1.toList).map fun e =>
          ⟨e.2, e.1, some (String.ofList rest)⟩ := by
  have hfilter : candidates (choicesOf of) ('-' :: letter :: rest) =
      (spellingsOf (choicesOf of)).filterMap fun e =>
        if beginsWith ['-', letter] e.1.toList then some ⟨e.2, e.1, some (String.ofList rest)⟩
        else none := by
    unfold candidates
    split
    next heq => exact absurd (List.cons.inj (List.cons.inj heq).2).1 hletter
    · refine List.filterMap_congr fun e he => ?_
      have hletters : beginsWith ['-', letter] e.1.toList = true ↔ e.1.toList = ['-', letter] := by
        rw [beginsWith_iff]
        exact ⟨fun h => (eq_of_letter_begins hletter he h).1, fun h => h ▸ List.prefix_refl _⟩
      simp only [List.take_succ_cons, List.take_zero, List.drop_succ_cons, List.drop_zero, hletters]
      by_cases hspelled : e.1.toList = ['-', letter]
      · rw [if_pos hspelled, if_pos hspelled]
      · have hlonger : ¬beginsWith ('-' :: letter :: rest) e.1.toList = true := by
          rw [beginsWith_iff]
          exact fun h => hspelled (eq_of_letter_begins hletter he h).1
        rw [if_neg hspelled, if_neg hspelled, if_neg hlonger]
  rw [hfilter, ← List.filterMap_eq_map, List.filterMap_filter]
  rfl

variable {text : String} {found : Named}

/-- A word is no full spelling, and what stands in front of its equals sign is none. -/
structure Unspelled (of : Option Command) (text : String) : Prop where
  /-- The word is no spelling. -/
  whole : spelled? (choicesOf of) text.toList = none
  /-- Nor is its front. -/
  front : ∀ front value, text.toList = front ++ '=' :: value → '=' ∉ front →
    spelled? (choicesOf of) front = none

/-- A word that names no option is no spelling, up to an equals sign or as a whole. -/
theorem unspelled_of_unnamed (h : ∀ found, ¬Names of text found) : Unspelled of text where
  whole := Option.eq_none_iff_forall_ne_some.mpr fun _ hspelled =>
    h _ (.alone (fits_of_spelled hspelled))
  front := fun _ _ hsplit _ => Option.eq_none_iff_forall_ne_some.mpr fun _ hspelled =>
    h _ (.attached (fits_of_spelled hspelled) hsplit)

/-- A word with an equals sign is no full spelling. -/
theorem spelled?_of_equals {word : List Char} (h : '=' ∈ word) :
    spelled? (choicesOf of) word = none := by
  rw [Option.eq_none_iff_forall_ne_some]
  intro c' hspelled
  refine equals_not_mem_spelling of _ (spelled?_eq_some_iff.mp hspelled) ?_
  rw [String.toList_ofList]
  exact h

/-- What fits a spelling and is shorter is no spelling. -/
theorem Fits.spelled?_of_ne (h : Fits of front spelling c) (hne : front ≠ spelling.toList) :
    spelled? (choicesOf of) front = none := by
  rw [Option.eq_none_iff_forall_ne_some]
  intro c' hspelled
  have hsame := h.eq_of_mem (spelled?_eq_some_iff.mp hspelled) (by rw [String.toList_ofList])
  have hlist := congrArg (fun e => e.1.toList) hsame
  rw [String.toList_ofList] at hlist
  exact hne hlist

/-- A letter with one dash and more behind it is no spelling. -/
theorem spelled?_of_letter {letter : Char} {rest : List Char} (hletter : letter ≠ '-')
    (hrest : rest ≠ []) : spelled? (choicesOf of) ('-' :: letter :: rest) = none := by
  rw [Option.eq_none_iff_forall_ne_some]
  intro c' hspelled
  have hmem := spelled?_eq_some_iff.mp hspelled
  exact hrest (eq_of_letter_begins hletter hmem (by rw [String.toList_ofList])).2

/-- A word that is short for one spelling with two dashes may be short for that alone. -/
theorem candidates_of_fits_dashes {rest : List Char} (htext : text.toList = '-' :: '-' :: rest)
    (hfits : Fits of (atEquals text.toList).1 spelling c) :
    candidates (choicesOf of) text.toList = [⟨c, spelling, (atEquals text.toList).2⟩] := by
  unfold Fits at hfits
  rw [htext] at hfits ⊢
  rw [candidates_dashes, hfits]
  rfl

/-- A word with one dash may be short for the option of its letter alone. -/
theorem candidates_of_fits_letter {letter : Char} {rest : List Char}
    (htext : text.toList = '-' :: letter :: rest) (hletter : letter ≠ '-')
    (hfits : Fits of ['-', letter] spelling c) :
    candidates (choicesOf of) text.toList = [⟨c, spelling, some (String.ofList rest)⟩] := by
  unfold Fits at hfits
  rw [htext, candidates_letter hletter, hfits]
  rfl

/-- How a word with a dash and more behind it is told. -/
theorem classify_of_dash {choices : List Choice} {next : Char} {rest : List Char}
    (htext : text.toList = '-' :: next :: rest) :
    classify choices text =
      match spelled? choices text.toList with
      | some c => .ok (.named text ⟨c, text, none⟩)
      | none =>
        match (atEquals text.toList).2.bind fun _ => spelled? choices (atEquals text.toList).1 with
        | some c =>
          .ok (.named text
            ⟨c, String.ofList (atEquals text.toList).1, (atEquals text.toList).2⟩)
        | none =>
          match candidates choices text.toList with
          | [found] => .ok (.named text found)
          | [] => .ok (if isNumber (next :: rest) || (next :: rest).contains ' ' then .plain text
              else .unknown text)
          | several => .error (.ambiguous text (several.map Named.spelling)) := by
  unfold classify
  split
  next heq =>
    obtain rfl := (List.cons.inj (htext.symm.trans heq)).2
    rw [← htext]
    rfl
  next hother => exact absurd htext (hother _)

/-- A word that is no option by a full spelling is told by the spellings that it may be short for.
-/
theorem Unspelled.classify_eq (h : Unspelled of text) {next : Char} {rest : List Char}
    (htext : text.toList = '-' :: next :: rest) :
    classify (choicesOf of) text =
      match candidates (choicesOf of) text.toList with
      | [found] => .ok (.named text found)
      | [] => .ok (if isNumber (next :: rest) || (next :: rest).contains ' ' then .plain text
          else .unknown text)
      | several => .error (.ambiguous text (several.map Named.spelling)) := by
  have hnone : ((atEquals text.toList).2.bind fun _ =>
      spelled? (choicesOf of) (atEquals text.toList).1) = none := by
    rcases atEquals_cases text.toList with ⟨-, hcut⟩ | ⟨front, value, hsplit, hmem, hcut⟩
    · rw [hcut]
      rfl
    · rw [hcut]
      exact h.front front value hsplit hmem
  rw [classify_of_dash htext, h.whole, hnone]

/-- A full spelling is told to be its option. -/
theorem classify_of_mem (h : (text, c) ∈ spellingsOf (choicesOf of)) :
    classify (choicesOf of) text = .ok (.named text ⟨c, text, none⟩) := by
  have hspelled : spelled? (choicesOf of) text.toList = some c := by
    rw [spelled?_eq_some_iff, String.ofList_toList]
    exact h
  obtain ⟨next, rest, hrest⟩ := dash_next_of_mem h
  rw [classify_of_dash hrest, hspelled]

/-- A word that is a full spelling up to an equals sign is told to be its option. -/
theorem classify_of_mem_front {value : List Char} (h : (spelling, c) ∈ spellingsOf (choicesOf of))
    (htext : text.toList = spelling.toList ++ '=' :: value) :
    classify (choicesOf of) text =
      .ok (.named text ⟨c, spelling, some (String.ofList value)⟩) := by
  have hcut : atEquals text.toList = (spelling.toList, some (String.ofList value)) := by
    rw [htext, atEquals_append (equals_not_mem_spelling of _ h)]
  have hnot : spelled? (choicesOf of) text.toList = none :=
    spelled?_of_equals (by rw [htext]; simp)
  have hfront : spelled? (choicesOf of) spelling.toList = some c := by
    rw [spelled?_eq_some_iff, String.ofList_toList]
    exact h
  obtain ⟨next, rest, hrest⟩ := dash_next_of_mem h
  have hdash : text.toList = '-' :: next :: (rest ++ '=' :: value) := by rw [htext, hrest]; rfl
  rw [classify_of_dash hdash, hnot, hcut]
  dsimp only [Option.bind_some]
  rw [hfront, String.ofList_toList]

/-- A word that names an option is told to do so. -/
theorem Names.classify_eq (h : Names of text found) :
    classify (choicesOf of) text = .ok (.named text found) := by
  cases h with
  | @alone spelling c hfits =>
    have hcut := atEquals_of_not_mem hfits.equals_not_mem
    by_cases hwhole : text.toList = spelling.toList
    · obtain rfl := String.toList_inj.mp hwhole
      exact classify_of_mem hfits.mem.1
    · obtain ⟨rest, hrest⟩ := hfits.cases.resolve_left fun hshort => hwhole hshort.1
      have hunspelled : Unspelled of text := ⟨hfits.spelled?_of_ne hwhole,
        fun front value hsplit _ => absurd (by rw [hsplit]; simp) hfits.equals_not_mem⟩
      have hone := candidates_of_fits_dashes hrest.symm (by rwa [hcut])
      rw [hunspelled.classify_eq hrest.symm, hone, hcut]
  | @attached front value spelling c hfits htext =>
    have hcut : atEquals text.toList = (front, some (String.ofList value)) := by
      rw [htext, atEquals_append hfits.equals_not_mem]
    by_cases hwhole : front = spelling.toList
    · exact classify_of_mem_front hfits.mem.1 (hwhole ▸ htext)
    · obtain ⟨rest, hrest⟩ := hfits.cases.resolve_left fun hshort => hwhole hshort.1
      have hdashes : text.toList = '-' :: '-' :: (rest ++ '=' :: value) := by
        rw [htext, ← hrest]
        rfl
      have hunspelled : Unspelled of text := by
        refine ⟨spelled?_of_equals (by rw [htext]; simp), fun front' value' hsplit hmem => ?_⟩
        -- The front is the one that fits, and it is not spelled out.
        have hcut' := (atEquals_append hmem value').symm.trans (hsplit ▸ hcut)
        obtain rfl : front' = front := congrArg Prod.fst hcut'
        exact hfits.spelled?_of_ne hwhole
      have hone := candidates_of_fits_dashes hdashes (by rwa [hcut])
      rw [hunspelled.classify_eq hdashes, hone, hcut]
  | @letter letter next rest spelling c hfits hletter hnext htext =>
    have hunspelled : Unspelled of text := by
      refine ⟨htext ▸ spelled?_of_letter hletter (List.cons_ne_nil next rest), ?_⟩
      intro front value hsplit _
      rw [Option.eq_none_iff_forall_ne_some]
      intro c' hspelled
      obtain ⟨other, more, hmore⟩ := dash_next_of_mem (spelled?_eq_some_iff.mp hspelled)
      rw [String.toList_ofList] at hmore
      obtain ⟨rfl, hrest⟩ : letter = other ∧ next :: rest = more ++ '=' :: value := by
        simpa [hmore, htext] using hsplit
      -- A front of two letters has the equals sign right behind it, a longer one is no spelling.
      by_cases hshort : more = []
      · rw [hshort, List.nil_append] at hrest
        exact hnext (List.cons.inj hrest).1
      · rw [hmore, spelled?_of_letter hletter hshort] at hspelled
        exact nomatch hspelled
    rw [hunspelled.classify_eq htext, candidates_of_fits_letter htext hletter hfits]

/-- Where a word names an option there is something that it may be short for. -/
theorem Names.candidates_ne_nil (h : Names of text found) :
    candidates (choicesOf of) text.toList ≠ [] := by
  have hletter : ∀ letter rest spelling c, text.toList = '-' :: letter :: rest → letter ≠ '-' →
      Fits of ['-', letter] spelling c → candidates (choicesOf of) text.toList ≠ [] := by
    intro letter rest spelling c htext hnot hfits
    rw [candidates_of_fits_letter htext hnot hfits]
    exact List.cons_ne_nil _ _
  have hdashes : ∀ rest spelling c, text.toList = '-' :: '-' :: rest →
      Fits of (atEquals text.toList).1 spelling c → candidates (choicesOf of) text.toList ≠ [] := by
    intro rest spelling c htext hfits
    rw [candidates_of_fits_dashes htext hfits]
    exact List.cons_ne_nil _ _
  cases h with
  | @alone spelling c hfits =>
    rcases hfits.cases with ⟨-, letter, hnot, hwhole⟩ | ⟨rest, hrest⟩
    · exact hletter letter [] spelling c hwhole hnot (hwhole ▸ hfits)
    · exact hdashes rest spelling c hrest.symm (by rwa [atEquals_of_not_mem hfits.equals_not_mem])
  | @attached front value spelling c hfits htext =>
    rcases hfits.cases with ⟨-, letter, hnot, rfl⟩ | ⟨rest, rfl⟩
    · exact hletter letter _ spelling c htext hnot hfits
    · exact hdashes _ spelling c htext (by rwa [htext, atEquals_append hfits.equals_not_mem])
  | @letter letter next rest spelling c hfits hnot hnext htext =>
    exact hletter letter _ spelling c htext hnot hfits

/-- A word can be a value if it begins with no dash or is one, or if it is short for no option and
either has the form of a number or a blank in it. -/
def IsValue (of : Option Command) (text : String) : Prop :=
  text.toList.head? ≠ some '-' ∨ text = "-" ∨
    (candidates (choicesOf of) text.toList = [] ∧
      (isNumber text.toList.tail = true ∨ ' ' ∈ text.toList))

/-- A word begins with no dash, is one, or has more behind it. -/
theorem dash_cases (text : String) : text.toList.head? ≠ some '-' ∨ text = "-" ∨
    ∃ next rest, text.toList = '-' :: next :: rest := by
  cases htext : text.toList with
  | nil => exact .inl (by simp)
  | cons first more =>
    by_cases hfirst : first = '-'
    · subst hfirst
      cases more with
      | nil => exact .inr (.inl (String.toList_inj.mp htext))
      | cons next rest => exact .inr (.inr ⟨next, rest, rfl⟩)
    · exact .inl (by simpa using hfirst)

/-- A word without a dash in front is told to be a value. -/
theorem classify_of_head (h : text.toList.head? ≠ some '-') :
    classify (choicesOf of) text = .ok (.plain text) := by
  unfold classify
  split
  next rest htext => exact absurd (congrArg List.head? htext) h
  · rfl

/-- A single dash is told to be a value. -/
theorem classify_dash (of : Option Command) :
    classify (choicesOf of) "-" = .ok (.plain "-") := by
  cases of with
  | none => rfl
  | some command => cases command <;> rfl

/-- What can be a value is told to be one. -/
theorem IsValue.classify_eq (h : IsValue of text) :
    classify (choicesOf of) text = .ok (.plain text) := by
  rcases h with hhead | rfl | ⟨hnone, hform⟩
  · exact classify_of_head hhead
  · exact classify_dash of
  · have hunspelled : Unspelled of text :=
      unspelled_of_unnamed fun _ hnames => hnames.candidates_ne_nil hnone
    rcases dash_cases text with hhead | rfl | ⟨next, rest, htext⟩
    · exact classify_of_head hhead
    · exact classify_dash of
    · have hformed : (isNumber (next :: rest) || (next :: rest).contains ' ') = true := by
        simpa [htext] using hform
      rw [hunspelled.classify_eq htext, hnone]
      dsimp only
      rw [if_pos hformed]

end Bindery.CommandLine

import Bindery.Proofs.Signature.Grammar
import Bindery.Proofs.Signature.TopLevel

/-!
# Parentheses and their partners

An opening parenthesis has at most one partner, the closing one with a balanced text in between,
and the search from its place finds it. In an accepted line the parameter list is the text between
the first opening parenthesis behind the separator and the partner of that one. So it is balanced,
and each of its parts is, although the parts are cut with a depth of their own that starts inside.
-/

namespace Bindery.Signature

variable {text front after : List Char} {start close other : Nat}

/-- What stands in a text strictly between two places. -/
def between (text : List Char) (start close : Nat) : List Char := text.extract (start + 1) close

/-- A closing parenthesis is the partner of what stands at an earlier place of the text. -/
structure Closes (text : List Char) (start close : Nat) : Prop where
  /-- It stands further on. -/
  lt : start < close
  /-- It is a closing parenthesis. -/
  paren : text[close]? = some ')'
  /-- In between, as many parentheses are closed as opened. -/
  level : (between text start close).count '(' = (between text start close).count ')'
  /-- In between, none is closed before it is opened. -/
  nested : ∀ p, p <+: between text start close → p.count ')' ≤ p.count '('

/-- A text is cut at a place whose character is known. -/
theorem exists_append_of_getElem? {c : Char} (h : text[start]? = some c) :
    ∃ front after, text = front ++ c :: after ∧ front.length = start := by
  obtain ⟨hlt, rfl⟩ := List.getElem?_eq_some_iff.mp h
  refine ⟨text.take start, text.drop (start + 1), ?_, List.length_take_of_le hlt.le⟩
  rw [List.getElem_cons_drop, List.take_append_drop]

/-- Between a place and a later one stands what makes up their distance. -/
theorem between_append (front inside rest : List Char) (c : Char) :
    between (front ++ c :: (inside ++ rest)) front.length (inside.length + (front.length + 1)) =
      inside := by
  simp [between]

/-- Places behind a character are those of the text behind it. -/
theorem getElem?_append_behind (front after : List Char) (c : Char) (n : Nat) :
    (front ++ c :: after)[n + (front.length + 1)]? = after[n]? := by
  have hoffset : n + (front.length + 1) - front.length = n + 1 := by omega
  rw [List.getElem?_append_right (by omega), hoffset, List.getElem?_cons_succ]

/-- The partner of an opening parenthesis is the place where the text behind it goes on with a
balanced text and a closing parenthesis. -/
theorem closes_append_iff :
    Closes (front ++ '(' :: after) front.length close ↔
      ∃ inside rest, after = inside ++ ')' :: rest ∧
        inside.length + (front.length + 1) = close ∧ Balanced inside := by
  constructor
  · rintro ⟨hlt, hparen, hlevel, hnested⟩
    -- The search behind the opening parenthesis counts its places from there.
    obtain ⟨n, rfl⟩ : ∃ n, close = n + (front.length + 1) := ⟨close - (front.length + 1), by omega⟩
    rw [getElem?_append_behind] at hparen
    obtain ⟨inside, rest, rfl, rfl⟩ := exists_append_of_getElem? hparen
    rw [between_append] at hlevel hnested
    exact ⟨inside, rest, rfl, rfl, balanced_iff_count.mpr ⟨hlevel, hnested⟩⟩
  · rintro ⟨inside, rest, rfl, rfl, hbalanced⟩
    obtain ⟨hlevel, hnested⟩ := balanced_iff_count.mp hbalanced
    refine ⟨by omega, ?_, ?_, ?_⟩
    · rw [getElem?_append_behind]
      simp
    · rwa [between_append]
    · rwa [between_append]

/-- From an opening parenthesis the search goes on behind it at depth one. -/
theorem closing?_append :
    closing? (front ++ '(' :: after) front.length =
      (closeFrom 1 after).map (· + (front.length + 1)) := by
  have hopen : closeFrom 0 ('(' :: after) = (closeFrom 1 after).map (· + 1) := by
    rw [closeFrom, if_neg (by decide)]
    rfl
  rw [closing?, List.drop_left, hopen, Option.map_map]
  congr 1
  funext n
  simp only [Function.comp_apply]
  omega

/-- From an opening parenthesis, the search finds the partner and nothing else. -/
theorem closing?_eq_some_iff (h : text[start]? = some '(') :
    closing? text start = some close ↔ Closes text start close := by
  obtain ⟨front, after, rfl, rfl⟩ := exists_append_of_getElem? h
  rw [closing?_append, closes_append_iff, Option.map_eq_some_iff]
  simp only [closeFrom_one_eq_some_iff]
  constructor
  · rintro ⟨_, ⟨inside, rest, rfl, rfl, hbalanced⟩, rfl⟩
    exact ⟨inside, rest, rfl, rfl, hbalanced⟩
  · rintro ⟨inside, rest, rfl, rfl, hbalanced⟩
    exact ⟨inside.length, ⟨inside, rest, rfl, rfl, hbalanced⟩, rfl⟩

/-- An opening parenthesis has one partner at most. -/
theorem Closes.unique (h : text[start]? = some '(') (hclose : Closes text start close)
    (hother : Closes text start other) : close = other :=
  Option.some.inj
    (((closing?_eq_some_iff h).mpr hclose).symm.trans ((closing?_eq_some_iff h).mpr hother))

/-- The parameter list in a line under a marker: what stands between the first opening parenthesis
behind the first comma with a blank, and the parenthesis that closes it. -/
def HasList (marker line list : List Char) : Prop :=
  ∃ full before after close,
    Text.strip line = marker ++ full ++ [',', ' '] ++ (before ++ '(' :: after) ∧
      ¬[',', ' '] <:+: full ∧ '(' ∉ before ∧
      closing? (before ++ '(' :: after) before.length = some close ∧
      between (before ++ '(' :: after) before.length close = list

/-- A line has one parameter list at most. -/
theorem HasList.unique {marker line list second : List Char} (h : HasList marker line list)
    (hsecond : HasList marker line second) : list = second := by
  obtain ⟨full, before, after, close, hline, hfull, hbefore, hclose, rfl⟩ := h
  obtain ⟨full', before', after', close', hline', hfull', hbefore', hclose', rfl⟩ := hsecond
  have htext : marker ++ (full ++ ',' :: ' ' :: (before ++ '(' :: after)) =
      marker ++ (full' ++ ',' :: ' ' :: (before' ++ '(' :: after')) := by
    simpa using hline.symm.trans hline'
  have hcontent := List.append_cancel_left htext
  have hcut := (Text.cutAt?_pair_eq_some_iff (by decide)).mpr ⟨hcontent, hfull'⟩
  rw [(Text.cutAt?_pair_eq_some_iff (by decide)).mpr ⟨rfl, hfull⟩] at hcut
  have htail : before ++ '(' :: after = before' ++ '(' :: after' :=
    congrArg Prod.snd (Option.some.inj hcut)
  have hopen := Text.cutAt?_singleton_eq_some_iff.mpr ⟨htail, hbefore'⟩
  rw [Text.cutAt?_singleton_eq_some_iff.mpr ⟨rfl, hbefore⟩] at hopen
  obtain ⟨rfl, rfl⟩ := Prod.mk.inj (Option.some.inj hopen)
  obtain rfl : close = close' := Option.some.inj (hclose.symm.trans hclose')
  rfl

/-- A parameter list is balanced. -/
theorem HasList.balanced {marker line list : List Char} (h : HasList marker line list) :
    Balanced list := by
  obtain ⟨full, before, after, close, -, -, -, hclose, rfl⟩ := h
  have hpartner := (closing?_eq_some_iff (by simp)).mp hclose
  exact balanced_iff_count.mpr ⟨hpartner.level, hpartner.nested⟩

/-- The parameters of an annotation are the parameter list in its line. -/
theorem Annotation.IsOf.hasList {marker line : List Char} {a : Annotation}
    (h : a.IsOf marker (Text.strip line)) : HasList marker line a.parameters := by
  have hclose : closeFrom 1 (a.parameters ++ ')' :: a.rest) = some a.parameters.length :=
    closeFrom_one_eq_some_iff.mpr ⟨_, _, rfl, rfl, balanced_iff_count.mpr ⟨h.level, h.nested⟩⟩
  refine ⟨a.full, a.returns, a.parameters ++ ')' :: a.rest,
    a.parameters.length + (a.returns.length + 1), ?_, h.full_cut, h.returns_cut, ?_,
    between_append _ _ _ _⟩
  · rw [h.text_eq]
    simp
  · rw [closing?_append, hclose, Option.map_some]

/-- The search from an opening parenthesis gives the one place where it is closed, and none exactly
if there is no such place. An accepted line has a parameter list between an opening parenthesis and
that place; the record has the parameters of this list, and each part of the list is balanced. -/
theorem closing_finds_partner :
    (∀ (text : List Char) (start : Nat), text[start]? = some '(' →
      (∀ close, closing? text start = some close ↔ Closes text start close) ∧
      (∀ close other, Closes text start close → Closes text start other → close = other) ∧
      (closing? text start = none ↔ ¬∃ close, Closes text start close)) ∧
    ∀ (how : Reading) (source : Option Source) (line : String) (r : Record),
      (read how source line).result = .ok r →
      (∃ list, HasList how.marker.toList line.toList list) ∧
      ∀ list, HasList how.marker.toList line.toList list →
        r.parameters = parameters how.types list ∧
        ∀ part ∈ split list, part.count '(' = part.count ')' ∧
          ∀ p, p <+: part → p.count ')' ≤ p.count '(' := by
  constructor
  · intro text start hopen
    refine ⟨fun close => closing?_eq_some_iff hopen, fun close other => Closes.unique hopen, ?_⟩
    rw [Option.eq_none_iff_forall_ne_some]
    simp only [ne_eq, closing?_eq_some_iff hopen, not_exists]
  · intro how source line r hread
    obtain ⟨parts, hparts, rfl⟩ := result_read_eq_ok_iff_cut.mp hread
    obtain ⟨a, ha, rfl⟩ := cut_eq_ok_iff.mp hparts
    refine ⟨⟨a.parameters, ha.hasList⟩, fun list hlist => ?_⟩
    obtain rfl : a.parameters = list := ha.hasList.unique hlist
    exact ⟨rfl, fun part hpart =>
      balanced_iff_count.mp (balanced_of_mem_split hlist.balanced hpart)⟩

/-- The partner of the first parenthesis is neither the next closing one nor the last, and the list
of a line ends in front of that partner, whatever follows. -/
theorem closing_finds_partner_past_nested :
    Closes "f(a(b),c)(d)".toList 1 8 ∧
    HasList marker.toList
      "OMP_CAPI(Timer_Start, bool(Fn(int,int) run, int wait)) // )".toList
      "Fn(int,int) run, int wait".toList ∧
    ∀ part ∈ split "Fn(int,int) run, int wait".toList, part.count '(' = part.count ')' ∧
      ∀ p, p <+: part → p.count ')' ≤ p.count '(' := by
  have hlist : HasList marker.toList
      "OMP_CAPI(Timer_Start, bool(Fn(int,int) run, int wait)) // )".toList
      "Fn(int,int) run, int wait".toList :=
    ⟨"Timer_Start".toList, "bool".toList, "Fn(int,int) run, int wait)) // )".toList, 30,
      by decide, by decide, by decide, by decide, by decide⟩
  obtain ⟨hpartner, -, -⟩ := closing_finds_partner.1 "f(a(b),c)(d)".toList 1 rfl
  obtain ⟨-, hbalanced⟩ := closing_finds_partner.2 ⟨.header, false, marker⟩ none
    "OMP_CAPI(Timer_Start, bool(Fn(int,int) run, int wait)) // )" _ rfl
  exact ⟨(hpartner 8).mp (by decide), hlist, (hbalanced _ hlist).2⟩

end Bindery.Signature

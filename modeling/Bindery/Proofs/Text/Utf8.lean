import Bindery.Text.Utf8

/-!
# The reader of UTF-8 accepts exactly what is written

The reader is looked at without the places that its faults tell: one byte after kept ones
completes a character, is kept, or is refused. What it has read is always the written form of the
characters read so far, followed by the bytes kept, and so pieces can be put together. Bytes are
read to the end, with nothing kept, exactly when they are the written form of a text.
-/

namespace Bindery.Utf8

/-- One byte after kept ones: the character that it completes, if any, and what is kept then. -/
def step? : (kept : List UInt8) → (b : UInt8) → Option (List Char × List UInt8)
  | [], b =>
    if width? b = none then none
    else if width? b = some 1 then some ([char [b]], [])
    else some ([], [b])
  | lead :: more, b =>
    if continues (lead :: more) b then
      if width? lead = some (lead :: more ++ [b]).length then
        some ([char (lead :: more ++ [b])], [])
      else some ([], lead :: more ++ [b])
    else none

/-- Some bytes after kept ones: the characters that they complete, and what is kept then. -/
def run? : (kept : List UInt8) → (bytes : List UInt8) → Option (List Char × List UInt8)
  | kept, [] => some ([], kept)
  | kept, b :: bs =>
    match step? kept b with
    | none => none
    | some (cs, next) => (run? next bs).map fun (ds, last) => (cs ++ ds, last)

/-- Apart from places, feeding is running. -/
theorem toOption_feed (kept : List UInt8) (position : Nat) (bytes : List UInt8) :
    (feed kept position bytes).toOption = run? kept bytes := by
  induction bytes generalizing kept position with
  | nil => rfl
  | cons b bs ih =>
    have hcons : ∀ c p, (consChar c (feed [] p bs)).toOption =
        (run? [] bs).map fun (ds, last) => ([c] ++ ds, last) := by
      intro c p
      rw [← ih [] p]
      cases feed [] p bs <;> rfl
    have hkeep : ∀ next p, (feed next p bs).toOption =
        (run? next bs).map fun (ds, last) => ([] ++ ds, last) := by
      intro next p
      rw [ih next p]
      cases run? next bs <;> rfl
    cases kept with
    | nil =>
      rw [feed, run?, step?]
      split
      next hw => simp [hw, Except.toOption]
      next hw =>
        simp only [hw, reduceCtorEq, if_false, if_true]
        exact hcons _ _
      next width hone hw =>
        have hne : width ≠ 1 := hone
        simp only [hw, reduceCtorEq, Option.some.injEq, hne, if_false]
        exact hkeep _ _
    | cons lead more =>
      rw [feed, run?, step?]
      dsimp only
      by_cases hb : continues (lead :: more) b = true
      · by_cases hw : width? lead = some (lead :: more ++ [b]).length
        · simp only [if_pos hb, if_pos hw]
          exact hcons _ _
        · simp only [if_pos hb, if_neg hw]
          exact hkeep _ _
      · simp only [if_neg hb]
        rfl

/-- Running over two parts is running over the first and then over the second. -/
theorem run?_append (kept first second : List UInt8) :
    run? kept (first ++ second) =
      (run? kept first).bind fun (cs, next) =>
        (run? next second).map fun (ds, last) => (cs ++ ds, last) := by
  induction first generalizing kept with
  | nil =>
    rw [List.nil_append, run?, Option.bind_some]
    dsimp only
    cases run? kept second <;> rfl
  | cons b bs ih =>
    rw [List.cons_append, run?, run?]
    cases step? kept b with
    | none => rfl
    | some found =>
      obtain ⟨cs, next⟩ := found
      dsimp only
      rw [ih]
      cases run? next bs with
      | none => rfl
      | some rest =>
        obtain ⟨ds, last⟩ := rest
        dsimp only [Option.map_some, Option.bind_some]
        cases run? last second with
        | none => rfl
        | some final => simp

/-- The width of a character by the value of its first byte. -/
theorem width?_eq (b : UInt8) :
    width? b =
      if b.toNat < 0x80 then some 1
      else if b.toNat < 0xc2 then none
      else if b.toNat < 0xe0 then some 2
      else if b.toNat < 0xf0 then some 3
      else if b.toNat < 0xf5 then some 4
      else none := by
  simp only [width?, UInt8.lt_iff_toNat_lt, UInt8.reduceToNat]

/-- What can come second after a first byte, by values. -/
theorem continuesLead_iff {lead b : UInt8} :
    continuesLead lead b = true ↔
      0x80 ≤ b.toNat ∧ b.toNat < 0xc0 ∧ (lead.toNat = 0xe0 → 0xa0 ≤ b.toNat) ∧
        (lead.toNat = 0xf0 → 0x90 ≤ b.toNat) ∧ (lead.toNat = 0xf4 → b.toNat < 0x90) := by
  simp only [continuesLead, ← UInt8.toNat_inj, UInt8.reduceToNat]
  split
  · simp [UInt8.le_iff_toNat_le, UInt8.lt_iff_toNat_lt]
    omega
  · split
    · simp [UInt8.le_iff_toNat_le, UInt8.lt_iff_toNat_lt]
      omega
    · split <;> simp [UInt8.le_iff_toNat_le, UInt8.lt_iff_toNat_lt] <;> omega

/-- What can come after two or three bytes, by values. -/
theorem continues_cons_cons_iff {lead second b : UInt8} {more : List UInt8} :
    continues (lead :: second :: more) b = true ↔
      isHalf (lead :: second :: more) = false ∧ 0x80 ≤ b.toNat ∧ b.toNat < 0xc0 := by
  simp [continues, UInt8.le_iff_toNat_le, UInt8.lt_iff_toNat_lt, and_assoc]

/-- Whether two bytes are those of a surrogate, by values. -/
theorem isHalf_pair_eq_false_iff {lead b : UInt8} :
    isHalf [lead, b] = false ↔ (lead.toNat = 0xed → b.toNat < 0xa0) := by
  simp [isHalf, ← UInt8.toNat_inj, UInt8.le_iff_toNat_le]

/-- A byte that comes after the second one. -/
def IsTail (b : UInt8) : Prop := 0x80 ≤ b.toNat ∧ b.toNat < 0xc0

/-- The bytes that write one character. -/
inductive WritesChar : List UInt8 → Prop
  | one {a : UInt8} (ha : a.toNat < 0x80) : WritesChar [a]
  | two {a b : UInt8} (ha : 0xc2 ≤ a.toNat ∧ a.toNat < 0xe0) (hb : continuesLead a b) :
    WritesChar [a, b]
  | three {a b c : UInt8} (ha : 0xe0 ≤ a.toNat ∧ a.toNat < 0xf0) (hb : continuesLead a b)
    (hhalf : isHalf [a, b] = false) (hc : IsTail c) : WritesChar [a, b, c]
  | four {a b c d : UInt8} (ha : 0xf0 ≤ a.toNat ∧ a.toNat < 0xf5) (hb : continuesLead a b)
    (hc : IsTail c) (hd : IsTail d) : WritesChar [a, b, c, d]

/-- The bytes that may be kept: none, or the first ones of a character that takes more. Those of a
surrogate are among them. -/
inductive Keepable : List UInt8 → Prop
  | none : Keepable []
  | first {a : UInt8} (ha : 0xc2 ≤ a.toNat ∧ a.toNat < 0xf5) : Keepable [a]
  | second {a b : UInt8} (ha : 0xe0 ≤ a.toNat ∧ a.toNat < 0xf5) (hb : continuesLead a b) :
    Keepable [a, b]
  | third {a b c : UInt8} (ha : 0xf0 ≤ a.toNat ∧ a.toNat < 0xf5) (hb : continuesLead a b)
    (hc : IsTail c) : Keepable [a, b, c]

/-- The value of a character made from a number that is one of a character. -/
theorem toNat_val_ofNat {n : Nat} (h : n.isValidChar) : (Char.ofNat n).val.toNat = n := by
  rw [Char.ofNat, dif_pos h]
  rfl

/-- A byte made from a small number is the byte of that value. -/
theorem ofNat_eq_of_toNat_eq {n : Nat} {b : UInt8} (h : b.toNat = n) : UInt8.ofNat n = b := by
  rw [← h, UInt8.ofNat_toNat]

/-- The character that some bytes write is written with these bytes. -/
theorem WritesChar.utf8EncodeChar_char {bytes : List UInt8} (h : WritesChar bytes) :
    String.utf8EncodeChar (char bytes) = bytes := by
  cases h with
  | @one a ha =>
    have hv : (char [a]).val.toNat = a.toNat := toNat_val_ofNat (.inl (by omega))
    unfold String.utf8EncodeChar
    simp only [hv]
    rw [if_pos (by omega), UInt8.ofNat_toNat]
  | @two a b ha hb =>
    have hb' := continuesLead_iff.mp hb
    have hv : (char [a, b]).val.toNat = (a.toNat - 0xc0) * 0x40 + (b.toNat - 0x80) :=
      toNat_val_ofNat (.inl (by omega))
    unfold String.utf8EncodeChar
    simp only [hv]
    rw [if_neg (by omega), if_pos (by omega), ofNat_eq_of_toNat_eq (b := a) (by omega),
      ofNat_eq_of_toNat_eq (b := b) (by omega)]
  | @three a b c ha hb hhalf hc =>
    have hb' := continuesLead_iff.mp hb
    have hhalf' := isHalf_pair_eq_false_iff.mp hhalf
    have hc' : 0x80 ≤ c.toNat ∧ c.toNat < 0xc0 := hc
    have hv : (char [a, b, c]).val.toNat =
        ((a.toNat - 0xe0) * 0x40 + (b.toNat - 0x80)) * 0x40 + (c.toNat - 0x80) :=
      toNat_val_ofNat (by unfold Nat.isValidChar; omega)
    unfold String.utf8EncodeChar
    simp only [hv]
    rw [if_neg (by omega), if_neg (by omega), if_pos (by omega),
      ofNat_eq_of_toNat_eq (b := a) (by omega), ofNat_eq_of_toNat_eq (b := b) (by omega),
      ofNat_eq_of_toNat_eq (b := c) (by omega)]
  | @four a b c d ha hb hc hd =>
    have hb' := continuesLead_iff.mp hb
    have hc' : 0x80 ≤ c.toNat ∧ c.toNat < 0xc0 := hc
    have hd' : 0x80 ≤ d.toNat ∧ d.toNat < 0xc0 := hd
    have hv : (char [a, b, c, d]).val.toNat =
        (((a.toNat - 0xf0) * 0x40 + (b.toNat - 0x80)) * 0x40 + (c.toNat - 0x80)) * 0x40 +
          (d.toNat - 0x80) :=
      toNat_val_ofNat (.inr (by omega))
    unfold String.utf8EncodeChar
    simp only [hv]
    rw [if_neg (by omega), if_neg (by omega), if_neg (by omega),
      ofNat_eq_of_toNat_eq (b := a) (by omega), ofNat_eq_of_toNat_eq (b := b) (by omega),
      ofNat_eq_of_toNat_eq (b := c) (by omega), ofNat_eq_of_toNat_eq (b := d) (by omega)]

/-- Every character is written with the bytes of some character. -/
theorem writesChar_utf8EncodeChar (c : Char) : WritesChar (String.utf8EncodeChar c) := by
  have hvalid := c.valid
  unfold String.utf8EncodeChar
  unfold UInt32.isValidChar Nat.isValidChar at hvalid
  dsimp only
  generalize c.val.toNat = v at hvalid ⊢
  by_cases h₁ : v ≤ 0x7f
  · rw [if_pos h₁]
    refine .one ?_
    rw [UInt8.toNat_ofNat']
    omega
  by_cases h₂ : v ≤ 0x7ff
  · rw [if_neg h₁, if_pos h₂]
    refine .two ?_ (continuesLead_iff.mpr ?_) <;> simp only [UInt8.toNat_ofNat'] <;> omega
  by_cases h₃ : v ≤ 0xffff
  · rw [if_neg h₁, if_neg h₂, if_pos h₃]
    refine .three ?_ (continuesLead_iff.mpr ?_) (isHalf_pair_eq_false_iff.mpr ?_) ?_ <;>
      simp only [IsTail, UInt8.toNat_ofNat'] <;> omega
  · rw [if_neg h₁, if_neg h₂, if_neg h₃]
    refine .four ?_ (continuesLead_iff.mpr ?_) ?_ ?_ <;>
      simp only [IsTail, UInt8.toNat_ofNat'] <;> omega

/-- Characters that are written alike are the same. -/
theorem utf8EncodeChar_inj {c d : Char} :
    String.utf8EncodeChar c = String.utf8EncodeChar d ↔ c = d := by
  refine ⟨fun h => ?_, fun h => by rw [h]⟩
  have htext : String.ofList [c] = String.ofList [d] := by
    rw [← String.toByteArray_inj, String.toByteArray_ofList, String.toByteArray_ofList,
      List.utf8Encode_singleton, List.utf8Encode_singleton, h]
  simpa [String.ofList_inj] using htext

/-- A character is read back from the bytes that write it. -/
theorem char_utf8EncodeChar (c : Char) : char (String.utf8EncodeChar c) = c :=
  utf8EncodeChar_inj.mp (writesChar_utf8EncodeChar c).utf8EncodeChar_char

/-- The bytes of one character are read as this character. -/
theorem WritesChar.run?_eq {bytes : List UInt8} (h : WritesChar bytes) :
    run? [] bytes = some ([char bytes], []) := by
  cases h with
  | @one a ha =>
    have hw : width? a = some 1 := by rw [width?_eq, if_pos ha]
    simp [run?, step?, hw]
  | @two a b ha hb =>
    have hw : width? a = some 2 := by
      rw [width?_eq, if_neg (by omega), if_neg (by omega), if_pos (by omega)]
    simp [run?, step?, continues, hw, hb]
  | @three a b c ha hb hhalf hc =>
    have hw : width? a = some 3 := by
      rw [width?_eq, if_neg (by omega), if_neg (by omega), if_neg (by omega), if_pos (by omega)]
    have hthird : continues [a, b] c = true := continues_cons_cons_iff.mpr ⟨hhalf, hc⟩
    have hsecond : continues [a] b = true := hb
    simp [run?, step?, hw, hsecond, hthird]
  | @four a b c d ha hb hc hd =>
    have hw : width? a = some 4 := by
      rw [width?_eq, if_neg (by omega), if_neg (by omega), if_neg (by omega), if_neg (by omega),
        if_pos (by omega)]
    have hhalf : isHalf [a, b] = false := isHalf_pair_eq_false_iff.mpr (by omega)
    have hsecond : continues [a] b = true := hb
    have hthird : continues [a, b] c = true := continues_cons_cons_iff.mpr ⟨hhalf, hc⟩
    have hfourth : continues [a, b, c] d = true := continues_cons_cons_iff.mpr ⟨rfl, hd⟩
    simp [run?, step?, hw, hsecond, hthird, hfourth]

/-- The written form of some characters is read as these characters, with nothing kept. -/
theorem run?_flatMap (cs : List Char) :
    run? [] (cs.flatMap String.utf8EncodeChar) = some (cs, []) := by
  induction cs with
  | nil => rfl
  | cons c cs ih =>
    rw [List.flatMap_cons, run?_append, (writesChar_utf8EncodeChar c).run?_eq,
      char_utf8EncodeChar, Option.bind_some]
    simp only [ih, Option.map_some, List.singleton_append]

/-- A byte after kept ones either completes them or is kept with them. -/
theorem step?_cons_eq_some {lead b : UInt8} {more : List UInt8} {cs : List Char}
    {next : List UInt8} (h : step? (lead :: more) b = some (cs, next)) :
    continues (lead :: more) b = true ∧
      if width? lead = some (more.length + 2) then
        cs = [char (lead :: more ++ [b])] ∧ next = []
      else cs = [] ∧ next = lead :: more ++ [b] := by
  rw [step?] at h
  have hlength : (lead :: more ++ [b]).length = more.length + 2 := by simp
  rw [hlength] at h
  by_cases hb : continues (lead :: more) b = true
  · refine ⟨hb, ?_⟩
    rw [if_pos hb] at h
    by_cases hw : width? lead = some (more.length + 2)
    · rw [if_pos hw] at h ⊢
      obtain ⟨rfl, rfl⟩ : [char (lead :: more ++ [b])] = cs ∧ [] = next := by simpa using h
      exact ⟨rfl, rfl⟩
    · rw [if_neg hw] at h ⊢
      obtain ⟨rfl, rfl⟩ : [] = cs ∧ lead :: (more ++ [b]) = next := by simpa using h
      exact ⟨rfl, rfl⟩
  · simp [hb] at h

/-- A byte after what may be kept writes a character with it, or may be kept with it. -/
theorem Keepable.step_cases {kept : List UInt8} (h : Keepable kept) {b : UInt8} {cs : List Char}
    {next : List UInt8} (hstep : step? kept b = some (cs, next)) :
    (WritesChar (kept ++ [b]) ∧ cs = [char (kept ++ [b])] ∧ next = []) ∨
      (Keepable (kept ++ [b]) ∧ cs = [] ∧ next = kept ++ [b]) := by
  cases h with
  | none =>
    rw [step?] at hstep
    by_cases hb : b.toNat < 0x80
    · have hw : width? b = some 1 := by rw [width?_eq, if_pos hb]
      obtain ⟨rfl, rfl⟩ : [char [b]] = cs ∧ [] = next := by simpa [hw] using hstep
      exact .inl ⟨.one hb, rfl, rfl⟩
    · have hw : width? b ≠ some 1 := by rw [width?_eq]; grind
      by_cases hnone : width? b = Option.none
      · simp [hnone] at hstep
      · have hrange : 0xc2 ≤ b.toNat ∧ b.toNat < 0xf5 := by rw [width?_eq] at hnone; grind
        rw [if_neg hnone, if_neg hw] at hstep
        obtain ⟨rfl, rfl⟩ : [] = cs ∧ [b] = next := by simpa using hstep
        exact .inr ⟨.first hrange, rfl, rfl⟩
  | @first a ha =>
    obtain ⟨hb, hnext⟩ := step?_cons_eq_some hstep
    rw [width?_eq] at hnext
    by_cases hlast : a.toNat < 0xe0
    · rw [if_pos (by grind)] at hnext
      exact .inl ⟨.two ⟨ha.1, hlast⟩ hb, hnext⟩
    · rw [if_neg (by grind)] at hnext
      exact .inr ⟨.second ⟨by omega, ha.2⟩ hb, hnext⟩
  | @second a a' ha hb =>
    obtain ⟨hc, hnext⟩ := step?_cons_eq_some hstep
    obtain ⟨hhalf, htail⟩ := continues_cons_cons_iff.mp hc
    rw [width?_eq] at hnext
    by_cases hlast : a.toNat < 0xf0
    · rw [if_pos (by grind)] at hnext
      exact .inl ⟨.three ⟨ha.1, hlast⟩ hb hhalf htail, hnext⟩
    · rw [if_neg (by grind)] at hnext
      exact .inr ⟨.third ⟨by omega, ha.2⟩ hb htail, hnext⟩
  | @third a a' a'' ha hb hc =>
    obtain ⟨hd, hnext⟩ := step?_cons_eq_some hstep
    have htail := (continues_cons_cons_iff.mp hd).2
    rw [width?_eq, if_pos (by grind)] at hnext
    exact .inl ⟨.four ha hb hc htail, hnext⟩

/-- After a step what is kept may be kept, and no byte is lost. -/
theorem Keepable.step {kept : List UInt8} (h : Keepable kept) {b : UInt8} {cs : List Char}
    {next : List UInt8} (hstep : step? kept b = some (cs, next)) :
    Keepable next ∧ kept ++ [b] = cs.flatMap String.utf8EncodeChar ++ next := by
  obtain ⟨hwrites, rfl, rfl⟩ | ⟨hkeep, rfl, rfl⟩ := h.step_cases hstep
  · refine ⟨.none, ?_⟩
    rw [List.flatMap_singleton, hwrites.utf8EncodeChar_char, List.append_nil]
  · exact ⟨hkeep, rfl⟩

/-- What is read is the written form of the characters, followed by what is kept. -/
theorem Keepable.run {kept : List UInt8} (h : Keepable kept) {bytes : List UInt8}
    {cs : List Char} {last : List UInt8} (hrun : run? kept bytes = some (cs, last)) :
    Keepable last ∧ kept ++ bytes = cs.flatMap String.utf8EncodeChar ++ last := by
  induction bytes generalizing kept cs with
  | nil =>
    obtain ⟨rfl, rfl⟩ : [] = cs ∧ kept = last := by simpa [run?] using hrun
    exact ⟨h, by simp⟩
  | cons b bs ih =>
    rw [run?] at hrun
    cases hs : step? kept b with
    | none => simp [hs] at hrun
    | some found =>
      obtain ⟨ds, next⟩ := found
      simp only [hs, Option.map_eq_some_iff, Prod.exists, Prod.mk.injEq] at hrun
      obtain ⟨es, last', hrest, rfl, rfl⟩ := hrun
      obtain ⟨hnext, hstep⟩ := h.step hs
      obtain ⟨hlast, hbytes⟩ := ih hnext hrest
      refine ⟨hlast, ?_⟩
      rw [List.flatMap_append, List.append_assoc, ← hbytes, ← List.append_assoc, ← hstep,
        List.append_assoc, List.singleton_append]

/-- Bytes are read to the end exactly if they are the written form of what is read. -/
theorem run?_eq_some_nil_iff {bytes : List UInt8} {cs : List Char} :
    run? [] bytes = some (cs, []) ↔ bytes = cs.flatMap String.utf8EncodeChar := by
  constructor
  · intro h
    have hbytes := (Keepable.none.run h).2
    rwa [List.nil_append, List.append_nil] at hbytes
  · rintro rfl
    exact run?_flatMap cs

/-- A text is read back from its bytes. -/
theorem decode_encode (s : String) : decode (encode s) = .ok s.toList := by
  have hfeed : (feed [] 0 (encode s)).toOption = some (s.toList, []) := by
    rw [toOption_feed]
    exact run?_flatMap s.toList
  rw [decode]
  cases hf : feed [] 0 (encode s) with
  | error f => simp [hf, Except.toOption] at hfeed
  | ok found =>
    obtain rfl : found = (s.toList, []) := by simpa [hf, Except.toOption] using hfeed
    rfl

/-- Bytes write a text exactly if they are valid. -/
theorem exists_eq_encode_iff {bytes : List UInt8} :
    (∃ text, bytes = encode text) ↔ bytes.toByteArray.IsValidUTF8 := by
  constructor
  · rintro ⟨text, rfl⟩
    exact ⟨text.toList, rfl⟩
  · rintro ⟨cs, hcs⟩
    have hbytes := congrArg (·.data.toList) hcs
    refine ⟨String.ofList cs, ?_⟩
    simpa [encode, List.utf8Encode, List.data_toByteArray] using hbytes

end Bindery.Utf8

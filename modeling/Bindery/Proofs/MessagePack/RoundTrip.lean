import Bindery.MessagePack.Reader
import Bindery.MessagePack.Writer
import Bindery.Proofs.Text.Utf8
import Mathlib.Tactic.SplitIfs

/-!
# What is written as MessagePack is read back

Every value that has a MessagePack form, and whose strings, lists and objects fit the widest head,
is read back from it with nothing left over. Each kind of item is read from the first byte of its
head on, in front of any further bytes: a number of fixed width by the value of its bytes, a head by
the sizes that its form covers. The first bytes of lists, of objects and of everything else are
apart, so that the reader never takes one for another. A value is then read back with its items, by
induction on the value; every item takes a byte, and so the fuel suffices.
-/

namespace Bindery.MessagePack

/-- A number of fixed width has as many bytes. -/
@[simp] theorem length_bigEndian (width n : Nat) : (bigEndian width n).length = width := by
  induction width generalizing n with
  | zero => rfl
  | succ width ih => rw [bigEndian, List.length_append, ih, List.length_singleton]

/-- A number that fits its width is the value of its bytes. -/
theorem fromBigEndian_bigEndian {width n : Nat} (h : n < Nat.pow 256 width) :
    fromBigEndian (bigEndian width n) = n := by
  induction width generalizing n with
  | zero =>
    obtain rfl : n = 0 := Nat.lt_one_iff.mp h
    rfl
  | succ width ih =>
    have hfront : n / 256 < Nat.pow 256 width := (Nat.div_lt_iff_lt_mul (by omega)).mpr h
    have hlast : fromBigEndian (bigEndian (width + 1) n) =
        fromBigEndian (bigEndian width (n / 256)) * 256 + (UInt8.ofNat n).toNat := by
      rw [bigEndian, fromBigEndian, List.foldl_append]
      rfl
    rw [hlast, ih hfront, UInt8.toNat_ofNat']
    omega

/-- Bytes are taken from in front of others. -/
theorem takeBytes?_append (bytes rest : List UInt8) :
    takeBytes? bytes.length (bytes ++ rest) = some (bytes, rest) := by
  rw [takeBytes?, if_pos (by simp), List.take_left, List.drop_left]

/-- An unsigned number that fits its width is read back. -/
theorem unsigned?_bigEndian {width n : Nat} (h : n < Nat.pow 256 width) (rest : List UInt8) :
    unsigned? width (bigEndian width n ++ rest) = some (n, rest) := by
  have htake := takeBytes?_append (bigEndian width n) rest
  rw [length_bigEndian] at htake
  rw [unsigned?, htake, Option.map_some]
  dsimp only
  rw [fromBigEndian_bigEndian h]

/-- A negative number that fits its width is read back from its two's complement, which is told
from the greatest number of this width. -/
theorem signed?_bigEndian {width top m : Nat} (hlimit : Nat.pow 256 width = top + 1)
    (h : 2 * m < top) (rest : List UInt8) :
    signed? width (bigEndian width (top - m) ++ rest) = some (.negSucc m, rest) := by
  have hfits : top - m < Nat.pow 256 width := by omega
  have hupper : ¬top - m < (top + 1) / 2 := by omega
  have hvalue : ((top - m : Nat) : Int) - ((top + 1 : Nat) : Int) = .negSucc m := by omega
  rw [signed?, unsigned?_bigEndian hfits, Option.map_some]
  dsimp only
  rw [hlimit, if_neg hupper, hvalue]

/-- A byte that holds a small number above its least value lies in the range of this form, and the
number is read from it. -/
theorem small_above {least limit : UInt8} {n : Nat} (h : least.toNat + n < limit.toNat) :
    (least ≤ least + UInt8.ofNat n ∧ least + UInt8.ofNat n < limit) ∧
      (least + UInt8.ofNat n).toNat - least.toNat = n := by
  have hlimit := limit.toNat_lt
  have hvalue : (least + UInt8.ofNat n).toNat = least.toNat + n := by
    rw [UInt8.toNat_add, UInt8.toNat_ofNat']
    omega
  rw [UInt8.le_iff_toNat_le, UInt8.lt_iff_toNat_lt, hvalue]
  omega

/-- The size of a list that fits the widest head is read back. -/
theorem listSize?_listHead {size : Nat} (h : size < 0x100000000) (rest : List UInt8) :
    listSize? (listHead size ++ rest) = some (size, rest) := by
  unfold listHead
  split_ifs with hfix htwo
  · have hsmall := @small_above 0x90 0xa0 size (by simp; omega)
    simp only [List.singleton_append, listSize?, if_pos hsmall.1]
    exact congrArg some (Prod.ext hsmall.2 rfl)
  · simp [listSize?, unsigned?_bigEndian, htwo]
  · simp [listSize?, unsigned?_bigEndian, h]

/-- The size of an object that fits the widest head is read back. -/
theorem objectSize?_objectHead {size : Nat} (h : size < 0x100000000) (rest : List UInt8) :
    objectSize? (objectHead size ++ rest) = some (size, rest) := by
  unfold objectHead
  split_ifs with hfix htwo
  · have hsmall := @small_above 0x80 0x90 size (by simp; omega)
    simp only [List.singleton_append, objectSize?, if_pos hsmall.1]
    exact congrArg some (Prod.ext hsmall.2 rfl)
  · simp [objectSize?, unsigned?_bigEndian, htwo]
  · simp [objectSize?, unsigned?_bigEndian, h]

/-- A string is read from its bytes. -/
theorem stringOf?_encode (s : String) (rest : List UInt8) :
    stringOf? (Utf8.encode s).length (Utf8.encode s ++ rest) = some (s, rest) := by
  rw [stringOf?, takeBytes?_append]
  simp [Utf8.decode_encode]

/-- A string that fits the widest head is read back. -/
theorem string?_encodeString {s : String} (h : (Utf8.encode s).length < 0x100000000)
    (rest : List UInt8) : string? (encodeString s ++ rest) = some (s, rest) := by
  have hbytes := stringOf?_encode s rest
  unfold encodeString stringHead
  dsimp only
  generalize Utf8.encode s = bytes at h hbytes ⊢
  split_ifs with hfix hone htwo
  · have hsmall := @small_above 0xa0 0xc0 bytes.length (by simp; omega)
    have hsize : (0xa0 + UInt8.ofNat bytes.length).toNat - 0xa0 = bytes.length := hsmall.2
    rw [List.singleton_append, List.cons_append, string?, if_pos hsmall.1, hsize, hbytes]
  · simp [string?, unsigned?_bigEndian, hone, hbytes]
  · simp [string?, unsigned?_bigEndian, htwo, hbytes]
  · simp [string?, unsigned?_bigEndian, h, hbytes]

/-- A natural number that has a form is read back. -/
theorem integer?_encodeNat {n : Nat} {bytes : List UInt8} (h : encodeNat n = .ok bytes)
    (rest : List UInt8) : integer? (bytes ++ rest) = some (.ofNat n, rest) := by
  unfold encodeNat at h
  split_ifs at h with hfix hone htwo hfour height <;> obtain rfl := Except.ok.inj h
  · have hvalue : (UInt8.ofNat n).toNat = n := by
      rw [UInt8.toNat_ofNat']
      omega
    have hrange : UInt8.ofNat n < 0x80 := UInt8.lt_iff_toNat_lt.mpr (by rwa [hvalue])
    rw [bigEndian, bigEndian, List.nil_append, List.singleton_append, integer?, if_pos hrange,
      hvalue]
    rfl
  · simp [integer?, unsigned?_bigEndian, hone]
  · simp [integer?, unsigned?_bigEndian, htwo]
  · simp [integer?, unsigned?_bigEndian, hfour]
  · simp [integer?, unsigned?_bigEndian, height]

/-- A negative number that has a form is read back. -/
theorem integer?_encodeNegative {m : Nat} {bytes : List UInt8} (h : encodeNegative m = .ok bytes)
    (rest : List UInt8) : integer? (bytes ++ rest) = some (.negSucc m, rest) := by
  unfold encodeNegative at h
  split_ifs at h with hfix hone htwo hfour height <;> obtain rfl := Except.ok.inj h
  · have hvalue : (UInt8.ofNat (0xff - m)).toNat = 0xff - m := by
      rw [UInt8.toNat_ofNat']
      omega
    have hrange : ¬UInt8.ofNat (0xff - m) < 0x80 ∧ 0xe0 ≤ UInt8.ofNat (0xff - m) := by
      rw [UInt8.le_iff_toNat_le, UInt8.lt_iff_toNat_lt, hvalue]
      simp
      omega
    have hback : ((0xff - m : Nat) : Int) - 256 = .negSucc m := by omega
    rw [bigEndian, bigEndian, List.nil_append, List.singleton_append, integer?,
      if_neg hrange.1, if_pos hrange.2, hvalue, hback]
  · simp [integer?, @signed?_bigEndian 1 0xff m (by decide) (by omega)]
  · simp [integer?, @signed?_bigEndian 2 0xffff m (by decide) (by omega)]
  · simp [integer?, @signed?_bigEndian 4 0xffffffff m (by decide) (by omega)]
  · simp [integer?, @signed?_bigEndian 8 0xffffffffffffffff m (by decide) (by omega)]

/-- An integer that has a form is read back. -/
theorem integer?_encode {n : Int} {bytes : List UInt8} (h : encode (.int n) = .ok bytes)
    (rest : List UInt8) : integer? (bytes ++ rest) = some (n, rest) := by
  cases n with
  | ofNat n => exact integer?_encodeNat (by simpa [encode] using h) rest
  | negSucc m => exact integer?_encodeNegative (by simpa [encode] using h) rest

variable {head : UInt8} {bytes more rest : List UInt8}

/-- The bytes that begin a list. -/
theorem head_of_listSize? (h : listSize? (head :: more) ≠ none) :
    0x90 ≤ head ∧ head < 0xa0 ∨ 0xdc ≤ head ∧ head < 0xde := by
  grind [listSize?]

/-- The bytes that begin an object. -/
theorem head_of_objectSize? (h : objectSize? (head :: more) ≠ none) :
    0x80 ≤ head ∧ head < 0x90 ∨ 0xde ≤ head ∧ head < 0xe0 := by
  grind [objectSize?]

/-- The bytes that begin a string. -/
theorem head_of_string? (h : string? (head :: more) ≠ none) :
    0xa0 ≤ head ∧ head < 0xc0 ∨ 0xd9 ≤ head ∧ head < 0xdc := by
  grind [string?]

/-- The bytes that begin an integer. -/
theorem head_of_integer? (h : integer? (head :: more) ≠ none) :
    head < 0x80 ∨ 0xcc ≤ head ∧ head < 0xd4 ∨ 0xe0 ≤ head := by
  grind [integer?]

/-- What does not begin as nothing or as a truth value is tried as a string and then as an
integer. -/
theorem leaf?_of_ne (hnull : head ≠ 0xc0) (hfalse : head ≠ 0xc2) (htrue : head ≠ 0xc3) :
    leaf? (head :: more) =
      match string? (head :: more) with
      | some (s, rest) => some (.text s, rest)
      | none => (integer? (head :: more)).map fun (n, rest) => (.int n, rest) := by
  unfold leaf?
  split
  next heq => exact absurd (List.cons.inj heq).1 hnull
  next heq => exact absurd (List.cons.inj heq).1 hfalse
  next heq => exact absurd (List.cons.inj heq).1 htrue
  next => rfl

/-- What begins as a string or an integer is read as one of them. -/
theorem value?_of_head
    (h : head < 0x80 ∨ 0xa0 ≤ head ∧ head < 0xc0 ∨ 0xcc ≤ head ∧ head < 0xdc ∨ 0xe0 ≤ head)
    (fuel : Nat) :
    value? (fuel + 1) (head :: more) =
      match string? (head :: more) with
      | some (s, rest) => some (.text s, rest)
      | none => (integer? (head :: more)).map fun (n, rest) => (.int n, rest) := by
  have hlist : listSize? (head :: more) = none := by
    have hbegins := @head_of_listSize? head more
    grind
  have hobject : objectSize? (head :: more) = none := by
    have hbegins := @head_of_objectSize? head more
    grind
  rw [value?, hlist]
  dsimp only
  rw [hobject]
  exact leaf?_of_ne (by grind) (by grind) (by grind)

/-- What begins as a string is read as a text. -/
theorem value?_of_string? {s : String} (h : string? bytes = some (s, rest)) (fuel : Nat) :
    value? (fuel + 1) bytes = some (.text s, rest) := by
  cases bytes with
  | nil => exact nomatch h
  | cons head more =>
    have hsome : string? (head :: more) ≠ none := by simp [h]
    have hbegins := head_of_string? hsome
    rw [value?_of_head (by grind), h]

/-- What begins as an integer is read as one. -/
theorem value?_of_integer? {n : Int} (h : integer? bytes = some (n, rest)) (fuel : Nat) :
    value? (fuel + 1) bytes = some (.int n, rest) := by
  cases bytes with
  | nil => exact nomatch h
  | cons head more =>
    have hsome : integer? (head :: more) ≠ none := by simp [h]
    have hbegins := head_of_integer? hsome
    have hstring : string? (head :: more) = none := by
      have hbegins' := @head_of_string? head more
      grind
    rw [value?_of_head (by grind), hstring, h]
    rfl

/-- What begins as a list is read with as many items. -/
theorem value?_of_listSize? {size : Nat} (h : listSize? bytes = some (size, rest)) (fuel : Nat) :
    value? (fuel + 1) bytes =
      (items? fuel size rest).map fun (vs, rest) => (.list vs, rest) := by
  rw [value?, h]

/-- What begins as an object is read with as many members. -/
theorem value?_of_objectSize? {size : Nat} (h : objectSize? bytes = some (size, rest))
    (fuel : Nat) :
    value? (fuel + 1) bytes =
      (members? fuel size rest).map fun (ms, rest) => (.object ms, rest) := by
  cases bytes with
  | nil => exact nomatch h
  | cons head more =>
    have hsome : objectSize? (head :: more) ≠ none := by simp [h]
    have hbegins := head_of_objectSize? hsome
    have hlist : listSize? (head :: more) = none := by
      have hbegins' := @head_of_listSize? head more
      grind
    rw [value?, hlist]
    dsimp only
    rw [h]

/-- Items are written if each one is, one after another. -/
theorem encodeItems_cons_eq_ok_iff {v : Json} {vs : List Json} :
    encodeItems (v :: vs) = .ok bytes ↔
      ∃ first later, encode v = .ok first ∧ encodeItems vs = .ok later ∧
        bytes = first ++ later := by
  rw [encodeItems]
  cases encode v <;> cases encodeItems vs <;> simp [bind, Except.bind, pure, Except.pure, eq_comm]

/-- Members are written if the value of each is, each key before its value. -/
theorem encodeMembers_cons_eq_ok_iff {key : String} {v : Json} {ms : List (String × Json)} :
    encodeMembers ((key, v) :: ms) = .ok bytes ↔
      ∃ first later, encode v = .ok first ∧ encodeMembers ms = .ok later ∧
        bytes = encodeString key ++ first ++ later := by
  rw [encodeMembers]
  cases encode v <;> cases encodeMembers ms <;>
    simp [bind, Except.bind, pure, Except.pure, eq_comm]

/-- A list is written as its head and its items. -/
theorem encode_list_eq_ok_iff {vs : List Json} :
    encode (.list vs) = .ok bytes ↔
      ∃ body, encodeItems vs = .ok body ∧ bytes = listHead vs.length ++ body := by
  rw [encode]
  cases encodeItems vs <;> simp [Except.map, eq_comm]

/-- An object is written as its head and its members. -/
theorem encode_object_eq_ok_iff {ms : List (String × Json)} :
    encode (.object ms) = .ok bytes ↔
      ∃ body, encodeMembers ms = .ok body ∧ bytes = objectHead ms.length ++ body := by
  rw [encode]
  cases encodeMembers ms <;> simp [Except.map, eq_comm]

/-- Each head of a list is at least a byte. -/
theorem length_listHead_pos (size : Nat) : 0 < (listHead size).length := by
  unfold listHead
  split_ifs <;> simp

/-- Each head of an object is at least a byte. -/
theorem length_objectHead_pos (size : Nat) : 0 < (objectHead size).length := by
  unfold objectHead
  split_ifs <;> simp

/-- Each head of a string is at least a byte. -/
theorem length_stringHead_pos (size : Nat) : 0 < (stringHead size).length := by
  unfold stringHead
  split_ifs <;> simp

/-- Every value takes a byte. -/
theorem length_pos_of_encode {v : Json} (h : encode v = .ok bytes) : 0 < bytes.length := by
  cases v with
  | null =>
    obtain rfl : [0xc0] = bytes := by simpa [encode] using h
    exact Nat.zero_lt_one
  | bool b =>
    cases b <;> rw [encode, Except.ok.injEq] at h <;> simp [← h]
  | int n =>
    have hback := integer?_encode h []
    refine List.length_pos_iff.mpr fun hnil => ?_
    rw [hnil] at hback
    exact nomatch hback
  | real spelling => simp [encode] at h
  | text s =>
    rw [encode, encodeString, Except.ok.injEq] at h
    have hhead := length_stringHead_pos (Utf8.encode s).length
    rw [← h, List.length_append]
    omega
  | list vs =>
    obtain ⟨body, -, rfl⟩ := encode_list_eq_ok_iff.mp h
    have hhead := length_listHead_pos vs.length
    rw [List.length_append]
    omega
  | object ms =>
    obtain ⟨body, -, rfl⟩ := encode_object_eq_ok_iff.mp h
    have hhead := length_objectHead_pos ms.length
    rw [List.length_append]
    omega

/-- A value is read back from its bytes, in front of any others. Each byte is worth two calls. -/
def ReadsBack (v : Json) : Prop :=
  ∀ bytes, encode v = .ok bytes → ∀ fuel rest, 2 * bytes.length ≤ fuel + 1 →
    value? fuel (bytes ++ rest) = some (v, rest)

/-- As a value takes a byte, there is at least one call for it. -/
theorem ReadsBack.of_succ {v : Json}
    (h : ∀ bytes, encode v = .ok bytes → ∀ fuel rest, 2 * bytes.length ≤ fuel + 2 →
      value? (fuel + 1) (bytes ++ rest) = some (v, rest)) : ReadsBack v := by
  intro bytes hbytes fuel rest hfuel
  have hpos := length_pos_of_encode hbytes
  obtain ⟨less, rfl⟩ : ∃ less, fuel = less + 1 := ⟨fuel - 1, by omega⟩
  exact h bytes hbytes less rest hfuel

/-- Items that are read back one by one are read back together. -/
theorem items?_encodeItems {vs : List Json} (h : ∀ v ∈ vs, ReadsBack v)
    (hbytes : encodeItems vs = .ok bytes) {fuel : Nat} (hfuel : 2 * bytes.length ≤ fuel)
    (rest : List UInt8) : items? fuel vs.length (bytes ++ rest) = some (vs, rest) := by
  induction vs generalizing bytes fuel with
  | nil =>
    obtain rfl : [] = bytes := by simpa [encodeItems] using hbytes
    cases fuel <;> rfl
  | cons v vs ih =>
    obtain ⟨first, later, hfirst, hlater, rfl⟩ := encodeItems_cons_eq_ok_iff.mp hbytes
    have hpos := length_pos_of_encode hfirst
    rw [List.length_append] at hfuel
    obtain ⟨fuel, rfl⟩ : ∃ less, fuel = less + 1 := ⟨fuel - 1, by omega⟩
    have hv := h v List.mem_cons_self first hfirst fuel (later ++ rest) (by omega)
    have hvs : items? fuel vs.length (later ++ rest) = some (vs, rest) :=
      ih (fun w hw => h w (List.mem_cons_of_mem v hw)) hlater (by omega)
    simp [items?, hv, hvs]

/-- Members whose values are read back one by one are read back together. -/
theorem members?_encodeMembers {ms : List (String × Json)} (h : ∀ m ∈ ms, ReadsBack m.2)
    (hkeys : ∀ m ∈ ms, (Utf8.encode m.1).length < 0x100000000)
    (hbytes : encodeMembers ms = .ok bytes) {fuel : Nat} (hfuel : 2 * bytes.length ≤ fuel)
    (rest : List UInt8) : members? fuel ms.length (bytes ++ rest) = some (ms, rest) := by
  induction ms generalizing bytes fuel with
  | nil =>
    obtain rfl : [] = bytes := by simpa [encodeMembers] using hbytes
    cases fuel <;> rfl
  | cons m ms ih =>
    obtain ⟨key, v⟩ := m
    obtain ⟨first, later, hfirst, hlater, rfl⟩ := encodeMembers_cons_eq_ok_iff.mp hbytes
    have hpos := length_pos_of_encode hfirst
    rw [List.length_append, List.length_append] at hfuel
    obtain ⟨fuel, rfl⟩ : ∃ less, fuel = less + 1 := ⟨fuel - 1, by omega⟩
    have hkey := string?_encodeString (hkeys _ List.mem_cons_self) (first ++ (later ++ rest))
    have hv := h _ List.mem_cons_self first hfirst fuel (later ++ rest) (by omega)
    have hms : members? fuel ms.length (later ++ rest) = some (ms, rest) :=
      ih (fun m hm => h m (List.mem_cons_of_mem _ hm))
        (fun m hm => hkeys m (List.mem_cons_of_mem _ hm)) hlater (by omega)
    simp [members?, hkey, hv, hms]

/-- A value that has a MessagePack form: its integers fit 64 bits, its strings, lists and objects
fit the widest heads, with fewer than 2^32 bytes, items or members, and it has no other numbers. -/
inductive Sized : Json → Prop
  | null : Sized .null
  | bool (b : Bool) : Sized (.bool b)
  | int {n : Int} (h : -0x8000000000000000 ≤ n ∧ n < 0x10000000000000000) : Sized (.int n)
  | text {s : String} (h : (Utf8.encode s).length < 0x100000000) : Sized (.text s)
  | list {vs : List Json} (hsize : vs.length < 0x100000000) (h : ∀ v ∈ vs, Sized v) :
    Sized (.list vs)
  | object {ms : List (String × Json)} (hsize : ms.length < 0x100000000)
    (hkeys : ∀ m ∈ ms, (Utf8.encode m.1).length < 0x100000000) (h : ∀ m ∈ ms, Sized m.2) :
    Sized (.object ms)

/-- An integer that fits 64 bits is written. -/
theorem exists_encode_int {n : Int} (h : -0x8000000000000000 ≤ n ∧ n < 0x10000000000000000) :
    ∃ bytes, encode (.int n) = .ok bytes := by
  cases n with
  | ofNat n =>
    have hfits : n < 0x10000000000000000 := Int.ofNat_lt.mp h.2
    rw [encode, encodeNat]
    split_ifs <;> exact ⟨_, rfl⟩
  | negSucc m =>
    have hfits : m < 0x8000000000000000 := by omega
    rw [encode, encodeNegative]
    split_ifs <;> exact ⟨_, rfl⟩

/-- Items are written if each one is. -/
theorem exists_encodeItems {vs : List Json} (h : ∀ v ∈ vs, ∃ bytes, encode v = .ok bytes) :
    ∃ body, encodeItems vs = .ok body := by
  induction vs with
  | nil => exact ⟨[], by rw [encodeItems]⟩
  | cons v vs ih =>
    obtain ⟨first, hfirst⟩ := h v List.mem_cons_self
    obtain ⟨later, hlater⟩ := ih fun w hw => h w (List.mem_cons_of_mem v hw)
    exact ⟨_, encodeItems_cons_eq_ok_iff.mpr ⟨first, later, hfirst, hlater, rfl⟩⟩

/-- Members are written if the value of each one is. -/
theorem exists_encodeMembers {ms : List (String × Json)}
    (h : ∀ m ∈ ms, ∃ bytes, encode m.2 = .ok bytes) : ∃ body, encodeMembers ms = .ok body := by
  induction ms with
  | nil => exact ⟨[], by rw [encodeMembers]⟩
  | cons m ms ih =>
    obtain ⟨first, hfirst⟩ := h m List.mem_cons_self
    obtain ⟨later, hlater⟩ := ih fun n hn => h n (List.mem_cons_of_mem m hn)
    exact ⟨_, encodeMembers_cons_eq_ok_iff.mpr ⟨first, later, hfirst, hlater, rfl⟩⟩

/-- A list is written if its items are. -/
theorem exists_encode_list {vs : List Json} (h : ∀ v ∈ vs, ∃ bytes, encode v = .ok bytes) :
    ∃ bytes, encode (.list vs) = .ok bytes := by
  obtain ⟨body, hbody⟩ := exists_encodeItems h
  exact ⟨_, encode_list_eq_ok_iff.mpr ⟨body, hbody, rfl⟩⟩

/-- An object is written if the values of its members are. -/
theorem exists_encode_object {ms : List (String × Json)}
    (h : ∀ m ∈ ms, ∃ bytes, encode m.2 = .ok bytes) :
    ∃ bytes, encode (.object ms) = .ok bytes := by
  obtain ⟨body, hbody⟩ := exists_encodeMembers h
  exact ⟨_, encode_object_eq_ok_iff.mpr ⟨body, hbody, rfl⟩⟩

/-- Every value of the right size is written. -/
theorem Sized.exists_encode {v : Json} (h : Sized v) : ∃ bytes, encode v = .ok bytes := by
  induction h with
  | null => exact ⟨_, by rw [encode]⟩
  | bool b => cases b <;> exact ⟨_, by rw [encode]⟩
  | int h => exact exists_encode_int h
  | text h => exact ⟨_, by rw [encode]⟩
  | list _ _ ih => exact exists_encode_list ih
  | object _ _ _ ih => exact exists_encode_object ih

/-- Every value of the right size is read back. -/
theorem Sized.readsBack {v : Json} (h : Sized v) : ReadsBack v := by
  induction h with
  | null =>
    refine .of_succ fun bytes hbytes fuel rest _ => ?_
    obtain rfl : [0xc0] = bytes := by simpa [encode] using hbytes
    rfl
  | bool b =>
    refine .of_succ fun bytes hbytes fuel rest _ => ?_
    cases b <;> rw [encode, Except.ok.injEq] at hbytes <;> rw [← hbytes] <;> rfl
  | int _ =>
    exact .of_succ fun bytes hbytes fuel rest _ =>
      value?_of_integer? (integer?_encode hbytes rest) fuel
  | @text s hs =>
    refine .of_succ fun bytes hbytes fuel rest _ => ?_
    obtain rfl : encodeString s = bytes := by simpa [encode] using hbytes
    exact value?_of_string? (string?_encodeString hs rest) fuel
  | @list vs hsize _ ih =>
    refine .of_succ fun bytes hbytes fuel rest hfuel => ?_
    obtain ⟨body, hbody, rfl⟩ := encode_list_eq_ok_iff.mp hbytes
    have hhead := length_listHead_pos vs.length
    rw [List.length_append] at hfuel
    have hitems := items?_encodeItems ih hbody (show 2 * body.length ≤ fuel by omega) rest
    rw [List.append_assoc, value?_of_listSize? (listSize?_listHead hsize _), hitems]
    rfl
  | @object ms hsize hkeys _ ih =>
    refine .of_succ fun bytes hbytes fuel rest hfuel => ?_
    obtain ⟨body, hbody, rfl⟩ := encode_object_eq_ok_iff.mp hbytes
    have hhead := length_objectHead_pos ms.length
    rw [List.length_append] at hfuel
    have hmembers := members?_encodeMembers ih hkeys hbody
      (show 2 * body.length ≤ fuel by omega) rest
    rw [List.append_assoc, value?_of_objectSize? (objectSize?_objectHead hsize _), hmembers]
    rfl

/-- A value of the right size is written, and its bytes hold it and nothing else. -/
theorem Sized.decode?_encode {v : Json} (h : Sized v) :
    ∃ bytes, encode v = .ok bytes ∧ decode? bytes = some v := by
  obtain ⟨bytes, hbytes⟩ := h.exists_encode
  have hback := h.readsBack bytes hbytes (2 * bytes.length + 2) [] (by omega)
  rw [List.append_nil] at hback
  refine ⟨bytes, hbytes, ?_⟩
  rw [decode?, hback]

end Bindery.MessagePack

import Bindery.Proofs.Scan.Records

/-!
# Strict scans

A scan that refuses duplicates is the lenient scan up to its first warning of a duplicate: both go
the same way as long as no group and name come twice, and there the one warns and the other stops.
A group and a name are as good as the symbol, since the group ends at the symbol's first underscore.
So a warning comes exactly if two lines have one symbol, and no two records of a surface share
theirs.
-/

namespace Bindery

/-- An entry is the warning of a duplicate. Surfaces warn of nothing else, and nothing else that a
scan does warns. -/
def Entry.IsClash (e : Entry) : Prop := e.level = .warning ∧ e.channel = .surface

/-- A clash gives such an entry. -/
theorem Clash.isClash_warning (clash : Clash) : clash.warning.IsClash := ⟨rfl, rfl⟩

/-- The report of a dropped parameter is no such entry. -/
theorem Signature.not_isClash_droppedParts (types : TypeMap) (text : List Char) :
    ∀ e ∈ droppedParts types text, ¬e.IsClash := by
  intro e he
  obtain ⟨part, -, rfl⟩ := List.mem_map.mp he
  rintro ⟨hlevel, -⟩
  simp [droppedPart] at hlevel

namespace Scan

variable {settings : ScanSettings} {α β γ : Type}

/-- The records of some lines before the first that is no annotation. -/
def recordsBeforeFault (settings : ScanSettings) : List MarkedLine → List Record
  | [] => []
  | l :: lines =>
    match (reading settings l).result with
    | .error _ => []
    | .ok r => r :: recordsBeforeFault settings lines

/-- The annotation lines that a scan comes to, none if there is no directory to scan. -/
def linesOfScan (t : FileTree) (root : Path) (settings : ScanSettings) : List MarkedLine :=
  match annotationLines t root settings.suffix settings.reading.marker with
  | .error _ => []
  | .ok listing => listing.lines

/-- Of two runs the second one is the first, if that warns of no duplicate; and otherwise it stops
just before the first warning, with the clash that is warned of. -/
inductive StopsAtClash (lenient strict : Logged ScanFailure α) : Prop
  | never (hquiet : ∀ e ∈ lenient.log, ¬e.IsClash) (heq : strict = lenient)
  | first (before after : List Entry) (clash : Clash)
    (hlog : lenient.log = before ++ clash.warning :: after) (hquiet : ∀ e ∈ before, ¬e.IsClash)
    (heq : strict = ⟨before, .error (.duplicate clash)⟩)

/-- A log has one first warning of a duplicate. -/
theorem first_clash_unique {before before' after after' : List Entry} {warning warning' : Entry}
    (h : before ++ warning :: after = before' ++ warning' :: after')
    (hquiet : ∀ e ∈ before, ¬e.IsClash) (hwarning : warning.IsClash)
    (hquiet' : ∀ e ∈ before', ¬e.IsClash) (hwarning' : warning'.IsClash) :
    before = before' ∧ warning = warning' := by
  induction before generalizing before' with
  | nil =>
    cases before' with
    | nil => exact ⟨rfl, (List.cons.inj h).1⟩
    | cons e rest =>
      obtain rfl : warning = e := (List.cons.inj h).1
      exact absurd hwarning (hquiet' warning List.mem_cons_self)
  | cons e rest ih =>
    cases before' with
    | nil =>
      obtain rfl : e = warning' := (List.cons.inj h).1
      exact absurd hwarning' (hquiet e List.mem_cons_self)
    | cons e' rest' =>
      obtain ⟨rfl, hrest⟩ := List.cons.inj h
      obtain ⟨rfl, rfl⟩ := ih hrest (fun d hd => hquiet d (List.mem_cons_of_mem e hd))
        fun d hd => hquiet' d (List.mem_cons_of_mem e hd)
      exact ⟨rfl, rfl⟩

/-- A run that warns of no duplicate goes with itself. -/
theorem StopsAtClash.refl {x : Logged ScanFailure α} (h : ∀ e ∈ x.log, ¬e.IsClash) :
    StopsAtClash x x := .never h rfl

/-- What follows an activity only adds to its log. -/
theorem exists_log_bind (x : Logged ScanFailure α) (f : α → Logged ScanFailure β) :
    ∃ more, (x >>= f).log = x.log ++ more := by
  cases hx : x.result with
  | error e => exact ⟨[], by rw [Logged.bind_of_error hx, List.append_nil]⟩
  | ok a => exact ⟨(f a).log, by rw [Logged.bind_of_ok hx]⟩

/-- Runs in sequence stop at the first clash of all. -/
theorem StopsAtClash.bind {x y : Logged ScanFailure α} {f g : α → Logged ScanFailure β}
    (h : StopsAtClash x y) (hfg : ∀ a, StopsAtClash (f a) (g a)) :
    StopsAtClash (x >>= f) (y >>= g) := by
  cases h with
  | never hquiet heq =>
    subst heq
    cases hx : y.result with
    | error e =>
      rw [Logged.bind_of_error hx, Logged.bind_of_error hx]
      exact .refl hquiet
    | ok a =>
      rw [Logged.bind_of_ok hx, Logged.bind_of_ok hx]
      cases hfg a with
      | never hquiet' heq' =>
        rw [heq']
        refine .refl fun e he => ?_
        rcases List.mem_append.mp he with hfirst | hsecond
        · exact hquiet e hfirst
        · exact hquiet' e hsecond
      | first before after clash hlog hquiet' heq' =>
        refine .first (y.log ++ before) after clash ?_ (fun e he => ?_) ?_
        · simp only [hlog, List.append_assoc]
        · rcases List.mem_append.mp he with hfirst | hsecond
          · exact hquiet e hfirst
          · exact hquiet' e hsecond
        · rw [heq']
  | first before after clash hlog hquiet heq =>
    obtain ⟨more, hmore⟩ := exists_log_bind x f
    refine .first before (after ++ more) clash ?_ hquiet ?_
    · rw [hmore, hlog, List.append_assoc, List.cons_append]
    · rw [heq]
      rfl

/-- Walks along one list stop at the first clash of all if each step does. -/
theorem StopsAtClash.foldlM {step step' : α → γ → Logged ScanFailure α}
    (hstep : ∀ a c, StopsAtClash (step a c) (step' a c)) (cs : List γ) (a : α) :
    StopsAtClash (cs.foldlM step a) (cs.foldlM step' a) := by
  induction cs generalizing a with
  | nil => exact .refl fun e he => nomatch he
  | cons c cs ih =>
    rw [List.foldlM_cons, List.foldlM_cons]
    exact (hstep a c).bind ih

/-- Reading a line warns of no duplicate. -/
theorem not_isClash_reading (settings : ScanSettings) (l : MarkedLine) :
    ∀ e ∈ (reading settings l).log, ¬e.IsClash := by
  unfold reading Signature.read
  split
  · exact fun e he => nomatch he
  · exact Signature.not_isClash_droppedParts _ _

/-- The report of a complete scan is no warning. -/
theorem not_isClash_totals (root : Path) (s : Surface) : ∀ e ∈ [totals root s], ¬e.IsClash := by
  intro e he
  obtain rfl := List.mem_singleton.mp he
  rintro ⟨hlevel, -⟩
  simp [totals] at hlevel

/-- Adding a line strictly stops where adding it leniently warns. -/
theorem addLine_stopsAtClash (suffix : String) (how : Signature.Reading) (s : Surface)
    (l : MarkedLine) :
    StopsAtClash (addLine ⟨suffix, how, .replace⟩ s l) (addLine ⟨suffix, how, .refuse⟩ s l) := by
  rw [addLine_eq, addLine_eq]
  refine (StopsAtClash.refl (not_isClash_reading _ l)).bind fun r => ?_
  unfold Surface.add
  cases s.get? r.group r.name with
  | none => exact .refl fun e he => nomatch he
  | some earlier => exact .first [] [] ⟨r, earlier⟩ rfl (fun e he => nomatch he) rfl

/-- A strict scan stops where the lenient one warns first. -/
theorem surface_stopsAtClash (t : FileTree) (root : Path) (suffix : String)
    (how : Signature.Reading) :
    StopsAtClash (surface t root ⟨suffix, how, .replace⟩)
      (surface t root ⟨suffix, how, .refuse⟩) := by
  unfold surface
  dsimp only
  cases annotationLines t root suffix how.marker with
  | error fault => exact .refl fun e he => nomatch he
  | ok listing =>
    refine (StopsAtClash.foldlM (addLine_stopsAtClash suffix how) listing.lines _).bind
      fun s => ?_
    cases listing.fault with
    | some fault => exact .refl fun e he => nomatch he
    | none => exact .refl (not_isClash_totals root s)

/-- The symbol of a record that was read tells its group and its name: it is cut at its first
underscore, and the name is what follows there or the whole symbol. -/
theorem cut_symbol_of_reading {l : MarkedLine} {r : Record}
    (hr : (reading settings l).result = .ok r) :
    ∃ name, Text.cutAt? ['_'] r.symbol.toList = some (r.group.toList, name) ∧
      r.name.toList = if settings.reading.flatNames then r.symbol.toList else name := by
  obtain ⟨parts, hcut, rfl⟩ := Signature.result_read_eq_ok_iff_cut.mp hr
  obtain ⟨_, full, _, _, _, _, -, -, hsymbol, -, -, -, -, -, heq, -, -⟩ :=
    Signature.cut_eq_ok_iff_cuts.mp hcut
  refine ⟨parts.name, ?_, ?_⟩
  · simpa [Signature.Parts.record, heq] using hsymbol
  · simp [Signature.Parts.record]

/-- Records that were read in one way have one group and name exactly if they have one symbol. -/
theorem key_eq_iff_symbol_eq {l l' : MarkedLine} {r q : Record}
    (hr : (reading settings l).result = .ok r) (hq : (reading settings l').result = .ok q) :
    r.key = q.key ↔ r.symbol = q.symbol := by
  obtain ⟨name, hcut, hname⟩ := cut_symbol_of_reading hr
  obtain ⟨name', hcut', hname'⟩ := cut_symbol_of_reading hq
  unfold Record.key
  rw [Prod.mk.injEq, ← String.toList_inj, ← String.toList_inj, ← String.toList_inj, hname, hname']
  constructor
  · rintro ⟨hgroup, hkey⟩
    by_cases hflat : settings.reading.flatNames = true
    · rwa [if_pos hflat, if_pos hflat] at hkey
    · rw [if_neg hflat, if_neg hflat] at hkey
      rw [(Text.cutAt?_singleton_eq_some_iff.mp hcut).1,
        (Text.cutAt?_singleton_eq_some_iff.mp hcut').1, hgroup, hkey]
  · intro hsymbol
    rw [hsymbol, hcut'] at hcut
    obtain ⟨hgroup, rfl⟩ := Prod.mk.inj (Option.some.inj hcut)
    exact ⟨hgroup.symm, by rw [hsymbol]⟩

/-- Records that were read in one way have different symbols exactly if they have different groups
or names. -/
theorem nodup_symbols_iff {records : List Record}
    (h : ∀ r ∈ records, ∃ l, (reading settings l).result = .ok r) :
    (records.map Record.symbol).Nodup ↔ (records.map Record.key).Nodup := by
  unfold List.Nodup
  rw [List.pairwise_map, List.pairwise_map]
  refine List.Pairwise.iff_of_mem fun {r q} hr hq => ?_
  obtain ⟨l, hl⟩ := h r hr
  obtain ⟨l', hl'⟩ := h q hq
  exact not_congr (key_eq_iff_symbol_eq hl hl').symm

/-- The records before a fault were read. -/
theorem exists_reading_of_mem {lines : List MarkedLine} :
    ∀ r ∈ recordsBeforeFault settings lines, ∃ l, (reading settings l).result = .ok r := by
  induction lines with
  | nil => exact fun r hr => nomatch hr
  | cons l lines ih =>
    rw [recordsBeforeFault]
    cases hl : (reading settings l).result with
    | error fault => exact fun r hr => nomatch hr
    | ok q =>
      intro r hr
      rcases List.mem_cons.mp hr with rfl | hrest
      · exact ⟨l, hl⟩
      · exact ih r hrest

/-- A lenient scan puts the record of a line, and warns exactly if its group and name are taken. -/
theorem exists_addLine_replace (suffix : String) (how : Signature.Reading) (s : Surface)
    {l : MarkedLine} {r : Record} (hr : (reading ⟨suffix, how, .replace⟩ l).result = .ok r) :
    ∃ warned, addLine ⟨suffix, how, .replace⟩ s l =
        ⟨(reading ⟨suffix, how, .replace⟩ l).log ++ warned, .ok (s.put r)⟩ ∧
      ((∀ e ∈ warned, ¬e.IsClash) ↔ s.get? r.group r.name = none) := by
  rw [addLine_eq, Logged.bind_of_ok (Logged.result_mapError_eq_ok_iff.mpr hr)]
  unfold Surface.add
  cases s.get? r.group r.name with
  | none => exact ⟨[], rfl, by simp⟩
  | some earlier =>
    have hwarning := Clash.isClash_warning ⟨r, earlier⟩
    exact ⟨[Clash.warning ⟨r, earlier⟩], rfl, by simpa using hwarning⟩

/-- A lenient walk warns of no duplicate exactly if the records that it comes to differ in group or
name, and none of them is taken on the surface already. -/
theorem walk_quiet_iff (suffix : String) (how : Signature.Reading) (lines : List MarkedLine)
    (s : Surface) :
    (∀ e ∈ (lines.foldlM (addLine ⟨suffix, how, .replace⟩) s).log, ¬e.IsClash) ↔
      ((recordsBeforeFault ⟨suffix, how, .replace⟩ lines).map Record.key).Nodup ∧
        ∀ r ∈ recordsBeforeFault ⟨suffix, how, .replace⟩ lines, s.get? r.group r.name = none := by
  induction lines generalizing s with
  | nil => simp [recordsBeforeFault]
  | cons l lines ih =>
    have hquiet := not_isClash_reading ⟨suffix, how, .replace⟩ l
    rw [List.foldlM_cons, recordsBeforeFault]
    cases hl : (reading ⟨suffix, how, .replace⟩ l).result with
    | error fault =>
      have hfail := Logged.result_mapError_of_error hl ScanFailure.line
      rw [addLine_eq, Logged.bind_of_error hfail]
      simpa [Logged.mapError] using hquiet
    | ok r =>
      obtain ⟨warned, hadd, hwarned⟩ := exists_addLine_replace suffix how s hl
      rw [hadd, Logged.bind_ok]
      dsimp only
      -- The records that follow are looked for on the surface with this record.
      have htaken : ∀ q : Record, (s.put r).get? q.group q.name = none ↔
          r.key ≠ q.key ∧ s.get? q.group q.name = none := by
        intro q
        rw [Surface.get?_put, Record.key, Record.key]
        split
        next hsame => simp [hsame]
        next hother => simp [hother]
      rw [List.forall_mem_append, List.forall_mem_append, hwarned, ih, List.map_cons,
        List.nodup_cons, List.forall_mem_cons]
      simp only [htaken, List.mem_map, not_exists, not_and]
      constructor
      · rintro ⟨⟨-, hnew⟩, hnodup, hrest⟩
        exact ⟨⟨fun q hq heq => (hrest q hq).1 heq.symm, hnodup⟩, hnew,
          fun q hq => (hrest q hq).2⟩
      · rintro ⟨⟨hother, hnodup⟩, hnew, hrest⟩
        exact ⟨⟨hquiet, hnew⟩, hnodup, fun q hq => ⟨fun heq => hother q hq heq.symm, hrest q hq⟩⟩

/-- A lenient scan warns of no duplicate exactly if the lines that it comes to before a fault have
different symbols. -/
theorem surface_quiet_iff (t : FileTree) (root : Path) (suffix : String)
    (how : Signature.Reading) :
    (∀ e ∈ (surface t root ⟨suffix, how, .replace⟩).log, ¬e.IsClash) ↔
      ((recordsBeforeFault ⟨suffix, how, .replace⟩
        (linesOfScan t root ⟨suffix, how, .replace⟩)).map Record.symbol).Nodup := by
  rw [nodup_symbols_iff exists_reading_of_mem]
  unfold surface linesOfScan
  dsimp only
  cases annotationLines t root suffix how.marker with
  | error fault => simp [recordsBeforeFault, Logged.fail]
  | ok listing =>
    dsimp only
    have hwalk := walk_quiet_iff suffix how listing.lines Surface.empty
    have hempty : ∀ group name, Surface.empty.get? group name = none := fun _ _ => rfl
    simp only [hempty, implies_true, and_true] at hwalk
    rw [← hwalk]
    generalize listing.lines.foldlM (addLine ⟨suffix, how, .replace⟩) Surface.empty = walk
    cases hresult : walk.result with
    | error e => rw [Logged.bind_of_error hresult]
    | ok s =>
      rw [Logged.bind_of_ok hresult, List.forall_mem_append]
      refine and_iff_left ?_
      cases listing.fault with
      | some fault => simp [Logged.fail]
      | none => exact not_isClash_totals root s

/-- No two records of a surface that a scan gives have one symbol. -/
theorem nodup_symbols_of_surface {t : FileTree} {root : Path} {s : Surface}
    (h : (surface t root settings).result = .ok s) : (s.toList.map Record.symbol).Nodup := by
  obtain ⟨added, hs, hread⟩ := exists_follows_of_surface h
  have hlines : ∀ r ∈ s.toList, ∃ l, (reading settings l).result = .ok r := by
    intro r hr
    obtain ⟨l, -, hl⟩ := hread r (hs.mem_of_mem_toList hr)
    exact ⟨l, hl⟩
  exact (nodup_symbols_iff hlines).mpr hs.wellFormed.nodup_keys_toList

/-- A strict scan is the lenient one up to its first warning of a duplicate. Without a warning both
end in the same way with the same log; otherwise the strict one has the log before the warning and
fails with the text of the warning. There is a warning exactly if two of the lines that come before
a fault have one symbol. So no two records of a surface have one symbol. -/
theorem strict_scan_stops_at_first_clash (t : FileTree) (root : Path) (suffix : String)
    (how : Signature.Reading) :
    ((∀ e ∈ (surface t root ⟨suffix, how, .replace⟩).log, ¬e.IsClash) →
      surface t root ⟨suffix, how, .refuse⟩ = surface t root ⟨suffix, how, .replace⟩) ∧
    (∀ before warning after,
      (surface t root ⟨suffix, how, .replace⟩).log = before ++ warning :: after →
      (∀ e ∈ before, ¬e.IsClash) → warning.IsClash →
      (surface t root ⟨suffix, how, .refuse⟩).log = before ∧ ∃ clash,
        (surface t root ⟨suffix, how, .refuse⟩).result = .error (.duplicate clash) ∧
        (ScanFailure.duplicate clash).message = warning.text) ∧
    ((∃ e ∈ (surface t root ⟨suffix, how, .replace⟩).log, e.IsClash) ↔
      ¬((recordsBeforeFault ⟨suffix, how, .replace⟩
        (linesOfScan t root ⟨suffix, how, .replace⟩)).map Record.symbol).Nodup) ∧
    ∀ duplicates s, (surface t root ⟨suffix, how, duplicates⟩).result = .ok s →
      (s.toList.map Record.symbol).Nodup := by
  have hstop := surface_stopsAtClash t root suffix how
  refine ⟨fun hquiet => ?_, fun before warning after hlog hquiet hwarning => ?_, ?_,
    fun _ _ hs => nodup_symbols_of_surface hs⟩
  · cases hstop with
    | never _ heq => exact heq
    | first before after clash hlog _ _ =>
      exact absurd clash.isClash_warning (hquiet _ (by simp [hlog]))
  · cases hstop with
    | never hnever _ => exact absurd hwarning (hnever _ (by simp [hlog]))
    | first before' after' clash hlog' hquiet' heq =>
      obtain ⟨rfl, rfl⟩ := first_clash_unique (hlog.symm.trans hlog') hquiet hwarning hquiet'
        clash.isClash_warning
      rw [heq]
      exact ⟨rfl, clash, rfl, rfl⟩
  · rw [← surface_quiet_iff]
    push Not
    rfl

end Scan

end Bindery

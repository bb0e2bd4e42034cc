import Bindery.Generation
import Bindery.Proofs.FileTree.Growth
import Bindery.Proofs.Log

/-!
# A generation renders and then writes

Both generations go the same way: something is rendered from what the tree holds, its bytes are
written to one path, and a total is reported. So what becomes of the tree is said once, by whether
the rendering and the writing succeed. Between the two a header can still turn out to have no bytes,
with its file open.
-/

namespace Bindery.Generation

/-- What a generation is about to write. -/
structure Rendering where
  /-- The bytes of the file, if the text has no halves of surrogate pairs. -/
  content : List UInt8
  /-- The first halves of surrogate pairs in the text. -/
  halves : Option Text.Halves
  /-- The report of the file once it is written. -/
  totals : Entry
  /-- The number of functions in it. -/
  records : Nat

/-- The bytes that come into the file. -/
def Rendering.written (r : Rendering) : List UInt8 :=
  match r.halves with
  | none => r.content
  | some _ => []

/-- A text without halves comes into the file. -/
theorem Rendering.written_of_whole {r : Rendering} (h : r.halves = none) :
    r.written = r.content := by
  rw [Rendering.written, h]

/-- Nothing of a text with halves comes into the file. -/
theorem Rendering.written_of_halves {r : Rendering} {halves : Text.Halves}
    (h : r.halves = some halves) : r.written = [] := by
  rw [Rendering.written, h]

/-- The rendering of the header. -/
def headerRendering (t : FileTree) (s : Settings) : Logged Failure Rendering := do
  let h ← header t s
  match h.render with
  | .error missing => .fail (.sentinel missing)
  | .ok text => return ⟨Utf8.encode text, headerHalves? t s h text, headerTotals h, h.surface.size⟩

/-- The rendering of the documentation. -/
def docsRendering (t : FileTree) (s : Settings) : Logged Failure Rendering := do
  let surface ← (docsSurface t s).mapError .scan
  match Documentation.encode (Documentation.document surface) (formatOf s.docs) with
  | .error fault => .fail (.encoding fault)
  | .ok content => return ⟨content, none, docsTotals surface, surface.size⟩

/-- Writing what was rendered to a path. -/
def produce (t : FileTree) (artifact : Artifact) (p : Path) (rendered : Logged Failure Rendering) :
    Outcome Written :=
  andThen t rendered fun r =>
    let (t, written) := emitText t artifact p r.content r.halves
    andThen t written fun () => (t, ⟨[r.totals], .ok ⟨p, r.records⟩⟩)

variable {t u : FileTree} {s : Settings} {artifact : Artifact} {p : Path}
  {x : Logged Failure Rendering} {r : Rendering}

/-- Writing the header is rendering it and writing what was rendered. -/
theorem writeHeader_eq_produce (t : FileTree) (s : Settings) :
    writeHeader t s = produce t .header s.header (headerRendering t s) := by
  unfold writeHeader headerRendering produce andThen
  cases hheader : (header t s).result with
  | error e => rw [Logged.bind_of_error hheader]
  | ok h =>
    rw [Logged.bind_of_ok hheader]
    dsimp only
    cases h.render with
    | error missing => simp [Logged.fail]
    | ok text => simp [Logged.pure_def]

/-- Writing the documentation is rendering it and writing what was rendered. -/
theorem writeDocumentation_eq_produce (t : FileTree) (s : Settings) :
    writeDocumentation t s = produce t .docs s.docs (docsRendering t s) := by
  unfold writeDocumentation docsRendering produce andThen writeDocs
  cases hsurface : ((docsSurface t s).mapError Failure.scan).result with
  | error e => rw [Logged.bind_of_error hsurface]
  | ok surface =>
    rw [Logged.bind_of_ok hsurface]
    dsimp only
    cases Documentation.encode (Documentation.document surface) (formatOf s.docs) with
    | error fault => simp [Logged.fail]
    | ok content => simp [Logged.pure_def, emitText]

/-- What cannot be rendered is not written. -/
theorem produce_of_error {e : Failure} (h : x.result = .error e) :
    produce t artifact p x = (t, ⟨x.log, .error e⟩) := by
  unfold produce andThen
  rw [h]

/-- What was rendered without halves is written and reported. -/
theorem produce_of_written (h : x.result = .ok r) (hwhole : r.halves = none)
    (hwrite : t.writeBelow p r.content = (u, .ok ())) :
    produce t artifact p x = (u, ⟨x.log ++ [r.totals], .ok ⟨p, r.records⟩⟩) := by
  unfold produce andThen
  rw [h]
  dsimp only
  rw [hwhole, emitText, emit, hwrite]
  rfl

/-- What was rendered and cannot be written fails with the fault of the write. -/
theorem produce_of_unwritten {fault : FileFault} (h : x.result = .ok r)
    (hwrite : t.writeBelow p r.written = (u, .error fault)) :
    produce t artifact p x = (u, ⟨x.log, .error (.unwritten artifact p fault)⟩) := by
  unfold produce andThen
  rw [h]
  dsimp only
  cases hhalves : r.halves with
  | none =>
    rw [Rendering.written_of_whole hhalves] at hwrite
    rw [emitText, emit, hwrite]
    simp [Logged.fail]
  | some halves =>
    rw [Rendering.written_of_halves hhalves] at hwrite
    rw [emitText, emit, hwrite]
    simp [Logged.fail, andThen]

/-- What was rendered with halves leaves an empty file and fails with the first of them. -/
theorem produce_of_halves {halves : Text.Halves} (h : x.result = .ok r)
    (hhalves : r.halves = some halves) (hopen : t.writeBelow p [] = (u, .ok ())) :
    produce t artifact p x = (u, ⟨x.log, .error (.unencodable halves)⟩) := by
  unfold produce andThen
  rw [h]
  dsimp only
  rw [hhalves, emitText, emit, hopen]
  simp [Logged.fail, andThen]

/-- What can become of a tree when something is to be rendered and written to a path. -/
inductive Produced (t : FileTree) (artifact : Artifact) (p : Path) (x : Logged Failure Rendering) :
    Outcome Written → Prop
  /-- It is not rendered. -/
  | unrendered {e : Failure} (h : x.result = .error e) :
    Produced t artifact p x (t, ⟨x.log, .error e⟩)
  /-- The file cannot be written. -/
  | unwritten {r : Rendering} {u : FileTree} {fault : FileFault} (h : x.result = .ok r)
    (hwrite : t.writeBelow p r.written = (u, .error fault)) :
    Produced t artifact p x (u, ⟨x.log, .error (.unwritten artifact p fault)⟩)
  /-- The file is open and the text has halves. -/
  | emptied {r : Rendering} {u : FileTree} {halves : Text.Halves} (h : x.result = .ok r)
    (hhalves : r.halves = some halves) (hopen : t.writeBelow p [] = (u, .ok ())) :
    Produced t artifact p x (u, ⟨x.log, .error (.unencodable halves)⟩)
  /-- The file is written. -/
  | written {r : Rendering} {u : FileTree} (h : x.result = .ok r) (hwhole : r.halves = none)
    (hwrite : t.writeBelow p r.content = (u, .ok ())) :
    Produced t artifact p x (u, ⟨x.log ++ [r.totals], .ok ⟨p, r.records⟩⟩)

/-- Nothing else can become of it. -/
theorem produced_produce (t : FileTree) (artifact : Artifact) (p : Path)
    (x : Logged Failure Rendering) : Produced t artifact p x (produce t artifact p x) := by
  cases hx : x.result with
  | error e =>
    rw [produce_of_error hx]
    exact .unrendered hx
  | ok r =>
    cases hwrite : t.writeBelow p r.written with
    | mk u result =>
      cases result with
      | error fault =>
        rw [produce_of_unwritten hx hwrite]
        exact .unwritten hx hwrite
      | ok =>
        cases hhalves : r.halves with
        | none =>
          rw [Rendering.written_of_whole hhalves] at hwrite
          rw [produce_of_written hx hhalves hwrite]
          exact .written hx hhalves hwrite
        | some halves =>
          rw [Rendering.written_of_halves hhalves] at hwrite
          rw [produce_of_halves hx hhalves hwrite]
          exact .emptied hx hhalves hwrite

/-- What was produced was rendered without halves and written. -/
theorem exists_written_of_produce {w : Written} (h : (produce t artifact p x).2.result = .ok w) :
    ∃ r, x.result = .ok r ∧ r.halves = none ∧
      t.writeBelow p r.content = ((produce t artifact p x).1, .ok ()) := by
  have hproduced := produced_produce t artifact p x
  generalize produce t artifact p x = outcome at h hproduced ⊢
  cases hproduced with
  | unrendered hx => exact nomatch h
  | unwritten hx hwrite => exact nomatch h
  | emptied hx hhalves hopen => exact nomatch h
  | written hx hwhole hwrite => exact ⟨_, hx, hwhole, hwrite⟩

/-- Writing both is writing the header, and then the documentation where the header succeeded. -/
theorem writeAll_of_error {e : Failure} (h : (writeHeader t s).2.result = .error e) :
    writeAll t s = ((writeHeader t s).1, ⟨(writeHeader t s).2.log, .error e⟩) := by
  unfold writeAll andThen
  dsimp only
  rw [h]

/-- After the header the documentation is written in the tree that the header has left. -/
theorem writeAll_of_ok {first : Written} (h : (writeHeader t s).2.result = .ok first) :
    writeAll t s = ((writeDocumentation (writeHeader t s).1 s).1,
      ⟨(writeHeader t s).2.log ++ (writeDocumentation (writeHeader t s).1 s).2.log,
        (writeDocumentation (writeHeader t s).1 s).2.result.map fun second =>
          [first, second]⟩) := by
  unfold writeAll andThen
  dsimp only
  rw [h]
  dsimp only
  cases (writeDocumentation (writeHeader t s).1 s).2.result with
  | error e => rfl
  | ok second => simp [Except.map, Logged.pure_def]

/-- A header that is made is that of the surface and of the events. -/
theorem header_eq_ok {h : Header} (hheader : (header t s).result = .ok h) :
    ∃ surface events, (headerSurface t s).result = .ok surface ∧
      EventSchema.load .header t s.events = .ok events ∧
      h = { surface, events, library := s.library } := by
  obtain ⟨surface, hsurface, hrest⟩ := Logged.result_bind_eq_ok_iff.mp hheader
  obtain ⟨events, hevents, hmade⟩ := Logged.result_bind_eq_ok_iff.mp hrest
  refine ⟨surface, events, Logged.result_mapError_eq_ok_iff.mp hsurface, ?_, ?_⟩
  · unfold Logged.ofExcept Except.mapError at hevents
    split at hevents
    · simp at hevents
    next hload => rw [hload, Except.ok.inj hevents]
  · exact (Except.ok.inj hmade).symm

/-- Documentation has no halves. -/
theorem halves_docsRendering {r : Rendering} (h : (docsRendering t s).result = .ok r) :
    r.halves = none := by
  obtain ⟨surface, -, hrest⟩ := Logged.result_bind_eq_ok_iff.mp h
  split at hrest
  · exact nomatch hrest
  · rw [← Except.ok.inj hrest]

end Bindery.Generation

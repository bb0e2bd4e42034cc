import Bindery.Library.Platform
import Bindery.Proofs.Header.Reading
import Bindery.Proofs.Header.References

/-!
# Where the header and a client look for a library

The header pastes the path of the library together as a text, once for Windows and once for all
others. A client joins paths, and a path that starts at the top replaces what it is joined to. The
two paths are the same, repeated slashes and `.` components apart, for every name of a library that
does not begin with a slash.
-/

namespace Bindery

namespace Path

/-- A slash between two texts stands between their components. -/
theorem partsOf_append (front rest : List Char) :
    partsOf (front ++ '/' :: rest) = partsOf front ++ partsOf rest := by
  unfold partsOf
  rw [Text.fields_append, List.filter_append, List.map_append]

/-- A text without a slash in front is a path from where the reader stands. -/
theorem anchorOf_eq_here_iff {cs : List Char} : anchorOf cs = .here ↔ cs.head? ≠ some '/' := by
  cases cs with
  | nil => simp [anchorOf]
  | cons c cs =>
    by_cases hc : c = '/'
    · subst hc
      unfold anchorOf
      split <;> simp_all
    · unfold anchorOf
      split <;> simp_all

end Path

namespace Header

/-- The lines that a compiler keeps of a text whose conditional parts are for Windows or for all
others. Whether it keeps lines at the moment is told by `kept`. -/
def keptLines (windows : Bool) : (kept : Bool) → List String → List String
  | _, [] => []
  | kept, line :: rest =>
    if line = windowsCheck then keptLines windows windows rest
    else if line = "#else" then keptLines windows (!kept) rest
    else if line = "#endif" then keptLines windows true rest
    else if kept then line :: keptLines windows kept rest
    else keptLines windows kept rest

/-- The path with which the first of some lines that opens a library does so. -/
def openedPath? (lines : List String) : Option String :=
  lines.findSome? (between? "    void* capi_lib = LIBRARY_OPEN(\"" "\");")

variable {windows kept : Bool}

/-- The part for Windows begins. -/
theorem keptLines_windowsCheck (rest : List String) :
    keptLines windows kept (windowsCheck :: rest) = keptLines windows windows rest := by
  rw [keptLines, if_pos rfl]

/-- The part for all others begins. -/
theorem keptLines_else (rest : List String) :
    keptLines windows kept ("#else" :: rest) = keptLines windows (!kept) rest := by
  rw [keptLines, if_neg (by simp [windowsCheck]), if_pos rfl]

/-- The conditional parts are over. -/
theorem keptLines_endif (rest : List String) :
    keptLines windows kept ("#endif" :: rest) = keptLines windows true rest := by
  rw [keptLines, if_neg (by simp [windowsCheck]), if_neg (by simp), if_pos rfl]

/-- A line that is no directive is kept or not, like those around it. -/
theorem keptLines_cons {line : String} (h : line.toList.head? ≠ some '#') (rest : List String) :
    keptLines windows kept (line :: rest) =
      if kept then line :: keptLines windows kept rest else keptLines windows kept rest := by
  have hne : ∀ directive : String, directive.toList.head? = some '#' → line ≠ directive := by
    rintro directive hdirective rfl
    exact h hdirective
  rw [keptLines, if_neg (hne _ (by simp [windowsCheck])), if_neg (hne _ (by simp)),
    if_neg (hne _ (by simp))]

/-- A line that opens a library is no directive. -/
theorem head?_openLine (name ending : String) : (openLine name ending).toList.head? = some ' ' := by
  obtain ⟨more, hmore⟩ := openingFront_openLine name ending
  rw [← hmore, List.head?_append]
  rfl

/-- Of the lines that open a library those for one kind of system are kept. -/
theorem keptLines_openLibrary (name : String) (rest : List String) :
    keptLines windows true ((Statement.openLibrary name).lines ++ rest) =
      openLine name (if windows then ".dll" else ".so") :: keptLines windows true rest := by
  have hline : ∀ ending, (openLine name ending).toList.head? ≠ some '#' := by
    intro ending
    rw [head?_openLine]
    decide
  have hopen : ∀ kept ending more, keptLines windows kept (openLine name ending :: more) =
      if kept then openLine name ending :: keptLines windows kept more
      else keptLines windows kept more := fun _ ending => keptLines_cons (hline ending)
  simp only [Statement.lines, List.cons_append, List.nil_append]
  rw [keptLines_windowsCheck, hopen]
  cases windows with
  | true => simp [keptLines_else, hopen, keptLines_endif]
  | false => simp [keptLines_else, hopen, keptLines_endif]

/-- A line that opens a library says with which path. -/
theorem between?_openLine (name ending : String) :
    between? "    void* capi_lib = LIBRARY_OPEN(\"" "\");" (openLine name ending) =
      some (librarySpelling name ending) := between?_append _ _ _

/-- A text that begins with another letter than the front has nothing behind it. -/
theorem between?_eq_none {front ending text : String} {c : Char}
    (hfront : front.toList.head? = some c) (htext : text.toList.head? ≠ some c) :
    between? front ending text = none := by
  have hnot : ¬front.toList <+: text.toList := by
    rintro ⟨rest, hrest⟩
    rw [← hrest, List.head?_append, hfront] at htext
    exact htext rfl
  rw [between?, Text.dropFront?_eq_none_iff.mpr hnot, Option.bind_none]

/-- The function begins with a line that does not open the library. -/
theorem head?_functionHead :
    ("static bool omp_initialize_capi(struct " ++ rootTag ++ "* ompapi) \x7b").toList.head? =
      some 's' := rfl

/-- The initializer opens the library with the path for the kind of system. -/
theorem openedPath?_initializer {s : Surface} {name : String} {sentinel : Slot}
    {statements : List Statement} (h : initializer s name sentinel = .ok statements) :
    openedPath? (keptLines windows true (functionLines statements)) =
      some (librarySpelling name (if windows then ".dll" else ".so")) := by
  unfold initializer at h
  cases hfound : s.get? sentinel.group sentinel.name with
  | none => simp [hfound] at h
  | some r =>
    rw [hfound] at h
    obtain rfl := Except.ok.inj h
    have hfront : "    void* capi_lib = LIBRARY_OPEN(\"".toList.head? = some ' ' := rfl
    have hblank : between? "    void* capi_lib = LIBRARY_OPEN(\"" "\");" "" = none :=
      between?_eq_none hfront (by decide)
    have hhead : between? "    void* capi_lib = LIBRARY_OPEN(\"" "\");"
        ("static bool omp_initialize_capi(struct " ++ rootTag ++ "* ompapi) \x7b") = none :=
      between?_eq_none hfront (by rw [head?_functionHead]; decide)
    rw [functionLines, program]
    simp only [List.cons_append, List.nil_append, List.flatMap_cons, List.append_assoc]
    rw [keptLines_cons (by decide), if_pos rfl,
      keptLines_cons (by rw [head?_functionHead]; decide), if_pos rfl, keptLines_openLibrary]
    -- The line that opens the library is the third one.
    rw [openedPath?, List.findSome?_cons_of_isNone (by rw [hblank]; rfl),
      List.findSome?_cons_of_isNone (by rw [hhead]; rfl),
      List.findSome?_cons_of_isSome (by rw [between?_openLine]; rfl), between?_openLine]

end Header

namespace Library

/-- The operating system that a library is looked up for: the one that is named, or else the one on
which the program runs. -/
def systemFor (e : Environment) (platform : String) (named : Option String) :
    Except UnsupportedPlatform String :=
  match named.filter (!·.isEmpty) with
  | some name => .ok name
  | none => system e platform

/-- The path of a library has the ending of the operating system. -/
theorem path_eq_of_systemFor {e : Environment} {platform os : String} {named : Option String}
    (h : systemFor e platform named = .ok os) (name : String) (root : Option Path) :
    path e platform name root named = .ok (pathOf (root.getD (.below [])) name (endingOf os)) := by
  unfold systemFor at h
  unfold path ending
  cases hnamed : named.filter (!·.isEmpty) with
  | some name =>
    rw [hnamed] at h
    obtain rfl := Except.ok.inj h
    rfl
  | none =>
    rw [hnamed] at h
    dsimp only at h ⊢
    rw [h]
    rfl

/-- The path that is written in the header is that of the library below the directory of components,
whatever the name begins with. -/
theorem ofString_librarySpelling (name ending : String) :
    Path.ofString (Header.librarySpelling name ending) =
      .below ("components" :: Path.partsOf (name ++ ending).toList) := by
  have htext : (Header.librarySpelling name ending).toList =
      "./components".toList ++ '/' :: (name ++ ending).toList := by
    simp [Header.librarySpelling]
  unfold Path.ofString
  rw [htext, Path.partsOf_append]
  rfl

/-- A client joins the name to the directory of components, which a name that begins with a slash
replaces. -/
theorem pathOf_here (name : String) {ending : String} (hending : ending.toList.head? = some '.') :
    pathOf (.below []) name ending =
      if name.toList.head? = some '/' then .ofString (name ++ ending)
      else .below ("components" :: Path.partsOf (name ++ ending).toList) := by
  have hhead : (name ++ ending).toList.head? = some '/' ↔ name.toList.head? = some '/' := by
    rw [String.toList_append, List.head?_append]
    cases name.toList.head? with
    | none => simp [hending]
    | some c => simp
  unfold pathOf Path.join
  by_cases hslash : name.toList.head? = some '/'
  · have hanchor : (Path.ofString (name ++ ending)).anchor ≠ .here := fun hhere =>
      Path.anchorOf_eq_here_iff.mp hhere (hhead.mpr hslash)
    rw [if_pos hslash]
    split
    · contradiction
    · rfl
  · have hanchor : (Path.ofString (name ++ ending)).anchor = .here :=
      Path.anchorOf_eq_here_iff.mpr fun h => hslash (hhead.mp h)
    rw [if_neg hslash, hanchor]
    rfl

/-- The header and a client look for a library at the same place, on every operating system, exactly
if its name does not begin with a slash. Otherwise the client looks for it from the top, outside the
directory of components. -/
theorem opened_path_eq_loaded_iff {s : Surface} {name : String} {sentinel : Header.Slot}
    {statements : List Header.Statement} {e : Environment} {platform os : String}
    {named : Option String} (hstatements : Header.initializer s name sentinel = .ok statements)
    (hsystem : systemFor e platform named = .ok os) :
    ∃ opened loaded,
      Header.openedPath? (Header.keptLines (os = "windows") true
        (Header.functionLines statements)) = some opened ∧
      path e platform name none named = .ok loaded ∧
      (Path.ofString opened = loaded ↔ name.toList.head? ≠ some '/') ∧
      (name.toList.head? = some '/' → loaded = .ofString (name ++ endingOf os)) := by
  have hending : (endingOf os).toList.head? = some '.' := by
    unfold endingOf
    split <;> rfl
  have hopened : (if decide (os = "windows") then ".dll" else ".so") = endingOf os := by
    simp [endingOf]
  have hread : Header.openedPath? (Header.keptLines (os = "windows") true
      (Header.functionLines statements)) =
        some (Header.librarySpelling name (endingOf os)) := by
    rw [Header.openedPath?_initializer hstatements, hopened]
  have hpath := path_eq_of_systemFor hsystem name none
  rw [Option.getD_none, pathOf_here name hending] at hpath
  refine ⟨_, _, hread, hpath, ?_, fun hslash => if_pos hslash⟩
  rw [ofString_librarySpelling]
  by_cases hslash : name.toList.head? = some '/'
  · rw [if_pos hslash]
    refine iff_of_false (fun hsame => ?_) (not_not.mpr hslash)
    -- One path starts where the reader stands and the other at the top.
    have hhere : Path.anchorOf (name ++ endingOf os).toList = .here :=
      (congrArg Path.anchor hsame).symm
    refine Path.anchorOf_eq_here_iff.mp hhere ?_
    rw [String.toList_append, List.head?_append, hslash]
    rfl
  · rw [if_neg hslash]
    exact iff_of_true rfl hslash

/-- A surface with the mandatory function alone. -/
def tickSurface : Surface :=
  Surface.empty.put ⟨"Core", "TickCount", "uint32_t", [], "Core_TickCount", none⟩

/-- The statements of the initializer that loads a library of some name for this surface. -/
def tickStatements (name : String) : List Header.Statement :=
  Header.program tickSurface name ⟨"Core", "TickCount"⟩ "Core_TickCount"

/-- A name with steps back and repeated slashes, on a system that the environment states. -/
theorem opened_path_eq_loaded_on_windows :
    Header.initializer tickSurface "../libs//./capi" ⟨"Core", "TickCount"⟩ =
      .ok (tickStatements "../libs//./capi") ∧
    systemFor { system := some "windows" } "linux" none = .ok "windows" ∧
    ∃ opened loaded,
      Header.openedPath? (Header.keptLines ("windows" = "windows") true
        (Header.functionLines (tickStatements "../libs//./capi"))) = some opened ∧
      path { system := some "windows" } "linux" "../libs//./capi" none none = .ok loaded ∧
      Path.ofString opened = loaded := by
  have hstatements : Header.initializer tickSurface "../libs//./capi" ⟨"Core", "TickCount"⟩ =
      .ok (tickStatements "../libs//./capi") := rfl
  have hsystem : systemFor { system := some "windows" } "linux" none = .ok "windows" := rfl
  obtain ⟨opened, loaded, hopened, hloaded, hsame, -⟩ :=
    opened_path_eq_loaded_iff hstatements hsystem
  exact ⟨hstatements, hsystem, opened, loaded, hopened, hloaded, hsame.mpr (by decide)⟩

/-- For a name that begins with a slash the header opens a library below the directory of components
and a client one at the top. -/
theorem opened_path_ne_loaded_from_top :
    Header.initializer tickSurface "/opt/capi" ⟨"Core", "TickCount"⟩ =
      .ok (tickStatements "/opt/capi") ∧
    Header.openedPath? (Header.keptLines ("linux" = "windows") true
      (Header.functionLines (tickStatements "/opt/capi"))) = some "./components//opt/capi.so" ∧
    Path.ofString "./components//opt/capi.so" = ⟨.here, ["components", "opt", "capi.so"]⟩ ∧
    path {} "linux" "/opt/capi" none (some "linux") = .ok ⟨.top, ["opt", "capi.so"]⟩ := by
  have hstatements : Header.initializer tickSurface "/opt/capi" ⟨"Core", "TickCount"⟩ =
      .ok (tickStatements "/opt/capi") := rfl
  exact ⟨hstatements, Header.openedPath?_initializer hstatements, by decide, rfl⟩

end Library

end Bindery

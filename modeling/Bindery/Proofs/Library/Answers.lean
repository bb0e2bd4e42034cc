import Bindery.Proofs.Library.Agreement
import Bindery.Proofs.Library.Slots

/-!
# When a client answers

A call is to answer whether the tables were filled, and not to fail. Where no record is refused, a
record whose types are unknown costs its own slot and nothing else: each slot is told by the symbol
and the types of its record. A record is refused only by a library from a file, and only if it would
be bound and one of its parameters is of type `void`. One such record fails the whole call.
-/

namespace Bindery.Library.Session

variable {s : Session}

/-- The loader opens files. -/
def FromFiles (s : Session) : Prop := ∃ tree images, s.supply = .files tree images

/-- A call comes upon a record that is refused: the library is a file with the mandatory function,
and it exports a function of which all types are known and one parameter is of type `void`. -/
def Stumbles (s : Session) : Prop :=
  s.FromFiles ∧ s.Exports s.client.sentinelSymbol ∧
    ∃ r ∈ s.client.surface.toList, s.Exports r.symbol ∧ r.Mapped ∧ r.TakesVoid

/-- What a call does that answers. -/
structure Answers (s : Session) : Prop where
  /-- It tells whether the library opens with the mandatory function. -/
  result_eq : ∃ answer, s.call.report.result = .ok answer ∧
    (answer = true ↔ s.Exports s.client.sentinelSymbol)
  /-- If it does, the tables are published. In them the slot of a record is empty exactly if the
  symbol of this record is not exported or one of its types is unknown, and otherwise it shows the
  last types that were known under the symbol. -/
  tables_eq : s.Exports s.client.sentinelSymbol → ∃ l : Opened,
    s.call.client =
      { s.client with tables := some (s.client.surface.sections.map (Client.tableOf l)) } ∧
    ∀ r ∈ s.client.surface.toList, (l.resolve r.symbol = none ↔ ¬s.Exports r.symbol) ∧
      Client.SlotShows l s.call r (l.slot r)
  /-- If it does not, the client stays as it is. -/
  client_eq : ¬s.Exports s.client.sentinelSymbol → s.call.client = s.client

/-- What the loader of a session opens for a call: a library that exports what the loader finds, of
the names that the client looks for, and that takes any types unless it is a file. -/
structure Opens (s : Session) (l : Opened) (store : Store) : Prop where
  /-- The client is filled from it. -/
  call_eq : s.call = s.client.fill store (.ok l)
  /-- A file does not take `void`. -/
  acceptsVoid_iff : l.acceptsVoid = false ↔ s.FromFiles
  /-- Every name that is exported leads to a function. -/
  exports_iff : ∀ name ∈ s.client.names, ((l.resolve name).isSome = true ↔ s.Exports name)
  /-- The functions are there. -/
  within : l.Within 0 store.length
  /-- Each name has a function of its own. -/
  apart : l.Apart

/-- A call does not open a library, or fills the client from the one that it opens. -/
theorem opens_cases (h : ∀ l, s.supply = .standIn l → l.StandsIn s.store) :
    (∃ f, s.call = s.client.fill s.store (.error f) ∧ ∀ symbol, ¬s.Exports symbol) ∨
      ∃ l store, s.Opens l store := by
  cases hsupply : s.supply with
  | standIn l =>
    have hstands := h l hsupply
    refine .inr ⟨l, s.store, ?_, ?_, ?_, hstands.within, hstands.apart⟩
    · simp only [call, hsupply]
    · simp [FromFiles, hsupply, hstands.acceptsVoid]
    · simp [Exports, hsupply]
  | files tree images =>
    cases hopen : openImage tree images s.client.path with
    | error f =>
      refine .inl ⟨f, ?_, by simp [Exports, hsupply, hopen]⟩
      simp only [call, hsupply, Client.connect, openFile, hopen]
    | ok symbols =>
      obtain ⟨names, hfill, hnames⟩ := Client.exists_names_of_openImage hopen s.store
      have hfresh := (Opened.ofSymbols_fresh false s.store names).2
      have hwithin := hfresh.mono (Nat.zero_le s.store.length) (Nat.le_refl _)
      have hapart := Opened.apart_ofSymbols false s.store names
      refine .inr ⟨_, _, ?_, ?_, fun name hname => ?_, hwithin, hapart⟩
      · simp only [call, hsupply]
        exact hfill
      · simp [FromFiles, hsupply, acceptsVoid_ofSymbols]
      · rw [isSome_resolve_ofSymbols, hnames, and_iff_right hname]
        simp [Exports, hsupply, hopen]

/-- A call stumbles exactly if the library that it opens has the mandatory function and refuses a
record. -/
theorem Opens.stumbles_iff {l : Opened} {store : Store} (h : s.Opens l store) :
    s.Stumbles ↔ s.Exports s.client.sentinelSymbol ∧
      ∃ r ∈ s.client.surface.toList, l.Refuses r := by
  have hrefuses : ∀ r ∈ s.client.surface.toList,
      (l.Refuses r ↔ s.FromFiles ∧ s.Exports r.symbol ∧ r.Mapped ∧ r.TakesVoid) := by
    intro r hr
    rw [Opened.Refuses, h.acceptsVoid_iff, h.exports_iff _ (Client.symbol_mem_names hr)]
  constructor
  · rintro ⟨hfrom, hmandatory, r, hr, hfound⟩
    exact ⟨hmandatory, r, hr, (hrefuses r hr).mpr ⟨hfrom, hfound⟩⟩
  · rintro ⟨hmandatory, r, hr, hrefused⟩
    obtain ⟨hfrom, hfound⟩ := (hrefuses r hr).mp hrefused
    exact ⟨hfrom, hmandatory, r, hr, hfound⟩

/-- Without the mandatory function a call answers that there is none. -/
theorem Opens.answers_of_not_exports {l : Opened} {store : Store} (h : s.Opens l store)
    (hmandatory : ¬s.Exports s.client.sentinelSymbol) : s.Answers := by
  have hresolve : l.resolve s.client.sentinelSymbol = none := by
    rw [← Option.not_isSome_iff_eq_none, h.exports_iff _ List.mem_cons_self]
    exact hmandatory
  obtain ⟨hfalse, hclient⟩ := Client.fill_of_resolve_eq_none hresolve store
  refine ⟨⟨false, ?_, by simp [hmandatory]⟩, fun hs => absurd hs hmandatory, fun _ => ?_⟩
  · rw [h.call_eq, hfalse]
  · rw [h.call_eq, hclient]

/-- With the mandatory function, and if no record is refused, a call answers with its tables. -/
theorem Opens.answers_of_not_refuses {l : Opened} {store : Store} (h : s.Opens l store)
    (hmandatory : s.Exports s.client.sentinelSymbol)
    (hnone : ∀ r ∈ s.client.surface.toList, ¬l.Refuses r) : s.Answers := by
  have hresolve := (h.exports_iff _ List.mem_cons_self).mpr hmandatory
  obtain ⟨log, hfill⟩ := Client.exists_fill_eq hnone hresolve
  have hcall := h.call_eq.trans (hfill s.client.tables store)
  refine ⟨⟨true, ?_, by simp [hmandatory]⟩, fun _ => ⟨l, ?_, fun r hr => ⟨?_, ?_⟩⟩,
    fun hnot => absurd hmandatory hnot⟩
  · rw [hcall]
  · rw [hcall]
  · rw [← h.exports_iff _ (Client.symbol_mem_names hr), Option.not_isSome_iff_eq_none]
  · have hstore : s.call.store = l.given store s.call.client.surface.toList := by
      rw [hcall]
    have hrecord : r ∈ s.call.client.surface.toList := by
      rw [hcall]
      exact hr
    exact Client.slotShows_of_given h.apart h.within hstore hrecord

/-- A call that stumbles fails, and leaves the client as it is; every other call answers. -/
theorem call_answers_or_fails (h : ∀ l, s.supply = .standIn l → l.StandsIn s.store) :
    ¬s.Stumbles ∧ s.Answers ∨
      s.Stumbles ∧ (∃ v, s.call.report.result = .error v) ∧ s.call.client = s.client := by
  rcases opens_cases h with ⟨f, hcall, hnothing⟩ | ⟨l, store, hopens⟩
  · refine .inl ⟨fun hstumbles => hnothing _ hstumbles.2.1, ?_⟩
    refine ⟨⟨false, ?_, by simp [hnothing]⟩, fun hs => absurd hs (hnothing _), fun _ => ?_⟩
    · rw [hcall]
      rfl
    · rw [hcall]
      rfl
  · rw [hopens.stumbles_iff]
    by_cases hmandatory : s.Exports s.client.sentinelSymbol
    · by_cases hrefused : ∃ r ∈ s.client.surface.toList, l.Refuses r
      · have hresolve := (hopens.exports_iff _ List.mem_cons_self).mpr hmandatory
        obtain ⟨hfails, hclient⟩ := Client.fill_of_refuses hresolve hrefused store
        rw [hopens.call_eq]
        exact .inr ⟨⟨hmandatory, hrefused⟩, hfails, hclient⟩
      · exact .inl ⟨fun hstumbles => hrefused hstumbles.2,
          hopens.answers_of_not_refuses hmandatory fun r hr hr' => hrefused ⟨r, hr, hr'⟩⟩
    · exact .inl ⟨fun hstumbles => hmandatory hstumbles.1,
        hopens.answers_of_not_exports hmandatory⟩

/-- Whatever happened before, a call answers exactly if it does not stumble. What it costs a record
that its types cannot be bound is then its own slot. A call that stumbles fails. -/
theorem answers_iff_not_stumbles (surface : Surface) (path : Path) (sentinel : Header.Slot)
    (tree : FileTree) (images : Images) (acts : List Act) :
    let now := (start surface path sentinel tree images).run acts
    ((∃ answer, now.call.report.result = .ok answer) ↔ ¬now.Stumbles) ∧
    (¬now.Stumbles → now.Answers) ∧
    (now.Stumbles → (∃ v, now.call.report.result = .error v) ∧ now.call.client = now.client) := by
  intro now
  have hstands := standsIn_run surface path sentinel tree images acts
  rcases call_answers_or_fails hstands with ⟨hnot, hanswers⟩ | ⟨hstumbles, ⟨v, hv⟩, hclient⟩
  · obtain ⟨answer, hresult, -⟩ := hanswers.result_eq
    exact ⟨iff_of_true ⟨answer, hresult⟩ hnot, fun _ => hanswers, fun h => absurd h hnot⟩
  · refine ⟨iff_of_false ?_ (not_not.mpr hstumbles), fun hnot => absurd hstumbles hnot,
      fun _ => ⟨⟨v, hv⟩, hclient⟩⟩
    rintro ⟨answer, hresult⟩
    exact nomatch hv.symm.trans hresult

/-- A session whose library opens and exports all functions, of which one takes a parameter of type
`void`. -/
def stubSession : Session :=
  start (Client.stubClient "void").surface (Client.stubClient "void").path
    (Client.stubClient "void").sentinel Client.stubTree Client.stubImages

/-- There a call fails, and publishes nothing. -/
theorem stubSession_does_not_answer :
    openImage Client.stubTree Client.stubImages stubSession.client.path = .ok Client.stubSymbols ∧
    stubSession.call.report.result = .error ⟨1⟩ ∧ stubSession.call.client.tables = none ∧
    ¬∃ answer, stubSession.call.report.result = .ok answer := by
  have hfails : stubSession.call.report.result = .error ⟨1⟩ := rfl
  refine ⟨rfl, hfails, rfl, ?_⟩
  rintro ⟨answer, hanswer⟩
  exact nomatch hfails.symm.trans hanswer

end Bindery.Library.Session

/-!
# Log entries and logged results

What an activity reports on its way, and results that come with such a report. A report is kept
also when the activity fails.
-/

namespace Bindery

/-- How much an entry matters. -/
inductive Level
  | debug
  | info
  | warning
  deriving DecidableEq, Repr

/-- The name of a level. -/
def Level.name : Level → String
  | .debug => "DEBUG"
  | .info => "INFO"
  | .warning => "WARNING"

/-- The activity that reports. -/
inductive Channel
  | reading
  | surface
  | scan
  | generation
  | loader
  deriving DecidableEq, Repr

/-- The name under which an activity reports. -/
def Channel.name : Channel → String
  | .reading => "ompcapi_gen.builder.parse"
  | .surface => "ompcapi_gen.builder.symbols"
  | .scan => "ompcapi_gen.builder.scan"
  | .generation => "ompcapi_gen.generate"
  | .loader => "ompcapi_gen.runtime.capi"

/-- One entry of a log. -/
structure Entry where
  /-- How much it matters. -/
  level : Level
  /-- Who reports it. -/
  channel : Channel
  /-- What is reported. -/
  text : String
  deriving DecidableEq, Repr

/-- The line that shows an entry. -/
def Entry.line (e : Entry) : String := e.level.name ++ " " ++ e.channel.name ++ ": " ++ e.text

/-- A result or a failure, with the entries that were logged before it. -/
structure Logged (ε α : Type) where
  /-- The entries, in order. -/
  log : List Entry
  /-- The outcome. -/
  result : Except ε α

namespace Logged

variable {ε ε' α β : Type}

/-- A result that logs nothing. -/
protected def pure (a : α) : Logged ε α := ⟨[], .ok a⟩

/-- One activity after another: the second starts only if the first succeeds, and its entries
follow those of the first. -/
protected def bind (x : Logged ε α) (f : α → Logged ε β) : Logged ε β :=
  match x.result with
  | .error e => ⟨x.log, .error e⟩
  | .ok a => let y := f a; ⟨x.log ++ y.log, y.result⟩

instance : Monad (Logged ε) where
  pure := Logged.pure
  bind := Logged.bind

/-- A failure that logs nothing. -/
def fail (e : ε) : Logged ε α := ⟨[], .error e⟩

/-- An outcome without a log. -/
def ofExcept (x : Except ε α) : Logged ε α := ⟨[], x⟩

/-- The same activity with its failure stated in wider terms. -/
def mapError (f : ε → ε') (x : Logged ε α) : Logged ε' α := ⟨x.log, x.result.mapError f⟩

@[simp] theorem pure_def (a : α) : (pure a : Logged ε α) = ⟨[], .ok a⟩ := rfl

@[simp] theorem bind_ok (log : List Entry) (a : α) (f : α → Logged ε β) :
    ((⟨log, .ok a⟩ : Logged ε α) >>= f) = ⟨log ++ (f a).log, (f a).result⟩ := rfl

@[simp] theorem bind_error (log : List Entry) (e : ε) (f : α → Logged ε β) :
    ((⟨log, .error e⟩ : Logged ε α) >>= f) = ⟨log, .error e⟩ := rfl

end Logged

end Bindery

import PathAssembly.Fault

/-!
# Notes on decisions

Operations that decide something say so in notes. A `Logged` value is what an operation wrote, in
order, together with its outcome; the notes of an operation that refuses its input are kept. Notes
never decide anything: the outcome of a composition depends on the outcomes of its parts alone
(`Logged.result_bind`). Only a reader who follows the notes is stopped by one that cannot be worded
(`Logged.followed`).
-/

namespace PathAssembly

inductive Severity where
  | debug
  | info
  | warning
  deriving DecidableEq, Repr

inductive Topic where
  | lookup
  | combination
  | assembly
  | duplicates
  | resolution
  deriving DecidableEq, Repr

/-- A note, which perhaps cannot be worded. -/
structure Note where
  severity : Severity
  topic : Topic
  text : Except Fault String
  deriving DecidableEq, Repr

def Note.fault? (n : Note) : Option Fault :=
  match n.text with
  | .ok _ => none
  | .error fault => some fault

/-- An outcome, and the notes on the way to it. -/
structure Logged (α : Type) where
  notes : List Note
  result : Except Fault α

namespace Logged

variable {α β : Type}

def bind (x : Logged α) (f : α → Logged β) : Logged β :=
  match x.result with
  | .ok a => ⟨x.notes ++ (f a).notes, (f a).result⟩
  | .error fault => ⟨x.notes, .error fault⟩

instance : Monad Logged where
  pure a := ⟨[], .ok a⟩
  bind := bind

def ofExcept (result : Except Fault α) : Logged α := ⟨[], result⟩

instance : MonadLift (Except Fault) Logged := ⟨ofExcept⟩

def noteOf (severity : Severity) (topic : Topic) (text : Except Fault String) : Logged Unit :=
  ⟨[⟨severity, topic, text⟩], .ok ()⟩

def note (severity : Severity) (topic : Topic) (text : String) : Logged Unit :=
  noteOf severity topic (.ok text)

/-- What a reader learns who follows the notes: the first note that cannot be worded ends the
operation. -/
def followed (x : Logged α) : Logged α :=
  match x.notes.findSome? Note.fault? with
  | some fault => ⟨x.notes.takeWhile (·.fault?.isNone), .error fault⟩
  | none => x

@[simp] theorem result_pure (a : α) : (pure a : Logged α).result = .ok a := rfl

@[simp] theorem result_ofExcept (r : Except Fault α) : (ofExcept r).result = r := rfl

@[simp] theorem result_noteOf (severity : Severity) (topic : Topic) (text : Except Fault String) :
    (noteOf severity topic text).result = .ok () := rfl

@[simp] theorem result_note (severity : Severity) (topic : Topic) (text : String) :
    (note severity topic text).result = .ok () := rfl

@[simp] theorem result_bind (x : Logged α) (f : α → Logged β) :
    (x >>= f).result = x.result >>= fun a => (f a).result := by
  change (bind x f).result = _
  unfold bind
  cases x.result <;> rfl

end Logged

end PathAssembly

import LocaleLint.Logging.Entry
import LocaleLint.Text.Surrogate

/-! # Journals

What a run leaves behind besides its result: the texts that it prints and the entries of its log, in one
order. A run that fails leaves what came before the fault. -/

namespace LocaleLint

/-- Something that a run does besides computing. -/
inductive Act where
  | print (text : List Char)
  | log (entry : LogEntry)
  deriving DecidableEq, Repr

namespace Act

def printed : Act → List Char
  | print text => text
  | log _ => []

def logged : Act → List LogEntry
  | print _ => []
  | log entry => [entry]

/-- Whether what an act prints can be written as it is. -/
def isWritable (act : Act) : Bool := Text.isWritable act.printed

end Act

/-- What a run does, in order. -/
structure Journal where
  acts : List Act
  deriving DecidableEq, Repr

namespace Journal

def empty : Journal := ⟨[]⟩

def append (a b : Journal) : Journal := ⟨a.acts ++ b.acts⟩

instance : Append Journal := ⟨append⟩

def printed (journal : Journal) : List Char := journal.acts.flatMap Act.printed

def log (journal : Journal) : List LogEntry := journal.acts.flatMap Act.logged

/-- Whether all that is printed can be written as it is. -/
def isWritable (journal : Journal) : Bool := journal.acts.all Act.isWritable

/-- What is done before the first text that cannot be written. -/
def writable (journal : Journal) : Journal := ⟨journal.acts.takeWhile Act.isWritable⟩

@[simp] theorem acts_append (a b : Journal) : (a ++ b).acts = a.acts ++ b.acts := rfl

@[simp] theorem printed_append (a b : Journal) : (a ++ b).printed = a.printed ++ b.printed :=
  List.flatMap_append

@[simp] theorem log_append (a b : Journal) : (a ++ b).log = a.log ++ b.log := List.flatMap_append

@[simp] theorem append_empty (a : Journal) : a ++ empty = a := congrArg mk (List.append_nil a.acts)

theorem append_assoc (a b c : Journal) : a ++ b ++ c = a ++ (b ++ c) :=
  congrArg mk (List.append_assoc a.acts b.acts c.acts)

def entry (entry : LogEntry) : Journal := ⟨[.log entry]⟩

def prints (texts : List (List Char)) : Journal := ⟨texts.map .print⟩

@[simp] theorem printed_entry (e : LogEntry) : (entry e).printed = [] := rfl

@[simp] theorem log_entry (e : LogEntry) : (entry e).log = [e] := rfl

@[simp] theorem printed_prints (texts : List (List Char)) : (prints texts).printed = texts.flatten := by
  induction texts with
  | nil => rfl
  | cons text rest ih => exact congrArg (text ++ ·) ih

@[simp] theorem log_prints (texts : List (List Char)) : (prints texts).log = [] := by
  induction texts with
  | nil => rfl
  | cons text rest ih => exact ih

end Journal

/-- A run: its journal, and its result or why it has none. -/
structure Run (ε α : Type) where
  journal : Journal
  result : Except ε α

namespace Run

variable {ε α β : Type}

/-- A run that leaves nothing behind. -/
def ofExcept (result : Except ε α) : Run ε α := ⟨.empty, result⟩

/-- A run without a result of interest. -/
def record (journal : Journal) : Run ε Unit := ⟨journal, .ok ()⟩

/-- A run and, if it has a result, another one after it. -/
def bind (run : Run ε α) (next : α → Run ε β) : Run ε β :=
  match run.result with
  | .ok a => ⟨run.journal ++ (next a).journal, (next a).result⟩
  | .error e => ⟨run.journal, .error e⟩

instance : Monad (Run ε) where
  pure a := ofExcept (.ok a)
  bind := bind

/-- A run whose failure is told in other words. -/
def mapError {δ : Type} (f : ε → δ) (run : Run ε α) : Run δ α := ⟨run.journal, run.result.mapError f⟩

/-- Runs one after another up to the first that fails, with the results in order. -/
def forEach (f : α → Run ε β) : List α → Run ε (List β)
  | [] => pure []
  | a :: rest => do
    let b ← f a
    let bs ← forEach f rest
    return b :: bs

end Run

end LocaleLint

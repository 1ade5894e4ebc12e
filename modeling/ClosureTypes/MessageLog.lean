/-!
# Messages

A type that cannot be expressed is no failure: a message is reported and the type is left unknown.
Messages are kept in the order in which they were reported. A sink decides whether they are kept at
all.

`Text.occursIn_iff`: a text occurs in another exactly when it is a contiguous part of it. The empty
text occurs everywhere.
-/

namespace ClosureTypes

namespace Text

/-- The text `part` occurs somewhere in the given characters, without interruption. -/
def occursIn (part : List Char) : List Char → Bool
  | [] => part.isEmpty
  | c :: cs => part.isPrefixOf (c :: cs) || occursIn part cs

theorem occursIn_iff (part cs : List Char) : occursIn part cs = true ↔ part <:+: cs := by
  induction cs with
  | nil => simp [occursIn]
  | cons c cs ih => simp [occursIn, ih, List.infix_cons_iff]

end Text

/-- Messages in the order in which they were reported. -/
structure MessageLog where
  messages : List String := []
  deriving DecidableEq

namespace MessageLog

/-- No message has been reported. -/
def empty : MessageLog := {}

instance : Inhabited MessageLog := ⟨empty⟩

/-- Reports a message after all others. -/
def report (log : MessageLog) (message : String) : MessageLog := ⟨log.messages ++ [message]⟩

/-- The messages of `log`, and after them those of `later`. -/
def append (log later : MessageLog) : MessageLog := ⟨log.messages ++ later.messages⟩

instance : Append MessageLog := ⟨append⟩

/-- How many messages have been reported. -/
def size (log : MessageLog) : Nat := log.messages.length

/-- No message has been reported. -/
def isEmpty (log : MessageLog) : Bool := log.messages.isEmpty

/-- Some message has `part` in it. -/
def contains (log : MessageLog) (part : String) : Bool :=
  log.messages.any fun message => Text.occursIn part.toList message.toList

@[simp] theorem messages_report (log : MessageLog) (message : String) :
    (log.report message).messages = log.messages ++ [message] := rfl

@[simp] theorem messages_append (log later : MessageLog) :
    (log ++ later).messages = log.messages ++ later.messages := rfl

@[simp] theorem size_report (log : MessageLog) (message : String) :
    (log.report message).size = log.size + 1 := by simp [size]

end MessageLog

/-- Where messages go. -/
inductive Sink
  /-- They are dropped. -/
  | silent
  /-- They are kept. -/
  | recording (log : MessageLog)
  deriving DecidableEq

namespace Sink

/-- A sink that keeps messages and holds none yet. -/
def fresh : Sink := recording .empty

/-- The sink after the messages of `log` were reported to it. -/
def receive (log : MessageLog) : Sink → Sink
  | silent => silent
  | recording earlier => recording (earlier ++ log)

/-- The messages that the sink holds. -/
def log : Sink → MessageLog
  | silent => .empty
  | recording log => log

end Sink

end ClosureTypes

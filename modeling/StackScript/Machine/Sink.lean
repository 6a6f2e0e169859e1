/-! Where programs write. A sink takes text and may refuse it, at once or part-way; what it
did with the text shows in its state.
-/

namespace StackScript

/-- A type of sinks: writing gives the new state, and the reason if the write failed. -/
class Sink (σ : Type) where
  write : σ → String → σ × Option String

/-- A sink that keeps text in memory, up to a number of bytes if it is limited. -/
structure Capture where
  text : String
  /-- The bytes that may still be written. -/
  room : Option Nat
  /-- The last character was cut, because the room ended inside it. -/
  broken : Bool
deriving DecidableEq, Repr, Inhabited

namespace Capture

/-- An empty sink with the given room. -/
def empty (room : Option Nat) : Capture := ⟨"", room, false⟩

/-- Adds to `kept` as many characters as there is room for, and tells whether the next one was
cut: some room is left, but less than it needs.
-/
def fill (kept : String) (room : Nat) : List Char → String × Bool
  | [] => (kept, false)
  | c :: rest =>
      if c.utf8Size ≤ room then fill (kept.push c) (room - c.utf8Size) rest
      else (kept, decide (0 < room))

/-- Writes a text as far as there is room for it. -/
def write (sink : Capture) (text : String) : Capture × Option String :=
  match sink.room with
  | none => ({ sink with text := sink.text ++ text }, none)
  | some room =>
      if text.utf8ByteSize ≤ room then
        ({ sink with text := sink.text ++ text, room := some (room - text.utf8ByteSize) }, none)
      else
        let (kept, broken) := fill sink.text room text.toList
        (⟨kept, some 0, sink.broken || broken⟩, some "sink full")

instance : Sink Capture := ⟨write⟩

/-- The text in the sink. The replacement character stands for a character that was cut. -/
def shown (sink : Capture) : String :=
  if sink.broken then sink.text.push '\ufffd' else sink.text

/-- The sink without its text. Its room stays as it is. -/
def drain (sink : Capture) : Capture :=
  ⟨"", sink.room, false⟩

end Capture

end StackScript

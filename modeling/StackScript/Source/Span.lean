/-! Ranges of source text, counted in bytes of its UTF-8 form. -/

namespace StackScript

/-- The bytes from `start` up to but not including `stop`. -/
structure Span where
  start : Nat
  stop : Nat
deriving DecidableEq, Repr, Inhabited

namespace Span

/-- The span of text that has no place in the source. -/
def unknown : Span := ⟨0, 0⟩

/-- The empty span at an offset. -/
def point (offset : Nat) : Span := ⟨offset, offset⟩

/-- The least span that covers two others. -/
def merge (first second : Span) : Span :=
  ⟨min first.start second.start, max first.stop second.stop⟩

end Span

end StackScript

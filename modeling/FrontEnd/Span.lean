/-!
# Regions of a source text

A `Span` says where a token or a node of the tree stands: its bytes, and the line and the column of
its first character. `Located` pairs a value with its region.
-/

namespace FrontEnd

/-- A region of a source text, in UTF-8 bytes. -/
structure Span where
  /-- Number of bytes before the region. -/
  lo : Nat
  /-- Number of bytes in the region. -/
  len : Nat
  /-- Line of the first character, counted from one. -/
  line : Nat
  /-- Number of characters before the first one on its line. -/
  column : Nat
  deriving DecidableEq, Inhabited

namespace Span

/-- Number of bytes before the end of the region. -/
def hi (s : Span) : Nat :=
  s.lo + s.len

/-- The region from the start of `s` to the end of `s` or `t`, whichever is later. -/
def upTo (s t : Span) : Span :=
  { s with len := max t.hi s.hi - s.lo }

@[simp] theorem lo_upTo (s t : Span) : (s.upTo t).lo = s.lo := rfl

@[simp] theorem line_upTo (s t : Span) : (s.upTo t).line = s.line := rfl

@[simp] theorem column_upTo (s t : Span) : (s.upTo t).column = s.column := rfl

@[simp] theorem hi_upTo (s t : Span) : (s.upTo t).hi = max t.hi s.hi := by
  have : s.lo ≤ s.hi := Nat.le_add_right _ _
  simp only [hi, upTo] at *
  omega

/-- The place of the first character, as `line:column`. -/
def place (s : Span) : String :=
  s!"{s.line}:{s.column}"

/-- The place together with the bytes covered. -/
def describe (s : Span) : String :=
  s!"Span({s.place}, {s.lo}..{s.hi})"

end Span

/-- The characters that remain after the first `n` bytes. -/
def dropBytes : Nat → List Char → List Char
  | 0, text => text
  | _ + 1, [] => []
  | n + 1, c :: text => dropBytes (n + 1 - c.utf8Size) text

/-- The characters within the first `n` bytes. -/
def takeBytes : Nat → List Char → List Char
  | 0, _ => []
  | _ + 1, [] => []
  | n + 1, c :: text => c :: takeBytes (n + 1 - c.utf8Size) text

/-- The part of a source text that a region covers. -/
def Span.text (s : Span) (source : String) : String :=
  String.ofList (takeBytes s.len (dropBytes s.lo source.toList))

/-- A value together with the region it belongs to. -/
structure Located (α : Type) where
  value : α
  span : Span
  deriving DecidableEq

end FrontEnd

import LogRelay.Format.Render

/-!
# What formats render to

The text of the formats that the callers here make themselves: an empty one, and the one that shows a text as it is.
-/

namespace LogRelay.Format

@[simp] theorem segments_nil : segments [] = [] := by rw [segments]

@[simp] theorem render_nil (args : List Argument) : render [] args = [] := by
  rw [render, rendered, segments_nil]
  rfl

def Directive.plainText : Directive := ⟨.next, [], none, none, .plain, .text false⟩

theorem segments_plainText : segments (ascii "%s") = [.directive .plainText] := by
  have hr : Directive.read (ascii "s") = (.plainText, []) := by decide
  show segments ('%'.toUInt8 :: ascii "s") = _
  rw [segments, if_pos rfl, hr, segments_nil]

/-- `%s` shows all bytes of its text, whatever they are and wherever they lie. -/
theorem render_plainText (address : UInt64) (bs : Bytes) :
    render (ascii "%s") [.text address bs] = Bytes.untilNul bs := by
  have hs : rendered (ascii "%s") = [(.ordered, .directive .plainText)] := by
    rw [rendered, segments_plainText]
    rfl
  rw [render, hs]
  show Output.toBytes (Field.output (.ofText (Bytes.untilNul bs)) _) ++ [] = _
  simp [Field.output, Field.ofText, Directive.style, Chunk.toBytes, Directive.plainText]

end LogRelay.Format

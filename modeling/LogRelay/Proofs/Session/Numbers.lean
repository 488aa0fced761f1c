import LogRelay.Proofs.Format.Integer
import LogRelay.Proofs.Format.Real
import LogRelay.Proofs.Session.Calls

/-!
# Numbers in messages

A message that is one number is the text of that number wherever it fits the buffer: none of it is cut off or lost on the
way through the bytes of the buffer, and what can be read of it is the number that was passed.
-/

namespace LogRelay

/-- A message that is rendered from plain characters and fits the buffer is these characters. -/
theorem Call.toList_message_of_plain {c : Call} {text : List Char}
    (hr : Format.render c.format.bytes c.args = text.map Char.toUInt8)
    (hp : Format.Plain text) (hfits : text.length ≤ 16383) :
    c.record.message.toList = text := by
  have he : Utf8.encode text = text.map Char.toUInt8 := Utf8.encode_eq_map fun ch hch => (hp ch hch).2
  have hz : 0 ∉ Utf8.encode text := fun h0 => (hp _ ((Utf8.mem_encode (by decide)).1 h0)).1 rfl
  have hlen : (Utf8.encode text).length ≤ 16383 := by rwa [he, List.length_map]
  rw [message_record, hr, ← he, List.take_of_length_le hlen, Bytes.untilNul_eq_self hz, Utf8.decodeCut,
    Utf8.settled_encode, Utf8.map_shown_char, String.toList_ofList]

namespace Session

open Format

variable {s : Session}

/-- A call hands over its text as it is where that is plain and fits the buffer. -/
theorem Wired.hands_over_plain (h : s.Wired) {name : String} {i : Interface}
    (hi : s.interfaces.lookup name = some i) {call : Call} {format : Bytes} (hf : call.format = some format)
    (hz : 0 ∉ format) {args : List Argument} (ha : call.args = args) {text : List Char} (hp : Plain text)
    (hr : render format args = text.map Char.toUInt8) (hfits : text.length ≤ 16383) (now : String) (route : Route) :
    ∃ r, HandsOver s now (.call (some name) route call) i.sink r ∧ r.message.toList = text := by
  refine ⟨_, h.step_call hi now route call, ?_⟩
  rw [Slot.message_taken]
  refine Call.toList_message_of_plain ?_ hp hfits
  rwa [hf, ha, show TextPointer.bytes (some format) = format from Bytes.untilNul_eq_self hz]

/-- The message of one conversion of integers, where it fits, shows the number that the length modifier leaves of the
word. -/
theorem integers_read_back (h : Reached s) {name : String} {i : Interface} (hi : s.interfaces.lookup name = some i)
    (w : WrittenStyle) {m : String × Nat} (hm : m ∈ integerModifiers) {c : IntegerConversion}
    (hc : c ∈ integerConversions) (n : UInt64) {call : Call} (hf : call.format = some (w.format m.1 c.letter))
    (ha : call.args = w.args ++ [.word n]) :
    ∃ p : IntegerParts, p.Shows w c (c.value m.2 n) ∧ ((p.text c).length ≤ 16383 → ∀ now route,
      ∃ r, HandsOver s now (.call (some name) route call) i.sink r ∧ r.message.toList = p.text c) := by
  obtain ⟨p, hp, hplain, hrender⟩ := render_integer w hm hc n
  have hz := zero_not_mem_integerFormat w hm hc
  exact ⟨p, hp, fun hfits => h.wired.hands_over_plain hi hf hz ha hplain (hrender hfits) hfits⟩

/-- The least number of 64 bits, where a negative width takes the place of the flag for zeros and a negative precision
counts as none. -/
theorem integers_read_back_least :
    let i : Interface := ⟨.own 1 .info, 1, "sink"⟩
    let w : WrittenStyle := ⟨['+', '0'], .star (-24), some (.star (-1)), by simp [flagChars], by decide⟩
    let m : String × Nat := ("ll", 64)
    let c : IntegerConversion := ⟨'d', true, 10, []⟩
    let n : UInt64 := 0x8000000000000000
    let call : Call := ⟨3, none, none, 0, none, some (w.format "ll" 'd'), [.word (-24), .word (-1), .word n]⟩
    Reached single ∧ single.interfaces.lookup "main" = some i ∧ m ∈ integerModifiers ∧ c ∈ integerConversions ∧
      call.format = some (w.format m.1 c.letter) ∧ call.args = w.args ++ [.word n] ∧
      ∃ p : IntegerParts, p.Shows w c (c.value m.2 n) ∧ ((p.text c).length ≤ 16383 → ∀ now route,
        ∃ r, HandsOver single now (.call (some "main") route call) i.sink r ∧ r.message.toList = p.text c) := by
  intro i w m c n call
  have hm : m ∈ integerModifiers := by decide
  have hc : c ∈ integerConversions := by decide
  exact ⟨reached_single, lookup_single, hm, hc, rfl, rfl,
    integers_read_back reached_single lookup_single w hm hc n rfl rfl⟩

/-- The message of one conversion of doubles, where it fits, shows the double correctly rounded: in fixed notation to so
many places, in scientific notation to one significant digit more. -/
theorem doubles_correctly_rounded (h : Reached s) {name : String} {i : Interface}
    (hi : s.interfaces.lookup name = some i) {x : Binary64} (hx : x.isFinite = true) (precision : Option WrittenAmount)
    {fixed scientific : Call} (hf : fixed.format = some ((WrittenStyle.bare precision).format "" 'f'))
    (hfa : fixed.args = (WrittenStyle.bare precision).args ++ [.real x])
    (he : scientific.format = some ((WrittenStyle.bare precision).format "" 'e'))
    (hea : scientific.args = (WrittenStyle.bare precision).args ++ [.real x]) :
    let places := (WrittenStyle.bare precision).realPlaces
    (∃ p : DecimalParts, p.Shows places x ∧ (p.text.length ≤ 16383 → ∀ now route,
      ∃ r, HandsOver s now (.call (some name) route fixed) i.sink r ∧ r.message.toList = p.text)) ∧
    ∃ p : ScientificParts, p.Shows places x ∧ (p.text.length ≤ 16383 → ∀ now route,
      ∃ r, HandsOver s now (.call (some name) route scientific) i.sink r ∧ r.message.toList = p.text) := by
  intro places
  constructor
  · obtain ⟨p, hp, hrender⟩ := render_fixed precision hx
    have hc : (Conversion.real .fixed false, 'f'.toUInt8) ∈ Conversion.known := by decide
    have hz := zero_not_mem_realFormat (.bare precision) hc
    exact ⟨p, hp, fun hfits => h.wired.hands_over_plain hi hf hz hfa hp.plain (hrender hfits) hfits⟩
  · obtain ⟨p, hp, hrender⟩ := render_scientific precision hx
    have hc : (Conversion.real .exponent false, 'e'.toUInt8) ∈ Conversion.known := by decide
    have hz := zero_not_mem_realFormat (.bare precision) hc
    exact ⟨p, hp, fun hfits => h.wired.hands_over_plain hi he hz hea hp.plain (hrender hfits) hfits⟩

/-- Minus nine and a half to no places, a tie with a carry in both notations. -/
theorem doubles_correctly_rounded_carry :
    let i : Interface := ⟨.own 1 .info, 1, "sink"⟩
    let x : Binary64 := ⟨0xC023000000000000⟩
    let w : WrittenStyle := .bare (some (.digits [0]))
    let fixed : Call := ⟨3, none, none, 0, none, some (w.format "" 'f'), [.real x]⟩
    let scientific : Call := ⟨3, none, none, 0, none, some (w.format "" 'e'), [.real x]⟩
    Reached single ∧ single.interfaces.lookup "main" = some i ∧ x.isFinite = true ∧
      fixed.format = some (w.format "" 'f') ∧ fixed.args = w.args ++ [.real x] ∧
      scientific.format = some (w.format "" 'e') ∧ scientific.args = w.args ++ [.real x] ∧
      (∃ p : DecimalParts, p.Shows 0 x ∧ (p.text.length ≤ 16383 → ∀ now route,
        ∃ r, HandsOver single now (.call (some "main") route fixed) i.sink r ∧ r.message.toList = p.text)) ∧
      ∃ p : ScientificParts, p.Shows 0 x ∧ (p.text.length ≤ 16383 → ∀ now route,
        ∃ r, HandsOver single now (.call (some "main") route scientific) i.sink r ∧ r.message.toList = p.text) := by
  intro i x w fixed scientific
  have hx : x.isFinite = true := by decide
  exact ⟨reached_single, lookup_single, hx, rfl, rfl, rfl, rfl,
    doubles_correctly_rounded reached_single lookup_single hx (some (.digits [0])) rfl rfl rfl rfl⟩

end Session
end LogRelay

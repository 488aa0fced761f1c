import LogRelay.Proofs.Delivery

/-!
# Truncation

What a reader gets of a message cut short is the front of what it would get of the whole, whatever the bytes: settled
pieces stay settled, and of a character cut off nothing is shown.
-/

namespace LogRelay

theorem TextPointer.cutText_mono {a b : Bytes} (h : a <+: b) : (cutText (some a)).toList <+: (cutText (some b)).toList := by
  rw [cutText_eq, cutText_eq]
  exact Utf8.decodeCut_mono (Bytes.untilNul_mono h)

namespace Call

/-- The message of the call if the buffer had no end. -/
def unboundedMessage (c : Call) : String :=
  TextPointer.cutText (some (Format.render ((c.format.getD []).takeWhile (· ≠ 0)) c.args))

theorem message_prefix (c : Call) : c.record.message.toList <+: c.unboundedMessage.toList := by
  rw [message_record, unboundedMessage, TextPointer.cutText_eq]
  exact Utf8.decodeCut_mono (Bytes.untilNul_mono (List.take_prefix 16383 _))

/-- Cutting the bytes of a text short cuts its reading short, and so with the message that any route delivers: it is the
front of what a buffer without an end would give, and the reading of all bytes in the buffer but those of a character cut
off at their end. -/
theorem reading_shortens {a b : Bytes} (hab : a <+: b) {route : Route} {h : Option Handle} {c : Call} {d : Delivery}
    (hd : route.deliver h c = some d) :
    (TextPointer.cutText (some a)).toList <+: (TextPointer.cutText (some b)).toList ∧
      d.record.message.toList <+: c.unboundedMessage.toList ∧
      ∃ whole tail, ((Format.render ((c.format.getD []).takeWhile (· ≠ 0)) c.args).take 16383).takeWhile (· ≠ 0) =
          whole ++ tail ∧
        tail.length ≤ 3 ∧ (tail = [] ∨ Utf8.Incomplete tail) ∧ Utf8.Reads whole d.record.message := by
  have hm : d.record.message = c.record.message := by
    rw [Route.record_of_deliver hd, Slot.message_taken]
  refine ⟨TextPointer.cutText_mono hab, hm ▸ c.message_prefix, ?_⟩
  obtain ⟨whole, tail, hw, hl, ht, he⟩ :=
    Utf8.exists_decodeCut_eq (Bytes.untilNul ((Format.render c.format.bytes c.args).take 16383))
  refine ⟨whole, tail, hw, hl, ht, ?_⟩
  rw [hm, message_record, he]
  exact Utf8.reads_decode whole

theorem message_within_character {c : Call} {address : UInt64} (hf : c.format = some (Format.ascii "%s"))
    (ha : c.args = [.text address (Utf8.encode (List.replicate 16382 'a' ++ ['é']))]) :
    c.record.message = String.ofList (List.replicate 16382 'a') := by
  have h0 : '\x00' ∉ List.replicate 16382 'a' ++ ['é'] := by
    rw [List.mem_append, List.mem_replicate]
    decide
  have hr : Format.render c.format.bytes c.args = Utf8.encode (List.replicate 16382 'a' ++ ['é']) := by
    rw [hf, ha]
    refine (Format.render_plainText address _).trans (Bytes.untilNul_eq_self fun h => h0 ?_)
    exact (Utf8.mem_encode (by decide)).1 h
  have hl := Utf8.longestWithin_append (n := 16383) (p := List.replicate 16382 'a') (c := 'é') []
    (by rw [Utf8.length_encode_replicate]; decide) (by rw [Utf8.length_encode_replicate]; decide)
  rw [← String.toList_inj, String.toList_ofList]
  exact (longestWithin_message hr h0).eq hl

/-- Here the buffer ends inside the last character, so that the message is what comes before that one. -/
theorem reading_shortens_within_character :
    let c : Call := ⟨3, none, none, 0, none, some (Format.ascii "%s"),
      [.text 0x1000 (Utf8.encode (List.replicate 16382 'a' ++ ['é']))]⟩
    let d : Delivery := ⟨1, ⟨.info, none, "", 0, "", String.ofList (List.replicate 16382 'a')⟩⟩
    ([0x61, 0xC3] : Bytes) <+: [0x61, 0xC3, 0xA9] ∧ (Route.direct .log).deliver (some (.own 1 .info)) c = some d ∧
      (TextPointer.cutText (some [0x61, 0xC3])).toList <+: (TextPointer.cutText (some [0x61, 0xC3, 0xA9])).toList ∧
      d.record.message.toList <+: c.unboundedMessage.toList ∧
      ∃ whole tail, ((Format.render ((c.format.getD []).takeWhile (· ≠ 0)) c.args).take 16383).takeWhile (· ≠ 0) =
          whole ++ tail ∧
        tail.length ≤ 3 ∧ (tail = [] ∨ Utf8.Incomplete tail) ∧ Utf8.Reads whole d.record.message := by
  intro c d
  have hab : ([0x61, 0xC3] : Bytes) <+: [0x61, 0xC3, 0xA9] := by decide
  have hd : (Route.direct .log).deliver (some (.own 1 .info)) c = some d := by
    have hr : (Slot.log.taken c).record = d.record := by
      refine Record.ext rfl rfl rfl rfl rfl ?_
      rw [Slot.message_taken]
      exact message_within_character rfl rfl
    rw [Route.deliver_own, Route.slot, hr]
  exact ⟨hab, hd, reading_shortens hab hd⟩

end Call
end LogRelay

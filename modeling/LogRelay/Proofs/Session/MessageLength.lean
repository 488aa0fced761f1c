import LogRelay.Proofs.Gate
import LogRelay.Proofs.Session.Change
import LogRelay.Proofs.Session.Clients

/-!
# The length of messages

The buffer bounds the bytes of a message before they are decoded. Each invalid piece among them then gives way to three
bytes, so that only the messages that are text throughout keep to the bound.
-/

namespace LogRelay

namespace Call

/-- The bytes of the message. -/
def bufferedText (c : Call) : Bytes := Bytes.untilNul ((Format.render c.format.bytes c.args).take 16383)

theorem bufferedText_front (c : Call) : c.bufferedText <+: Format.render c.format.bytes c.args :=
  (List.takeWhile_prefix _).trans (List.take_prefix 16383 _)

theorem length_bufferedText_le (c : Call) : c.bufferedText.length ≤ 16383 :=
  (List.takeWhile_prefix _).length_le.trans (List.length_take_le 16383 _)

theorem toList_message (c : Call) : c.record.message.toList = (Utf8.settled c.bufferedText).map Utf8.Piece.shown := by
  rw [message_record, Utf8.decodeCut, String.toList_ofList]
  rfl

theorem size_message (c : Call) :
    c.record.message.utf8ByteSize = (Utf8.encode ((Utf8.settled c.bufferedText).map Utf8.Piece.shown)).length := by
  rw [← Utf8.length_ofText, Utf8.ofText, toList_message]

end Call

theorem Route.message_of_deliver {route : Route} {h : Option Handle} {c : Call} {d : Delivery}
    (hd : route.deliver h c = some d) : d.record.message = c.record.message := by
  rw [record_of_deliver hd, Slot.message_taken]

namespace Session

variable {s : Session} {now : String} {x : Step} {c : Call}

/-- The call that a step makes. -/
def call? : Step → Option Call
  | .call _ _ c => some c
  | .send _ r => some (Client.call r)
  | .guarded _ g => some (Client.call g.record)
  | _ => none

theorem logs_of_call? (hx : call? x = some c) : Logs x := by
  cases x with
  | call | send | guarded => trivial
  | _ => cases hx

theorem message_of_delivery {d : Delivery} (hx : call? x = some c) (hd : s.delivery? x = some d) :
    d.record.message = c.record.message := by
  cases x with
  | call on route =>
    obtain rfl := Option.some.inj hx
    cases on with
    | none => exact Route.message_of_deliver hd
    | some name =>
      obtain ⟨h, -, hd⟩ := Option.bind_eq_some_iff.1 hd
      exact Route.message_of_deliver hd
  | send client r =>
    obtain rfl := Option.some.inj hx
    obtain ⟨cl, -, hd⟩ := Option.bind_eq_some_iff.1 hd
    rw [(Client.eq_of_send hd).2]
  | guarded client g =>
    obtain rfl := Option.some.inj hx
    obtain ⟨cl, -, hd⟩ := Option.bind_eq_some_iff.1 hd
    rw [Client.expand_eq] at hd
    split at hd
    · rw [(Client.eq_of_send hd).2]
    · cases hd
  | _ => cases hx

/-- Whichever way a call goes, the message that arrives is that of the call. -/
theorem message_of_handOver {h : HandOver} (hx : call? x = some c) (hh : s.handOver? now x = some h) :
    h.record.message = c.record.message := by
  obtain ⟨d, hd, hr⟩ := delivery_of_handOver (logs_of_call? hx) hh
  rw [hr, message_of_delivery hx hd]

/-- How long the message is that a call hands to a sink: as long as the bytes in the buffer, without a character cut off
at their end, and with three bytes for each invalid piece in place of its own. The bound of the buffer holds for calls
that render text, clients' among them, and where no piece is invalid; three times that bound holds for all. -/
theorem size_of_message {h : HandOver} (hx : call? x = some c) (hh : s.handOver? now x = some h) :
    let rendered := Format.render c.format.bytes c.args
    ∃ whole tail ps, Bytes.untilNul (rendered.take 16383) = whole ++ tail ∧ (tail = [] ∨ Utf8.Incomplete tail) ∧
      Utf8.Cuts whole ps ∧ h.record.message.toList = ps.map Utf8.Piece.shown ∧
      let invalid := ps.filterMap Utf8.Piece.invalid?
      h.record.message.utf8ByteSize + invalid.flatten.length = whole.length + 3 * invalid.length ∧
        h.record.message.utf8ByteSize ≤ 3 * 16383 ∧ (invalid = [] → h.record.message.utf8ByteSize ≤ 16383) ∧
        ((∃ text, rendered = Utf8.ofText text) ∨ (∃ r, c = Client.call r) → invalid = []) := by
  intro rendered
  obtain ⟨whole, tail, hw, -, ht, hc⟩ := Utf8.exists_cuts_settled c.bufferedText
  have hlen : whole.length ≤ 16383 := by
    have hle := c.length_bufferedText_le
    rw [hw, List.length_append] at hle
    omega
  rw [message_of_handOver hx hh]
  refine ⟨whole, tail, Utf8.settled c.bufferedText, hw, ht, hc, c.toList_message, ?_⟩
  rw [c.size_message]
  have heq := hc.length_encode
  have hle := hc.length_encode_le
  refine ⟨heq, by omega, fun hi => ?_, fun htext => ?_⟩
  · rw [hi, List.flatten_nil, List.length_nil, List.length_nil] at heq
    omega
  · obtain ⟨text, ht⟩ : ∃ text, rendered = Utf8.ofText text := by
      rcases htext with ht | ⟨r, rfl⟩
      · exact ht
      · exact ⟨_, Client.render_call r⟩
    have hf := c.bufferedText_front
    rw [show Format.render c.format.bytes c.args = _ from ht] at hf
    exact Utf8.invalid_settled_of_front hf

/-- A euro sign that lacks its last byte. -/
theorem size_of_message_brokenSign :
    let c : Call := ⟨3, none, some (Format.ascii "a.c"), 1, some (Format.ascii "f"), some (Format.ascii "%s"),
      [.text 0x1000 [0x61, 0xE2, 0x82, 0x62]]⟩
    let x : Step := .call (some "main") (.helper .logt) c
    let h : HandOver := ⟨"", "sink", .recorder ⟨fun _ => false, []⟩, c.record⟩
    let rendered := Format.render c.format.bytes c.args
    call? x = some c ∧ single.handOver? "" x = some h ∧
      ∃ whole tail ps, Bytes.untilNul (rendered.take 16383) = whole ++ tail ∧ (tail = [] ∨ Utf8.Incomplete tail) ∧
        Utf8.Cuts whole ps ∧ h.record.message.toList = ps.map Utf8.Piece.shown ∧
        let invalid := ps.filterMap Utf8.Piece.invalid?
        h.record.message.utf8ByteSize + invalid.flatten.length = whole.length + 3 * invalid.length ∧
          h.record.message.utf8ByteSize ≤ 3 * 16383 ∧ (invalid = [] → h.record.message.utf8ByteSize ≤ 16383) ∧
          ((∃ text, rendered = Utf8.ofText text) ∨ (∃ r, c = Client.call r) → invalid = []) := by
  intro c x h rendered
  have hh : single.handOver? "" x = some h := rfl
  exact ⟨rfl, hh, size_of_message rfl hh⟩

/-- A call whose text is `n` bytes that no character begins with. -/
def undecodable (n : Nat) : Call :=
  ⟨3, none, some (Format.ascii "a.c"), 1, some (Format.ascii "f"), some (Format.ascii "%s"),
    [.text 0x1000 (List.replicate n 0xFF)]⟩

theorem settled_replicate (n : Nat) :
    Utf8.settled (List.replicate n 0xFF) = List.replicate n (.invalid [0xFF]) := by
  have hr : Utf8.read [0xFF] = ⟨[.invalid [0xFF]], none⟩ := by decide
  induction n with
  | zero => rfl
  | succ n ih =>
    rw [List.replicate_succ, ← List.singleton_append, Utf8.settled_append_of_settled hr, ih, List.replicate_succ]

theorem bufferedText_undecodable {n : Nat} (hn : n ≤ 16383) :
    (undecodable n).bufferedText = List.replicate n 0xFF := by
  have h0 : 0 ∉ List.replicate n (0xFF : UInt8) := fun h => by simpa using List.eq_of_mem_replicate h
  show Bytes.untilNul ((Format.render (Format.ascii "%s") [.text 0x1000 (List.replicate n 0xFF)]).take 16383) = _
  rw [Format.render_plainText, Bytes.untilNul_eq_self h0, List.take_of_length_le (by simpa using hn),
    Bytes.untilNul_eq_self h0]

theorem size_message_undecodable {n : Nat} (hn : n ≤ 16383) :
    (undecodable n).record.message.utf8ByteSize = 3 * n := by
  rw [Call.size_message, bufferedText_undecodable hn, settled_replicate, List.map_replicate, Utf8.Piece.shown,
    Utf8.length_encode_replicate, Utf8.length_encode_replacement, Nat.mul_comm]

/-- With 5462 such bytes the message is longer than the buffer, which has room for 16383. -/
theorem message_beyond_buffer :
    let x : Step := .call (some "main") (.direct .log) (undecodable 5462)
    Reached single ∧ ∃ h : HandOver, single.handOver? "" x = some h ∧ h.name = "sink" ∧
      h.record.message.utf8ByteSize = 16386 ∧ ¬ h.record.message.utf8ByteSize ≤ 16383 := by
  intro x
  have hs : (undecodable 5462).record.message.utf8ByteSize = 16386 := size_message_undecodable (by decide)
  let h : HandOver := ⟨"", "sink", .recorder ⟨fun _ => false, []⟩, (undecodable 5462).record⟩
  refine ⟨reached_single, h, rfl, rfl, hs, ?_⟩
  rw [hs]
  decide

end Session
end LogRelay

import LogRelay.Proofs.Session.Clients
import LogRelay.Proofs.Session.MessageLength

/-!
# Relaying

A program that gets a record may pass it on through a client of its own. What then arrives has lost what the way through
a call cannot carry: the texts behind a NUL, the upper half of the line numbers, the end of a long message, the version of
the topic. All that is lost at once, so relaying again changes nothing: `Relayable` says which records come through as
they are, and whatever was relayed is one of them. A record that came out of a call has only its topic's version and the
end of its message to lose (`Trimmed`).
-/

namespace LogRelay

theorem untilNulChar_eq_self {s : String} (h : '\x00' ∉ s.toList) : untilNulChar s = s := by
  rw [untilNulChar, takeWhile_eq_self_of_nul_not_mem h, String.ofList_toList]

namespace TextPointer

theorem zero_not_mem_bytes (p : TextPointer) : 0 ∉ p.bytes := by
  intro h
  simpa using List.mem_takeWhile_imp h

theorem nul_not_mem_text (p : TextPointer) : '\x00' ∉ p.text.toList := fun h =>
  p.zero_not_mem_bytes (Utf8.mem_of_mem_decode (by decide) h)

theorem nul_not_mem_cutText (p : TextPointer) : '\x00' ∉ p.cutText.toList := fun h =>
  p.zero_not_mem_bytes (Utf8.mem_of_mem_decodeCut (by decide) (p.cutText_eq ▸ h))

end TextPointer

namespace Record

/-- The record that arrives where a client of an interface passes `r` on. -/
def relayed (r : Record) : Record := (Client.call r).record

/-- The record `r` has nothing to lose on the way. -/
structure Relayable (r : Record) : Prop where
  topic : ∀ t, r.topic = some t → '\x00' ∉ t.name.toList ∧ t.version = Topic.currentVersion
  file : '\x00' ∉ r.file.toList
  line : r.line.toNat ≤ 2 ^ 31 - 1
  func : '\x00' ∉ r.func.toList
  message : '\x00' ∉ r.message.toList
  size : r.message.utf8ByteSize ≤ 16383

/-- The record `r'` is `r` but for the version of the topic and for the message, of which it has the longest part that
ends at a character and has at most 16383 bytes. -/
structure Trimmed (r r' : Record) : Prop where
  level : r'.level = r.level
  topic : r'.topic = r.topic.map fun t => { t with version := Topic.currentVersion }
  file : r'.file = r.file
  line : r'.line = r.line
  func : r'.func = r.func
  message : Utf8.LongestWithin 16383 r.message.toList r'.message.toList

variable {r r' : Record}

/-! ## What comes through -/

theorem relayable_of_passedAs (h : r.PassedAs r') : r'.Relayable where
  topic t ht := by
    rw [h.topic] at ht
    obtain ⟨t', -, rfl⟩ := Option.map_eq_some_iff.1 ht
    exact ⟨nul_not_mem_untilNulChar t'.name, rfl⟩
  file := h.file ▸ nul_not_mem_untilNulChar r.file
  line := by
    rw [h.line]
    exact Nat.min_le_right _ _
  func := h.func ▸ nul_not_mem_untilNulChar r.func
  message h0 := nul_not_mem_takeWhile r.message.toList (h.message.front.subset h0)
  size := by
    rw [← Utf8.length_ofText]
    exact h.message.fits

/-- Where no text holds a NUL and the line number is in range, only the topic's version and the message's end are lost. -/
theorem trimmed_of_passedAs (h : r.PassedAs r') (htopic : ∀ t, r.topic = some t → '\x00' ∉ t.name.toList)
    (hfile : '\x00' ∉ r.file.toList) (hline : r.line.toNat ≤ 2 ^ 31 - 1) (hfunc : '\x00' ∉ r.func.toList)
    (hmessage : '\x00' ∉ r.message.toList) : r.Trimmed r' where
  level := h.level
  topic := by
    rw [h.topic]
    refine Option.map_congr fun t ht => ?_
    rw [← untilNulChar, untilNulChar_eq_self (htopic t ht)]
  file := h.file.trans (untilNulChar_eq_self hfile)
  line := by
    rw [← UInt32.toNat_inj, h.line]
    exact Nat.min_eq_left hline
  func := h.func.trans (untilNulChar_eq_self hfunc)
  message := by
    have hm := h.message
    rwa [takeWhile_eq_self_of_nul_not_mem hmessage] at hm

theorem Relayable.eq_of_passedAs (hr : r.Relayable) (h : r.PassedAs r') : r' = r := by
  have ht := trimmed_of_passedAs h (fun t ht => (hr.topic t ht).1) hr.file hr.line hr.func hr.message
  have htopic : r'.topic = r.topic := by
    rw [ht.topic]
    cases htt : r.topic with
    | none => rfl
    | some t => rw [Option.map_some, ← (hr.topic t htt).2]
  have hmessage : r'.message = r.message := by
    have hfits : (Utf8.encode r.message.toList).length ≤ 16383 := by
      rw [← Utf8.ofText, Utf8.length_ofText]
      exact hr.size
    exact String.toList_inj.1 (ht.message.eq_of_fits hfits)
  obtain ⟨level, topic, file, line, func, message⟩ := r'
  obtain rfl : level = r.level := ht.level
  obtain rfl : topic = r.topic := htopic
  obtain rfl : file = r.file := ht.file
  obtain rfl : line = r.line := ht.line
  obtain rfl : func = r.func := ht.func
  obtain rfl : message = r.message := hmessage
  rfl

theorem passedAs_relayed (r : Record) : r.PassedAs r.relayed := Client.passedAs_record r

theorem relayable_relayed (r : Record) : r.relayed.Relayable := relayable_of_passedAs r.passedAs_relayed

theorem relayed_eq_self_iff (r : Record) : r.relayed = r ↔ r.Relayable := by
  constructor
  · intro h
    rw [← h]
    exact r.relayable_relayed
  · intro h
    exact h.eq_of_passedAs r.passedAs_relayed

/-- A record that came out of a call holds no NUL, and its line number was a signed one. -/
theorem trimmed_record (raw : RawRecord) : raw.record.Trimmed raw.record.relayed := by
  refine trimmed_of_passedAs raw.record.passedAs_relayed (fun t ht => ?_) raw.file.nul_not_mem_text ?_
    raw.func.nul_not_mem_text raw.message.nul_not_mem_cutText
  · obtain ⟨t', -, rfl⟩ := Option.map_eq_some_iff.1 ht
    exact t'.name.nul_not_mem_text
  · have hl : (raw.record.line.toNat : Int) = max raw.line.toInt 0 := toNat_lineOfInt raw.line
    have hlt : raw.line.toInt < 2 ^ 31 := raw.line.toInt_lt
    omega

end Record

namespace Session

variable {s : Session}

/-- What a call hands over is a record that raw fields stand for. -/
theorem exists_raw_of_handOver {now : String} {on : Option String} {route : Route} {c : Call} {h : HandOver}
    (hh : s.handOver? now (.call on route c) = some h) : ∃ raw : RawRecord, h.record = raw.record := by
  have hx : Logs (.call on route c) := trivial
  obtain ⟨d, hd, hr⟩ := delivery_of_handOver hx hh
  refine ⟨(route.slot.taken c).raw, hr.trans ?_⟩
  cases on with
  | none => exact Route.record_of_deliver hd
  | some name =>
    obtain ⟨o, -, hd⟩ := Option.bind_eq_some_iff.1 hd
    exact Route.record_of_deliver hd

/-- Whatever record a client of a live interface passes on, what the sink gets is the record relayed. Relaying twice is
relaying once, and what it leaves as it is are the records that are `Relayable`. Of a record that came out of a call, in
this program or another, it changes the topic's version and cuts the message to the length of the buffer, and nothing
else. -/
theorem relaying_is_projection (h : Reached s) {name client : String} {i : Interface} (hi : (name, i) ∈ s.interfaces)
    {cl : Derived Client} (hc : s.clients.lookup client = some cl) (ho : cl.value.handle = i.handle) :
    (∀ now r, HandsOver s now (.send client r) i.sink r.relayed) ∧
    (∀ r : Record, r.relayed.relayed = r.relayed) ∧
    (∀ r : Record, r.relayed = r ↔ r.Relayable) ∧
    (∀ (t : Session) now on route c ho, t.handOver? now (.call on route c) = some ho →
      ho.record.Trimmed ho.record.relayed) ∧
    ∀ raw : RawRecord, raw.record.Trimmed raw.record.relayed := by
  refine ⟨fun now r => h.wired.step_send hi hc ho now r, fun r => ?_, Record.relayed_eq_self_iff,
    fun t now on route c ho hh => ?_, Record.trimmed_record⟩
  · exact (Record.relayed_eq_self_iff r.relayed).2 r.relayable_relayed
  · obtain ⟨raw, hr⟩ := exists_raw_of_handOver hh
    rw [hr]
    exact Record.trimmed_record raw

/-- A record that loses something of every field but its level, and the record of a call whose message has outgrown the
buffer on the way here. -/
theorem relaying_is_projection_single :
    let s := (single.step "" (.ownClient "client" "main")).1
    let i : Interface := ⟨.own 1 .info, 1, "sink"⟩
    let cl : Derived Client := ⟨some "main", .ofOwn (.own 1 .info)⟩
    let r : Record := ⟨.trace, some ⟨7, "net\x00work", .debug, true⟩, "a\x00.c", 4294967295, "f\x00", "100%\x00s"⟩
    let arrived : Record := (undecodable 5462).record
    Reached s ∧ ("main", i) ∈ s.interfaces ∧ s.clients.lookup "client" = some cl ∧ cl.value.handle = i.handle ∧
      (∀ now, HandsOver s now (.send "client" r) "sink" r.relayed) ∧ r.relayed.relayed = r.relayed ∧ r.relayed ≠ r ∧
      (∃ ho : HandOver, single.handOver? "" (.call (some "main") (.direct .log) (undecodable 5462)) = some ho ∧
        ho.record = arrived ∧ ho.record.Trimmed ho.record.relayed) ∧
      arrived.message.utf8ByteSize = 16386 := by
  intro s i cl r arrived
  have h : Reached s := reached_single.step "" (.ownClient "client" "main")
  have hi : ("main", i) ∈ s.interfaces := mem_of_lookup lookup_single
  have hc : s.clients.lookup "client" = some cl := rfl
  obtain ⟨hsent, htwice, hfixed, harrived, -⟩ := relaying_is_projection h hi hc rfl
  have hh : single.handOver? "" (.call (some "main") (.direct .log) (undecodable 5462)) =
      some ⟨"", "sink", .recorder ⟨fun _ => false, []⟩, arrived⟩ := rfl
  refine ⟨h, hi, hc, rfl, fun now => hsent now r, htwice r, fun hr => ?_, ⟨_, hh, rfl, harrived _ _ _ _ _ _ hh⟩,
    size_message_undecodable (by decide)⟩
  exact ((hfixed r).1 hr).file (by decide)

end Session
end LogRelay

import LogRelay.Interface
import LogRelay.Proofs.Format.Render
import LogRelay.Proofs.Utf8.Chunks
import LogRelay.Proofs.Utf8.Encoded

/-!
# What calls deliver

All routes of a call end in a method, and all methods make the record of the call, with its topic or without. On the
handle of an interface no route is closed (`Route.deliver_own`). `Call.Records` says which record a call stands for,
field by field, without a look at how the record is made: what is behind a pointer counts up to its first NUL, and a null
pointer is as good as one to nothing.
-/

namespace LogRelay

theorem Level.ordinal_ofWord (w : UInt32) : (ofWord w).ordinal = min w.toNat 5 := by
  have key (n : Nat) : ((ofOrdinal? n).getD trace).ordinal = min n 5 := by
    match n with
    | 0 | 1 | 2 | 3 | 4 | 5 => rfl
    | n + 6 =>
      have hn : ofOrdinal? (n + 6) = none := List.getElem?_eq_none (by simp [all])
      rw [hn, Nat.min_eq_right (by omega)]
      rfl
  exact key w.toNat

/-- The topic `t'` that a descriptor `t` stands for. -/
structure RawTopic.Denotes (t : RawTopic) (t' : Topic) : Prop where
  version : t'.version = t.version
  name : Utf8.Reads ((t.name.getD []).takeWhile (· ≠ 0)) t'.name
  level : t'.level.ordinal = min t.level.toNat 5
  custom : t'.custom = true ↔ t.custom ≠ 0

theorem RawTopic.denotes_topic (t : RawTopic) : t.Denotes t.topic where
  version := rfl
  name := Utf8.reads_decode _
  level := Level.ordinal_ofWord _
  custom := by simp [RawTopic.topic]

/-- The record `r` that a call stands for where its topic counts. The message is what the buffer holds of the rendering,
up to the first NUL in it. -/
structure Call.Records (c : Call) (r : Record) : Prop where
  level : r.level.ordinal = min c.level.toNat 5
  noTopic : c.topic = none → r.topic = none
  topic : ∀ t, c.topic = some t → ∃ t', r.topic = some t' ∧ t.Denotes t'
  file : Utf8.Reads ((c.file.getD []).takeWhile (· ≠ 0)) r.file
  nullFile : c.file = none → r.file = ""
  line : (r.line.toNat : Int) = max c.line.toInt 0
  func : Utf8.Reads ((c.func.getD []).takeWhile (· ≠ 0)) r.func
  nullFunc : c.func = none → r.func = ""
  message : Utf8.ReadsCut
    (((Format.render ((c.format.getD []).takeWhile (· ≠ 0)) c.args).take 16383).takeWhile (· ≠ 0)) r.message
  nullFormat : c.format = none → r.message = ""

theorem RawTopic.Denotes.eq_topic {t : RawTopic} {t' : Topic} (h : t.Denotes t') : t' = t.topic := by
  have hcustom : t'.custom = decide (t.custom ≠ 0) := Bool.eq_iff_iff.2 (h.custom.trans decide_eq_true_iff.symm)
  exact Topic.ext h.version (Utf8.reads_iff.1 h.name)
    (Level.ordinal_injective (h.level.trans (Level.ordinal_ofWord _).symm)) hcustom

@[simp] theorem TextPointer.bytes_none : bytes none = [] := rfl

@[simp] theorem TextPointer.text_none : text none = "" := rfl

theorem toNat_lineOfInt (n : Int32) : ((UInt32.ofNat n.toInt.toNat).toNat : Int) = max n.toInt 0 := by
  have hlt : n.toInt < 2 ^ 31 := n.toInt_lt
  rw [UInt32.toNat_ofNat_of_lt' (show n.toInt.toNat < 2 ^ 32 by omega)]
  omega

namespace Call

@[simp] theorem level_record (c : Call) : c.record.level = .ofWord c.level := rfl

@[simp] theorem topic_record (c : Call) : c.record.topic = c.topic.map RawTopic.topic := rfl

@[simp] theorem file_record (c : Call) : c.record.file = c.file.text := rfl

@[simp] theorem line_record (c : Call) : c.record.line = UInt32.ofNat c.line.toInt.toNat := rfl

@[simp] theorem func_record (c : Call) : c.record.func = c.func.text := rfl

theorem withoutTopic_eq {c : Call} (h : c.topic = none) : c.withoutTopic = c := by
  rw [withoutTopic, ← h]

theorem message_record (c : Call) :
    c.record.message = Utf8.decodeCut (Bytes.untilNul ((Format.render c.format.bytes c.args).take 16383)) := by
  show TextPointer.cutText (some (Format.buffered c.format c.args)) = _
  rw [TextPointer.cutText_eq, TextPointer.bytes, Option.getD_some, Format.buffered_eq, Bytes.untilNul_untilNul]
  rfl

/-- The message of a call that renders to text without a NUL. -/
theorem longestWithin_message {c : Call} {cs : List Char} (h : Format.render c.format.bytes c.args = Utf8.encode cs)
    (h0 : '\x00' ∉ cs) : Utf8.LongestWithin 16383 cs c.record.message.toList := by
  have hz : 0 ∉ (Utf8.encode cs).take 16383 := fun hm => h0 ((Utf8.mem_encode (by decide)).1 (List.mem_of_mem_take hm))
  rw [message_record, h, Bytes.untilNul_eq_self hz]
  exact Utf8.longestWithin_decodeCut 16383 cs

theorem records_record (c : Call) : c.Records c.record where
  level := Level.ordinal_ofWord _
  noTopic h := by simp [h]
  topic t h := ⟨t.topic, by simp [h], t.denotes_topic⟩
  file := Utf8.reads_decode _
  nullFile h := by simp [h]
  line := toNat_lineOfInt c.line
  func := Utf8.reads_decode _
  nullFunc h := by simp [h]
  message := by
    rw [message_record]
    exact Utf8.reads_decodeCut _
  nullFormat h := by
    rw [message_record, h, TextPointer.bytes_none, Format.render_nil, List.take_nil]
    rfl

/-- A call stands for one record only. -/
theorem Records.eq_record {c : Call} {r : Record} (h : c.Records r) : r = c.record := by
  have htopic : r.topic = c.record.topic := by
    rw [topic_record]
    cases ht : c.topic with
    | none => exact h.noTopic ht
    | some t =>
      obtain ⟨t', hr, hd⟩ := h.topic t ht
      rw [hr, hd.eq_topic, Option.map_some]
  have hline : (r.line.toNat : Int) = (c.record.line.toNat : Int) := h.line.trans (toNat_lineOfInt c.line).symm
  have hmessage : r.message = c.record.message := by
    rw [message_record, ← Utf8.decodeChunks_eq]
    exact h.message.eq_decodeChunks
  exact Record.ext (Level.ordinal_injective (h.level.trans (Level.ordinal_ofWord _).symm)) htopic
    (Utf8.reads_iff.1 h.file) (UInt32.toNat_inj.1 (Int.ofNat.inj hline)) (Utf8.reads_iff.1 h.func) hmessage

end Call

/-! ## Routes -/

/-- The slot that a route leads to. -/
def Route.slot : Route → Slot
  | table slot => slot
  | direct slot => slot
  | helper slot => slot

/-- The call as a method takes it up. -/
def Slot.taken (s : Slot) (c : Call) : Call := if s.takesTopic then c else c.withoutTopic

theorem Methods.slot?_own (s : Slot) : own.slot? s = some s := by cases s <;> rfl

theorem Slot.deliver_some (s : Slot) (id : ReceiverId) (c : Call) :
    s.deliver (some id) c = some ⟨id, (s.taken c).record⟩ := rfl

theorem Slot.record_of_deliver {s : Slot} {receiver : Option ReceiverId} {c : Call} {d : Delivery}
    (h : s.deliver receiver c = some d) : d.record = (s.taken c).record := by
  obtain ⟨id, -, rfl⟩ := Option.map_eq_some_iff.1 h
  rfl

theorem Slot.receiver_of_deliver {slot : Slot} {receiver : Option ReceiverId} {c : Call} {d : Delivery}
    (hd : slot.deliver receiver c = some d) : receiver = some d.receiver := by
  obtain ⟨id, rfl, rfl⟩ := Option.map_eq_some_iff.1 hd
  rfl

theorem Methods.eq_of_slot? {m : Methods} {s t : Slot} (h : m.slot? s = some t) : t = s := by
  unfold slot? at h
  split at h
  · exact (Option.some.inj h).symm
  · cases h

namespace Route

/-- On the handle of an interface every route is open. -/
theorem deliver_own (route : Route) (id : ReceiverId) (level : Level) (c : Call) :
    route.deliver (some (.own id level)) c = some ⟨id, (route.slot.taken c).record⟩ := by
  cases route with
  | table slot =>
    show (Methods.own.slot? slot).bind (fun s => s.deliver (some id) c) = _
    rw [Methods.slot?_own]
    rfl
  | direct slot => rfl
  | helper slot =>
    show (Methods.own.slot? slot).bind (fun s => s.deliver (some id) c) = _
    rw [Methods.slot?_own]
    rfl

/-- Whatever the handle, what arrives is the record of the call as the route's method takes it up. -/
theorem record_of_deliver {route : Route} {h : Option Handle} {c : Call} {d : Delivery}
    (hd : route.deliver h c = some d) : d.record = (route.slot.taken c).record := by
  cases route with
  | table slot =>
    obtain ⟨h, -, hd⟩ := Option.bind_eq_some_iff.1 hd
    obtain ⟨m, -, hd⟩ := Option.bind_eq_some_iff.1 hd
    obtain ⟨t, ht, hd⟩ := Option.bind_eq_some_iff.1 hd
    rw [Methods.eq_of_slot? ht] at hd
    exact Slot.record_of_deliver hd
  | direct slot =>
    obtain ⟨h, -, hd⟩ := Option.bind_eq_some_iff.1 hd
    exact Slot.record_of_deliver hd
  | helper slot =>
    obtain ⟨m, -, hd⟩ := Option.bind_eq_some_iff.1 hd
    obtain ⟨t, ht, hd⟩ := Option.bind_eq_some_iff.1 hd
    obtain ⟨h, -, hd⟩ := Option.bind_eq_some_iff.1 hd
    rw [Methods.eq_of_slot? ht] at hd
    exact Slot.record_of_deliver hd

theorem receiver_of_deliver {route : Route} {h : Handle} {c : Call} {d : Delivery}
    (hd : route.deliver (some h) c = some d) : h.receiver = some d.receiver := by
  cases route with
  | table slot =>
    obtain ⟨m, -, hd⟩ := Option.bind_eq_some_iff.1 hd
    obtain ⟨t, -, hd⟩ := Option.bind_eq_some_iff.1 hd
    exact Slot.receiver_of_deliver hd
  | direct slot => exact Slot.receiver_of_deliver hd
  | helper slot =>
    obtain ⟨m, -, hd⟩ := Option.bind_eq_some_iff.1 hd
    obtain ⟨t, -, hd⟩ := Option.bind_eq_some_iff.1 hd
    exact Slot.receiver_of_deliver hd

end Route

theorem Slot.message_taken (s : Slot) (c : Call) : (s.taken c).record.message = c.record.message := by
  unfold taken
  split <;> rfl

end LogRelay

import LogRelay.Proofs.Session.Handing
import Mathlib.Algebra.Order.Ring.Nat

/-!
# Records through clients

A record that a client passes on arrives with its texts up to their first NUL. Only the message is bounded in length,
and it is cut between characters. The text is an argument of the format, so no percent sign in it counts, and since
nothing behind a NUL is passed on, no text is ever refused.
-/

namespace LogRelay

/-- The record `r'` that arrives where `r` is passed on. -/
structure Record.PassedAs (r r' : Record) : Prop where
  level : r'.level = r.level
  topic : r'.topic = r.topic.map fun t =>
    ⟨Topic.currentVersion, String.ofList (t.name.toList.takeWhile (· ≠ '\x00')), t.level, t.custom⟩
  file : r'.file = String.ofList (r.file.toList.takeWhile (· ≠ '\x00'))
  line : r'.line.toNat = min r.line.toNat (2 ^ 31 - 1)
  func : r'.func = String.ofList (r.func.toList.takeWhile (· ≠ '\x00'))
  message : Utf8.LongestWithin 16383 (r.message.toList.takeWhile (· ≠ '\x00')) r'.message.toList

/-- What a record is passed on as is settled. -/
theorem Record.PassedAs.eq {r r' r'' : Record} (h : r.PassedAs r') (h' : r.PassedAs r'') : r' = r'' :=
  Record.ext (h.level.trans h'.level.symm) (h.topic.trans h'.topic.symm) (h.file.trans h'.file.symm)
    (UInt32.toNat_inj.1 (h.line.trans h'.line.symm)) (h.func.trans h'.func.symm)
    (String.toList_inj.1 (h.message.eq h'.message))

theorem takeWhile_eq_self_of_nul_not_mem {cs : List Char} (h : '\x00' ∉ cs) : cs.takeWhile (· ≠ '\x00') = cs := by
  rw [List.takeWhile_eq_self_iff]
  intro c hc
  simpa using fun h0 : c = '\x00' => h (h0 ▸ hc)

/-- A text that has no NUL and fits is passed on whole. -/
theorem longestWithin_takeWhile {n : Nat} {cs : List Char} (h0 : '\x00' ∉ cs) (hn : (Utf8.encode cs).length ≤ n) :
    Utf8.LongestWithin n (cs.takeWhile (· ≠ '\x00')) cs := by
  rw [takeWhile_eq_self_of_nul_not_mem h0]
  exact ⟨List.prefix_rfl, hn, fun _ hq _ => hq⟩

theorem nul_not_mem_takeWhile (cs : List Char) : '\x00' ∉ cs.takeWhile (· ≠ '\x00') := by
  intro h
  simpa using List.mem_takeWhile_imp h

theorem nul_not_mem_untilNulChar (s : String) : '\x00' ∉ (untilNulChar s).toList := by
  rw [untilNulChar, String.toList_ofList]
  exact nul_not_mem_takeWhile s.toList

theorem zero_not_mem_ofText_untilNulChar (s : String) : 0 ∉ Utf8.ofText (untilNulChar s) := by
  intro h
  exact nul_not_mem_untilNulChar s ((Utf8.mem_encode (by decide)).1 h)

namespace TextPointer

theorem ofBytes?_untilNulChar (s : String) :
    ofBytes? (Utf8.ofText (untilNulChar s)) = some (some (Utf8.ofText (untilNulChar s))) := by
  rw [ofBytes?, if_neg]
  rw [List.contains_iff_mem]
  exact zero_not_mem_ofText_untilNulChar s

theorem ofText_eq (s : String) : ofText s = some (Utf8.ofText (untilNulChar s)) := by
  rw [ofText, ofBytes?_untilNulChar]
  rfl

theorem bytes_ofText (s : String) : (ofText s).bytes = Utf8.ofText (untilNulChar s) := by
  rw [ofText_eq, bytes, Option.getD_some, Bytes.untilNul_eq_self (zero_not_mem_ofText_untilNulChar s)]

theorem text_ofText (s : String) : (ofText s).text = untilNulChar s := by
  rw [text, bytes_ofText, Utf8.ofText, Utf8.decode_encode, String.ofList_toList]

end TextPointer

theorem toNat_lineArgument (line : UInt32) :
    (UInt32.ofNat (lineArgument line).toInt.toNat).toNat = min line.toNat (2 ^ 31 - 1) := by
  have hm : Nat.pow 2 31 - 1 = 2 ^ 31 - 1 := rfl
  have hlt : min line.toNat (2 ^ 31 - 1) < 2 ^ 31 := by omega
  rw [lineArgument, hm, Int32.toInt_ofNat_of_lt hlt, Int.toNat_natCast]
  exact UInt32.toNat_ofNat_of_lt' (Nat.lt_trans hlt (by decide))

theorem Topic.topic_raw (t : Topic) : t.raw.topic = ⟨currentVersion, untilNulChar t.name, t.level, t.custom⟩ := by
  rw [RawTopic.topic, raw, TextPointer.text_ofText, Level.ofWord_word]
  cases t.custom <;> rfl

namespace Client

@[simp] theorem level_call (r : Record) : (call r).level = r.level.word := rfl

@[simp] theorem topic_call (r : Record) : (call r).topic = r.topic.map Topic.raw := rfl

@[simp] theorem file_call (r : Record) : (call r).file = .ofText r.file := by rw [call]

@[simp] theorem line_call (r : Record) : (call r).line = lineArgument r.line := rfl

@[simp] theorem func_call (r : Record) : (call r).func = .ofText r.func := by rw [call]

theorem render_call (r : Record) :
    Format.render (call r).format.bytes (call r).args = Utf8.ofText (untilNulChar r.message) := by
  show Format.render (Format.ascii "%s") [.ofPointer textAddress (.ofText r.message)] = _
  rw [TextPointer.ofText_eq, Format.Argument.ofPointer, Format.render_plainText]
  exact Bytes.untilNul_eq_self (zero_not_mem_ofText_untilNulChar r.message)

theorem passedAs_record (r : Record) : r.PassedAs (call r).record where
  level := by rw [Call.level_record, level_call, Level.ofWord_word]
  topic := by
    rw [Call.topic_record, topic_call, Option.map_map]
    refine Option.map_congr fun t _ => ?_
    rw [Function.comp_apply, t.topic_raw, untilNulChar]
  file := by rw [Call.file_record, file_call, TextPointer.text_ofText, untilNulChar]
  line := by rw [Call.line_record, line_call, toNat_lineArgument]
  func := by rw [Call.func_record, func_call, TextPointer.text_ofText, untilNulChar]
  message := by
    have hm := Call.longestWithin_message (render_call r) (nul_not_mem_untilNulChar r.message)
    rwa [untilNulChar, String.toList_ofList] at hm

/-- A record goes through the one of two slots that takes what it has. -/
theorem send_eq_pass (c : Client) (r : Record) : ∃ slot : Slot, (slot = .log ∨ slot = .logt) ∧
    c.send r = c.pass slot r ∧ slot.taken (call r) = call r := by
  unfold send
  cases ht : r.topic with
  | none =>
    have hr : Record.mk r.level none r.place.file r.place.line r.place.func r.message = r := by rw [← ht]; rfl
    exact ⟨.log, .inl rfl, by rw [log, hr], Call.withoutTopic_eq (by simp [ht])⟩
  | some t =>
    have hr : Record.mk r.level (some t) r.place.file r.place.line r.place.func r.message = r := by rw [← ht]; rfl
    refine ⟨.logt, .inr rfl, ?_, rfl⟩
    show c.logt r.level t r.place r.message = _
    rw [logt, hr]

/-- What a client passes on goes to the receiver of its handle. -/
theorem eq_of_send {c : Client} {r : Record} {d : Delivery} (hd : c.send r = some d) :
    c.handle.receiver = some d.receiver ∧ d.record = (call r).record := by
  obtain ⟨slot, -, hs, ht⟩ := c.send_eq_pass r
  obtain ⟨slot', hm, hd⟩ := Option.bind_eq_some_iff.1 (hs.symm.trans hd)
  obtain rfl := Methods.eq_of_slot? hm
  exact ⟨Slot.receiver_of_deliver hd, by rw [Slot.record_of_deliver hd, ht]⟩

/-- A client whose table has the two methods passes every record on to the receiver of its handle. -/
theorem send_of_slots {c : Client} {id : ReceiverId} (hr : c.handle.receiver = some id)
    (hm : .log ∈ c.methods.slots ∧ .logt ∈ c.methods.slots) (r : Record) :
    c.send r = some ⟨id, (call r).record⟩ := by
  obtain ⟨slot, hslot, hs, ht⟩ := c.send_eq_pass r
  have hmem : slot ∈ c.methods.slots := by
    rcases hslot with rfl | rfl
    · exact hm.1
    · exact hm.2
  rw [hs]
  show (c.methods.slot? slot).bind (fun slot => slot.deliver c.handle.receiver (call r)) = _
  rw [Methods.slot?, if_pos (List.contains_iff_mem.2 hmem), Option.bind_some, hr, Slot.deliver_some, ht]

/-- A client of an interface of our own passes every record on. -/
theorem send_own {c : Client} {id : ReceiverId} {level : Level} (hh : c.handle = .own id level)
    (hm : c.methods = .own) (r : Record) : c.send r = some ⟨id, (call r).record⟩ := by
  refine send_of_slots (by rw [hh]; rfl) ?_ r
  rw [hm]
  exact ⟨by decide, by decide⟩

end Client

namespace Session

variable {s : Session}

theorem Wired.step_send (h : s.Wired) {name client : String} {i : Interface} (hi : (name, i) ∈ s.interfaces)
    {cl : Derived Client} (hc : s.clients.lookup client = some cl) (ho : cl.value.handle = i.handle) (now : String)
    (r : Record) : HandsOver s now (.send client r) i.sink (Client.call r).record := by
  obtain ⟨level, hl⟩ := h.own _ hi
  have hh : cl.value.handle = .own i.receiver level := ho.trans hl
  have hm : cl.value.methods = .own := by
    have ht := h.table _ (mem_of_lookup hc)
    rw [hh] at ht
    exact (Option.some.inj ht).symm
  refine h.handsOver_of_deliver hi ?_
  show s.withNamed s.clients client (fun c => s.deliver now (c.value.send r)) = _
  simp only [withNamed, hc]
  rw [Client.send_own hh hm]

/-- A client of a live interface hands the sink of the interface one record for each that it passes on: the same one up
to NULs, the range of line numbers, and the end of the message, which is cut between characters. No character is
replaced on the way, and no text is refused. -/
theorem client_hands_over_text (h : Reached s) {name client : String} {i : Interface} (hi : (name, i) ∈ s.interfaces)
    {cl : Derived Client} (hc : s.clients.lookup client = some cl) (ho : cl.value.handle = i.handle) (r : Record) :
    (∃ r', r.PassedAs r' ∧ (Utf8.replacement ∈ r'.message.toList → Utf8.replacement ∈ r.message.toList) ∧
      ∀ now, HandsOver s now (.send client r) i.sink r') ∧
      ∀ text : String, let bs := Utf8.ofText (String.ofList (text.toList.takeWhile (· ≠ '\x00')))
        TextPointer.ofText text = some bs ∧ TextPointer.ofBytes? bs = some (some bs) := by
  refine ⟨⟨(Client.call r).record, Client.passedAs_record r, fun hr => ?_, fun now => ?_⟩, fun text => ?_⟩
  · have hm := (Client.passedAs_record r).message.front.subset hr
    exact (List.takeWhile_prefix _).subset hm
  · exact h.wired.step_send hi hc ho now r
  · exact ⟨TextPointer.ofText_eq text, TextPointer.ofBytes?_untilNulChar text⟩

/-- Percent signs, a NUL, a line number out of range, and a character that the end of the buffer cuts in two. -/
theorem client_hands_over_text_single :
    let s := (single.step "" (.ownClient "client" "main")).1
    let i : Interface := ⟨.own 1 .info, 1, "sink"⟩
    let cl : Derived Client := ⟨some "main", .ofOwn (.own 1 .info)⟩
    let r : Record := ⟨.off, some (.withLevel "net\x00work" .debug), "%s", 4294967295, "%n",
      String.ofList (List.replicate 16382 '%' ++ ['é'])⟩
    let r' : Record := ⟨.off, some (.withLevel "net" .debug), "%s", 2147483647, "%n",
      String.ofList (List.replicate 16382 '%')⟩
    Reached s ∧ ("main", i) ∈ s.interfaces ∧ s.clients.lookup "client" = some cl ∧ cl.value.handle = i.handle ∧
      (r.PassedAs r' ∧ (Utf8.replacement ∈ r'.message.toList → Utf8.replacement ∈ r.message.toList) ∧
        ∀ now, HandsOver s now (.send "client" r) "sink" r') ∧
        ∀ text : String, let bs := Utf8.ofText (String.ofList (text.toList.takeWhile (· ≠ '\x00')))
          TextPointer.ofText text = some bs ∧ TextPointer.ofBytes? bs = some (some bs) := by
  intro s i cl r r'
  have h : Reached s := reached_single.step "" (.ownClient "client" "main")
  have hi : ("main", i) ∈ s.interfaces := mem_of_lookup lookup_single
  have hc : s.clients.lookup "client" = some cl := rfl
  have hp : r.PassedAs r' := {
    level := rfl
    topic := by decide
    file := by decide
    line := by decide
    func := by decide
    message := by
      show Utf8.LongestWithin 16383 (List.takeWhile _ (String.toList (String.ofList _))) (String.toList (String.ofList _))
      rw [String.toList_ofList, String.toList_ofList, List.takeWhile_append_of_pos fun c hc => by
        rw [List.eq_of_mem_replicate hc]; decide]
      exact Utf8.longestWithin_append [] (by rw [Utf8.length_encode_replicate]; decide)
        (by rw [Utf8.length_encode_replicate]; decide) }
  obtain ⟨⟨r'', hp', hr, hh⟩, htext⟩ := client_hands_over_text h hi hc rfl r
  obtain rfl : r'' = r' := hp'.eq hp
  exact ⟨h, hi, hc, rfl, ⟨hp, hr, hh⟩, htext⟩

end Session
end LogRelay

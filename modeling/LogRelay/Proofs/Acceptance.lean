import LogRelay.Proofs.Delivery
import LogRelay.Session

/-!
# Which handles are accepted

The helpers of a host and a client look at a handle before they call through it, each for itself. Both go by what the
handle offers (`Handle.Offers`): a helper finds a table exactly where a client is not refused. What a helper then
delivers also needs its slot and a receiver (`Route.deliver_helper_eq_some_iff`). A copy that keeps all of this is
delivered through like the handle it was made from (`Alteration.Keeps`).
-/

namespace LogRelay

/-- The handle `h` is not null and has the table `m`, which is of version 1 or later. -/
def Handle.Offers (h : Option Handle) (m : Methods) : Prop :=
  ∃ h', h = some h' ∧ h'.methods = some m ∧ 1 ≤ m.version

/-- A helper for `slot` gets through the handle `h` to the receiver `id`. -/
def Handle.Reaches (h : Option Handle) (slot : Slot) (id : ReceiverId) : Prop :=
  ∃ h' m, h = some h' ∧ Offers h m ∧ slot ∈ m.slots ∧ h'.receiver = some id

variable {h : Option Handle} {m : Methods} {slot : Slot}

theorem Handle.usableMethods_eq_some_iff : usableMethods h = some m ↔ Offers h m := by
  constructor
  · intro hu
    unfold usableMethods at hu
    split at hu
    · cases hu
    · next h' =>
      split at hu
      · cases hu
      · next m' hm =>
        split at hu
        · cases hu
        · next hv =>
          obtain rfl := Option.some.inj hu
          exact ⟨h', rfl, hm, UInt32.not_lt.1 hv⟩
  · rintro ⟨h', rfl, hm, hv⟩
    simp only [usableMethods, hm, if_neg (UInt32.not_lt.2 hv)]

theorem Client.connect_eq_ok_iff {c : Client} :
    connect h = .ok c ↔ h = some c.handle ∧ Handle.Offers h c.methods := by
  constructor
  · intro hc
    unfold connect at hc
    split at hc
    · cases hc
    · next h' =>
      split at hc
      · cases hc
      · next m' hm =>
        split at hc
        · cases hc
        · next hv =>
          cases hc
          exact ⟨rfl, h', rfl, hm, UInt32.not_lt.1 hv⟩
  · rintro ⟨rfl, h', hh, hm, hv⟩
    cases hh
    have hold : ¬ c.methods.version < Methods.requiredVersion := UInt32.not_lt.2 hv
    simp only [connect, hm, if_neg hold]

theorem Client.handle_of_connect {h : Handle} {c : Client} (hc : connect (some h) = .ok c) : c.handle = h :=
  (Option.some.inj (connect_eq_ok_iff.1 hc).1).symm

theorem Client.methods_of_connect {h : Handle} {c : Client} (hc : connect (some h) = .ok c) :
    c.handle.methods = some c.methods := by
  obtain ⟨hh, h', hh', hm, -⟩ := connect_eq_ok_iff.1 hc
  rw [← Option.some.inj hh, Option.some.inj hh']
  exact hm

/-- A client is not refused exactly where there is a table to go by. -/
theorem Client.exists_connect_iff : (∃ c, connect h = .ok c) ↔ ∃ m, Handle.Offers h m := by
  constructor
  · rintro ⟨c, hc⟩
    exact ⟨c.methods, (connect_eq_ok_iff.1 hc).2⟩
  · rintro ⟨m, ho⟩
    obtain ⟨h', rfl, -⟩ := id ho
    exact ⟨⟨h', m⟩, connect_eq_ok_iff.2 ⟨rfl, ho⟩⟩

theorem Methods.slot?_eq_some_iff {t : Slot} : m.slot? slot = some t ↔ slot ∈ m.slots ∧ t = slot := by
  unfold slot?
  split
  · next hs => simp [List.contains_iff_mem.1 hs, eq_comm]
  · next hs => simpa using fun hm _ => hs (List.contains_iff_mem.2 hm)

namespace Route

theorem deliver_helper_eq_some_iff {c : Call} {d : Delivery} :
    (helper slot).deliver h c = some d ↔ Handle.Reaches h slot d.receiver ∧ d.record = (slot.taken c).record := by
  constructor
  · intro hd
    obtain ⟨m, hu, hslot⟩ := Option.bind_eq_some_iff.1 hd
    obtain ⟨t, ht, hhandle⟩ := Option.bind_eq_some_iff.1 hslot
    obtain ⟨h', rfl, hdeliver⟩ := Option.bind_eq_some_iff.1 hhandle
    obtain ⟨hs, rfl⟩ := Methods.slot?_eq_some_iff.1 ht
    exact ⟨⟨h', m, rfl, Handle.usableMethods_eq_some_iff.1 hu, hs, Slot.receiver_of_deliver hdeliver⟩,
      Slot.record_of_deliver hdeliver⟩
  · rintro ⟨⟨h', m, rfl, ho, hs, hr⟩, hrecord⟩
    show ((Handle.usableMethods (some h')).bind fun m => (m.slot? slot).bind fun t => t.deliver h'.receiver c) = some d
    rw [Handle.usableMethods_eq_some_iff.2 ho, Option.bind_some, Methods.slot?_eq_some_iff.2 ⟨hs, rfl⟩,
      Option.bind_some, hr, Slot.deliver_some, ← hrecord]

theorem deliver_helper_eq_none {c : Call} (hn : ∀ id, ¬ Handle.Reaches h slot id) : (helper slot).deliver h c = none := by
  cases hd : (helper slot).deliver h c with
  | none => rfl
  | some d => exact absurd (deliver_helper_eq_some_iff.1 hd).1 (hn d.receiver)

end Route

/-! ## Copies -/

/-- The copy keeps the table with all its methods, in a version that is accepted, and the receiver. -/
structure Alteration.Keeps (a : Alteration) : Prop where
  methods : a.methods = true
  logv : a.logv = true
  logtv : a.logtv = true
  receiver : a.receiver = true
  version : 1 ≤ a.version

namespace Alteration

/-- The table of a copy that keeps all methods. -/
def table (a : Alteration) : Methods := ⟨a.version, [.log, .logv, .logt, .logtv], false⟩

variable {a : Alteration} {id : ReceiverId} {level : Level}

theorem Keeps.apply_own (hk : a.Keeps) :
    a.apply (.own id level) =
      ⟨Handle.logType, Handle.currentVersion, some a.table, some id, a.level.getD level.word⟩ := by
  simp only [apply, hk.methods, hk.logv, hk.logtv, hk.receiver, if_true]
  rfl

theorem Keeps.offers (hk : a.Keeps) : Handle.Offers (some (a.apply (.own id level))) a.table := by
  refine ⟨_, rfl, ?_, hk.version⟩
  rw [hk.apply_own]

theorem slot?_table (slot : Slot) : a.table.slot? slot = some slot := by cases slot <;> rfl

theorem mem_slots_table (slot : Slot) : slot ∈ a.table.slots :=
  (Methods.slot?_eq_some_iff.1 (slot?_table slot)).1

/-- Whatever the route, a call on the copy arrives as one on the handle that it was made from. -/
theorem Keeps.deliver_apply (hk : a.Keeps) (route : Route) (c : Call) :
    route.deliver (some (a.apply (.own id level))) c = route.deliver (some (.own id level)) c := by
  rw [Route.deliver_own]
  cases route with
  | table slot =>
    rw [hk.apply_own]
    show (a.table.slot? slot).bind (fun s => s.deliver (some id) c) = _
    rw [slot?_table]
    rfl
  | direct slot =>
    rw [hk.apply_own]
    rfl
  | helper slot =>
    refine Route.deliver_helper_eq_some_iff.2 ⟨⟨_, _, rfl, hk.offers, mem_slots_table slot, ?_⟩, rfl⟩
    rw [hk.apply_own]

end Alteration
end LogRelay

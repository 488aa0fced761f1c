import LogRelay.Proofs.Session.Wired

/-!
# Handles and the interfaces they are from

A host holds a copy of a handle, and a client holds a handle, and both are forgotten with the interface that they were
made from. So no handle outlives its interface: a receiver that it names is that of a live interface (`Anchored`).
`Rooted` are the sessions that steps lead to from one in which nothing was made over the sinks yet.
-/

namespace LogRelay

/-- The handle `h` is one made from the interface `i`: if it has a receiver, then that of `i`, and if it has a table, then
one with the two methods that nothing can leave out. -/
structure Handle.From (h : Handle) (origin : Option String) (i : String × Interface) : Prop where
  origin : origin = some i.1
  receiver : ∀ id, h.receiver = some id → id = i.2.receiver
  methods : ∀ m, h.methods = some m → .log ∈ m.slots ∧ .logt ∈ m.slots

theorem Handle.From.altered {h : Handle} {origin : Option String} {i : String × Interface} (hf : h.From origin i)
    (a : Alteration) : (a.apply h).From origin i := by
  refine ⟨hf.origin, fun id hid => ?_, fun m hm => ?_⟩
  · have hid : (if a.receiver then h.receiver else none) = some id := hid
    split at hid
    · exact hf.receiver id hid
    · cases hid
  · unfold Alteration.apply at hm
    simp only at hm
    split at hm
    · cases hm
      simp
    · cases hm

namespace Session

variable {s s' : Session}

/-- A wired session whose hosts and clients are all from live interfaces. -/
structure Anchored (s : Session) : Prop extends Wired s where
  hosts : ∀ e ∈ s.hosts, ∃ i ∈ s.interfaces, e.2.value.From e.2.origin i
  clients : ∀ e ∈ s.clients, ∃ i ∈ s.interfaces, e.2.value.handle.From e.2.origin i

theorem Wired.from_interface (h : s.Wired) {i : String × Interface} (hi : i ∈ s.interfaces) :
    i.2.handle.From (some i.1) i := by
  obtain ⟨level, hl⟩ := h.own i hi
  refine ⟨rfl, fun id hid => ?_, fun m hm => ?_⟩
  · rw [hl] at hid
    exact (Option.some.inj hid).symm
  · rw [hl] at hm
    cases hm
    exact ⟨by decide, by decide⟩

theorem Anchored.of_handle? (h : s.Anchored) {name : String} {d : Derived Handle} (hd : s.handle? name = some d) :
    ∃ i ∈ s.interfaces, d.value.From d.origin i := by
  unfold handle? at hd
  split at hd
  · next i hi =>
    cases hd
    exact ⟨_, mem_of_lookup hi, h.from_interface (mem_of_lookup hi)⟩
  · exact h.hosts _ (mem_of_lookup hd)

/-! ## What steps preserve -/

/-- What is from an interface of another name survives the end of one. -/
theorem mem_interfaces_destroy {h : Handle} {origin : Option String} {name : String} {i : String × Interface}
    (hi : i ∈ s.interfaces) (hf : h.From origin i) (hn : origin ≠ some name) : i ∈ (s.destroy name).interfaces := by
  have hne : i.1 ≠ name := fun he => hn (he ▸ hf.origin)
  exact List.mem_filter.2 ⟨hi, by simpa using hne⟩

theorem Anchored.quiet {x : Step} (h : s.Anchored) (hq : Quiet s x s') : s'.Anchored := by
  have hw := h.toWired.quiet hq
  cases hq with
  | interface name sink level hs =>
    refine { hw with hosts := fun e he => ?_, clients := fun e he => ?_ }
    · obtain ⟨i, hi, hf⟩ := h.hosts e he
      exact ⟨i, List.mem_cons_of_mem _ hi, hf⟩
    · obtain ⟨i, hi, hf⟩ := h.clients e he
      exact ⟨i, List.mem_cons_of_mem _ hi, hf⟩
  | host name origin a hi =>
    have hi := mem_of_lookup hi
    have hnew := (h.from_interface hi).altered a
    exact { hw with hosts := List.forall_mem_cons.2 ⟨⟨_, hi, hnew⟩, h.hosts⟩, clients := h.clients }
  | destroyed name =>
    refine { hw with hosts := fun e he => ?_, clients := fun e he => ?_ }
    · obtain ⟨he, hn⟩ := List.mem_filter.1 he
      obtain ⟨i, hi, hf⟩ := h.hosts e he
      exact ⟨i, mem_interfaces_destroy hi hf (by simpa using hn), hf⟩
    · obtain ⟨he, hn⟩ := List.mem_filter.1 he
      obtain ⟨i, hi, hf⟩ := h.clients e he
      exact ⟨i, mem_interfaces_destroy hi hf (by simpa using hn), hf⟩
  | ownClient name origin hi =>
    have hi := mem_of_lookup hi
    have hnew := h.from_interface hi
    exact { hw with hosts := h.hosts, clients := List.forall_mem_cons.2 ⟨⟨_, hi, hnew⟩, h.clients⟩ }
  | client name on hh hc =>
    obtain ⟨i, hi, hnew⟩ := h.of_handle? hh
    rw [← Client.handle_of_connect hc] at hnew
    exact { hw with hosts := h.hosts, clients := List.forall_mem_cons.2 ⟨⟨i, hi, hnew⟩, h.clients⟩ }
  | _ => exact { hw with hosts := h.hosts, clients := h.clients }

theorem Anchored.handedOver (h : s.Anchored) (ho : HandOver) : (s.handedOver ho).Anchored :=
  { h.toWired.handedOver ho with hosts := h.hosts, clients := h.clients }

theorem Anchored.step (h : s.Anchored) (now : String) (x : Step) : (s.step now x).1.Anchored := by
  rcases s.step_cases now x with ⟨ho, -, hs⟩ | ⟨-, hq⟩
  · rw [hs]
    exact h.handedOver ho
  · exact h.quiet hq

/-- The sessions that steps lead to, from one that may have sinks and files but nothing made over its sinks. -/
inductive Rooted : Session → Prop where
  | start {s : Session} (hi : s.interfaces = []) (hh : s.hosts = []) (hc : s.clients = []) : Rooted s
  | step {s : Session} (h : Rooted s) (now : String) (x : Step) : Rooted (s.step now x).1

theorem Rooted.anchored (h : Rooted s) : s.Anchored := by
  induction h with
  | start hi hh hc => exact { (Reached.start hi hc).wired with hosts := by simp [hh], clients := by simp [hc] }
  | step _ now x ih => exact ih.step now x

theorem Rooted.run (h : Rooted s) (steps : List (String × Step)) : Rooted (s.run steps).1 :=
  run_preserves (fun _ now x h => h.step now x) h steps

theorem rooted_initial : Rooted initial := .start rfl rfl rfl

end Session
end LogRelay

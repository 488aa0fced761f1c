import LogRelay.Control

/-!
# What a control call asks and what it reports

Whatever the system, a control call of a program comes to one call of the system, and the program learns its outcome.
`ControlCall.Asks` says which call that is and `ControlCall.Reports` what is learned, for each function that a program may
go through (`make_spec`). A system that takes note of its calls shows that there is no second one (`make_noting`).
-/

namespace LogRelay

/-- A control call as the system gets it. -/
structure ControlIssue where
  fd : Int32
  request : UInt64
  word : UInt64
  deriving DecidableEq

namespace ControlCall

/-- The call is to reach the system as this one: with the descriptor and the request that it was made with, and with the
bits of its word or address. -/
inductive Asks : ControlCall → ControlIssue → Prop where
  | word (fd : Int32) (request : UInt64) (arg : Int64) : Asks (.word fd request arg) ⟨fd, request, arg.toUInt64⟩
  | checked (fd : Int32) (request : UInt64) (arg : Int64) : Asks (.checked fd request arg) ⟨fd, request, arg.toUInt64⟩
  | pointer (fd : Int32) (request : UInt64) (arg : Pointer Int32) :
      Asks (.pointer fd request arg) ⟨fd, request, arg.address⟩
  | adapterLong (object : Pointer Unit) (fd : Int32) (request : UInt64) (n : Int64) (rest : List Variadic) :
      Asks (.adapter object fd request (.long n) rest) ⟨fd, request, n.toUInt64⟩
  | adapterPointer (object : Pointer Unit) (fd : Int32) (request : UInt64) (p : Pointer Unit) (rest : List Variadic) :
      Asks (.adapter object fd request (.pointer p) rest) ⟨fd, request, p.address⟩

/-- The call is made through the function that gives a result. -/
def IsChecked : ControlCall → Prop
  | checked .. => True
  | _ => False

/-- From the outcome `n`, with the error number `errno` behind it, the program learns this: the number as it is, and behind
-1 the error number, or a result that is a failure exactly where the number is -1. -/
def Reports (call : ControlCall) (n errno : Int32) : ControlAnswer → Prop
  | .number m seen => ¬ call.IsChecked ∧ m = n ∧ ∀ e, seen = some e ↔ n = -1 ∧ errno = e
  | .result r => call.IsChecked ∧ (∀ m, r = .ok m ↔ n = m ∧ m ≠ -1) ∧ ∀ e, r = .error e ↔ n = -1 ∧ errno = e

theorem exists_asks (call : ControlCall) : ∃ i, call.Asks i := by
  cases call with
  | word fd request arg => exact ⟨_, .word fd request arg⟩
  | pointer fd request arg => exact ⟨_, .pointer fd request arg⟩
  | checked fd request arg => exact ⟨_, .checked fd request arg⟩
  | adapter object fd request first rest =>
    cases first with
    | long n => exact ⟨_, .adapterLong object fd request n rest⟩
    | pointer p => exact ⟨_, .adapterPointer object fd request p rest⟩

/-- What is learned is settled by the number and, where it is -1, by the error number. -/
theorem Reports.unique {call : ControlCall} {n errno errno' : Int32} {a a' : ControlAnswer}
    (h : call.Reports n errno a) (h' : call.Reports n errno' a') (he : n = -1 → errno = errno') : a = a' := by
  have hfailed (e : Int32) : n = -1 ∧ errno = e ↔ n = -1 ∧ errno' = e := and_congr_right fun hn => by rw [he hn]
  cases a with
  | number m seen =>
    cases a' with
    | number m' seen' =>
      obtain ⟨-, rfl, hs⟩ := h
      obtain ⟨-, rfl, hs'⟩ := h'
      have hseen : seen = seen' := Option.ext fun e => (hs e).trans ((hfailed e).trans (hs' e).symm)
      rw [hseen]
    | result r' => exact absurd h'.1 h.1
  | result r =>
    cases a' with
    | number m' seen' => exact absurd h.1 h'.1
    | result r' =>
      obtain ⟨-, ok, error⟩ := h
      obtain ⟨-, ok', error'⟩ := h'
      cases r with
      | ok m => rw [(ok' m).2 ((ok m).1 rfl)]
      | error e => rw [(error' e).2 ((hfailed e).1 ((error e).1 rfl))]

theorem Reports.of_failed {call : ControlCall} {n errno errno' : Int32} {a : ControlAnswer}
    (h : call.Reports n errno a) (h' : call.Reports (-1) errno' a) : n = -1 ∧ errno = errno' := by
  cases a with
  | number m seen => exact (h.2.2 errno').1 ((h'.2.2 errno').2 ⟨rfl, rfl⟩)
  | result r => exact (h.2.2 errno').1 ((h'.2.2 errno').2 ⟨rfl, rfl⟩)

end ControlCall

namespace Kernel
variable {σ : Type} (k : Kernel σ)

/-- The number of an error that has a name. -/
def Named (n : Int32) : Prop := 1 ≤ n ∧ n ≤ 133 ∧ n ≠ 41 ∧ n ≠ 58

/-- A system that keeps to the convention: where a call fails, it leaves behind the number of an error that has a name. -/
def Conventional : Prop := ∀ fd request word s, (k.control fd request word s).1 = -1 →
  Named (k.errno (k.control fd request word s).2)

/-- The system with a note of all control calls that it gets, the latest last. -/
def noting : Kernel (σ × List ControlIssue) where
  control fd request word := fun (s, issued) =>
    let (n, s) := k.control fd request word s
    (n, s, issued ++ [⟨fd, request, word⟩])
  errno state := k.errno state.1

/-! ## The functions -/

theorem adapter_long (object : Pointer Unit) (fd : Int32) (request : UInt64) (n : Int64) (rest : List Variadic) (s : σ) :
    k.adapter object fd request (.long n) rest s = k.control fd request n.toUInt64 s := rfl

/-- An address that is taken for a signed word reaches the system with the bits that it has. -/
theorem adapter_pointer (object : Pointer Unit) (fd : Int32) (request : UInt64) (p : Pointer Unit) (rest : List Variadic)
    (s : σ) : k.adapter object fd request (.pointer p) rest s = k.control fd request p.address s := by
  rw [adapter, Variadic.toLong, UInt64.toUInt64_toInt64]

theorem ioctl_eq (fd : Int32) (request : UInt64) (arg : Int64) (s : σ) :
    k.ioctl fd request arg s = k.control fd request arg.toUInt64 s := k.adapter_long .null fd request arg [] s

theorem ioctlPtr_eq {α : Type} (fd : Int32) (request : UInt64) (arg : Pointer α) (s : σ) :
    k.ioctlPtr fd request arg s = k.control fd request arg.address s :=
  k.adapter_pointer .null fd request arg.cast [] s

theorem ioctlResult_eq (fd : Int32) (request : UInt64) (arg : Int64) (s : σ) :
    k.ioctlResult fd request arg s =
      (k.resultOf (k.control fd request arg.toUInt64 s).1 (k.control fd request arg.toUInt64 s).2,
        (k.control fd request arg.toUInt64 s).2) := by
  rw [ioctlResult, ioctl_eq]

end Kernel

namespace ControlCall
variable {σ : Type} {k : Kernel σ} {call : ControlCall} {i : ControlIssue}

theorem reports_ofNumber (h : ¬ call.IsChecked) (outcome : Int32 × σ) :
    call.Reports outcome.1 (k.errno outcome.2) (ControlAnswer.ofNumber k outcome).1 := by
  obtain ⟨n, s⟩ := outcome
  refine ⟨h, rfl, fun e => ?_⟩
  by_cases hn : n = -1 <;> simp [hn]

theorem reports_resultOf (h : call.IsChecked) {n : Int32} {s : σ} (hs : n = -1 → Kernel.Named (k.errno s)) :
    call.Reports n (k.errno s) (.result (k.resultOf n s)) := by
  refine ⟨h, fun m => ?_, fun e => ?_⟩
  · unfold Kernel.resultOf
    split
    · next hn =>
      refine iff_of_false nofun ?_
      rintro ⟨rfl, hm⟩
      exact hm hn
    · next hn =>
      rw [Except.ok.injEq]
      exact ⟨fun hm => ⟨hm, hm ▸ hn⟩, And.left⟩
  · unfold Kernel.resultOf
    split
    · next hn =>
      rw [Except.error.injEq, Kernel.lastError, if_pos (show _ ∧ _ from hs hn)]
      exact (and_iff_right hn).symm
    · next hn => exact iff_of_false nofun fun he => hn he.1

/-- A call comes to the one call of the system that it asks for, and reports the outcome. -/
theorem make_spec (h : call.Asks i) (hk : k.Conventional) (s : σ) :
    (call.make k s).2 = (k.control i.fd i.request i.word s).2 ∧
      call.Reports (k.control i.fd i.request i.word s).1 (k.errno (k.control i.fd i.request i.word s).2)
        (call.make k s).1 := by
  cases h with
  | word fd request arg =>
    rw [make, k.ioctl_eq]
    exact ⟨rfl, reports_ofNumber id _⟩
  | checked fd request arg =>
    have hc : (checked fd request arg).IsChecked := trivial
    rw [make, k.ioctlResult_eq]
    exact ⟨rfl, reports_resultOf hc (hk fd request arg.toUInt64 s)⟩
  | pointer fd request arg =>
    rw [make, k.ioctlPtr_eq]
    exact ⟨rfl, reports_ofNumber id _⟩
  | adapterLong object fd request n rest =>
    rw [make, Kernel.ioctlAdapter, k.adapter_long]
    exact ⟨rfl, reports_ofNumber id _⟩
  | adapterPointer object fd request p rest =>
    rw [make, Kernel.ioctlAdapter, k.adapter_pointer]
    exact ⟨rfl, reports_ofNumber id _⟩

/-- A system that takes note of its calls gets just the one. -/
theorem make_noting (h : call.Asks i) (hk : k.Conventional) (s : σ) (issued : List ControlIssue) :
    ∃ a, call.make k.noting (s, issued) = (a, (k.control i.fd i.request i.word s).2, issued ++ [i]) ∧
      call.Reports (k.control i.fd i.request i.word s).1 (k.errno (k.control i.fd i.request i.word s).2) a := by
  have hnoting : k.noting.Conventional := fun fd request word state => hk fd request word state.1
  obtain ⟨hstate, ha⟩ := make_spec h hnoting (s, issued)
  exact ⟨_, Prod.ext rfl hstate, ha⟩

end ControlCall
end LogRelay

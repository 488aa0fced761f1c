import LogRelay.Pipe
import LogRelay.Proofs.Control
import Mathlib.Data.List.Forall2

/-!
# Entry points are interchangeable

Two runs on a pipe whose control calls ask the system for the same go through the same states, whatever functions the
calls go through (`run_interchanged`), and the answers differ only as these functions report. A call that fails leaves
behind its error number and nothing else, which no later answer tells (`answers_reset`).
-/

namespace LogRelay

/-- Steps that differ at most in the function that a control call goes through. -/
inductive PipeStep.Interchanged : PipeStep → PipeStep → Prop where
  | same (x : PipeStep) : Interchanged x x
  | control {call call' : ControlCall} {i : ControlIssue} (h : call.Asks i) (h' : call'.Asks i) :
      Interchanged (.control call) (.control call')

namespace PipeWorld
variable {w : PipeWorld} {α : Type}

/-! ## Control calls on a pipe -/

theorem named_of_errno (e : Errno) : Kernel.Named (.ofInt e.number) := by
  unfold Kernel.Named
  cases e <;> decide

theorem conventional_kernel : kernel.Conventional := by
  intro fd request word w h
  rcases hr : w.control fd request word with ⟨_ | e, w'⟩
  · simp only [kernel, hr, leaving]
    exact named_of_errno _
  · simp [kernel, hr, leaving] at h

/-- What fails leaves the world as it was. -/
theorem control_of_error {fd : Int32} {request word : UInt64} {e : Errno}
    (h : (w.control fd request word).1 = .error e) : (w.control fd request word).2 = w := by
  unfold control at h ⊢
  rcases hopen : w.pipe.open? fd with _ | ⟨pipeEnd, s⟩
  · rfl
  rcases hr : ControlRequest.ofNumber? request.toUInt32 with _ | r
  · rfl
  simp only [hopen, hr] at h ⊢
  -- setting and clearing succeed, the others where the word is the address
  cases r with
  | setCloseOnExec => cases h
  | clearCloseOnExec => cases h
  | countUnread =>
    dsimp only at h ⊢
    split at h
    · cases h
    · next hw => rw [if_neg hw]
  | setNonBlocking =>
    dsimp only at h ⊢
    split at h
    · cases h
    · next hw => rw [if_neg hw]

theorem kernel_of_failed {fd : Int32} {request word : UInt64} (h : (kernel.control fd request word w).1 = -1) :
    (kernel.control fd request word w).2 = { w with errno := kernel.errno (kernel.control fd request word w).2 } := by
  rcases hr : w.control fd request word with ⟨e | _, w'⟩
  · have hw : w' = w := by simpa [hr] using control_of_error (congrArg Prod.fst hr)
    simp [kernel, hr, leaving, hw]
  · simp [kernel, hr, leaving] at h

theorem step_control {call : ControlCall} {i : ControlIssue} (h : call.Asks i) (w : PipeWorld) :
    ∃ a, w.step (.control call) = (.controlled a, (kernel.control i.fd i.request i.word w).2) ∧
      call.Reports (kernel.control i.fd i.request i.word w).1
        (kernel.errno (kernel.control i.fd i.request i.word w).2) a := by
  obtain ⟨hstate, ha⟩ := ControlCall.make_spec h conventional_kernel w
  exact ⟨_, Prod.ext rfl hstate, ha⟩

/-! ## Runs -/

@[simp] theorem run_cons (w : PipeWorld) (x : PipeStep) (xs : List PipeStep) :
    w.run (x :: xs) = ((w.step x).1 :: ((w.step x).2.run xs).1, ((w.step x).2.run xs).2) := rfl

theorem world_interchanged {x y : PipeStep} (h : x.Interchanged y) (w : PipeWorld) : (w.step x).2 = (w.step y).2 := by
  cases h with
  | same => rfl
  | control h h' =>
    obtain ⟨a, ha, -⟩ := step_control h w
    obtain ⟨a', ha', -⟩ := step_control h' w
    rw [ha, ha']

/-- Where the steps of two runs are interchanged, the worlds they end in are the same. -/
theorem run_interchanged {xs ys : List PipeStep} (h : List.Forall₂ PipeStep.Interchanged xs ys) (w : PipeWorld) :
    (w.run xs).2 = (w.run ys).2 := by
  induction h generalizing w with
  | nil => rfl
  | cons hxy _ ih => rw [run_cons, run_cons, world_interchanged hxy, ih]

/-- The answer to a step is the one that the step gets in the world that the steps before it lead to. -/
theorem getElem?_run (w : PipeWorld) (xs : List PipeStep) (k : Nat) :
    (w.run xs).1[k]? = xs[k]?.map fun x => ((w.run (xs.take k)).2.step x).1 := by
  induction xs generalizing w k with
  | nil => rfl
  | cons x xs ih =>
    cases k with
    | zero => rfl
    | succ k =>
      rw [run_cons, List.getElem?_cons_succ, List.getElem?_cons_succ, List.take_succ_cons, run_cons]
      exact ih _ k

theorem interchanged_getElem? {xs ys : List PipeStep} (h : List.Forall₂ PipeStep.Interchanged xs ys) {n : Nat}
    {x y : PipeStep} (hx : xs[n]? = some x) (hy : ys[n]? = some y) : x.Interchanged y := by
  obtain ⟨hn, rfl⟩ := List.getElem?_eq_some_iff.1 hx
  obtain ⟨hn', rfl⟩ := List.getElem?_eq_some_iff.1 hy
  exact h.get hn hn'

theorem asks_of_interchanged {call call' : ControlCall}
    (h : (PipeStep.control call).Interchanged (.control call')) : ∃ i, call.Asks i ∧ call'.Asks i := by
  cases h with
  | same =>
    obtain ⟨i, hi⟩ := call.exists_asks
    exact ⟨i, hi, hi⟩
  | control h h' => exact ⟨_, h, h'⟩

/-! ## The error number -/

/-- What an operation does has nothing to do with the error number that was left behind before. -/
def Blind (f : PipeWorld → Except Errno α × PipeWorld) : Prop :=
  ∀ w errno, f { w with errno } = ((f w).1, { (f w).2 with errno })

theorem blind_control (fd : Int32) (request word : UInt64) : Blind (control · fd request word) := by
  intro w errno
  rcases hopen : w.pipe.open? fd with _ | ⟨pipeEnd, s⟩
  · simp [control, hopen]
  rcases hr : ControlRequest.ofNumber? request.toUInt32 with _ | r
  · simp [control, hopen, hr]
  · cases r with
    | setCloseOnExec => simp [control, hopen, hr]
    | clearCloseOnExec => simp [control, hopen, hr]
    | countUnread => by_cases hw : word = w.cell.pointer.address <;> simp [control, hopen, hr, hw]
    | setNonBlocking => by_cases hw : word = w.cell.pointer.address <;> simp [control, hopen, hr, hw]

theorem blind_writeTo (fd : Int32) (data : Bytes) : Blind (writeTo · fd data) := by
  intro w errno
  rcases hopen : w.pipe.open? fd with _ | ⟨_ | _, s⟩
  · simp [writeTo, hopen]
  · simp [writeTo, hopen]
  · by_cases hd : data = []
    · simp [writeTo, hopen, hd]
    · cases hr : w.pipe.reader.isOpen with
      | false => simp [writeTo, hopen, hd, hr]
      | true =>
        rcases hw : w.pipe.buffer.write data with ⟨_ | count, buffer⟩ <;> simp [writeTo, hopen, hd, hr, hw]

theorem blind_readFrom (fd : Int32) (most : Nat) : Blind (readFrom · fd most) := by
  intro w errno
  rcases hopen : w.pipe.open? fd with _ | ⟨_ | _, s⟩
  · simp [readFrom, hopen]
  · by_cases he : w.pipe.unread = [] ∧ w.pipe.writer.isOpen ∧ most ≠ 0
    · simp only [readFrom, hopen, if_pos he]
    · simp only [readFrom, hopen, if_neg he]
  · simp [readFrom, hopen]

theorem blind_close (fd : Int32) : Blind (close · fd) := by
  intro w errno
  rcases hopen : w.pipe.open? fd with _ | ⟨pipeEnd, s⟩ <;> simp [close, hopen]

theorem blind_flagsOf (fd : Int32) : Blind (flagsOf · fd) := by
  intro w errno
  rcases hopen : w.pipe.open? fd with _ | ⟨pipeEnd, s⟩ <;> simp [flagsOf, hopen]

/-- An error number left behind before is gone after a failure, and goes on to be left behind else. -/
theorem Blind.leaving {f : PipeWorld → Except Errno α × PipeWorld} (h : Blind f) (w : PipeWorld) (errno : Int32) :
    ∃ errno', leaving (f { w with errno }) = ((leaving (f w)).1, { (leaving (f w)).2 with errno := errno' }) ∧
      ∀ e, (leaving (f w)).1 = .error e → errno' = (leaving (f w)).2.errno := by
  rw [h w errno]
  rcases f w with ⟨e | a, w'⟩
  · exact ⟨_, rfl, fun _ _ => rfl⟩
  · exact ⟨errno, rfl, nofun⟩

theorem kernel_reset (fd : Int32) (request word : UInt64) (w : PipeWorld) (errno : Int32) :
    ∃ errno', kernel.control fd request word { w with errno } =
        ((kernel.control fd request word w).1, { (kernel.control fd request word w).2 with errno := errno' }) ∧
      ((kernel.control fd request word w).1 = -1 → errno' = kernel.errno (kernel.control fd request word w).2) := by
  obtain ⟨errno', hl, he⟩ := (blind_control fd request word).leaving w errno
  refine ⟨errno', ?_, ?_⟩
  · simp only [kernel, hl]
    rcases PipeWorld.leaving (w.control fd request word) with ⟨_ | _, w'⟩ <;> rfl
  · rcases hr : PipeWorld.leaving (w.control fd request word) with ⟨e | _, w'⟩
    · intro _
      simpa [kernel, hr] using he e (congrArg Prod.fst hr)
    · intro hn
      simp [kernel, hr] at hn

theorem step_reset (x : PipeStep) (w : PipeWorld) (errno : Int32) :
    ∃ errno', { w with errno }.step x = ((w.step x).1, { (w.step x).2 with errno := errno' }) := by
  cases x with
  | control call =>
    obtain ⟨i, hi⟩ := call.exists_asks
    obtain ⟨a, ha, hrep⟩ := step_control hi w
    obtain ⟨a', ha', hrep'⟩ := step_control hi { w with errno }
    obtain ⟨errno', hk, he⟩ := kernel_reset i.fd i.request i.word w errno
    rw [hk] at ha' hrep'
    refine ⟨errno', ?_⟩
    rw [ha, ha', hrep.unique hrep' fun hn => (he hn).symm]
  | store n => exact ⟨errno, rfl⟩
  | write fd data =>
    obtain ⟨errno', hl, -⟩ := (blind_writeTo fd data).leaving w errno
    exact ⟨errno', by simp only [step, hl]; rfl⟩
  | read fd most =>
    obtain ⟨errno', hl, -⟩ := (blind_readFrom fd most).leaving w errno
    exact ⟨errno', by simp only [step, hl]; rfl⟩
  | close fd =>
    obtain ⟨errno', hl, -⟩ := (blind_close fd).leaving w errno
    exact ⟨errno', by simp only [step, hl]; rfl⟩
  | flags fd =>
    obtain ⟨errno', hl, -⟩ := (blind_flagsOf fd).leaving w errno
    exact ⟨errno', by simp only [step, hl]; rfl⟩

/-- No answer of a run tells the error number that was left behind before it. -/
theorem answers_reset (xs : List PipeStep) (w : PipeWorld) (errno : Int32) :
    ({ w with errno }.run xs).1 = (w.run xs).1 := by
  induction xs generalizing w errno with
  | nil => rfl
  | cons x xs ih =>
    obtain ⟨errno', hx⟩ := step_reset x w errno
    rw [run_cons, run_cons, hx, ih]

/-! ## Interchange -/

/-- Every call asks the system for one thing, which the system gets just once, and reports the outcome. Two runs on a pipe
whose calls ask for the same go through the same states: a step that both make gets the same answer, and two calls that
ask for the same get one outcome, which each reports in its way. A call that fails leaves its error number behind and
nothing else: whatever comes after it is answered as if it had not been made. -/
theorem entry_points_interchangeable {σ : Type} (k : Kernel σ) (hk : k.Conventional) (w : PipeWorld)
    {xs ys : List PipeStep} (h : List.Forall₂ PipeStep.Interchanged xs ys) :
    (∀ call : ControlCall, ∃ i, call.Asks i ∧ ∀ s issued, ∃ a,
      call.make k.noting (s, issued) = (a, (k.control i.fd i.request i.word s).2, issued ++ [i]) ∧
        call.Reports (k.control i.fd i.request i.word s).1 (k.errno (k.control i.fd i.request i.word s).2) a) ∧
    (∀ n : Nat, (w.run (xs.take n)).2 = (w.run (ys.take n)).2) ∧
    (∀ n : Nat, xs[n]? = ys[n]? → (w.run xs).1[n]? = (w.run ys).1[n]?) ∧
    (∀ (n : Nat) call call', xs[n]? = some (.control call) → ys[n]? = some (.control call') →
      ∃ r errno a a', (w.run xs).1[n]? = some (.controlled a) ∧ (w.run ys).1[n]? = some (.controlled a') ∧
        call.Reports r errno a ∧ call'.Reports r errno a') ∧
    ∀ (w : PipeWorld) call errno a, (w.step (.control call)).1 = .controlled a → call.Reports (-1) errno a →
      (w.step (.control call)).2 = { w with errno } ∧
        ∀ rest, ((w.step (.control call)).2.run rest).1 = (w.run rest).1 := by
  have hworld (n : Nat) : (w.run (xs.take n)).2 = (w.run (ys.take n)).2 := run_interchanged (List.forall₂_take n h) w
  refine ⟨fun call => ?_, hworld, fun n hn => ?_, fun n call call' hx hy => ?_, fun w call errno a ha hf => ?_⟩
  · obtain ⟨i, hi⟩ := call.exists_asks
    exact ⟨i, hi, ControlCall.make_noting hi hk⟩
  · rw [getElem?_run, getElem?_run, hworld, hn]
  · obtain ⟨i, hi, hi'⟩ := asks_of_interchanged (interchanged_getElem? h hx hy)
    obtain ⟨a, ha, hrep⟩ := step_control hi (w.run (ys.take n)).2
    obtain ⟨a', ha', hrep'⟩ := step_control hi' (w.run (ys.take n)).2
    refine ⟨_, _, a, a', ?_, ?_, hrep, hrep'⟩
    · rw [getElem?_run, hx, hworld, Option.map_some, ha]
    · rw [getElem?_run, hy, Option.map_some, ha']
  · obtain ⟨i, hi⟩ := call.exists_asks
    obtain ⟨a', ha', hrep⟩ := step_control hi w
    obtain rfl : a' = a := by
      rw [ha'] at ha
      exact PipeAnswer.controlled.inj ha
    obtain ⟨hn, rfl⟩ := hrep.of_failed hf
    have hstate : (w.step (.control call)).2 =
        { w with errno := kernel.errno (kernel.control i.fd i.request i.word w).2 } := by
      rw [ha']
      exact kernel_of_failed hn
    exact ⟨hstate, fun rest => by rw [hstate, answers_reset]⟩

/-- A null pointer, a count into the program's integer, and a call on an end that was closed, each through two functions:
the address of the integer as a signed word, and -1 as a pointer. -/
theorem entry_points_interchangeable_closedEnd :
    let p : Pointer Int32 := ⟨0xFFFF_FFFF_0000_1000⟩
    let w : PipeWorld := ⟨.empty 3 4 (by decide), ⟨p, by decide, 7⟩, 0⟩
    let xs : List PipeStep :=
      [.write 4 [0x68, 0x69], .control (.word 3 0x541B 0), .control (.pointer 3 0x541B p), .close 3,
        .control (.checked 3 0x5451 (-1)), .flags 4]
    let ys : List PipeStep :=
      [.write 4 [0x68, 0x69], .control (.checked 3 0x541B 0), .control (.word 3 0x541B (-4294963200)), .close 3,
        .control (.adapter .null 3 0x5451 (.pointer ⟨0xFFFF_FFFF_FFFF_FFFF⟩) [.long 5]), .flags 4]
    kernel.Conventional ∧ List.Forall₂ PipeStep.Interchanged xs ys ∧
    ((w.run xs).1 = [.moved (.ok 2), .controlled (.number (-1) (some 14)), .controlled (.number 0 none), .closed (.ok ()),
        .controlled (.result (.error 9)), .flags (.ok ⟨true, false, false⟩)] ∧
      (w.run ys).1 = [.moved (.ok 2), .controlled (.result (.error 14)), .controlled (.number 0 none), .closed (.ok ()),
        .controlled (.number (-1) (some 9)), .flags (.ok ⟨true, false, false⟩)] ∧
      (w.run ys).2.cell.value = 2) ∧
    (∀ call : ControlCall, ∃ i, call.Asks i ∧ ∀ s issued, ∃ a,
      call.make kernel.noting (s, issued) = (a, (kernel.control i.fd i.request i.word s).2, issued ++ [i]) ∧
        call.Reports (kernel.control i.fd i.request i.word s).1
          (kernel.errno (kernel.control i.fd i.request i.word s).2) a) ∧
    (∀ n : Nat, (w.run (xs.take n)).2 = (w.run (ys.take n)).2) ∧
    (∀ n : Nat, xs[n]? = ys[n]? → (w.run xs).1[n]? = (w.run ys).1[n]?) ∧
    (∀ (n : Nat) call call', xs[n]? = some (.control call) → ys[n]? = some (.control call') →
      ∃ r errno a a', (w.run xs).1[n]? = some (.controlled a) ∧ (w.run ys).1[n]? = some (.controlled a') ∧
        call.Reports r errno a ∧ call'.Reports r errno a') ∧
    ∀ (w : PipeWorld) call errno a, (w.step (.control call)).1 = .controlled a → call.Reports (-1) errno a →
      (w.step (.control call)).2 = { w with errno } ∧
        ∀ rest, ((w.step (.control call)).2.run rest).1 = (w.run rest).1 := by
  intro p w xs ys
  have h : List.Forall₂ PipeStep.Interchanged xs ys :=
    .cons (.same _) <| .cons (.control (.word ..) (.checked ..)) <| .cons (.control (.pointer ..) (.word ..)) <|
      .cons (.same _) <| .cons (.control (.checked ..) (.adapterPointer ..)) <| .cons (.same _) .nil
  exact ⟨conventional_kernel, h, ⟨rfl, rfl, rfl⟩,
    entry_points_interchangeable kernel conventional_kernel w h⟩

end PipeWorld
end LogRelay

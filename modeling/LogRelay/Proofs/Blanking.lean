import LogRelay.Files

/-!
# Files without their content

Paths lead where they lead whatever the files hold. `Files.blank` is a tree with its files emptied, and all that is done
to a tree does the same to the blank one, but for the content. So two trees that are the same when blank stay so.
-/

namespace LogRelay

def Node.blank : Node → Node
  | directory parent entries => directory parent entries
  | regular _ => regular []
  | device => device

namespace Files

def blank (f : Files) : Files := { f with nodes := f.nodes.map Node.blank }

variable {f f' : Files}

@[simp] theorem working_blank (f : Files) : f.blank.working = f.working := rfl

@[simp] theorem getElem?_blank (f : Files) (id : NodeId) : f.blank.nodes[id]? = f.nodes[id]?.map Node.blank := by
  simp [blank]

@[simp] theorem blank_blank (f : Files) : f.blank.blank = f.blank := by
  have hn : Node.blank ∘ Node.blank = Node.blank := by
    funext n
    cases n <;> rfl
  simp [blank, hn]

@[simp] theorem directory?_blank (f : Files) (id : NodeId) : f.blank.directory? id = f.directory? id := by
  unfold directory?
  rw [getElem?_blank]
  cases f.nodes[id]? with
  | none => rfl
  | some n => cases n <;> rfl

@[simp] theorem isSome_pieces?_blank (f : Files) (id : NodeId) :
    (f.blank.pieces? id).isSome = (f.pieces? id).isSome := by
  unfold pieces?
  rw [getElem?_blank]
  cases f.nodes[id]? with
  | none => rfl
  | some n => cases n <;> rfl

/-! ## Paths -/

@[simp] theorem lookup_blank (f : Files) : f.blank.lookup = f.lookup := by
  funext dir name
  simp [lookup]

@[simp] theorem walk_blank (f : Files) (dir : NodeId) (names : List Bytes) :
    f.blank.walk dir names = f.walk dir names := by
  simp [walk]

@[simp] theorem resolve_blank (f : Files) (path : Bytes) : f.blank.resolve path = f.resolve path := by
  simp [resolve]

/-! ## What is done to files -/

theorem create_blank (f : Files) (dir : NodeId) (name : Bytes) {n : Node} (hn : n.blank = n) :
    f.blank.create dir name n = ((f.create dir name n).1, (f.create dir name n).2.blank) := by
  unfold create
  rw [directory?_blank]
  cases f.directory? dir with
  | none => simp [blank]
  | some e =>
    have he : Node.blank (.directory e.1 ((name, f.nodes.length) :: e.2)) =
        .directory e.1 ((name, f.nodes.length) :: e.2) := rfl
    simp [blank, List.map_set, hn, he]

theorem watch_blank (f : Files) (path : Bytes) (id : NodeId) : f.blank.watch path id = (f.watch path id).blank := by
  unfold watch
  rw [isSome_pieces?_blank]
  split <;> rfl

theorem openNode_blank (f : Files) (path : Bytes) :
    f.blank.openNode path = (f.openNode path).map fun opened => (opened.1, opened.2.blank) := by
  unfold openNode
  rw [resolve_blank]
  cases f.resolve path with
  | error e => rfl
  | ok found =>
    obtain ⟨dir, _ | name⟩ := found
    · rfl
    · simp only [bind, Except.bind, lookup_blank, directory?_blank]
      split
      · rfl
      · cases f.lookup dir name with
        | ok id =>
          simp only
          split <;> rfl
        | error e =>
          have hc : f.blank.create dir name (.regular []) =
              ((f.create dir name (.regular [])).1, (f.create dir name (.regular [])).2.blank) :=
            f.create_blank dir name rfl
          cases e <;> first | rfl | simp [hc, pure, Except.pure, Except.map]

theorem openPath_blank (f : Files) (path : Bytes) :
    f.blank.openPath path = (f.openPath path).map fun opened => (opened.1, opened.2.blank) := by
  have hr : f.blank.refusals = f.refusals := rfl
  unfold openPath
  rw [openNode_blank, hr]
  cases f.refusals.lookup path with
  | some number => rfl
  | none => cases f.openNode path <;> rfl

theorem openAppend_blank (f : Files) (path : Bytes) :
    f.blank.openAppend path = (f.openAppend path).map fun opened => (opened.1, opened.2.blank) := by
  unfold openAppend
  split
  · rfl
  · rw [openPath_blank]
    cases f.openPath path with
    | error e => rfl
    | ok opened => simp [Except.map, watch_blank]

theorem blank_setRegular {id : NodeId} (h : (f.pieces? id).isSome) (pieces : List Bytes) :
    blank { f with nodes := f.nodes.set id (.regular pieces) } = f.blank := by
  have hn : f.nodes[id]?.map Node.blank = some (.regular []) := by
    unfold pieces? at h
    split at h
    · next hn => rw [hn]; rfl
    · cases h
  simp only [blank, List.map_set]
  congr 1
  rw [← List.getElem?_map] at hn
  obtain ⟨hlt, hn⟩ := List.getElem?_eq_some_iff.1 hn
  show (f.nodes.map Node.blank).set id (.regular []) = _
  rw [← hn, List.set_getElem_self]

@[simp] theorem blank_append (f : Files) (id : NodeId) (bs : Bytes) : (f.append id bs).blank = f.blank := by
  unfold append
  cases hp : f.pieces? id with
  | none => rfl
  | some pieces => exact blank_setRegular (by rw [hp]; rfl) _

theorem replace_blank (f : Files) (path bs : Bytes) : (f.blank.replace path bs).blank = (f.replace path bs).blank := by
  unfold replace
  rw [openAppend_blank]
  cases f.openAppend path with
  | error e => exact f.blank_blank
  | ok opened =>
    simp only [Except.map, isSome_pieces?_blank]
    split
    · next h => rw [blank_setRegular h, blank_setRegular (by rwa [isSome_pieces?_blank]), blank_blank]
    · exact opened.2.blank_blank

theorem makeDirectory_blank (f : Files) (path : Bytes) : f.blank.makeDirectory path = (f.makeDirectory path).blank := by
  unfold makeDirectory
  rw [resolve_blank, lookup_blank]
  split
  · next dir name hr =>
    split
    · rw [f.create_blank dir name rfl]
    · rfl
  · rfl

theorem refuse_blank (f : Files) (path : Bytes) (number : Option Int) :
    f.blank.refuse path number = (f.refuse path number).blank := rfl

end Files
end LogRelay

import LogRelay.Files

/-!
# Files grow

Nothing that is done to files takes any of them away. `Grows` says so of the tree: a directory keeps its entries, a
regular file stays one, and so a path that leads to a node leads there ever after (`Grows.nodeAt?`). `Extends` adds that
the files that were there keep their content and that new ones are empty, which is what opening a file and making a
directory do; appending adds to one file (`content?_append_of_ne`). `Sound` trees have no entry that leads nowhere.
-/

namespace LogRelay.Files

variable {f f' f'' : Files} {id dir node : NodeId} {name path : Bytes} {n : Node}

/-- The node that a path leads to. -/
def nodeAt? (f : Files) (path : Bytes) : Option NodeId :=
  match f.resolve path with
  | .ok (dir, some name) => (f.lookup dir name).toOption
  | _ => none

/-- Every entry of a directory leads to a node. -/
def Sound (f : Files) : Prop :=
  ∀ id parent entries, f.directory? id = some (parent, entries) → ∀ e ∈ entries, e.2 < f.nodes.length

/-- The tree `f'` has all that is in `f`. -/
structure Grows (f f' : Files) : Prop where
  length : f.nodes.length ≤ f'.nodes.length
  working : f'.working = f.working
  directory : ∀ id parent entries, f.directory? id = some (parent, entries) →
    ∃ entries', f'.directory? id = some (parent, entries') ∧
      ∀ name id', entries.lookup name = some id' → entries'.lookup name = some id'
  regular : ∀ id < f.nodes.length, (f'.pieces? id).isSome = (f.pieces? id).isSome

/-- The files of `f` are as they were in `f'`, and the others are empty. -/
structure Extends (f f' : Files) : Prop extends Grows f f' where
  kept : ∀ id < f.nodes.length, f'.content? id = f.content? id
  fresh : ∀ id, f.nodes.length ≤ id → ∀ content, f'.content? id = some content → content = []

/-- From `f` to `f'` the file `node` gains the bytes `bs` at its end. One that was not there begins with them. -/
structure Gains (f f' : Files) (node : NodeId) (bs : Bytes) : Prop where
  length : f.nodes.length ≤ f'.nodes.length
  kept : ∀ old, f.content? node = some old → f'.content? node = some (old ++ bs)
  other : node < f.nodes.length → f.content? node = none → f'.content? node = none
  begun : f.nodes.length ≤ node → ∀ new, f'.content? node = some new → new = bs
  missing : f'.nodes.length ≤ node → bs = []

/-! ## Nodes by number -/

theorem directory?_eq_some {parent : NodeId} {entries : List (Bytes × NodeId)} :
    f.directory? id = some (parent, entries) ↔ f.nodes[id]? = some (.directory parent entries) := by
  unfold directory?
  split <;> simp_all

theorem lt_length_of_directory? {e : NodeId × List (Bytes × NodeId)} (h : f.directory? id = some e) :
    id < f.nodes.length :=
  (List.getElem?_eq_some_iff.1 (directory?_eq_some.1 h)).1

theorem pieces?_eq_none_of_le (h : f.nodes.length ≤ id) : f.pieces? id = none := by
  rw [pieces?, List.getElem?_eq_none h]

theorem content?_eq_none_of_le (h : f.nodes.length ≤ id) : f.content? id = none := by
  rw [content?, pieces?_eq_none_of_le h, Option.map_none]

/-! ## Growth -/

theorem Grows.refl (f : Files) : Grows f f :=
  ⟨Nat.le_refl _, rfl, fun _ _ es h => ⟨es, h, fun _ _ h => h⟩, fun _ _ => rfl⟩

theorem Grows.trans (h : Grows f f') (h' : Grows f' f'') : Grows f f'' := by
  refine ⟨Nat.le_trans h.length h'.length, h'.working.trans h.working, fun id parent es hd => ?_, fun id hid => ?_⟩
  · obtain ⟨es', hd', hl⟩ := h.directory id parent es hd
    obtain ⟨es'', hd'', hl'⟩ := h'.directory id parent es' hd'
    exact ⟨es'', hd'', fun name id' he => hl' name id' (hl name id' he)⟩
  · rw [h'.regular id (Nat.lt_of_lt_of_le hid h.length), h.regular id hid]

theorem Extends.refl (f : Files) : Extends f f :=
  ⟨.refl f, fun _ _ => rfl, fun id hid content h => by rw [content?_eq_none_of_le hid] at h; cases h⟩

/-! ## Paths -/

theorem lookup_eq_ok : f.lookup dir name = .ok id ↔
    ∃ parent entries, f.directory? dir = some (parent, entries) ∧
      (name = Path.self ∧ dir = id ∨ name ≠ Path.self ∧ name = Path.parent ∧ parent = id ∨
        name ≠ Path.self ∧ name ≠ Path.parent ∧ name.length ≤ Path.maxNameLength ∧ entries.lookup name = some id) := by
  unfold Files.lookup
  cases hd : f.directory? dir with
  | none => simp
  | some e =>
    obtain ⟨parent, entries⟩ := e
    by_cases h1 : name = Path.self
    · simp [h1]
    by_cases h2 : name = Path.parent
    · simp [h2, show Path.parent ≠ Path.self by decide]
    by_cases h3 : Path.maxNameLength < name.length
    · simp [h1, h2, h3, Nat.not_le_of_lt h3]
    · simp only [h1, h2, h3, ↓reduceIte, false_and, not_false_eq_true, true_and, ne_eq, false_or, Option.some.injEq,
        Prod.mk.injEq, Nat.le_of_not_lt h3]
      constructor
      · intro h
        split at h
        · next found he => exact ⟨parent, entries, ⟨rfl, rfl⟩, he.trans (congrArg some (Except.ok.inj h))⟩
        · cases h
      · rintro ⟨_, _, ⟨rfl, rfl⟩, he⟩
        rw [he]

theorem resolve_eq_ok {last : Option Bytes} : f.resolve path = .ok (dir, last) ↔
    path ≠ [] ∧ path.length ≤ Path.maxLength ∧
      f.walk (if Path.isAbsolute path then 0 else f.working) (Path.names path).dropLast = .ok dir ∧
      (f.directory? dir).isSome ∧ (Path.names path).getLast? = last := by
  unfold Files.resolve
  by_cases h1 : path = []
  · simp [h1]
  by_cases h2 : Path.maxLength < path.length
  · simp [h1, h2, Nat.not_le_of_lt h2]
  cases hw : f.walk (if Path.isAbsolute path then 0 else f.working) (Path.names path).dropLast with
  | error e => simp [h1, h2, hw, bind, Except.bind]
  | ok found =>
    cases hd : f.directory? found with
    | none =>
      simp only [h1, h2, hw, hd, bind, Except.bind, ↓reduceIte, Option.isNone_none]
      constructor
      · intro h; cases h
      · rintro ⟨-, -, h, hs, -⟩
        rw [← Except.ok.inj h, hd] at hs
        cases hs
    | some e =>
      simp only [h1, h2, hw, hd, bind, Except.bind, pure, Except.pure, ↓reduceIte, Option.isNone_some,
        Bool.false_eq_true, Except.ok.injEq, Prod.mk.injEq, ne_eq, not_false_eq_true, Nat.le_of_not_lt h2, true_and]
      constructor
      · rintro ⟨rfl, h⟩
        exact ⟨rfl, by rw [hd]; rfl, h⟩
      · rintro ⟨h, -, h'⟩
        exact ⟨h, h'⟩

theorem nodeAt?_eq_some : f.nodeAt? path = some node ↔
    ∃ dir name, f.resolve path = .ok (dir, some name) ∧ f.lookup dir name = .ok node := by
  unfold Files.nodeAt?
  constructor
  · intro h
    split at h
    · next dir name hr =>
      cases hl : f.lookup dir name with
      | error e => rw [hl] at h; cases h
      | ok id =>
        rw [hl] at h
        obtain rfl := Option.some.inj h
        exact ⟨dir, name, hr, hl⟩
    · cases h
  · rintro ⟨dir, name, hr, hl⟩
    simp only [hr, hl, Except.toOption]

namespace Grows

theorem lookup (h : Grows f f') (hl : f.lookup dir name = .ok id) : f'.lookup dir name = .ok id := by
  obtain ⟨parent, entries, hd, hc⟩ := lookup_eq_ok.1 hl
  obtain ⟨entries', hd', hes⟩ := h.directory dir parent entries hd
  refine lookup_eq_ok.2 ⟨parent, entries', hd', ?_⟩
  rcases hc with hc | hc | ⟨h1, h2, h3, he⟩
  · exact .inl hc
  · exact .inr (.inl hc)
  · exact .inr (.inr ⟨h1, h2, h3, hes name id he⟩)

theorem walk (h : Grows f f') {names : List Bytes} (hw : f.walk dir names = .ok id) : f'.walk dir names = .ok id := by
  induction names generalizing dir with
  | nil => exact hw
  | cons name names ih =>
    unfold Files.walk at hw ih ⊢
    rw [List.foldlM_cons] at hw ⊢
    cases hl : f.lookup dir name with
    | error e => rw [hl] at hw; cases hw
    | ok next =>
      rw [hl] at hw
      rw [h.lookup hl]
      exact ih hw

theorem resolve (h : Grows f f') {last : Option Bytes} (hr : f.resolve path = .ok (dir, last)) :
    f'.resolve path = .ok (dir, last) := by
  obtain ⟨h1, h2, hw, hd, hl⟩ := resolve_eq_ok.1 hr
  refine resolve_eq_ok.2 ⟨h1, h2, ?_, ?_, hl⟩
  · rw [h.working]
    exact h.walk hw
  · obtain ⟨⟨parent, entries⟩, hd⟩ := Option.isSome_iff_exists.1 hd
    obtain ⟨entries', hd', -⟩ := h.directory dir parent entries hd
    rw [hd']
    rfl

/-- A path goes on leading where it leads. -/
theorem nodeAt? (h : Grows f f') (hp : f.nodeAt? path = some node) : f'.nodeAt? path = some node := by
  obtain ⟨dir, name, hr, hl⟩ := nodeAt?_eq_some.1 hp
  exact nodeAt?_eq_some.2 ⟨dir, name, h.resolve hr, h.lookup hl⟩

end Grows

/-! ## Making a node -/

section
variable {parent : NodeId} {entries : List (Bytes × NodeId)}

theorem getElem?_create (name : Bytes) (n : Node) (hd : f.directory? dir = some (parent, entries)) (id : NodeId) :
    (f.create dir name n).2.nodes[id]? =
      if id = f.nodes.length then some n
      else if id = dir then some (.directory parent ((name, f.nodes.length) :: entries)) else f.nodes[id]? := by
  have hlt := lt_length_of_directory? hd
  simp only [create, hd]
  rcases Nat.lt_trichotomy id f.nodes.length with hid | rfl | hid
  · rw [List.getElem?_append_left (by simpa using hid), if_neg (Nat.ne_of_lt hid)]
    by_cases he : id = dir
    · rw [if_pos he, he, List.getElem?_set_self hlt]
    · rw [if_neg he, List.getElem?_set_ne (Ne.symm he)]
  · simp
  · have hne : id ≠ dir := fun h => Nat.lt_asymm hid (h ▸ hlt)
    rw [if_neg (Nat.ne_of_gt hid), if_neg hne, List.getElem?_eq_none (Nat.le_of_lt hid)]
    exact List.getElem?_eq_none (by simpa using Nat.succ_le_of_lt hid)

theorem length_create (hd : f.directory? dir = some (parent, entries)) :
    (f.create dir name n).2.nodes.length = f.nodes.length + 1 := by
  simp [create, hd]

theorem directory?_create (hd : f.directory? dir = some (parent, entries)) (hid : id < f.nodes.length) :
    (f.create dir name n).2.directory? id =
      if id = dir then some (parent, (name, f.nodes.length) :: entries) else f.directory? id := by
  have hg := getElem?_create name n hd id
  rw [if_neg (Nat.ne_of_lt hid)] at hg
  by_cases he : id = dir
  · rw [if_pos he] at hg ⊢
    exact directory?_eq_some.2 hg
  · rw [if_neg he] at hg ⊢
    rw [directory?, hg, directory?]

theorem pieces?_create (hd : f.directory? dir = some (parent, entries)) (hid : id < f.nodes.length) :
    (f.create dir name n).2.pieces? id = f.pieces? id := by
  have hg := getElem?_create name n hd id
  rw [if_neg (Nat.ne_of_lt hid)] at hg
  by_cases he : id = dir
  · rw [if_pos he] at hg
    rw [pieces?, hg, pieces?, he, directory?_eq_some.1 hd]
  · rw [if_neg he] at hg
    rw [pieces?, hg, pieces?]

/-- A new node under a name that is not in use takes nothing away. -/
theorem extends_create (hd : f.directory? dir = some (parent, entries)) (hn : entries.lookup name = none)
    (hc : n = .regular [] ∨ ∃ parent, n = .directory parent []) : Extends f (f.create dir name n).2 where
  length := by rw [length_create hd]; omega
  working := by simp [create, hd]
  directory id parent' entries' h := by
    rw [directory?_create hd (lt_length_of_directory? h)]
    split
    · next he =>
      subst he
      obtain ⟨rfl, rfl⟩ := Prod.mk.inj (Option.some.inj (hd.symm.trans h))
      refine ⟨_, rfl, fun name' id' hl => ?_⟩
      have hne : name' ≠ name := by
        rintro rfl
        rw [hn] at hl
        cases hl
      rw [List.lookup_cons, beq_false_of_ne hne]
      exact hl
    · exact ⟨entries', h, fun _ _ hl => hl⟩
  regular id hid := by rw [pieces?_create hd hid]
  kept id hid := by rw [content?, pieces?_create hd hid, content?]
  fresh id hid content h := by
    rcases Nat.lt_or_eq_of_le hid with hid | rfl
    · rw [content?_eq_none_of_le (by rw [length_create hd]; omega)] at h
      cases h
    · rw [content?, pieces?, getElem?_create name n hd, if_pos rfl] at h
      rcases hc with rfl | ⟨parent, rfl⟩
      · simpa using h.symm
      · cases h

theorem sound_create (hd : f.directory? dir = some (parent, entries)) (hs : f.Sound)
    (hc : n = .regular [] ∨ ∃ parent, n = .directory parent []) : (f.create dir name n).2.Sound := by
  intro id parent' entries' h e he
  rw [length_create hd]
  have hlt := lt_length_of_directory? h
  rw [length_create hd] at hlt
  rcases Nat.lt_succ_iff_lt_or_eq.1 hlt with hid | rfl
  · rw [directory?_create hd hid] at h
    split at h
    · obtain ⟨-, rfl⟩ := Prod.mk.inj (Option.some.inj h)
      rcases List.mem_cons.1 he with rfl | he
      · exact Nat.lt_succ_self _
      · exact Nat.lt_succ_of_lt (hs dir parent entries hd e he)
    · exact Nat.lt_succ_of_lt (hs id parent' entries' h e he)
  · rw [directory?, getElem?_create name n hd, if_pos rfl] at h
    rcases hc with rfl | ⟨parent'', rfl⟩
    · cases h
    · obtain ⟨-, rfl⟩ := Prod.mk.inj (Option.some.inj h)
      cases he

theorem nodeAt?_create (hd : f.directory? dir = some (parent, entries)) (hn : entries.lookup name = none)
    (hr : f.resolve path = .ok (dir, some name)) (h1 : name ≠ Path.self) (h2 : name ≠ Path.parent)
    (h3 : name.length ≤ Path.maxNameLength) :
    (f.create dir name (.regular [])).2.nodeAt? path = some f.nodes.length := by
  have hg := (extends_create (n := .regular []) hd hn (.inl rfl)).toGrows
  refine nodeAt?_eq_some.2 ⟨dir, name, hg.resolve hr, lookup_eq_ok.2 ?_⟩
  refine ⟨parent, (name, f.nodes.length) :: entries, ?_, ?_⟩
  · rw [directory?_create hd (lt_length_of_directory? hd), if_pos rfl]
  · exact .inr (.inr ⟨h1, h2, h3, List.lookup_cons_self⟩)

end

theorem lookup_eq_notFound (h : f.lookup dir name = .error .ENOENT) :
    ∃ parent entries, f.directory? dir = some (parent, entries) ∧ entries.lookup name = none ∧
      name ≠ Path.self ∧ name ≠ Path.parent ∧ name.length ≤ Path.maxNameLength := by
  unfold Files.lookup at h
  split at h
  · cases h
  next parent entries hd =>
  split at h
  · cases h
  next h1 =>
  split at h
  · cases h
  next h2 =>
  split at h
  · cases h
  next h3 =>
  split at h
  · cases h
  · next he => exact ⟨parent, entries, hd, he, h1, h2, Nat.le_of_not_lt h3⟩

/-! ## What is done to files -/

/-- Opening finds the file of the path, or makes it, empty, and takes nothing away. -/
theorem openNode_eq_ok (h : f.openNode path = .ok (node, f')) :
    Extends f f' ∧ f'.nodeAt? path = some node ∧ (f.Sound → f'.Sound ∧ node < f'.nodes.length) := by
  unfold openNode at h
  cases hr : f.resolve path with
  | error e => rw [hr] at h; cases h
  | ok last =>
    obtain ⟨dir, _ | name⟩ := last
    · rw [hr] at h; cases h
    by_cases hs : name = Path.self ∨ name = Path.parent ∨ Path.endsInSlash path = true
    · simp only [hr, bind, Except.bind, hs, ↓reduceIte] at h
      cases h
    simp only [hr, bind, Except.bind, hs, ↓reduceIte] at h
    cases hl : f.lookup dir name with
    | ok id =>
      simp only [hl] at h
      split at h
      · cases h
      obtain ⟨rfl, rfl⟩ := Prod.mk.inj (Except.ok.inj h)
      refine ⟨.refl f, nodeAt?_eq_some.2 ⟨dir, name, hr, hl⟩, fun hf => ⟨hf, ?_⟩⟩
      obtain ⟨parent, entries, hd, ⟨he, -⟩ | ⟨-, he, -⟩ | ⟨-, -, -, he⟩⟩ := lookup_eq_ok.1 hl
      · exact absurd (.inl he) hs
      · exact absurd (.inr (.inl he)) hs
      · obtain ⟨l, r, rfl, -⟩ := List.lookup_eq_some_iff.1 he
        exact hf dir parent _ hd (name, id) (by simp)
    | error e =>
      simp only [hl] at h
      split at h
      · next hl' => cases hl'
      · next hl' =>
        obtain rfl := Except.error.inj hl'
        obtain ⟨parent, entries, hd, hn, h1, h2, h3⟩ := lookup_eq_notFound hl
        have hc : f.create dir name (.regular []) = (f.nodes.length, (f.create dir name (.regular [])).2) := by
          simp [create, hd]
        rw [hc] at h
        obtain ⟨rfl, rfl⟩ := Prod.mk.inj (Except.ok.inj h)
        refine ⟨extends_create hd hn (.inl rfl), nodeAt?_create hd hn hr h1 h2 h3, fun hf => ⟨?_, ?_⟩⟩
        · exact sound_create hd hf (.inl rfl)
        · rw [length_create hd]; exact Nat.lt_succ_self _
      · cases h

theorem watch_eq (f : Files) (path : Bytes) (id : NodeId) :
    ∃ watched, f.watch path id = { f with watched := watched } := by
  unfold watch
  split
  · exact ⟨_, rfl⟩
  · exact ⟨f.watched, rfl⟩

theorem openPath_eq_ok (h : f.openPath path = .ok (node, f')) : f.openNode path = .ok (node, f') := by
  unfold openPath at h
  split at h
  · cases h
  · cases ho : f.openNode path with
    | error e => rw [ho] at h; cases h
    | ok opened => rw [ho] at h; exact congrArg Except.ok (Except.ok.inj h)

theorem openAppend_eq_ok (h : f.openAppend path = .ok (node, f')) :
    Extends f f' ∧ f'.nodeAt? path = some node ∧ (f.Sound → f'.Sound ∧ node < f'.nodes.length) := by
  unfold openAppend at h
  split at h
  · cases h
  split at h
  · next id f₁ ho =>
    obtain ⟨rfl, rfl⟩ := Prod.mk.inj (Except.ok.inj h)
    obtain ⟨he, hn, hs⟩ := openNode_eq_ok (openPath_eq_ok ho)
    -- being watched is no part of the tree
    obtain ⟨watched, hw⟩ := f₁.watch_eq path id
    rw [hw]
    exact ⟨⟨⟨he.length, he.working, he.directory, he.regular⟩, he.kept, he.fresh⟩, hn, hs⟩
  · cases h

/-- Refusals are no part of the tree either. -/
theorem extends_refuse (f : Files) (path : Bytes) (number : Option Int) :
    Extends f (f.refuse path number) ∧ (f.Sound → (f.refuse path number).Sound) :=
  ⟨⟨⟨Nat.le_refl _, rfl, fun _ _ entries hd => ⟨entries, hd, fun _ _ h => h⟩, fun _ _ => rfl⟩, fun _ _ => rfl,
    (Extends.refl f).fresh⟩, id⟩

theorem extends_makeDirectory (f : Files) (path : Bytes) :
    Extends f (f.makeDirectory path) ∧ (f.Sound → (f.makeDirectory path).Sound) := by
  unfold makeDirectory
  split
  · next dir name hr =>
    split
    · next hl =>
      obtain ⟨parent, entries, hd, hn, -⟩ := lookup_eq_notFound hl
      exact ⟨extends_create hd hn (.inr ⟨dir, rfl⟩), fun hs => sound_create hd hs (.inr ⟨dir, rfl⟩)⟩
    · exact ⟨.refl f, id⟩
  · exact ⟨.refl f, id⟩

theorem getElem?_setRegular {pieces : List Bytes} (hp : f.pieces? node = some pieces) (pieces' : List Bytes) :
    (f.nodes.set node (.regular pieces'))[id]? = if id = node then some (.regular pieces') else f.nodes[id]? := by
  by_cases he : id = node
  · rw [if_pos he, he, List.getElem?_set_self (lt_length_of_pieces? hp)]
  · rw [if_neg he, List.getElem?_set_ne (Ne.symm he)]

/-- Putting other content into a file leaves the tree as it is. -/
theorem directory?_setRegular {pieces : List Bytes} (hp : f.pieces? node = some pieces) (pieces' : List Bytes) :
    directory? { f with nodes := f.nodes.set node (.regular pieces') } id = f.directory? id := by
  rw [directory?, getElem?_setRegular hp]
  by_cases he : id = node
  · rw [if_pos he, he]
    unfold pieces? at hp
    split at hp
    · next hn => rw [directory?, hn]
    · cases hp
  · rw [if_neg he, directory?]

theorem pieces?_setRegular {pieces : List Bytes} (hp : f.pieces? node = some pieces) (pieces' : List Bytes) :
    pieces? { f with nodes := f.nodes.set node (.regular pieces') } id =
      if id = node then some pieces' else f.pieces? id := by
  rw [pieces?, getElem?_setRegular hp]
  by_cases he : id = node
  · rw [if_pos he, if_pos he]
  · rw [if_neg he, if_neg he, pieces?]

theorem grows_setRegular {pieces : List Bytes} (hp : f.pieces? node = some pieces) (pieces' : List Bytes) :
    Grows f { f with nodes := f.nodes.set node (.regular pieces') } ∧
      (f.Sound → Sound { f with nodes := f.nodes.set node (.regular pieces') }) := by
  have hl : (f.nodes.set node (.regular pieces')).length = f.nodes.length := List.length_set ..
  refine ⟨⟨Nat.le_of_eq hl.symm, rfl, fun id parent entries hd => ?_, fun id _ => ?_⟩, fun hs id parent entries hd => ?_⟩
  · exact ⟨entries, by rwa [directory?_setRegular hp], fun _ _ h => h⟩
  · rw [pieces?_setRegular hp]
    split
    · next he => rw [he, hp]; rfl
    · rfl
  · show ∀ e ∈ entries, e.2 < (f.nodes.set node (.regular pieces')).length
    rw [directory?_setRegular hp] at hd
    rw [hl]
    exact hs id parent entries hd

theorem grows_append (f : Files) (node : NodeId) (bs : Bytes) :
    Grows f (f.append node bs) ∧ (f.Sound → (f.append node bs).Sound) := by
  unfold append
  cases hp : f.pieces? node with
  | none => exact ⟨.refl f, id⟩
  | some pieces => exact grows_setRegular hp _

theorem content?_append_of_ne (h : id ≠ node) (bs : Bytes) : (f.append node bs).content? id = f.content? id := by
  unfold append
  cases hp : f.pieces? node with
  | none => rfl
  | some pieces => rw [content?, pieces?_setRegular hp, if_neg h, content?]

theorem grows_replace (f : Files) (path bs : Bytes) :
    Grows f (f.replace path bs) ∧ (f.Sound → (f.replace path bs).Sound) := by
  unfold replace
  split
  · next id f₁ ho =>
    obtain ⟨he, -, hs⟩ := openAppend_eq_ok ho
    split
    · next hp =>
      obtain ⟨pieces, hp⟩ := Option.isSome_iff_exists.1 hp
      obtain ⟨hg, hs'⟩ := grows_setRegular hp [bs]
      exact ⟨he.toGrows.trans hg, fun h => hs' (hs h).1⟩
    · exact ⟨he.toGrows, fun h => (hs h).1⟩
  · exact ⟨.refl f, id⟩

/-! ## Gains -/

theorem Gains.trans {bs bs' : Bytes} (h : Gains f f' node bs) (h' : Gains f' f'' node bs') :
    Gains f f'' node (bs ++ bs') := by
  refine ⟨Nat.le_trans h.length h'.length, fun old ho => ?_, fun hn hc => ?_, fun hn new hnew => ?_, fun hn => ?_⟩
  · rw [h'.kept _ (h.kept old ho), List.append_assoc]
  · exact h'.other (Nat.lt_of_lt_of_le hn h.length) (h.other hn hc)
  · rcases Nat.lt_or_ge node f'.nodes.length with hlt | hge
    · cases hc : f'.content? node with
      | none =>
        rw [h'.other hlt hc] at hnew
        cases hnew
      | some mid =>
        rw [h'.kept mid hc, h.begun hn mid hc] at hnew
        exact (Option.some.inj hnew).symm
    · rw [h.missing hge, h'.begun hge new hnew, List.nil_append]
  · rw [h.missing (Nat.le_trans h'.length hn), h'.missing hn, List.nil_append]

theorem Extends.gains (h : Extends f f') (node : NodeId) : Gains f f' node [] where
  length := h.length
  kept old ho := by
    have hlt : node < f.nodes.length := by
      rcases Nat.lt_or_ge node f.nodes.length with hlt | hge
      · exact hlt
      · rw [content?_eq_none_of_le hge] at ho
        cases ho
    rw [h.kept node hlt, ho, List.append_nil]
  other hn hc := by rw [h.kept node hn, hc]
  begun hn new hnew := h.fresh node hn new hnew
  missing _ := rfl

theorem gains_append (hn : node < f.nodes.length) (bs : Bytes) (id : NodeId) :
    Gains f (f.append node bs) id (if id = node then bs else []) := by
  have hl := (f.grows_append node bs).1.length
  by_cases he : id = node
  · subst he
    rw [if_pos rfl]
    refine ⟨hl, fun old ho => ?_, fun hlt hc => ?_, fun hge => ?_, fun hge => ?_⟩
    · rw [content?_append, ho, Option.map_some]
    · rw [content?_append, hc, Option.map_none]
    · exact absurd hn (Nat.not_lt_of_le hge)
    · exact absurd hn (Nat.not_lt_of_le (Nat.le_trans hl hge))
  · rw [if_neg he]
    refine ⟨hl, fun old ho => ?_, fun hlt hc => ?_, fun hge new hnew => ?_, fun _ => rfl⟩
    · rw [content?_append_of_ne he, ho, List.append_nil]
    · rw [content?_append_of_ne he, hc]
    · rw [content?_append_of_ne he, content?_eq_none_of_le hge] at hnew
      cases hnew

theorem sound_initial : initial.Sound := by
  intro id parent entries h e he
  have hid : id < 16 := lt_length_of_directory? h
  have key : ∀ id < 16, ∀ e ∈ (initial.directory? id).elim [] Prod.snd, e.2 < initial.nodes.length := by decide +kernel
  exact key id hid e (by rw [h]; exact he)

end LogRelay.Files

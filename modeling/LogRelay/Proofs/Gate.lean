import LogRelay.Client

/-!
# The gate

`Record.Admitted` says which records get past a bound. A sink goes by it (`isEnabled_iff`), and a client that is asked
whether a call is worth making goes by the same rule (`levelEnabled_iff`), so that a record which has to get past both is
one that the lower of the two bounds admits (`admitted_min`). Every macro passes its record on if the client's own level
admits it (`expand_eq`).
-/

namespace LogRelay

instance : Min Level := minOfLe

theorem Level.le_min_iff {a b c : Level} : a ≤ min b c ↔ a ≤ b ∧ a ≤ c := by
  show a ≤ (if b ≤ c then b else c) ↔ _
  have hdef {x y : Level} : x ≤ y ↔ x.ordinal ≤ y.ordinal := Iff.rfl
  split <;> simp only [hdef] at * <;> omega

theorem Level.le_antisymm {a b : Level} (h : a ≤ b) (h' : b ≤ a) : a = b :=
  ordinal_injective (Nat.le_antisymm h h')

theorem Level.min_eq_right {a b : Level} (h : b ≤ a) : min a b = b := by
  show (if a ≤ b then a else b) = b
  split
  · next hab => exact le_antisymm hab h
  · rfl

namespace Record

/-- The record `r` gets past the bound: its level is not `off`, and it is at most the level of its topic's own, or at most
the bound where the topic has none. -/
structure Admitted (r : Record) (bound : Level) : Prop where
  on : r.level ≠ .off
  own : ∀ t, r.topic = some t → t.custom = true → r.level ≤ t.level
  inherited : (∀ t, r.topic = some t → t.custom = false) → r.level ≤ bound

theorem isEnabled_iff (r : Record) (bound : Level) : r.isEnabled bound = true ↔ r.Admitted bound := by
  have hp : r.isEnabled bound = true ↔ r.level ≠ .off ∧ r.level ≤ Topic.bound r.topic bound := by
    simp [isEnabled, Level.passes]
  rw [hp]
  cases ht : r.topic with
  | none =>
    constructor
    · rintro ⟨ho, hb⟩
      exact ⟨ho, fun t h => absurd (ht.symm.trans h) (by simp), fun _ => hb⟩
    · rintro ⟨ho, -, hb⟩
      exact ⟨ho, hb fun t h => absurd (ht.symm.trans h) (by simp)⟩
  | some t =>
    cases hc : t.custom with
    | true =>
      have hb : Topic.bound (some t) bound = t.level := by simp [Topic.bound, Topic.effectiveLevel, hc]
      rw [hb]
      constructor
      · rintro ⟨ho, hl⟩
        refine ⟨ho, fun t' h _ => ?_, fun h => ?_⟩
        · rwa [← Option.some.inj (ht.symm.trans h)]
        · rw [h t ht] at hc; cases hc
      · rintro ⟨ho, hl, -⟩
        exact ⟨ho, hl t ht hc⟩
    | false =>
      have hb : Topic.bound (some t) bound = bound := by simp [Topic.bound, Topic.effectiveLevel, hc]
      rw [hb]
      constructor
      · rintro ⟨ho, hl⟩
        refine ⟨ho, fun t' h h' => ?_, fun _ => hl⟩
        rw [← Option.some.inj (ht.symm.trans h), hc] at h'
        cases h'
      · rintro ⟨ho, -, hl⟩
        exact ⟨ho, hl fun t' h => by rwa [← Option.some.inj (ht.symm.trans h)]⟩

instance (r : Record) (bound : Level) : Decidable (r.Admitted bound) := decidable_of_iff _ (r.isEnabled_iff bound)

theorem admitted_min {r : Record} {a b : Level} : r.Admitted (min a b) ↔ r.Admitted a ∧ r.Admitted b := by
  constructor
  · intro h
    exact ⟨⟨h.on, h.own, fun ht => (Level.le_min_iff.1 (h.inherited ht)).1⟩,
      ⟨h.on, h.own, fun ht => (Level.le_min_iff.1 (h.inherited ht)).2⟩⟩
  · rintro ⟨ha, hb⟩
    exact ⟨ha.on, ha.own, fun ht => Level.le_min_iff.2 ⟨ha.inherited ht, hb.inherited ht⟩⟩

/-- The gate reads the level and the topic's own level, nothing else. -/
theorem admitted_congr {r r' : Record} (hl : r'.level = r.level)
    (ht : r'.topic.map (fun t => (t.level, t.custom)) = r.topic.map fun t => (t.level, t.custom)) (bound : Level) :
    r'.Admitted bound ↔ r.Admitted bound := by
  have key (r r' : Record) (hl : r'.level = r.level)
      (ht : r'.topic.map (fun t => (t.level, t.custom)) = r.topic.map fun t => (t.level, t.custom))
      (h : r.Admitted bound) : r'.Admitted bound := by
    refine ⟨hl ▸ h.on, fun t' h' hc => ?_, fun hc => hl ▸ h.inherited fun t h' => ?_⟩
    · rw [h', Option.map_some] at ht
      obtain ⟨t, hs, he⟩ := Option.map_eq_some_iff.1 ht.symm
      obtain ⟨hlevel, hcustom⟩ := Prod.mk.inj he
      rw [hl, ← hlevel]
      exact h.own t hs (hcustom.trans hc)
    · rw [h', Option.map_some] at ht
      obtain ⟨t', hs, he⟩ := Option.map_eq_some_iff.1 ht
      rw [← (Prod.mk.inj he).2]
      exact hc t' hs
  exact ⟨key r' r hl.symm ht.symm, key r r' hl ht⟩

end Record

/-! ## Macros -/

/-- The level of the message, which a macro of a severity has in its name. -/
def Guard.givenLevel : Guard → Level
  | level l => l
  | topic l _ => l
  | severity .error _ => .error
  | severity .warn _ => .warn
  | severity .info _ => .info
  | severity .debug _ => .debug
  | severity .trace _ => .trace

def Guard.givenTopic : Guard → Option Topic
  | level _ => none
  | topic _ t => some t
  | severity _ t => t

/-- The record that a use of a macro is about. -/
def GuardedCall.record (g : GuardedCall) : Record :=
  ⟨g.guard.givenLevel, g.guard.givenTopic, g.place.file, g.place.line, g.place.func, g.message⟩

namespace Client

theorem levelEnabled_iff (c : Client) (r : Record) : c.levelEnabled r.level r.topic = true ↔ r.Admitted c.level :=
  r.isEnabled_iff c.level

/-- Whatever the macro, its record is passed on where the client says that the level is enabled. -/
theorem expand_eq (c : Client) (g : GuardedCall) :
    c.expand g = if c.levelEnabled g.record.level g.record.topic then c.send g.record else none := by
  obtain ⟨guard, place, message⟩ := g
  cases guard with
  | level level => rfl
  | topic level topic => rfl
  | severity severity topic => cases severity <;> cases topic <;> rfl

end Client
end LogRelay

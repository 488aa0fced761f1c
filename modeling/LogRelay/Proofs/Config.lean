import LogRelay.Config
import LogRelay.Proofs.Level.Parser
import LogRelay.Proofs.Utf8.Encoded

/-!
# Environments that are accepted

Each of the four variables is unset, holds a text, or holds bytes that are no text. `Describes` says which environments
make up which configuration, and `Offends` what is wrong with a variable, each without regard to the others but for the
path, which only a file sink needs. `ofEnvironment` accepts the first, and for all others it gives the first offence in
the order of the variables (`accepts_described`).
-/

namespace LogRelay

/-- The variables of a configuration. -/
inductive Variable where
  | level | format | sink | file

namespace Variable

def name : Variable → String
  | level => "SPA_SUPPORT_LOG_LEVEL"
  | format => "SPA_SUPPORT_LOG_FORMAT"
  | sink => "SPA_SUPPORT_LOG_SINK"
  | file => "SPA_SUPPORT_LOG_FILE"

/-- The variables in the order in which they are looked at. -/
def all : List Variable := [level, format, sink, file]

end Variable

/-- The words for line formats, in lower case. -/
def LineFormat.vocabulary : List (String × LineFormat) := [("text", text), ("json", json)]

/-- The text `t`, without blanks around it, stands for no line format, and this is how it is said. -/
def LineFormat.Misread (t m : String) : Prop :=
  (∀ w f, (w, f) ∈ vocabulary → ¬ Text.SameLetters t w) ∧
    ∃ small, Text.Lowered t small ∧ m = "unknown log format " ++ Text.quoted small

namespace Environment

/-- The variable is not there, or has nothing but blanks. -/
def Unset (env : Environment) (v : Variable) : Prop :=
  env v.name = none ∨ ∃ s, env v.name = some (Utf8.ofText s) ∧ ∀ c ∈ s.toList, c ∈ Text.whiteSpace

/-- The variable has the text `s`, which is not all blank. -/
def Holds (env : Environment) (v : Variable) (s : String) : Prop :=
  env v.name = some (Utf8.ofText s) ∧ ∃ c ∈ s.toList, c ∉ Text.whiteSpace

/-- The variable has bytes that are no text. -/
def Undecodable (env : Environment) (v : Variable) : Prop := ∃ bs, env v.name = some bs ∧ ∀ s, bs ≠ Utf8.ofText s

/-- The environment asks for a file sink. -/
def WantsFile (env : Environment) : Prop := ∃ s, env.Holds .sink s ∧ Text.Trimmed s "file"

/-- The environment asks for the sink `choice`: by its name with blanks around it, for the facade also by silence. The
path of a file is taken as it is. -/
inductive Chooses (env : Environment) : SinkChoice → Prop where
  | silence (h : env.Unset .sink) : Chooses env .facade
  | facade {s : String} (h : env.Holds .sink s) (ht : Text.Trimmed s "facade") : Chooses env .facade
  | silent {s : String} (h : env.Holds .sink s) (ht : Text.Trimmed s "none") : Chooses env .silent
  | file {path : String} (h : env.WantsFile) (hp : env.Holds .file path) : Chooses env (.file (Utf8.ofText path))

/-- The environment makes up the configuration `c`. -/
structure Describes (env : Environment) (c : Config) : Prop where
  level : env.Unset .level ∧ c.level = .warn ∨
    ∃ s t, env.Holds .level s ∧ Text.Trimmed s t ∧ Level.Written t c.level
  format : env.Unset .format ∧ c.format = .text ∨
    ∃ s t w, env.Holds .format s ∧ Text.Trimmed s t ∧ (w, c.format) ∈ LineFormat.vocabulary ∧ Text.SameLetters t w
  sink : env.Chooses c.sink

/-- Something is wrong with a variable, and this is how it is said. -/
inductive Offends (env : Environment) : Variable → String → Prop where
  | undecodable {v : Variable} (hv : v = .file → env.WantsFile) (h : env.Undecodable v) :
      Offends env v ("unable to parse " ++ v.name)
  | level {s t m : String} (h : env.Holds .level s) (ht : Text.Trimmed s t) (hm : Level.Misread t m) :
      Offends env .level m
  | format {s t m : String} (h : env.Holds .format s) (ht : Text.Trimmed s t) (hm : LineFormat.Misread t m) :
      Offends env .format m
  | sink {s t : String} (h : env.Holds .sink s) (ht : Text.Trimmed s t) (hu : t ∉ ["facade", "none", "file"]) :
      Offends env .sink ("unknown log sink " ++ Text.quoted t ++ " in " ++ Variable.sink.name)
  | noPath (hs : env.WantsFile) (h : env.Unset .file) :
      Offends env .file (Variable.sink.name ++ "=file requires " ++ Variable.file.name)

/-- Of some variables the first with which something is wrong, and how it is said. -/
def FirstOffence (env : Environment) (vs : List Variable) (message : String) : Prop :=
  ∃ before v after, vs = before ++ v :: after ∧ (∀ u ∈ before, ∀ m, ¬ env.Offends u m) ∧ env.Offends v message

variable {env : Environment} {v : Variable} {s : String}

/-! ## One variable -/

theorem read_of_unset (h : env.Unset v) : env.read v.name = .ok none := by
  unfold read
  rcases h with h | ⟨s, h, hb⟩
  · rw [h]
  · simp [h, Utf8.decode?_ofText, Text.isAllBlank_iff.2 hb]

theorem read_of_holds (h : env.Holds v s) : env.read v.name = .ok (some s) := by
  obtain ⟨h, c, hc, hb⟩ := h
  have hall : ¬ Text.isAllBlank s = true := fun ha => hb (Text.isAllBlank_iff.1 ha c hc)
  simp [read, h, Utf8.decode?_ofText, hall]

theorem read_of_undecodable (h : env.Undecodable v) : env.read v.name = .error (.variableBytes v.name) := by
  obtain ⟨bs, h, hbs⟩ := h
  have hd : Utf8.decode? bs = none := Option.eq_none_iff_forall_ne_some.2 fun s hs =>
    hbs s (Utf8.decode?_eq_some_iff.1 hs)
  simp [read, h, hd]

theorem unset_or_holds (env : Environment) (v : Variable) :
    env.Unset v ∨ (∃ s, env.Holds v s) ∨ env.Undecodable v := by
  cases hv : env v.name with
  | none => exact .inl (.inl hv)
  | some bs =>
    by_cases ht : ∃ s, bs = Utf8.ofText s
    · obtain ⟨s, rfl⟩ := ht
      by_cases hb : ∃ c ∈ s.toList, c ∉ Text.whiteSpace
      · exact .inr (.inl ⟨s, hv, hb⟩)
      · exact .inl (.inr ⟨s, hv, by simpa using hb⟩)
    · exact .inr (.inr ⟨bs, hv, fun s hs => ht ⟨s, hs⟩⟩)

end Environment

namespace Config

variable {α : Type} {env : Environment} {v : Variable} {m : String}

/-- What a variable comes to: its text as `parse` takes it, and `unset` where it is unset. -/
def settle (env : Environment) (v : Variable) (parse : String → Except Fault α) (unset : Except Fault α) :
    Except Fault α := do
  match ← env.read v.name with
  | some s => parse s
  | none => unset

section
variable {parse : String → Except Fault α} {unset : Except Fault α}

theorem settle_eq_iff {r : Except Fault α} :
    settle env v parse unset = r ↔
      env.Unset v ∧ unset = r ∨ (∃ s, env.Holds v s ∧ parse s = r) ∨
        env.Undecodable v ∧ .error (.variableBytes v.name) = r := by
  have hu : env.Unset v → settle env v parse unset = unset := fun h => by
    rw [settle, Environment.read_of_unset h]
    rfl
  have hs {s : String} : env.Holds v s → settle env v parse unset = parse s := fun h => by
    rw [settle, Environment.read_of_holds h]
    rfl
  have hb : env.Undecodable v → settle env v parse unset = .error (.variableBytes v.name) := fun h => by
    rw [settle, Environment.read_of_undecodable h]
    rfl
  constructor
  · rintro rfl
    rcases env.unset_or_holds v with h | ⟨s, h⟩ | h
    · exact .inl ⟨h, (hu h).symm⟩
    · exact .inr (.inl ⟨s, h, (hs h).symm⟩)
    · exact .inr (.inr ⟨h, (hb h).symm⟩)
  · rintro (⟨h, hr⟩ | ⟨s, h, hr⟩ | ⟨h, hr⟩)
    · rw [hu h, hr]
    · rw [hs h, hr]
    · rw [hb h, hr]

theorem exists_settle_eq_error_iff {a : α} :
    (∃ f, settle env v parse (.ok a) = .error f ∧ f.message = m) ↔
      (∃ s f, env.Holds v s ∧ parse s = .error f ∧ f.message = m) ∨
        env.Undecodable v ∧ "unable to parse " ++ v.name = m := by
  simp only [settle_eq_iff]
  constructor
  · rintro ⟨f, ⟨-, h⟩ | ⟨s, hs, h⟩ | ⟨hb, h⟩, hm⟩
    · cases h
    · exact .inl ⟨s, f, hs, h, hm⟩
    · cases h
      exact .inr ⟨hb, hm⟩
  · rintro (⟨s, f, hs, h, hm⟩ | ⟨hb, hm⟩)
    · exact ⟨f, .inr (.inl ⟨s, hs, h⟩), hm⟩
    · exact ⟨_, .inr (.inr ⟨hb, rfl⟩), hm⟩

end

/-! ## Level and format -/

theorem readLevel_eq (env : Environment) : readLevel env = settle env .level Level.parse (.ok .warn) := rfl

theorem readFormat_eq (env : Environment) : readFormat env = settle env .format LineFormat.parse (.ok .text) := rfl

theorem readLevel_eq_ok_iff {l : Level} :
    readLevel env = .ok l ↔
      env.Unset .level ∧ l = .warn ∨ ∃ s t, env.Holds .level s ∧ Text.Trimmed s t ∧ Level.Written t l := by
  have hparse (s : String) : Level.parse s = .ok l ↔ ∃ t, Text.Trimmed s t ∧ Level.Written t l := by
    simp only [Text.trimmed_iff, exists_eq_left, Level.parse_eq_ok_iff (Text.trimmed_trim s)]
  rw [readLevel_eq, settle_eq_iff]
  simp [hparse, eq_comm (a := Level.warn)]

theorem exists_readLevel_eq_error_iff :
    (∃ f, readLevel env = .error f ∧ f.message = m) ↔ env.Offends .level m := by
  rw [readLevel_eq, exists_settle_eq_error_iff]
  constructor
  · rintro (⟨s, f, hs, hf⟩ | ⟨hb, rfl⟩)
    · have ht := Text.trimmed_trim s
      exact .level hs ht ((Level.exists_parse_eq_error_iff ht).1 ⟨f, hf⟩)
    · exact .undecodable nofun hb
  · intro h
    cases h with
    | undecodable _ hb => exact .inr ⟨hb, rfl⟩
    | level hs ht hm =>
      obtain ⟨f, hf⟩ := (Level.exists_parse_eq_error_iff ht).2 hm
      exact .inl ⟨_, f, hs, hf⟩

theorem ofName?_eq_some_iff {w : String} {f : LineFormat} :
    LineFormat.ofName? w = some f ↔ (w, f) ∈ LineFormat.vocabulary := by
  constructor
  · intro h
    have hw : decide (f.name = w) = true := List.find?_some (p := fun f : LineFormat => decide (f.name = w)) h
    obtain rfl := of_decide_eq_true hw
    cases f <;> decide
  · have hall : ∀ e ∈ LineFormat.vocabulary, LineFormat.ofName? e.1 = some e.2 := by decide
    exact hall (w, f)

theorem lower_eq_formatWord {t w : String} {f : LineFormat} (hw : (w, f) ∈ LineFormat.vocabulary) :
    Text.lower t = w ↔ Text.SameLetters t w := by
  have hlower : ∀ e ∈ LineFormat.vocabulary, Text.lower e.1 = e.1 := by decide
  rw [← Text.lower_eq_lower_iff, hlower (w, f) hw]

section
variable {s t : String}

theorem parseFormat_of_word (ht : Text.Trimmed s t) {w : String} {f : LineFormat}
    (hw : (w, f) ∈ LineFormat.vocabulary) (hs : Text.SameLetters t w) : LineFormat.parse s = .ok f := by
  simp only [LineFormat.parse, ← Text.trimmed_iff.1 ht, (lower_eq_formatWord hw).2 hs, ofName?_eq_some_iff.2 hw]

theorem parseFormat_of_misread (ht : Text.Trimmed s t)
    (hw : ∀ w f, (w, f) ∈ LineFormat.vocabulary → ¬ Text.SameLetters t w) :
    LineFormat.parse s = .error (.formatText (Text.lower t)) := by
  have hword : LineFormat.ofName? (Text.lower t) = none := Option.eq_none_iff_forall_ne_some.2 fun f h => by
    have hm := ofName?_eq_some_iff.1 h
    exact hw _ f hm ((lower_eq_formatWord hm).1 rfl)
  simp only [LineFormat.parse, ← Text.trimmed_iff.1 ht, hword]

theorem parseFormat_eq_ok_iff (ht : Text.Trimmed s t) {f : LineFormat} :
    LineFormat.parse s = .ok f ↔ ∃ w, (w, f) ∈ LineFormat.vocabulary ∧ Text.SameLetters t w := by
  constructor
  · intro h
    by_cases hw : ∃ w f', (w, f') ∈ LineFormat.vocabulary ∧ Text.SameLetters t w
    · obtain ⟨w, f', hw, hs⟩ := hw
      rw [parseFormat_of_word ht hw hs] at h
      exact Except.ok.inj h ▸ ⟨w, hw, hs⟩
    · rw [parseFormat_of_misread ht fun w f hm hs => hw ⟨w, f, hm, hs⟩] at h
      cases h
  · rintro ⟨w, hw, hs⟩
    exact parseFormat_of_word ht hw hs

theorem exists_parseFormat_eq_error_iff (ht : Text.Trimmed s t) :
    (∃ f, LineFormat.parse s = .error f ∧ f.message = m) ↔ LineFormat.Misread t m := by
  simp only [LineFormat.Misread, Text.lowered_iff, exists_eq_left]
  constructor
  · rintro ⟨f, h, rfl⟩
    have hw : ∀ w f', (w, f') ∈ LineFormat.vocabulary → ¬ Text.SameLetters t w := fun w f' hw hs => by
      rw [parseFormat_of_word ht hw hs] at h
      cases h
    rw [parseFormat_of_misread ht hw] at h
    cases h
    exact ⟨hw, rfl⟩
  · rintro ⟨hw, rfl⟩
    exact ⟨_, parseFormat_of_misread ht hw, rfl⟩

end

theorem readFormat_eq_ok_iff {f : LineFormat} :
    readFormat env = .ok f ↔ env.Unset .format ∧ f = .text ∨
      ∃ s t w, env.Holds .format s ∧ Text.Trimmed s t ∧ (w, f) ∈ LineFormat.vocabulary ∧ Text.SameLetters t w := by
  have hparse (s : String) : LineFormat.parse s = .ok f ↔
      ∃ t w, Text.Trimmed s t ∧ (w, f) ∈ LineFormat.vocabulary ∧ Text.SameLetters t w := by
    simp [Text.trimmed_iff, parseFormat_eq_ok_iff (Text.trimmed_trim s)]
  rw [readFormat_eq, settle_eq_iff]
  simp [hparse, eq_comm (a := LineFormat.text)]

theorem exists_readFormat_eq_error_iff :
    (∃ f, readFormat env = .error f ∧ f.message = m) ↔ env.Offends .format m := by
  rw [readFormat_eq, exists_settle_eq_error_iff]
  constructor
  · rintro (⟨s, f, hs, hf⟩ | ⟨hb, rfl⟩)
    · have ht := Text.trimmed_trim s
      exact .format hs ht ((exists_parseFormat_eq_error_iff ht).1 ⟨f, hf⟩)
    · exact .undecodable nofun hb
  · intro h
    cases h with
    | undecodable _ hb => exact .inr ⟨hb, rfl⟩
    | format hs ht hm =>
      obtain ⟨f, hf⟩ := (exists_parseFormat_eq_error_iff ht).2 hm
      exact .inl ⟨_, f, hs, hf⟩

/-! ## Sink and path -/

theorem readPath_eq (env : Environment) :
    readPath env = settle env .file (fun path => .ok (Utf8.ofText path))
      (.error (.variableMissing sinkVariable "file" fileVariable)) := rfl

/-- The sink of a name without blanks around it. -/
def sinkNamed (env : Environment) (t : String) : Except Fault SinkChoice :=
  if t = "facade" then .ok .facade
  else if t = "none" then .ok .silent
  else if t = "file" then (readPath env).map .file
  else .error (.sinkText t sinkVariable)

theorem readSink_eq (env : Environment) :
    readSink env = settle env .sink (fun s => sinkNamed env (Text.trim s)) (.ok .facade) := by
  unfold readSink settle
  show _ = (env.read sinkVariable).bind _
  rcases env.read sinkVariable with f | _ | s
  · rfl
  · rfl
  · simp only [bind, Except.bind, Option.map_some, sinkNamed]
    generalize Text.trim s = t
    split
    · next h => cases h
    · next h =>
      cases h
      rfl
    · next h =>
      cases h
      rfl
    · next h =>
      cases h
      show (readPath env).bind _ = (readPath env).map _
      cases readPath env <;> rfl
    · next other hf hn hfile h =>
      cases h
      rw [if_neg hf, if_neg hn, if_neg hfile]
      rfl

theorem sinkNamed_cases (env : Environment) (t : String) :
    t = "facade" ∧ sinkNamed env t = .ok .facade ∨ t = "none" ∧ sinkNamed env t = .ok .silent ∨
      t = "file" ∧ sinkNamed env t = (readPath env).map .file ∨
        t ∉ ["facade", "none", "file"] ∧ sinkNamed env t = .error (.sinkText t sinkVariable) := by
  by_cases hf : t = "facade"
  · subst hf
    exact .inl ⟨rfl, rfl⟩
  by_cases hn : t = "none"
  · subst hn
    exact .inr (.inl ⟨rfl, rfl⟩)
  by_cases hp : t = "file"
  · subst hp
    exact .inr (.inr (.inl ⟨rfl, rfl⟩))
  · exact .inr (.inr (.inr ⟨by simp [hf, hn, hp], by simp [sinkNamed, hf, hn, hp]⟩))

theorem readPath_eq_ok_iff {path : Bytes} :
    readPath env = .ok path ↔ ∃ p, env.Holds .file p ∧ path = Utf8.ofText p := by
  rw [readPath_eq, settle_eq_iff]
  simp [eq_comm]

theorem readSink_eq_ok_iff {choice : SinkChoice} : readSink env = .ok choice ↔ env.Chooses choice := by
  rw [readSink_eq, settle_eq_iff]
  constructor
  · rintro (⟨hu, h⟩ | ⟨s, hs, h⟩ | ⟨-, h⟩)
    · cases h
      exact .silence hu
    · have ht := Text.trimmed_trim s
      rcases sinkNamed_cases env (Text.trim s) with ⟨he, hk⟩ | ⟨he, hk⟩ | ⟨he, hk⟩ | ⟨-, hk⟩ <;> rw [hk] at h
      · cases h
        exact .facade hs (he ▸ ht)
      · cases h
        exact .silent hs (he ▸ ht)
      · cases hp : readPath env with
        | error f => rw [hp] at h; cases h
        | ok path =>
          rw [hp] at h
          cases h
          obtain ⟨p, hf, rfl⟩ := readPath_eq_ok_iff.1 hp
          exact .file ⟨s, hs, he ▸ ht⟩ hf
      · cases h
    · cases h
  · intro h
    cases h with
    | silence hu => exact .inl ⟨hu, rfl⟩
    | facade hs ht => exact .inr (.inl ⟨_, hs, by rw [← Text.trimmed_iff.1 ht]; rfl⟩)
    | silent hs ht => exact .inr (.inl ⟨_, hs, by rw [← Text.trimmed_iff.1 ht]; rfl⟩)
    | file hw hf =>
      obtain ⟨s, hs, ht⟩ := hw
      refine .inr (.inl ⟨s, hs, ?_⟩)
      rw [← Text.trimmed_iff.1 ht]
      show (readPath env).map _ = _
      rw [readPath_eq_ok_iff.2 ⟨_, hf, rfl⟩]
      rfl

theorem exists_readPath_eq_error_iff (hw : env.WantsFile) :
    (∃ f, readPath env = .error f ∧ f.message = m) ↔ env.Offends .file m := by
  simp only [readPath_eq, settle_eq_iff]
  constructor
  · rintro ⟨f, ⟨hu, h⟩ | ⟨s, hs, h⟩ | ⟨hb, h⟩, rfl⟩
    · cases h
      exact .noPath hw hu
    · cases h
    · cases h
      exact .undecodable (fun _ => hw) hb
  · intro h
    cases h with
    | undecodable _ hb => exact ⟨_, .inr (.inr ⟨hb, rfl⟩), rfl⟩
    | noPath _ hu => exact ⟨_, .inl ⟨hu, rfl⟩, rfl⟩

/-- With the name of a file sink the variable is in order. -/
theorem sink_in_order (hw : env.WantsFile) : ¬ env.Offends .sink m := by
  obtain ⟨s, hs, ht⟩ := hw
  have hr := Environment.read_of_holds hs
  intro h
  cases h with
  | undecodable _ hb =>
    rw [Environment.read_of_undecodable hb] at hr
    cases hr
  | sink hs' ht' hu =>
    rw [Environment.read_of_holds hs'] at hr
    cases hr
    rw [Text.trimmed_iff.1 ht', ← Text.trimmed_iff.1 ht] at hu
    exact hu (by decide)

theorem wantsFile_of_offends (h : env.Offends .file m) : env.WantsFile := by
  cases h with
  | undecodable hv _ => exact hv rfl
  | noPath hw _ => exact hw

theorem exists_readSink_eq_error_iff :
    (∃ f, readSink env = .error f ∧ f.message = m) ↔
      env.Offends .sink m ∨ (∀ m', ¬ env.Offends .sink m') ∧ env.Offends .file m := by
  rw [readSink_eq, exists_settle_eq_error_iff]
  constructor
  · rintro (⟨s, f, hs, h, rfl⟩ | ⟨hb, rfl⟩)
    · have ht := Text.trimmed_trim s
      rcases sinkNamed_cases env (Text.trim s) with ⟨-, hk⟩ | ⟨-, hk⟩ | ⟨he, hk⟩ | ⟨hu, hk⟩ <;> rw [hk] at h
      · cases h
      · cases h
      · have hw : env.WantsFile := ⟨s, hs, he ▸ ht⟩
        cases hp : readPath env with
        | error f' =>
          rw [hp] at h
          cases h
          exact .inr ⟨fun m' => sink_in_order hw, (exists_readPath_eq_error_iff hw).1 ⟨f, hp, rfl⟩⟩
        | ok path => rw [hp] at h; cases h
      · cases h
        exact .inl (.sink hs ht hu)
    · exact .inl (.undecodable nofun hb)
  · rintro (h | ⟨-, h⟩)
    · cases h with
      | undecodable _ hb => exact .inr ⟨hb, rfl⟩
      | @sink s t hs ht hu =>
        refine .inl ⟨s, .sinkText t sinkVariable, hs, ?_, rfl⟩
        rw [← Text.trimmed_iff.1 ht]
        rcases sinkNamed_cases env t with ⟨rfl, -⟩ | ⟨rfl, -⟩ | ⟨rfl, -⟩ | ⟨-, hk⟩
        · exact absurd (by decide) hu
        · exact absurd (by decide) hu
        · exact absurd (by decide) hu
        · exact hk
    · have hw := wantsFile_of_offends h
      obtain ⟨f, hf, rfl⟩ := (exists_readPath_eq_error_iff hw).2 h
      obtain ⟨s, hs, ht⟩ := hw
      refine .inl ⟨s, f, hs, ?_, rfl⟩
      rw [← Text.trimmed_iff.1 ht]
      show (readPath env).map _ = _
      rw [hf]
      rfl

/-! ## All variables -/

theorem exists_ok_iff {x : Except Fault α} {P : String → Prop} (h : ∀ m, (∃ f, x = .error f ∧ f.message = m) ↔ P m) :
    (∃ a, x = .ok a) ↔ ∀ m, ¬ P m := by
  simp only [← h]
  cases x with
  | error f => simp
  | ok a => simp

theorem ofEnvironment_eq_ok_iff {c : Config} :
    ofEnvironment env = .ok c ↔ readLevel env = .ok c.level ∧ readFormat env = .ok c.format ∧
      readSink env = .ok c.sink := by
  obtain ⟨sink, level, format⟩ := c
  unfold ofEnvironment
  cases readLevel env <;> cases readFormat env <;> cases readSink env <;>
    simp [bind, Except.bind, pure, Except.pure, and_comm, and_assoc]

theorem ofEnvironment_eq_error_iff {f : Fault} :
    ofEnvironment env = .error f ↔ readLevel env = .error f ∨ (∃ l, readLevel env = .ok l) ∧
      (readFormat env = .error f ∨ (∃ form, readFormat env = .ok form) ∧ readSink env = .error f) := by
  unfold ofEnvironment
  cases readLevel env <;> cases readFormat env <;> cases readSink env <;>
    simp [bind, Except.bind, pure, Except.pure]

theorem firstOffence_cons {vs : List Variable} :
    env.FirstOffence (v :: vs) m ↔ env.Offends v m ∨ (∀ m', ¬ env.Offends v m') ∧ env.FirstOffence vs m := by
  constructor
  · rintro ⟨before, u, after, he, hb, hu⟩
    rcases List.cons_eq_append_iff.1 he with ⟨rfl, h⟩ | ⟨before, rfl, rfl⟩
    · cases h
      exact .inl hu
    · obtain ⟨hv, hb⟩ := List.forall_mem_cons.1 hb
      exact .inr ⟨hv, before, u, after, rfl, hb, hu⟩
  · rintro (h | ⟨hv, before, u, after, rfl, hb, hu⟩)
    · exact ⟨[], v, vs, rfl, nofun, h⟩
    · exact ⟨v :: before, u, after, rfl, List.forall_mem_cons.2 ⟨hv, hb⟩, hu⟩

theorem firstOffence_nil : ¬ env.FirstOffence [] m := by
  rintro ⟨before, u, after, he, -⟩
  simp at he

theorem firstOffence_all :
    env.FirstOffence Variable.all m ↔ env.Offends .level m ∨ (∀ m', ¬ env.Offends .level m') ∧
      (env.Offends .format m ∨ (∀ m', ¬ env.Offends .format m') ∧
        (env.Offends .sink m ∨ (∀ m', ¬ env.Offends .sink m') ∧ env.Offends .file m)) := by
  simp only [Variable.all, firstOffence_cons, firstOffence_nil, and_false, or_false]

theorem exists_ofEnvironment_eq_error_iff :
    (∃ f, ofEnvironment env = .error f ∧ f.message = m) ↔ env.FirstOffence Variable.all m := by
  have hlevel : (∃ l, readLevel env = .ok l) ↔ ∀ m, ¬ env.Offends .level m :=
    exists_ok_iff fun _ => exists_readLevel_eq_error_iff
  have hformat : (∃ f, readFormat env = .ok f) ↔ ∀ m, ¬ env.Offends .format m :=
    exists_ok_iff fun _ => exists_readFormat_eq_error_iff
  rw [firstOffence_all, ← exists_readLevel_eq_error_iff, ← exists_readFormat_eq_error_iff, ← hlevel, ← hformat,
    ← exists_readSink_eq_error_iff]
  simp only [ofEnvironment_eq_error_iff]
  constructor
  · rintro ⟨f, h | ⟨hl, h | ⟨hf, h⟩⟩, hm⟩
    · exact .inl ⟨f, h, hm⟩
    · exact .inr ⟨hl, .inl ⟨f, h, hm⟩⟩
    · exact .inr ⟨hl, .inr ⟨hf, f, h, hm⟩⟩
  · rintro (⟨f, h, hm⟩ | ⟨hl, ⟨f, h, hm⟩ | ⟨hf, f, h, hm⟩⟩)
    · exact ⟨f, .inl h, hm⟩
    · exact ⟨f, .inr ⟨hl, .inl h⟩, hm⟩
    · exact ⟨f, .inr ⟨hl, .inr ⟨hf, h⟩⟩, hm⟩

/-! ## The code -/

theorem code_of_settle {parse : String → Except Fault α} {unset : Except Fault α}
    (hp : ∀ s f, parse s = .error f → f.code = -22) (hu : ∀ f, unset = .error f → f.code = -22) {f : Fault}
    (h : settle env v parse unset = .error f) : f.code = -22 := by
  rcases settle_eq_iff.1 h with ⟨-, h⟩ | ⟨s, -, h⟩ | ⟨-, h⟩
  · exact hu f h
  · exact hp s f h
  · cases h
    rfl

theorem code_of_parseFormat {s : String} {f : Fault} (h : LineFormat.parse s = .error f) : f.code = -22 := by
  simp only [LineFormat.parse] at h
  split at h
  · cases h
  · cases h
    rfl

theorem code_of_readPath {f : Fault} (h : readPath env = .error f) : f.code = -22 := by
  rw [readPath_eq] at h
  refine code_of_settle (fun s f h => ?_) (fun f h => ?_) h
  · cases h
  · cases h
    rfl

theorem code_of_readSink {f : Fault} (h : readSink env = .error f) : f.code = -22 := by
  rw [readSink_eq] at h
  refine code_of_settle (fun s f h => ?_) (fun f h => ?_) h
  · rcases sinkNamed_cases env (Text.trim s) with ⟨-, hk⟩ | ⟨-, hk⟩ | ⟨-, hk⟩ | ⟨-, hk⟩ <;> rw [hk] at h
    · cases h
    · cases h
    · cases hp : readPath env with
      | ok path => rw [hp] at h; cases h
      | error f' =>
        rw [hp] at h
        cases h
        exact code_of_readPath hp
    · cases h
      rfl
  · cases h

theorem code_of_ofEnvironment {f : Fault} (h : ofEnvironment env = .error f) : f.code = -22 := by
  rcases ofEnvironment_eq_error_iff.1 h with h | ⟨-, h | ⟨-, h⟩⟩
  · rw [readLevel_eq] at h
    exact code_of_settle (fun _ _ h => Level.code_of_parse h) (fun f h => by cases h) h
  · rw [readFormat_eq] at h
    exact code_of_settle (fun _ _ h => code_of_parseFormat h) (fun f h => by cases h) h
  · exact code_of_readSink h

/-! ## What is looked at -/

section
variable {env' : Environment}

theorem settle_congr {parse parse' : String → Except Fault α} {unset : Except Fault α}
    (hv : env' v.name = env v.name) (hp : ∀ s, env.Holds v s → parse' s = parse s) :
    settle env' v parse' unset = settle env v parse unset := by
  have hu : env'.Unset v ↔ env.Unset v := by rw [Environment.Unset, hv, ← Environment.Unset]
  have hs (s : String) : env'.Holds v s ↔ env.Holds v s := by rw [Environment.Holds, hv, ← Environment.Holds]
  have hb : env'.Undecodable v ↔ env.Undecodable v := by
    rw [Environment.Undecodable, hv, ← Environment.Undecodable]
  rw [settle_eq_iff, hu, hb]
  rcases env.unset_or_holds v with h | ⟨s, h⟩ | h
  · exact .inl ⟨h, (settle_eq_iff.2 (.inl ⟨h, rfl⟩)).symm⟩
  · exact .inr (.inl ⟨s, (hs s).2 h, (hp s h).trans (settle_eq_iff.2 (.inr (.inl ⟨s, h, rfl⟩))).symm⟩)
  · exact .inr (.inr ⟨h, (settle_eq_iff.2 (.inr (.inr ⟨h, rfl⟩))).symm⟩)

theorem readSink_congr (hs : env' sinkVariable = env sinkVariable)
    (hf : env.WantsFile → env' fileVariable = env fileVariable) : readSink env' = readSink env := by
  rw [readSink_eq, readSink_eq]
  refine settle_congr hs fun s h => ?_
  rcases sinkNamed_cases env (Text.trim s) with ⟨ht, -⟩ | ⟨ht, -⟩ | ⟨ht, -⟩ | ⟨ht, hk⟩
  · rw [ht]
    rfl
  · rw [ht]
    rfl
  · have hw : env.WantsFile := ⟨s, h, ht ▸ Text.trimmed_trim s⟩
    have hpath : readPath env' = readPath env := by
      rw [readPath_eq, readPath_eq]
      exact settle_congr (hf hw) fun _ _ => rfl
    rw [ht]
    show (readPath env').map _ = (readPath env).map _
    rw [hpath]
  · simp only [List.mem_cons, List.not_mem_nil, or_false, not_or] at ht
    simp [sinkNamed, ht]

theorem ofEnvironment_congr (h : ∀ v : Variable, (v = .file → env.WantsFile) → env' v.name = env v.name) :
    ofEnvironment env' = ofEnvironment env := by
  have hlevel : readLevel env' = readLevel env := by
    rw [readLevel_eq, readLevel_eq]
    exact settle_congr (h .level nofun) fun _ _ => rfl
  have hformat : readFormat env' = readFormat env := by
    rw [readFormat_eq, readFormat_eq]
    exact settle_congr (h .format nofun) fun _ _ => rfl
  have hsink : readSink env' = readSink env := readSink_congr (h .sink nofun) fun hw => h .file fun _ => hw
  rw [ofEnvironment, ofEnvironment, hlevel, hformat, hsink]

end

/-- An environment is accepted if and only if it makes up a configuration, and then as that one. Any other is a fault,
which says what is wrong with the first variable that is not in order. No variable is looked at but these four, and the
path only for a file sink. -/
theorem accepts_described (env : Environment) :
    (∀ c, ofEnvironment env = .ok c ↔ env.Describes c) ∧
      (∀ m, (∃ f, ofEnvironment env = .error f ∧ f.message = m) ↔ env.FirstOffence Variable.all m) ∧
      (∀ f, ofEnvironment env = .error f → f.code = -22) ∧
      ∀ env' : Environment, (∀ v : Variable, (v = .file → env.WantsFile) → env' v.name = env v.name) →
        ofEnvironment env' = ofEnvironment env := by
  refine ⟨fun c => ?_, fun m => exists_ofEnvironment_eq_error_iff, fun f => code_of_ofEnvironment,
    fun env' => ofEnvironment_congr⟩
  rw [ofEnvironment_eq_ok_iff, readLevel_eq_ok_iff, readFormat_eq_ok_iff, readSink_eq_ok_iff]
  exact ⟨fun ⟨hl, hf, hs⟩ => ⟨hl, hf, hs⟩, fun h => ⟨h.level, h.format, h.sink⟩⟩

end Config
end LogRelay

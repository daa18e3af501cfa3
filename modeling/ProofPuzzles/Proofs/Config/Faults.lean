import ProofPuzzles.Config.Reading

/-! # Faults of configurations that are not reported

Most of what can be wrong with a configuration is reported as a complaint about it. Four things are
not: a section without entries, a key among the weights that cannot be shown, a weight that is no
number, and a setting that no number of the wanted kind can hold. A configuration that has none of
them gives bounds or a complaint, and one that has any of them never gives bounds.
-/

namespace ProofPuzzles.Config

variable {α β : Type} {entries : List (Value × Value)} {fault : ConfigFault} {v : Value}
  {e : NumberFault}

inductive Wanted where
  | whole
  | fraction
  deriving DecidableEq

/-- A number that is none of the wanted kind: an infinite one where a whole number is wanted, or a
whole number that exceeds every floating-point number. -/
inductive Wanted.Unfit : Wanted → Value → NumberFault → Prop where
  | infinite {x : Float} {negative : Bool}
    (infinite : Decimal.Double.ofFloat x = .infinite negative) :
    Unfit .whole (.float x) .infinityAsInteger
  | tooLarge {n : Int} (large : (Float.ofInt n).isFinite = false) :
    Unfit .fraction (.int n) .integerTooLarge

/-- A setting that is a number: the section that it belongs to, its name there, and what it is
wanted as. -/
structure Setting where
  part : String
  name : String
  wanted : Wanted
  deriving DecidableEq

/-- The settings that are numbers, in the order in which they are read. -/
def Setting.all : List Setting := [
  ⟨"seeding", "min", .whole⟩, ⟨"seeding", "max", .whole⟩,
  ⟨"seeding", "negation_chance", .fraction⟩,
  ⟨"steps", "base", .whole⟩, ⟨"steps", "per_difficulty", .whole⟩, ⟨"steps", "tries_factor", .whole⟩,
  ⟨"steps", "backward_chance", .fraction⟩, ⟨"steps", "chain_bias", .fraction⟩,
  ⟨"steps", "weight_decay", .fraction⟩, ⟨"steps", "max_formula_tiles", .whole⟩,
  ⟨"attempts", "max", .whole⟩,
  ⟨"search", "max_rounds", .whole⟩, ⟨"search", "max_formulas", .whole⟩]

def partNames : List String := ["seeding", "steps", "attempts", "search", "weights"]

/-- An entry of the weights that names a rule by a key which cannot be shown, or gives a rule a
weight that is no number. -/
inductive Misweighs : Value × Value → ConfigFault → Prop where
  | key {key value : Value} (unshowable : key.isShowable = false) :
    Misweighs (key, value) (.number .unshowable)
  | weight {key value : Value} {rule : InferenceRule} {e : NumberFault}
    (named : Rule.ofAbbreviation? key.asText = some (.inference rule))
    (fails : value.toFloat = .error e) : Misweighs (key, value) (.number e)

/-- The section is no mapping, and this is what comes of looking into it. -/
def Section.Bare (s : Section) (fault : ConfigFault) : Prop :=
  (∀ settings, s.value ≠ .mapping settings) ∧ fault = .noEntries s.value.kindName

/-- What is wrong with a configuration and is not reported as such. -/
inductive Cause (entries : List (Value × Value)) : ConfigFault → Prop where
  | noEntries {name : String} {fault : ConfigFault} (listed : name ∈ partNames)
    (bare : (Section.fetch entries name).Bare fault) : Cause entries fault
  | weight {weights : List (Value × Value)} {entry : Value × Value} {fault : ConfigFault}
    (given : (Section.fetch entries "weights").value = .mapping weights)
    (member : entry ∈ weights) (misweighs : Misweighs entry fault) : Cause entries fault
  | setting {setting : Setting} {settings : List (Value × Value)} {v : Value} {e : NumberFault}
    (listed : setting ∈ Setting.all)
    (given : (Section.fetch entries setting.part).value = .mapping settings)
    (found : Value.lookup? setting.name settings = some v) (unfit : setting.wanted.Unfit v e) :
    Cause entries (.number e)

/-! ## Readings and what stands in their way -/

/-- A result is had only where no cause stands in its way, and a fault that is not reported has a
cause. -/
structure Explains (causes : ConfigFault → Prop) (r : Except ConfigFault α) : Prop where
  ok : ∀ a, r = .ok a → ∀ fault, ¬causes fault
  error : ∀ fault, r = .error fault → (∃ e, fault = .reported e) ∨ causes fault

variable {causes others : ConfigFault → Prop} {r : Except ConfigFault α}

theorem explains_ok {a : α} (clear : ∀ fault, ¬causes fault) : Explains causes (.ok a) :=
  ⟨fun _ _ => clear, nofun⟩

theorem explains_clear {a : α} : Explains (fun _ => False) (.ok a) := explains_ok fun _ => id

theorem explains_error (cause : causes fault) :
    Explains causes (.error fault : Except ConfigFault α) where
  ok := nofun
  error fault same := by
    cases same
    exact .inr cause

theorem explains_reported (e : ConfigError) :
    Explains causes (.error (.reported e) : Except ConfigFault α) where
  ok := nofun
  error fault same := by
    cases same
    exact .inl ⟨e, rfl⟩

theorem Explains.congr (explains : Explains causes r)
    (same : ∀ fault, causes fault ↔ others fault) : Explains others r where
  ok a result fault cause := explains.ok a result fault ((same fault).mpr cause)
  error fault failed := (explains.error fault failed).imp_right (same fault).mp

/-- What stands in the way of two readings one after the other stands in the way of either. -/
theorem Explains.bind {f : α → Except ConfigFault β} (first : Explains causes r)
    (next : ∀ a, r = .ok a → Explains others (f a)) :
    Explains (fun fault => causes fault ∨ others fault) (r >>= f) := by
  cases r with
  | error e =>
      refine ⟨nofun, fun fault failed => ?_⟩
      cases failed
      exact (first.error e rfl).imp_right .inl
  | ok a =>
      have second := next a rfl
      refine ⟨fun b result fault => ?_, fun fault failed => ?_⟩
      · exact not_or.mpr ⟨first.ok a rfl fault, second.ok b result fault⟩
      · exact (second.error fault failed).imp_right .inr

/-! ## Numbers -/

/-- No number of the wanted kind can hold the value, which is not reported where a setting is
read. -/
def NumberFault.Unreported (e : NumberFault) : Prop :=
  e = .infinityAsInteger ∨ e = .integerTooLarge

theorem not_unreported_integerOfChars {base : Nat} {shown : String} {cs : List Char}
    (fails : integerOfChars base shown cs = .error e) : ¬e.Unreported := by
  unfold integerOfChars at fails
  split at fails <;> cases fails <;> simp [NumberFault.Unreported]

theorem not_unreported_floatOfChars {shown : String} {cs : List Char}
    (fails : floatOfChars shown cs = .error e) : ¬e.Unreported := by
  unfold floatOfChars at fails
  split at fails
  · cases fails
  · cases fails
    simp [NumberFault.Unreported]

/-- An infinite number is all that cannot be held as a whole number. -/
theorem toInteger_unreported_iff :
    v.toInteger = .error e ∧ e.Unreported ↔ Wanted.whole.Unfit v e := by
  constructor
  · rintro ⟨fails, unreported⟩
    cases v with
    | float x =>
        rw [Value.toInteger] at fails
        split at fails
        · cases fails
          simp [NumberFault.Unreported] at unreported
        · rename_i negative infinite
          cases fails
          exact .infinite infinite
        · cases fails
    | text | codes | bytes => exact absurd unreported (not_unreported_integerOfChars fails)
    | null | bool | int | date | moment | list | pair | set | mapping | elided =>
        cases fails <;> simp [NumberFault.Unreported] at unreported
  · rintro (@⟨x, negative, infinite⟩ | _)
    refine ⟨?_, .inl rfl⟩
    rw [Value.toInteger, infinite]

/-- A whole number that is too large is all that cannot be held as a floating-point number. -/
theorem toFloat_unreported_iff :
    v.toFloat = .error e ∧ e.Unreported ↔ Wanted.fraction.Unfit v e := by
  constructor
  · rintro ⟨fails, unreported⟩
    cases v with
    | int n =>
        rw [Value.toFloat, Value.floatOfInteger] at fails
        split at fails
        · cases fails
        · rename_i large
          cases fails
          exact .tooLarge (Bool.eq_false_iff.mpr large)
    | text | codes | bytes => exact absurd unreported (not_unreported_floatOfChars fails)
    | null | bool | float | date | moment | list | pair | set | mapping | elided =>
        cases fails <;> simp [NumberFault.Unreported] at unreported
  · rintro (_ | @⟨n, large⟩)
    refine ⟨?_, .inr rfl⟩
    simp [Value.toFloat, Value.floatOfInteger, large]

/-! ## Sections -/

variable {s : Section}

theorem Section.explains_entries (s : Section) : Explains s.Bare s.entries := by
  unfold Section.entries
  split
  · rename_i settings mapping
    exact explains_ok fun fault cause => cause.1 settings mapping
  · rename_i bare
    exact explains_error ⟨bare, rfl⟩

theorem Section.value_eq (found : s.entries = .ok entries) : s.value = .mapping entries := by
  unfold Section.entries at found
  split at found
  · rename_i settings same
    cases found
    exact same
  · cases found

/-- A setting that the section mentions is none of the wanted kind. -/
def Section.Misfits (s : Section) (name : String) (wanted : Wanted) (fault : ConfigFault) : Prop :=
  ∃ settings v e, s.value = .mapping settings ∧ Value.lookup? name settings = some v ∧
    wanted.Unfit v e ∧ fault = .number e

theorem Section.explains_setting {convert : Value → Except NumberFault α} {wanted : Wanted}
    (links : ∀ v e, convert v = .error e ∧ e.Unreported ↔ wanted.Unfit v e) (name : String)
    (usual : α) : Explains (fun fault => s.Bare fault ∨ s.Misfits name wanted fault)
      (s.setting convert name usual) := by
  unfold Section.setting
  split
  · rename_i e failed
    refine ⟨nofun, fun fault same => ?_⟩
    cases same
    exact (s.explains_entries.error e failed).imp_right .inl
  · rename_i settings found
    have mapping := Section.value_eq found
    have same : ∀ fault, (∃ v e, Value.lookup? name settings = some v ∧ wanted.Unfit v e ∧
        fault = .number e) ↔ s.Bare fault ∨ s.Misfits name wanted fault := by
      simp [Section.Bare, Section.Misfits, mapping]
    refine Explains.congr ?_ same
    split
    · rename_i absent
      exact explains_ok fun fault => by simp [absent]
    · rename_i v given
      simp only [given, Option.some.injEq, ← links]
      split
      · rename_i a converted
        exact explains_ok fun fault => by simp [converted]
      · rename_i converted
        exact explains_error ⟨v, _, rfl, ⟨converted, .inl rfl⟩, rfl⟩
      · rename_i converted
        exact explains_error ⟨v, _, rfl, ⟨converted, .inr rfl⟩, rfl⟩
      · exact explains_reported _

theorem explains_readWeights (entries : List (Value × Value)) (weights : RuleWeights) :
    Explains (fun fault => ∃ entry ∈ entries, Misweighs entry fault)
      (readWeights entries weights) := by
  induction entries generalizing weights with
  | nil => exact explains_ok fun fault => by simp
  | cons entry entries ih =>
      obtain ⟨key, value⟩ := entry
      rw [readWeights]
      split
      · rename_i unshowable
        exact explains_error ⟨_, List.mem_cons_self, .key (by simpa using unshowable)⟩
      · rename_i showable
        split
        · rename_i rule named
          split
          · rename_i weight converted
            have weighs : ∀ fault, ¬Misweighs (key, value) fault := by
              rintro fault (unshowable | ⟨-, fails⟩)
              · simp [unshowable] at showable
              · cases converted.symm.trans fails
            exact (ih _).congr fun fault => by simp [weighs]
          · rename_i e fails
            exact explains_error ⟨_, List.mem_cons_self, .weight named fails⟩
        · exact explains_reported _

/-- A weight of the section goes wrong. -/
def Section.Misweighs (s : Section) (fault : ConfigFault) : Prop :=
  ∃ weights, s.value = .mapping weights ∧ ∃ entry ∈ weights, Config.Misweighs entry fault

theorem Section.explains_readWeights (found : s.entries = .ok entries) (weights : RuleWeights) :
    Explains s.Misweighs (readWeights entries weights) := by
  refine (Config.explains_readWeights entries weights).congr fun fault => ?_
  simp [Section.Misweighs, Section.value_eq found]

theorem explains_readVariables (v : Value) : Explains (fun _ => False) (readVariables v) := by
  unfold readVariables
  split
  · exact explains_reported _
  · split
    · exact explains_clear
    · exact explains_reported _

theorem explains_nameTexts (names : List Value) :
    Explains (fun _ => False) (nameTexts names) := by
  unfold nameTexts
  split
  · exact explains_reported _
  · exact explains_clear

/-- The section of the setting is no mapping, or mentions the setting with a value that no number of
the wanted kind can hold. -/
def Setting.Hinders (setting : Setting) (entries : List (Value × Value)) (fault : ConfigFault) :
    Prop :=
  let s := Section.fetch entries setting.part
  s.Bare fault ∨ s.Misfits setting.name setting.wanted fault

theorem explains_whole (part name : String) (usual : Int) :
    Explains (Setting.Hinders ⟨part, name, .whole⟩ entries)
      ((Section.fetch entries part).setting Value.toInteger name usual) :=
  Section.explains_setting (fun _ _ => toInteger_unreported_iff) name usual

theorem explains_fraction (part name : String) (usual : Float) :
    Explains (Setting.Hinders ⟨part, name, .fraction⟩ entries)
      ((Section.fetch entries part).setting Value.toFloat name usual) :=
  Section.explains_setting (fun _ _ => toFloat_unreported_iff) name usual

theorem explains_names {entries : List (Value × Value)} {usual : List Value}
    {next : List Value → Except ConfigFault β} (later : ∀ names, Explains causes (next names)) :
    Explains causes (match Value.lookup? variablesName entries with
      | some v => readVariables v >>= next
      | none => Except.ok usual >>= next) := by
  split
  · refine Explains.congr ((explains_readVariables _).bind fun names _ => later names) ?_
    intro fault
    rw [false_or]
  · exact later usual

/-- Every section but the one of the weights is looked into for a setting. -/
theorem exists_setting_of_part : ∀ name ∈ partNames,
    name = "weights" ∨ ∃ setting ∈ Setting.all, setting.part = name := by decide

theorem cause_iff : Cause entries fault ↔
    (Section.fetch entries "weights").Bare fault ∨
    (Section.fetch entries "weights").Misweighs fault ∨
    ∃ setting ∈ Setting.all, setting.Hinders entries fault := by
  constructor
  · intro cause
    cases cause with
    | noEntries listed bare =>
        rcases exists_setting_of_part _ listed with rfl | ⟨setting, among, rfl⟩
        · exact .inl bare
        · exact .inr (.inr ⟨setting, among, .inl bare⟩)
    | weight given member misweighs => exact .inr (.inl ⟨_, given, _, member, misweighs⟩)
    | setting listed given found unfit =>
        exact .inr (.inr ⟨_, listed, .inr ⟨_, _, _, given, found, unfit, rfl⟩⟩)
  · rintro (bare | ⟨weights, given, entry, member, misweighs⟩ | ⟨setting, listed, hinders⟩)
    · exact .noEntries (by decide) bare
    · exact .weight given member misweighs
    · rcases hinders with bare | ⟨settings, v, e, given, found, unfit, rfl⟩
      · have known : ∀ setting ∈ Setting.all, setting.part ∈ partNames := by decide
        exact .noEntries (known setting listed) bare
      · exact .setting listed given found unfit

theorem explains_readSettings (entries : List (Value × Value)) :
    Explains (Cause entries) (readSettings entries) := by
  unfold readSettings
  -- the weights come first, then the names, then the settings in the order of `Setting.all`
  refine Explains.congr (.bind (Section.explains_entries _) fun weights found =>
    .bind (Section.explains_readWeights found _) fun ruleWeights _ => explains_names fun names =>
    .bind (explains_whole _ _ _) fun _ _ => .bind (explains_whole _ _ _) fun _ _ =>
    .bind (explains_fraction _ _ _) fun _ _ => .bind (explains_whole _ _ _) fun _ _ =>
    .bind (explains_whole _ _ _) fun _ _ => .bind (explains_whole _ _ _) fun _ _ =>
    .bind (explains_fraction _ _ _) fun _ _ => .bind (explains_fraction _ _ _) fun _ _ =>
    .bind (explains_fraction _ _ _) fun _ _ => .bind (explains_whole _ _ _) fun _ _ =>
    .bind (explains_whole _ _ _) fun _ _ => .bind (explains_whole _ _ _) fun _ _ =>
    .bind (explains_whole _ _ _) fun _ _ => .bind (explains_nameTexts _) fun _ _ =>
    explains_clear) fun fault => ?_
  rw [cause_iff]
  simp only [Setting.all, List.mem_cons, List.not_mem_nil, exists_eq_or_imp, exists_eq_left,
    or_false]

theorem explains_readBounds (entries : List (Value × Value)) :
    Explains (Cause entries) (readBounds (.mapping entries)) := by
  refine Explains.congr ((explains_readSettings entries).bind fun settings _ =>
    (?_ : Explains (fun _ => False) _)) fun fault => by rw [or_false]
  split
  · exact explains_clear
  · exact explains_reported _

/-- From a mapping come bounds, or a complaint about it, or a fault that is not reported and that
one of the causes has brought about. Where there is any cause, there are no bounds. -/
theorem readBounds_reports (entries : List (Value × Value)) :
    ((∃ bounds, readBounds (.mapping entries) = .ok bounds) ∨
      (∃ e, readBounds (.mapping entries) = .error (.reported e)) ∨
      ∃ fault, readBounds (.mapping entries) = .error fault ∧ Cause entries fault) ∧
    ∀ fault, Cause entries fault → ∀ bounds, readBounds (.mapping entries) ≠ .ok bounds := by
  have explains := explains_readBounds entries
  refine ⟨?_, fun fault cause bounds same => explains.ok bounds same fault cause⟩
  cases result : readBounds (.mapping entries) with
  | ok bounds => exact .inl ⟨bounds, rfl⟩
  | error fault =>
      rcases explains.error fault result with ⟨e, rfl⟩ | cause
      · exact .inr (.inl ⟨e, rfl⟩)
      · exact .inr (.inr ⟨fault, rfl, cause⟩)

example : readBounds (.mapping [(.text "steps", .list [.int 1])]) = .error (.noEntries "list") :=
  rfl

/-- The weight of a rule is a word. -/
theorem not_readBounds_reports : ¬∀ entries : List (Value × Value),
    (∃ bounds, readBounds (.mapping entries) = .ok bounds) ∨
      ∃ e, readBounds (.mapping entries) = .error (.reported e) := by
  intro reports
  have raised : readBounds (.mapping [(.text "weights", .mapping [(.text "MP", .text "lots")])]) =
      .error (.number (.notAFloat "'lots'")) := rfl
  obtain ⟨bounds, read⟩ | ⟨e, reported⟩ := reports
    [(.text "weights", .mapping [(.text "MP", .text "lots")])]
  · cases raised.symm.trans read
  · cases raised.symm.trans reported

end ProofPuzzles.Config

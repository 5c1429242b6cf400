import Mathlib.Data.List.Infix
import PolySampler.Arguments

/-!
What the arguments of a command line are about. Each one concerns a single topic, a flag,
an option with a value or the instrument file, or none at all, and it changes nothing but
what it concerns.
-/

namespace PolySampler.Arguments

inductive Flag where
  | plain
  | state
  | listDevices
  | help
  deriving DecidableEq

def Flag.all : List Flag :=
  [.plain, .state, .listDevices, .help]

def Flag.words : Flag → List String
  | .plain => ["--plain"]
  | .state => ["--state"]
  | .listDevices => ["--list-devices"]
  | .help => ["--help", "-h"]

def Flag.kind : Flag → Kind
  | .plain => .plain
  | .state => .state
  | .listDevices => .listDevices
  | .help => .help

def Flag.set (a : Arguments) : Flag → Arguments
  | .plain => { a with plain := true }
  | .state => { a with state := true }
  | .listDevices => { a with listDevices := true }
  | .help => { a with help := true }

@[reducible] def Valued.Value : Valued → Type
  | .oversampling => Oversampling
  | .preloadSize | .numVoices => Nat
  | .device | .midiPort => Option String
  | .logLevel => Log.Filter

/-- The value of an option that is not given. -/
def Valued.default : (option : Valued) → option.Value
  | .oversampling => .x1
  | .preloadSize => 8192
  | .numVoices => 64
  | .device | .midiPort => none
  | .logLevel => some .info

def Valued.read (filter? : String → Option Log.Filter) :
    (option : Valued) → String → Except ArgumentError option.Value
  | .oversampling, value => (Oversampling.parse value).mapError .oversampling
  | .preloadSize, value =>
    (Text.readNatural Text.maxWord32 value.toList).mapError .preloadSize
  | .numVoices, value => (Text.readNatural Text.maxWord64 value.toList).mapError .numVoices
  | .device, value | .midiPort, value => .ok (some value)
  | .logLevel, value =>
    match filter? value with
    | some filter => .ok filter
    | none => .error (.logLevel value)

def Valued.set (a : Arguments) : (option : Valued) → option.Value → Arguments
  | .oversampling, x => { a with oversampling := x }
  | .preloadSize, x => { a with preloadSize := x }
  | .numVoices, x => { a with numVoices := x }
  | .device, x => { a with device := x }
  | .midiPort, x => { a with midiPort := x }
  | .logLevel, x => { a with logLevel := x }

def IsInstrument (text : String) : Prop :=
  ¬ "--".toList <+: text.toList ∧ text ≠ "-h"

instance : DecidablePred IsInstrument :=
  fun _ => inferInstanceAs (Decidable (_ ∧ _))

/-- What arguments may be about. -/
inductive Topic where
  | flag (flag : Flag)
  | valued (option : Valued)
  | instrument
  deriving DecidableEq

def Topic.all : List Topic :=
  Flag.all.map .flag ++ Valued.all.map .valued ++ [.instrument]

def Concerns (text : String) : Topic → Prop
  | .flag flag => text ∈ flag.words
  | .valued option => option.beginning.toList <+: text.toList
  | .instrument => IsInstrument text

instance (text : String) : DecidablePred (Concerns text)
  | .flag flag => inferInstanceAs (Decidable (text ∈ flag.words))
  | .valued option => inferInstanceAs (Decidable (option.beginning.toList <+: text.toList))
  | .instrument => inferInstanceAs (Decidable (IsInstrument text))

@[reducible] def Topic.Value : Topic → Type
  | .flag _ => Bool
  | .valued option => option.Value
  | .instrument => Option String

/-- What is asked for on a topic. -/
def view (a : Arguments) : (topic : Topic) → topic.Value
  | .flag .plain => a.plain
  | .flag .state => a.state
  | .flag .listDevices => a.listDevices
  | .flag .help => a.help
  | .valued .oversampling => a.oversampling
  | .valued .preloadSize => a.preloadSize
  | .valued .numVoices => a.numVoices
  | .valued .device => a.device
  | .valued .midiPort => a.midiPort
  | .valued .logLevel => a.logLevel
  | .instrument => a.instrument

variable {filter? : String → Option Log.Filter} {a : Arguments} {text value beginning : String}
  {option : Valued} {flag : Flag} {topic : Topic}

/-! ### Beginnings -/

theorem after?_eq_some_iff : after? beginning text = some value ↔ text = beginning ++ value := by
  rw [after?]
  constructor
  · intro h
    split at h
    · next hbeginning =>
      obtain ⟨rest, hrest⟩ := List.isPrefixOf_iff_prefix.mp hbeginning
      obtain rfl := Option.some.inj h
      apply String.toList_inj.mp
      simp [← hrest]
    · cases h
  · rintro rfl
    simp

theorem after?_eq_none_iff :
    after? beginning text = none ↔ ¬ beginning.toList <+: text.toList := by
  rw [after?, ← List.isPrefixOf_iff_prefix]
  split <;> simp_all

theorem exists_value (h : beginning.toList <+: text.toList) :
    ∃ value, text = beginning ++ value := by
  obtain ⟨value, hvalue⟩ := Option.ne_none_iff_exists'.mp
    fun hnone => after?_eq_none_iff.mp hnone h
  exact ⟨value, after?_eq_some_iff.mp hvalue⟩

theorem prefix_append (beginning value : String) :
    beginning.toList <+: (beginning ++ value).toList := by
  simp

/-- No beginning is the beginning of another one. -/
theorem Valued.eq_of_prefixed {option option' : Valued} :
    option.beginning.toList <+: option'.beginning.toList → option = option' := by
  cases option <;> cases option' <;> decide

theorem Valued.eq_of_concerns {option' : Valued} (h : option.beginning.toList <+: text.toList)
    (h' : option'.beginning.toList <+: text.toList) : option = option' := by
  rcases List.prefix_or_prefix_of_prefix h h' with h | h
  · exact eq_of_prefixed h
  · exact (eq_of_prefixed h).symm

theorem Valued.dashes_prefixed (option : Valued) : "--".toList <+: option.beginning.toList := by
  cases option <;> decide

theorem Flag.mem_all (flag : Flag) : flag ∈ Flag.all := by
  cases flag <;> decide

theorem Valued.mem_all (option : Valued) : option ∈ Valued.all := by
  cases option <;> decide

theorem Topic.mem_all (topic : Topic) : topic ∈ Topic.all := by
  cases topic with
  | flag flag => simp [all, flag.mem_all]
  | valued option => simp [all, option.mem_all]
  | instrument => simp [all]

/-! ### One argument -/

def Kind.topic? : Kind → Option Topic
  | .plain => some (.flag .plain)
  | .state => some (.flag .state)
  | .listDevices => some (.flag .listDevices)
  | .help => some (.flag .help)
  | .valued option _ => some (.valued option)
  | .unknown => none
  | .instrument => some .instrument

theorem concerns_word_iff :
    ∀ word ∈ Flag.all.flatMap Flag.words, ∀ topic ∈ Topic.all,
      (Concerns word topic ↔ (kindOf word).topic? = some topic) := by
  decide

theorem kindOf_of_no_word (h : ∀ flag : Flag, text ∉ flag.words) :
    kindOf text =
      (Valued.all.findSome? fun option =>
        (after? option.beginning text).map fun value => (option, value)).elim
      (if (after? "--" text).isSome then .unknown else .instrument)
      fun found => .valued found.1 found.2 := by
  have hplain := h .plain
  have hstate := h .state
  have hlist := h .listDevices
  have hhelp := h .help
  simp only [Flag.words, List.mem_cons, List.not_mem_nil, or_false] at hplain hstate hlist hhelp
  rw [kindOf, if_neg hplain, if_neg hstate, if_neg hlist, if_neg hhelp]
  cases Valued.all.findSome? fun option =>
    (after? option.beginning text).map fun value => (option, value) <;> rfl

theorem findSome?_after? (option : Valued) (value : String) :
    (Valued.all.findSome? fun other =>
        (after? other.beginning (option.beginning ++ value)).map fun value => (other, value)) =
      some (option, value) := by
  have hafter : after? option.beginning (option.beginning ++ value) = some value :=
    after?_eq_some_iff.mpr rfl
  cases hfind : Valued.all.findSome? fun other =>
      (after? other.beginning (option.beginning ++ value)).map fun value => (other, value) with
  | none =>
      have hnone := List.findSome?_eq_none_iff.mp hfind option option.mem_all
      simp [hafter] at hnone
  | some found =>
      obtain ⟨other, -, hother⟩ := List.exists_of_findSome?_eq_some hfind
      obtain ⟨rest, hrest, rfl⟩ := Option.map_eq_some_iff.mp hother
      have hsame : other = option := by
        apply Valued.eq_of_concerns _ (prefix_append option.beginning value)
        rw [after?_eq_some_iff.mp hrest]
        exact prefix_append _ _
      subst hsame
      rw [hafter] at hrest
      rw [Option.some.inj hrest]

theorem not_word_of_valued (option : Valued) (value : String) (flag : Flag) :
    option.beginning ++ value ∉ flag.words := by
  have hall : ∀ option ∈ Valued.all, ∀ word ∈ Flag.all.flatMap Flag.words,
      ¬ option.beginning.toList <+: word.toList := by
    decide
  intro hword
  exact hall option option.mem_all _ (List.mem_flatMap_of_mem flag.mem_all hword)
    (prefix_append _ _)

theorem kindOf_valued (option : Valued) (value : String) :
    kindOf (option.beginning ++ value) = .valued option value := by
  rw [kindOf_of_no_word (not_word_of_valued option value), findSome?_after?]
  rfl

theorem kindOf_of_no_option (hword : ∀ flag : Flag, text ∉ flag.words)
    (hoption : ∀ option : Valued, ¬ option.beginning.toList <+: text.toList) :
    kindOf text = if "--".toList <+: text.toList then .unknown else .instrument := by
  have hfind : (Valued.all.findSome? fun option =>
      (after? option.beginning text).map fun value => (option, value)) = none := by
    rw [List.findSome?_eq_none_iff]
    intro option _
    rw [after?_eq_none_iff.mpr (hoption option)]
    rfl
  have hdashes : (after? "--" text).isSome = true ↔ "--".toList <+: text.toList := by
    rw [← not_iff_not, ← after?_eq_none_iff]
    simp
  rw [kindOf_of_no_word hword, hfind]
  exact if_congr hdashes rfl rfl

/-- Every argument concerns the topic of its kind and no other one. -/
theorem concerns_iff : Concerns text topic ↔ (kindOf text).topic? = some topic := by
  by_cases hword : ∃ flag : Flag, text ∈ flag.words
  · obtain ⟨flag, hflag⟩ := hword
    exact concerns_word_iff text (List.mem_flatMap_of_mem flag.mem_all hflag) topic topic.mem_all
  have hword' : ∀ flag : Flag, text ∉ flag.words := not_exists.mp hword
  by_cases hoption : ∃ option : Valued, option.beginning.toList <+: text.toList
  · obtain ⟨option, hbegins⟩ := hoption
    obtain ⟨value, rfl⟩ := exists_value hbegins
    rw [kindOf_valued, Kind.topic?, Option.some.injEq]
    constructor
    · intro hconcerns
      cases topic with
      | flag flag => exact absurd hconcerns (hword' flag)
      | valued other => exact congrArg Topic.valued (Valued.eq_of_concerns hbegins hconcerns)
      | instrument => exact absurd (option.dashes_prefixed.trans hbegins) hconcerns.1
    · rintro rfl
      exact hbegins
  · have hoption' := not_exists.mp hoption
    rw [kindOf_of_no_option hword' hoption']
    cases topic with
    | flag flag => exact iff_of_false (hword' flag) (by split <;> simp [Kind.topic?])
    | valued option => exact iff_of_false (hoption' option) (by split <;> simp [Kind.topic?])
    | instrument =>
        split
        · next hdashes => exact iff_of_false (fun h => h.1 hdashes) (by simp [Kind.topic?])
        · next hdashes =>
          have hshort : text ≠ "-h" := by
            rintro rfl
            exact hword' .help (by decide)
          exact iff_of_true ⟨hdashes, hshort⟩ rfl

/-! ### Taking one argument in -/

theorem setValue_eq (a : Arguments) (value : String) (option : Valued) :
    a.setValue filter? value option = (option.read filter? value).map (option.set a) := by
  cases option with
  | oversampling => rw [setValue, Valued.read]; cases Oversampling.parse value <;> rfl
  | preloadSize =>
      rw [setValue, Valued.read]
      cases Text.readNatural Text.maxWord32 value.toList <;> rfl
  | numVoices =>
      rw [setValue, Valued.read]
      cases Text.readNatural Text.maxWord64 value.toList <;> rfl
  | device => rfl
  | midiPort => rfl
  | logLevel => rw [setValue, Valued.read]; cases filter? value <;> rfl

theorem add_valued (a : Arguments) (option : Valued) (value : String) :
    a.add filter? (option.beginning ++ value) = (option.read filter? value).map (option.set a) := by
  rw [add, kindOf_valued, ← setValue_eq]

theorem add_of_word (a : Arguments) (h : text ∈ flag.words) :
    a.add filter? text = .ok (flag.set a) := by
  have htopic : (kindOf text).topic? = some (.flag flag) := concerns_iff.mp h
  have hkind : kindOf text = flag.kind := by
    cases hk : kindOf text <;> rw [hk] at htopic <;> cases htopic <;> rfl
  rw [add, hkind]
  cases flag <;> rfl

theorem add_of_instrument (a : Arguments) (h : IsInstrument text) :
    a.add filter? text =
      if a.instrument.isSome then .error (.secondInstrument text)
      else .ok { a with instrument := some text } := by
  have htopic : (kindOf text).topic? = some .instrument := concerns_iff.mp h
  have hkind : kindOf text = .instrument := by
    cases hk : kindOf text <;> simp [hk, Kind.topic?] at htopic ⊢
  rw [add, hkind]

theorem add_of_unknown (a : Arguments) (h : ∀ topic, ¬ Concerns text topic) :
    a.add filter? text = .ok { a with unknown := a.unknown ++ [text] } := by
  have htopic : (kindOf text).topic? = none :=
    Option.eq_none_iff_forall_ne_some.mpr fun topic => concerns_iff.not.mp (h topic)
  have hkind : kindOf text = .unknown := by
    cases hk : kindOf text <;> simp [hk, Kind.topic?] at htopic ⊢
  rw [add, hkind]

/-! ### What an argument changes -/

@[simp] theorem view_flag_self (flag : Flag) (a : Arguments) :
    (flag.set a).view (.flag flag) = true := by
  cases flag <;> rfl

@[simp] theorem view_valued_self (option : Valued) (a : Arguments) (x : option.Value) :
    (option.set a x).view (.valued option) = x := by
  cases option <;> rfl

theorem view_flag_of_ne (a : Arguments) (h : topic ≠ .flag flag) :
    (flag.set a).view topic = a.view topic := by
  cases topic with
  | flag other => cases flag <;> cases other <;> simp_all [view, Flag.set]
  | valued option => cases flag <;> cases option <;> rfl
  | instrument => cases flag <;> rfl

theorem view_valued_of_ne (a : Arguments) (x : option.Value) (h : topic ≠ .valued option) :
    (option.set a x).view topic = a.view topic := by
  cases topic with
  | flag flag => cases option <;> cases flag <;> rfl
  | valued other => cases option <;> cases other <;> simp_all [view, Valued.set]
  | instrument => cases option <;> rfl

theorem view_instrument_of_ne (a : Arguments) (file? : Option String) (h : topic ≠ .instrument) :
    view { a with instrument := file? } topic = a.view topic := by
  cases topic with
  | flag flag => cases flag <;> rfl
  | valued option => cases option <;> rfl
  | instrument => exact absurd rfl h

theorem view_unknown (a : Arguments) (texts : List String) (topic : Topic) :
    view { a with unknown := texts } topic = a.view topic := by
  cases topic with
  | flag flag => cases flag <;> rfl
  | valued option => cases option <;> rfl
  | instrument => rfl

theorem eq_of_concerns {topic' : Topic} (h : Concerns text topic) (h' : Concerns text topic') :
    topic = topic' :=
  Option.some.inj ((concerns_iff.mp h).symm.trans (concerns_iff.mp h'))

theorem topic_cases (text : String) :
    (∃ flag : Flag, text ∈ flag.words) ∨ (∃ option value, text = Valued.beginning option ++ value) ∨
      IsInstrument text ∨ ∀ topic, ¬ Concerns text topic := by
  by_cases h : ∃ topic, Concerns text topic
  · obtain ⟨topic, htopic⟩ := h
    cases topic with
    | flag flag => exact .inl ⟨flag, htopic⟩
    | valued option => exact .inr (.inl ⟨option, exists_value htopic⟩)
    | instrument => exact .inr (.inr (.inl htopic))
  · exact .inr (.inr (.inr (not_exists.mp h)))

/-- An argument changes nothing that it does not concern. -/
theorem view_of_add {a' : Arguments} (hadd : a.add filter? text = .ok a')
    (h : ¬ Concerns text topic) :
    a'.view topic = a.view topic := by
  obtain ⟨flag, hflag⟩ | ⟨option, value, rfl⟩ | hinstrument | hunknown := topic_cases text
  · rw [add_of_word a hflag] at hadd
    obtain rfl := Except.ok.inj hadd
    apply view_flag_of_ne
    rintro rfl
    exact h hflag
  · rw [add_valued] at hadd
    cases hread : option.read filter? value with
    | error error => simp [hread, Except.map] at hadd
    | ok x =>
        rw [hread] at hadd
        obtain rfl := Except.ok.inj hadd
        apply view_valued_of_ne
        rintro rfl
        exact h (prefix_append _ _)
  · rw [add_of_instrument a hinstrument] at hadd
    split at hadd
    · cases hadd
    · obtain rfl := Except.ok.inj hadd
      apply view_instrument_of_ne
      rintro rfl
      exact h hinstrument
  · rw [add_of_unknown a hunknown] at hadd
    obtain rfl := Except.ok.inj hadd
    exact view_unknown a _ topic

end PolySampler.Arguments

import Mathlib.Data.List.Induction
import PolySampler.Proofs.Arguments.Topics

/-!
What a whole command line comes to. It is taken in unless a value cannot be read or there
are two instrument files, and the first argument at fault decides the refusal. What is
taken in is what the arguments say topic by topic, so arguments on different topics may
change places.
-/

namespace PolySampler.Arguments

def valuesOf (option : Valued) (arguments : List String) : List String :=
  arguments.filterMap (after? option.beginning)

/-- What the arguments say on a topic: a flag is set if a word of it occurs, an option has
its last value, or its default if it has none, and the instrument is the only one named. -/
def Says (filter? : String → Option Log.Filter) (arguments : List String) :
    (topic : Topic) → topic.Value → Prop
  | .flag flag, set => set = true ↔ ∃ word ∈ flag.words, word ∈ arguments
  | .valued option, x =>
    match (valuesOf option arguments).getLast? with
    | none => x = option.default
    | some value => option.read filter? value = .ok x
  | .instrument, file? => arguments.filter IsInstrument = file?.toList

/-- Every value can be read, and at most one instrument is named. -/
def Acceptable (filter? : String → Option Log.Filter) (arguments : List String) : Prop :=
  (∀ option value, Valued.beginning option ++ value ∈ arguments →
    ∃ x, option.read filter? value = .ok x) ∧
  (arguments.filter IsInstrument).length ≤ 1

/-- The argument cannot be taken in behind others: its value cannot be read, or it names a
second instrument. -/
def Offends (filter? : String → Option Log.Filter) (before : List String) (text : String)
    (error : ArgumentError) : Prop :=
  (∃ option value, text = Valued.beginning option ++ value ∧
      option.read filter? value = .error error) ∨
  (IsInstrument text ∧ (∃ first ∈ before, IsInstrument first) ∧ error = .secondInstrument text)

variable {filter? : String → Option Log.Filter} {arguments : List String} {a a' : Arguments}
  {text : String} {error : ArgumentError}
  {topic : Topic}

/-! ### One more argument -/

theorem parse_concat (arguments : List String) (text : String) :
    parse (arguments ++ [text]) filter? =
      parse arguments filter? >>= fun a => a.add filter? text := by
  simp [parse, List.foldlM_append]

theorem parse_concat_eq_ok (h : parse (arguments ++ [text]) filter? = .ok a') :
    ∃ a, parse arguments filter? = .ok a ∧ a.add filter? text = .ok a' := by
  rw [parse_concat] at h
  cases hparse : parse arguments filter? with
  | error error => simp [hparse, bind, Except.bind] at h
  | ok a => exact ⟨a, rfl, by rwa [hparse] at h⟩

theorem valuesOf_concat (option : Valued) (arguments : List String) (text : String) :
    valuesOf option (arguments ++ [text]) =
      valuesOf option arguments ++ (after? option.beginning text).toList := by
  rw [valuesOf, List.filterMap_append, List.filterMap_cons, List.filterMap_nil, valuesOf]
  cases after? option.beginning text <;> rfl

theorem Says.concat_of_not {x : topic.Value} (h : Says filter? arguments topic x)
    (hnot : ¬ Concerns text topic) : Says filter? (arguments ++ [text]) topic x := by
  cases topic with
  | flag flag =>
      have hsame : (∃ word ∈ flag.words, word ∈ arguments ++ [text]) ↔
          ∃ word ∈ flag.words, word ∈ arguments := by
        simp only [List.mem_append, List.mem_singleton]
        constructor
        · rintro ⟨word, hword, hmem | rfl⟩
          · exact ⟨word, hword, hmem⟩
          · exact absurd hword hnot
        · rintro ⟨word, hword, hmem⟩
          exact ⟨word, hword, .inl hmem⟩
      exact h.trans hsame.symm
  | valued option =>
      have hnone : after? option.beginning text = none := after?_eq_none_iff.mpr hnot
      rwa [Says, valuesOf_concat, hnone, Option.toList_none, List.append_nil]
  | instrument =>
      have hnone : ¬ IsInstrument text := hnot
      rw [Says, List.filter_append, List.filter_singleton, decide_eq_false hnone]
      simpa [Says] using h

theorem Says.add (h : Says filter? arguments topic (a.view topic))
    (hadd : a.add filter? text = .ok a') :
    Says filter? (arguments ++ [text]) topic (a'.view topic) := by
  by_cases hconcerns : Concerns text topic
  · cases topic with
    | flag flag =>
        rw [add_of_word a hconcerns] at hadd
        obtain rfl := Except.ok.inj hadd
        exact iff_of_true (view_flag_self flag a) ⟨text, hconcerns, by simp⟩
    | valued option =>
        obtain ⟨value, rfl⟩ := exists_value hconcerns
        rw [add_valued] at hadd
        cases hread : option.read filter? value with
        | error error => simp [hread, Except.map] at hadd
        | ok x =>
            rw [hread] at hadd
            obtain rfl := Except.ok.inj hadd
            have hvalue : after? option.beginning (option.beginning ++ value) = some value :=
              after?_eq_some_iff.mpr rfl
            rw [view_valued_self, Says, valuesOf_concat, hvalue, Option.toList_some,
              List.getLast?_concat]
            exact hread
    | instrument =>
        have htext : IsInstrument text := hconcerns
        rw [add_of_instrument a htext] at hadd
        split at hadd
        · cases hadd
        next hnone =>
          obtain rfl := Except.ok.inj hadd
          have hfirst : arguments.filter IsInstrument = [] := by
            rw [show arguments.filter IsInstrument = a.instrument.toList from h,
              Option.not_isSome_iff_eq_none.mp hnone]
            rfl
          rw [Says, List.filter_append, hfirst, List.filter_singleton, decide_eq_true htext]
          rfl
  · rw [view_of_add hadd hconcerns]
    exact h.concat_of_not hconcerns

theorem says_nil (topic : Topic) : Says filter? [] topic (view {} topic) := by
  cases topic with
  | flag flag => cases flag <;> simp [Says, view]
  | valued option => cases option <;> rfl
  | instrument => rfl

theorem says_of_parse (h : parse arguments filter? = .ok a) (topic : Topic) :
    Says filter? arguments topic (a.view topic) := by
  induction arguments using List.reverseRecOn generalizing a with
  | nil =>
      obtain rfl := Except.ok.inj h
      exact says_nil topic
  | append_singleton arguments text ih =>
      obtain ⟨a₀, hparse, hadd⟩ := parse_concat_eq_ok h
      exact (ih hparse).add hadd

/-! ### Refusals -/

theorem offends_value_iff {before : List String} (option : Valued) (value : String) :
    Offends filter? before (option.beginning ++ value) error ↔
      option.read filter? value = .error error := by
  constructor
  · rintro (⟨other, rest, htext, hread⟩ | ⟨hinstrument, -⟩)
    · have hkind := congrArg kindOf htext
      rw [kindOf_valued, kindOf_valued] at hkind
      cases hkind
      exact hread
    · exact absurd (option.dashes_prefixed.trans (prefix_append _ _)) hinstrument.1
  · exact fun hread => .inl ⟨option, value, rfl, hread⟩

theorem offends_instrument_iff {before : List String} (h : IsInstrument text) :
    Offends filter? before text error ↔
      (∃ first ∈ before, IsInstrument first) ∧ error = .secondInstrument text := by
  constructor
  · rintro (⟨option, value, rfl, -⟩ | ⟨-, hoffends⟩)
    · exact absurd (option.dashes_prefixed.trans (prefix_append _ _)) h.1
    · exact hoffends
  · exact fun hoffends => .inr ⟨h, hoffends⟩

theorem not_offends {before : List String}
    (hvalued : ∀ option, ¬ Concerns text (.valued option)) (hinstrument : ¬ IsInstrument text) :
    ¬ Offends filter? before text error := by
  rintro (⟨option, value, rfl, -⟩ | ⟨h, -⟩)
  · exact hvalued option (prefix_append _ _)
  · exact hinstrument h

theorem not_offends_of_word {before : List String} {flag : Flag} (h : text ∈ flag.words) :
    ¬ Offends filter? before text error := by
  have hflag : Concerns text (.flag flag) := h
  have hother (topic : Topic) (htopic : Concerns text topic) : topic = .flag flag :=
    eq_of_concerns htopic hflag
  exact not_offends (fun option hvalued => nomatch hother _ hvalued)
    fun hinstrument => nomatch hother .instrument hinstrument

theorem isSome_instrument_iff (h : Says filter? arguments .instrument a.instrument) :
    a.instrument.isSome = true ↔ ∃ first ∈ arguments, IsInstrument first := by
  have hfilter : arguments.filter IsInstrument = a.instrument.toList := h
  constructor
  · intro hsome
    obtain ⟨first, hfirst⟩ := Option.isSome_iff_exists.mp hsome
    have hmem : first ∈ arguments.filter IsInstrument := by simp [hfilter, hfirst]
    exact ⟨first, List.mem_of_mem_filter hmem, by simpa using List.of_mem_filter hmem⟩
  · rintro ⟨first, hmem, hfirst⟩
    have hmem' : first ∈ a.instrument.toList := by
      rw [← hfilter]
      exact List.mem_filter.mpr ⟨hmem, by simpa using hfirst⟩
    exact Option.isSome_of_mem (Option.mem_toList.mp hmem')

theorem add_eq_error_iff (h : Says filter? arguments .instrument a.instrument) :
    a.add filter? text = .error error ↔ Offends filter? arguments text error := by
  obtain ⟨flag, hflag⟩ | ⟨option, value, rfl⟩ | hinstrument | hunknown := topic_cases text
  · rw [add_of_word a hflag]
    exact iff_of_false nofun (not_offends_of_word hflag)
  · rw [add_valued, offends_value_iff]
    cases option.read filter? value <;> simp [Except.map]
  · rw [add_of_instrument a hinstrument, offends_instrument_iff hinstrument,
      ← isSome_instrument_iff h]
    by_cases hset : a.instrument.isSome
    · rw [if_pos hset, Except.error.injEq, eq_comm]
      exact (and_iff_right hset).symm
    · rw [if_neg hset]
      exact iff_of_false nofun fun hboth => hset hboth.1
  · rw [add_of_unknown a hunknown]
    exact iff_of_false nofun
      (not_offends (fun option => hunknown (.valued option)) (hunknown .instrument))

theorem at_most_one_concat_iff :
    ((arguments ++ [text]).filter IsInstrument).length ≤ 1 ↔
      (arguments.filter IsInstrument).length ≤ 1 ∧
        ¬ (IsInstrument text ∧ ∃ first ∈ arguments, IsInstrument first) := by
  have hexists : (∃ first ∈ arguments, IsInstrument first) ↔
      0 < (arguments.filter IsInstrument).length := by
    simp [List.length_filter_pos_iff]
  rw [hexists, List.filter_append, List.length_append, List.filter_singleton]
  by_cases htext : IsInstrument text
  · simp only [htext, decide_true, cond_true, List.length_singleton, true_and]
    omega
  · simp [htext]

theorem acceptable_concat_iff :
    Acceptable filter? (arguments ++ [text]) ↔
      Acceptable filter? arguments ∧ ∀ error, ¬ Offends filter? arguments text error := by
  constructor
  · rintro ⟨hread, hcount⟩
    obtain ⟨hcount, hone⟩ := at_most_one_concat_iff.mp hcount
    refine ⟨⟨fun option value hmem => hread option value (List.mem_append_left _ hmem), hcount⟩, ?_⟩
    rintro error (⟨option, value, rfl, hfault⟩ | ⟨htext, hfirst, -⟩)
    · obtain ⟨x, hx⟩ := hread option value (by simp)
      rw [hx] at hfault
      cases hfault
    · exact hone ⟨htext, hfirst⟩
  · rintro ⟨⟨hread, hcount⟩, hsound⟩
    refine ⟨fun option value hmem => ?_, at_most_one_concat_iff.mpr ⟨hcount, ?_⟩⟩
    · rcases List.mem_append.mp hmem with hmem | hmem
      · exact hread option value hmem
      · obtain rfl := List.mem_singleton.mp hmem
        cases hvalue : option.read filter? value with
        | ok x => exact ⟨x, rfl⟩
        | error error => exact absurd ((offends_value_iff option value).mpr hvalue) (hsound error)
    · rintro ⟨htext, hfirst⟩
      exact hsound _ (.inr ⟨htext, hfirst, rfl⟩)

/-- A command line is taken in exactly if it is acceptable. -/
theorem exists_parse_eq_ok_iff (arguments : List String) :
    (∃ a, parse arguments filter? = .ok a) ↔ Acceptable filter? arguments := by
  induction arguments using List.reverseRecOn with
  | nil => exact iff_of_true ⟨{}, rfl⟩ ⟨by simp, by simp⟩
  | append_singleton arguments text ih =>
      rw [acceptable_concat_iff, ← ih]
      constructor
      · rintro ⟨a', h⟩
        obtain ⟨a, hparse, hadd⟩ := parse_concat_eq_ok h
        refine ⟨⟨a, hparse⟩, fun error hoffends => ?_⟩
        rw [(add_eq_error_iff (says_of_parse hparse .instrument)).mpr hoffends] at hadd
        cases hadd
      · rintro ⟨⟨a, hparse⟩, hsound⟩
        rw [parse_concat, hparse]
        cases hadd : a.add filter? text with
        | ok a' => exact ⟨a', hadd⟩
        | error error =>
            have hoffends := (add_eq_error_iff (says_of_parse hparse .instrument)).mp hadd
            exact absurd hoffends (hsound error)

/-- The refusal is that of the first argument that offends. -/
theorem parse_eq_error_iff (arguments : List String) :
    parse arguments filter? = .error error ↔
      ∃ front text back, arguments = front ++ text :: back ∧ Acceptable filter? front ∧
        Offends filter? front text error := by
  constructor
  · intro h
    induction arguments using List.reverseRecOn with
    | nil => cases h
    | append_singleton arguments text ih =>
        cases hparse : parse arguments filter? with
        | error fault =>
            rw [parse_concat, hparse] at h
            obtain rfl := Except.error.inj h
            obtain ⟨front, offending, back, rfl, hfront, hoffends⟩ := ih hparse
            exact ⟨front, offending, back ++ [text], by simp, hfront, hoffends⟩
        | ok a =>
            rw [parse_concat, hparse] at h
            have hadd : a.add filter? text = .error error := h
            exact ⟨arguments, text, [], rfl, (exists_parse_eq_ok_iff arguments).mp ⟨a, hparse⟩,
              (add_eq_error_iff (says_of_parse hparse .instrument)).mp hadd⟩
  · rintro ⟨front, text, back, rfl, hfront, hoffends⟩
    obtain ⟨a, hparse⟩ := (exists_parse_eq_ok_iff front).mpr hfront
    have hadd := (add_eq_error_iff (says_of_parse hparse .instrument)).mpr hoffends
    rw [parse] at hparse ⊢
    rw [List.foldlM_append, hparse]
    show (text :: back).foldlM (add filter?) a = _
    rw [List.foldlM_cons, hadd]
    rfl

/-! ### Arguments that change places -/

/-- What is asked for, without the options that were not understood. -/
def told (a : Arguments) : Arguments :=
  { a with unknown := [] }

theorem told_eq_told (h : ∀ topic, a.view topic = a'.view topic) : a.told = a'.told := by
  rw [told, told, mk.injEq]
  exact ⟨h .instrument, h (.valued .oversampling), h (.valued .preloadSize), h (.valued .numVoices),
    h (.valued .device), h (.valued .midiPort), h (.flag .plain), h (.flag .state),
    h (.valued .logLevel), h (.flag .listDevices), h (.flag .help), rfl⟩

/-- The arguments say one thing only on a topic. -/
theorem Says.unique {x y : topic.Value} (hx : Says filter? arguments topic x)
    (hy : Says filter? arguments topic y) : x = y := by
  cases topic with
  | flag flag => exact Bool.eq_iff_iff.mpr (hx.trans hy.symm)
  | valued option =>
      rw [Says] at hx hy
      cases hlast : (valuesOf option arguments).getLast? with
      | none =>
          rw [hlast] at hx hy
          exact hx.trans hy.symm
      | some value =>
          rw [hlast] at hx hy
          exact Except.ok.inj (hx.symm.trans hy)
  | instrument =>
      have hsame : x.toList = y.toList := hx.symm.trans hy
      cases x <;> cases y <;> simp_all

variable {arguments' : List String}

theorem mem_iff_of_concerns (h : Concerns text topic)
    (hsame : arguments'.filter (Concerns · topic) = arguments.filter (Concerns · topic)) :
    text ∈ arguments' ↔ text ∈ arguments := by
  have hmem (texts : List String) : text ∈ texts.filter (Concerns · topic) ↔ text ∈ texts := by
    simp [h]
  rw [← hmem, hsame, hmem]

theorem says_iff_of_filter_eq {x : topic.Value}
    (hsame : arguments'.filter (Concerns · topic) = arguments.filter (Concerns · topic)) :
    Says filter? arguments' topic x ↔ Says filter? arguments topic x := by
  cases topic with
  | flag flag =>
      have hwords : (∃ word ∈ flag.words, word ∈ arguments') ↔
          ∃ word ∈ flag.words, word ∈ arguments := by
        refine exists_congr fun word => and_congr_right fun hword => ?_
        have hflag : Concerns word (.flag flag) := hword
        exact mem_iff_of_concerns hflag hsame
      rw [Says, Says, hwords]
  | valued option =>
      have hvalues (texts : List String) :
          valuesOf option (texts.filter (Concerns · (.valued option))) = valuesOf option texts := by
        rw [valuesOf, List.filterMap_filter, valuesOf]
        apply List.filterMap_congr
        intro text _
        by_cases hbegins : Concerns text (.valued option)
        · simp [hbegins]
        · simpa [hbegins] using (after?_eq_none_iff.mpr hbegins).symm
      rw [Says, ← hvalues, hsame, hvalues, Says]
  | instrument =>
      have hfilter : arguments'.filter IsInstrument = arguments.filter IsInstrument := hsame
      rw [Says, Says, hfilter]

theorem acceptable_iff_of_filter_eq
    (hsame : ∀ topic, arguments'.filter (Concerns · topic) = arguments.filter (Concerns · topic)) :
    Acceptable filter? arguments' ↔ Acceptable filter? arguments := by
  have hfilter : arguments'.filter IsInstrument = arguments.filter IsInstrument := hsame .instrument
  have hmem (option : Valued) (value : String) :
      option.beginning ++ value ∈ arguments' ↔ option.beginning ++ value ∈ arguments := by
    have hvalued : Concerns (option.beginning ++ value) (.valued option) := prefix_append _ _
    exact mem_iff_of_concerns hvalued (hsame _)
  simp only [Acceptable, hfilter, hmem]

/-- A command line is taken in exactly if every value in it can be read and at most one
instrument is named. What is asked for then is what it says on each topic: flags that occur
are set, options have their last values, and the instrument is the one that is named. Other
arguments that are the same topic by topic ask for the same, however those on different
topics are mixed and whatever else is among them. If a command line is refused, the first
argument that offends decides how. All that is so whichever names the levels of the log
have. -/
theorem parse_by_topics (filter? : String → Option Log.Filter) (arguments : List String) :
    ((∃ a, parse arguments filter? = .ok a) ↔ Acceptable filter? arguments) ∧
    (∀ a, parse arguments filter? = .ok a →
      (∀ topic, Says filter? arguments topic (a.view topic)) ∧
      ∀ others : List String,
        (∀ topic, others.filter (Concerns · topic) = arguments.filter (Concerns · topic)) →
          ∃ a', parse others filter? = .ok a' ∧ a'.told = a.told) ∧
    ∀ error, parse arguments filter? = .error error ↔
      ∃ front text back, arguments = front ++ text :: back ∧ Acceptable filter? front ∧
        Offends filter? front text error := by
  refine ⟨exists_parse_eq_ok_iff arguments, fun a hparse => ⟨says_of_parse hparse, ?_⟩,
    fun error => parse_eq_error_iff arguments⟩
  intro others hsame
  have hacceptable : Acceptable filter? others := by
    rw [acceptable_iff_of_filter_eq hsame, ← exists_parse_eq_ok_iff]
    exact ⟨a, hparse⟩
  obtain ⟨a', hparse'⟩ := (exists_parse_eq_ok_iff others).mpr hacceptable
  refine ⟨a', hparse', told_eq_told fun topic => ?_⟩
  have hsays := (says_iff_of_filter_eq (hsame topic)).mp (says_of_parse hparse' topic)
  exact hsays.unique (says_of_parse hparse topic)

/-- The last number of voices counts, and the option that is not known is passed over. -/
example : (parse ["--num-voices=8", "a.json", "--frob", "--num-voices=16"]).map told =
    .ok { instrument := some "a.json", numVoices := 16 } := by
  rfl

end PolySampler.Arguments

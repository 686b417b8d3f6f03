import ContentAssist.Settings

/-! What a run of updates leaves in force. A payload states all settings at once or none of them,
and the last payload that states settings decides. Settings written as an object are read back from
it in any order of the members and among any others. -/

namespace ContentAssist

namespace Json

inductive Names (name : String) : Json → Prop
  | text : Names name (.string name)
  | tagged : Names name (.object [(name, .null)])

theorem choice?_eq_some_iff {value : Json} {name : String} :
    value.choice? = some name ↔ value.Names name := by
  constructor
  · intro chosen
    unfold choice? at chosen
    split at chosen
    next => cases chosen; exact .text
    next => cases chosen; exact .tagged
    next => cases chosen
  · rintro (_ | _) <;> rfl

theorem uint64?_eq_some_iff {value : Json} {word : UInt64} :
    value.uint64? = some word ↔ value = .integer word.toNat := by
  constructor
  · intro read
    obtain ⟨number, below, rfl⟩ := Option.map_eq_some_iff.mp read
    obtain ⟨written, isInteger, inRange⟩ := Option.bind_eq_some_iff.mp below
    cases value with
    | integer own =>
        cases isInteger
        split at inRange
        next bounds =>
            cases inRange
            rw [Bool.and_eq_true, decide_eq_true_eq, decide_eq_true_eq] at bounds
            rw [UInt64.toNat_ofNat_of_lt' bounds.2, Int.toNat_of_nonneg bounds.1]
        next => cases inRange
    | _ => cases isInteger
  · rintro rfl
    exact uint64?_ofNat word

theorem mapM_string?_eq_some_iff {values : List Json} {texts : List String} :
    values.mapM string? = some texts ↔ values = texts.map .string := by
  induction values generalizing texts with
  | nil => cases texts <;> simp
  | cons value values ih =>
      rw [List.mapM_cons, Option.bind_eq_bind, Option.bind_eq_some_iff]
      simp only [Option.bind_eq_bind, Option.bind_eq_some_iff, Option.pure_def,
        Option.some.injEq, ih]
      constructor
      · rintro ⟨text, own, later, rfl, rfl⟩
        cases value with
        | string => cases own; rfl
        | _ => cases own
      · intro written
        cases texts with
        | nil => cases written
        | cons text texts =>
            obtain ⟨rfl, rfl⟩ := List.cons.inj written
            exact ⟨text, rfl, texts, rfl, rfl⟩

theorem strings?_eq_some_iff {value : Json} {texts : List String} :
    value.strings? = some texts ↔ value = .array (texts.map .string) := by
  cases value with
  | array values => simp [strings?, elements?, mapM_string?_eq_some_iff]
  | _ => simp [strings?, elements?]

theorem choice?_bind_eq_some_iff {Mode : Type} {ofName? : String → Option Mode}
    {nameOf : Mode → String}
    (reads : ∀ {name mode}, ofName? name = some mode ↔ name = nameOf mode)
    {value : Json} {mode : Mode} :
    value.choice?.bind ofName? = some mode ↔ value.Names (nameOf mode) := by
  rw [Option.bind_eq_some_iff, ← choice?_eq_some_iff]
  constructor
  · rintro ⟨name, chosen, named⟩
    rwa [← reads.mp named]
  · intro chosen
    exact ⟨nameOf mode, chosen, reads.mpr rfl⟩

theorem lookup_eq_some {key : String} {value : Json} {members : List (String × Json)}
    (present : (key, value) ∈ members)
    (unique : ∀ other, (key, other) ∈ members → other = value) :
    lookup key members = some value := by
  induction members with
  | nil => cases present
  | cons member members ih =>
      obtain ⟨name, own⟩ := member
      by_cases same : name = key
      · subst same
        rw [lookup, if_pos rfl, unique own List.mem_cons_self]
      · have later : (key, value) ∈ members :=
          (List.mem_cons.mp present).resolve_left fun equal => same (congrArg Prod.fst equal).symm
        rw [lookup, if_neg same]
        exact ih later fun other member => unique other (List.mem_cons_of_mem _ member)

theorem lookup_eq_none {key : String} {members : List (String × Json)}
    (absent : ∀ value, (key, value) ∉ members) : lookup key members = none := by
  induction members with
  | nil => rfl
  | cons member members ih =>
      obtain ⟨name, own⟩ := member
      have different : name ≠ key := by
        rintro rfl
        exact absent own List.mem_cons_self
      rw [lookup, if_neg different]
      exact ih fun value member => absent value (List.mem_cons_of_mem _ member)

theorem lookup_zip {keys : List String} (distinct : keys.Nodup) {place : Nat} {key : String}
    (placed : keys[place]? = some key) (values : List Json) :
    lookup key (keys.zip values) = values[place]? := by
  induction keys generalizing place values with
  | nil => cases placed
  | cons first keys ih =>
      obtain ⟨fresh, distinct⟩ := List.nodup_cons.mp distinct
      cases values with
      | nil => rfl
      | cons value values =>
          rw [List.zip_cons_cons, lookup]
          cases place with
          | zero =>
              cases placed
              rw [if_pos rfl, List.getElem?_cons_zero]
          | succ place =>
              have later : keys[place]? = some key := placed
              have different : first ≠ key := by
                rintro rfl
                exact fresh (List.mem_of_getElem? later)
              rw [if_neg different, ih distinct later, List.getElem?_cons_succ]

end Json

theorem CaseMatching.ofName?_eq_some_iff {name : String} {mode : CaseMatching} :
    ofName? name = some mode ↔ name = mode.name := by
  constructor
  · intro read
    unfold ofName? at read
    split at read <;> cases read <;> rfl
  · rintro rfl
    cases mode <;> rfl

theorem ArgumentGuessing.ofName?_eq_some_iff {name : String} {mode : ArgumentGuessing} :
    ofName? name = some mode ↔ name = mode.name := by
  constructor
  · intro read
    unfold ofName? at read
    split at read <;> cases read <;> rfl
  · rintro rfl
    cases mode <;> rfl

/-! ### Single settings -/

inductive Setting where
  | maxResults
  | caseMatching
  | argumentGuessing
  | hiddenTypes
deriving DecidableEq, Repr

namespace Setting

def key : Setting → String
  | maxResults => Settings.maxResultsKey
  | caseMatching => Settings.caseMatchingKey
  | argumentGuessing => Settings.argumentGuessingKey
  | hiddenTypes => Settings.hiddenTypesKey

def place : Setting → Nat
  | maxResults => 0
  | caseMatching => 1
  | argumentGuessing => 2
  | hiddenTypes => 3

@[reducible] def Value : Setting → Type
  | maxResults => UInt64
  | caseMatching => CaseMatching
  | argumentGuessing => ArgumentGuessing
  | hiddenTypes => List String

def get : (setting : Setting) → Settings → setting.Value
  | maxResults, settings => settings.maxResults
  | caseMatching, settings => settings.caseMatching
  | argumentGuessing, settings => settings.argumentGuessing
  | hiddenTypes, settings => settings.hiddenTypes

def Written : (setting : Setting) → setting.Value → Json → Prop
  | maxResults, bound, json => json = .integer bound.toNat
  | caseMatching, mode, json => json.Names mode.name
  | argumentGuessing, mode, json => json.Names mode.name
  | hiddenTypes, patterns, json => json = .array (patterns.map .string)

def read : (setting : Setting) → Json → Option setting.Value
  | maxResults => Json.uint64?
  | caseMatching => CaseMatching.ofJson?
  | argumentGuessing => ArgumentGuessing.ofJson?
  | hiddenTypes => Json.strings?

def write : (setting : Setting) → setting.Value → Json
  | maxResults, bound => .ofNat bound.toNat
  | caseMatching, mode => mode.toJson
  | argumentGuessing, mode => mode.toJson
  | hiddenTypes, patterns => .ofStrings patterns

theorem read_eq_some_iff {setting : Setting} {json : Json} {value : setting.Value} :
    setting.read json = some value ↔ setting.Written value json := by
  cases setting with
  | maxResults => exact Json.uint64?_eq_some_iff
  | caseMatching => exact Json.choice?_bind_eq_some_iff CaseMatching.ofName?_eq_some_iff
  | argumentGuessing => exact Json.choice?_bind_eq_some_iff ArgumentGuessing.ofName?_eq_some_iff
  | hiddenTypes => exact Json.strings?_eq_some_iff

theorem written_write (setting : Setting) (value : setting.Value) :
    setting.Written value (setting.write value) := by
  cases setting with
  | maxResults => rfl
  | caseMatching => exact .text
  | argumentGuessing => exact .text
  | hiddenTypes => rfl

theorem key_injective {left right : Setting} (same : left.key = right.key) : left = right := by
  revert same
  cases left <;> cases right <;> decide

def all : List Setting :=
  [maxResults, caseMatching, argumentGuessing, hiddenTypes]

theorem mem_all (setting : Setting) : setting ∈ all := by
  cases setting <;> decide

theorem getElem?_keys (setting : Setting) : Settings.keys[setting.place]? = some setting.key := by
  cases setting <;> rfl

theorem key_mem_keys (setting : Setting) : setting.key ∈ Settings.keys :=
  List.mem_of_getElem? setting.getElem?_keys

theorem lookup_zip_keys (setting : Setting) (values : List Json) :
    Json.lookup setting.key (Settings.keys.zip values) = values[setting.place]? :=
  Json.lookup_zip (by decide) setting.getElem?_keys values

/-- What is given for a setting sets it to this value. Nothing stands for the default. -/
inductive Takes (setting : Setting) : Option Json → setting.Value → Prop
  | default : Takes setting none (setting.get {})
  | written {json : Json} {value : setting.Value} :
      setting.Written value json → Takes setting (some json) value

theorem valueOr_eq_some_iff {setting : Setting} {given : Option Json} {value : setting.Value} :
    Settings.valueOr (setting.get {}) setting.read given = some value ↔
      setting.Takes given value := by
  cases given with
  | none =>
      constructor
      · intro standard
        cases standard
        exact .default
      · rintro ⟨⟩
        rfl
  | some json =>
      refine setting.read_eq_some_iff.trans ⟨.written, ?_⟩
      rintro ⟨⟩
      assumption

end Setting

/-! ### Payloads -/

namespace Settings

theorem eq_of_get {left right : Settings}
    (same : ∀ setting : Setting, setting.get left = setting.get right) : left = right := by
  cases left
  cases right
  rw [Settings.mk.injEq]
  exact ⟨same .maxResults, same .caseMatching, same .argumentGuessing, same .hiddenTypes⟩

theorem exists_get {Holds : (setting : Setting) → setting.Value → Prop}
    (each : ∀ setting, ∃ value, Holds setting value) :
    ∃ settings, ∀ setting : Setting, Holds setting (setting.get settings) := by
  obtain ⟨maxResults, bounds⟩ := each .maxResults
  obtain ⟨caseMatching, matching⟩ := each .caseMatching
  obtain ⟨argumentGuessing, guesses⟩ := each .argumentGuessing
  obtain ⟨hiddenTypes, hides⟩ := each .hiddenTypes
  refine ⟨{ maxResults, caseMatching, argumentGuessing, hiddenTypes }, fun setting => ?_⟩
  cases setting with
  | maxResults => exact bounds
  | caseMatching => exact matching
  | argumentGuessing => exact guesses
  | hiddenTypes => exact hides

/-- What a payload gives for each setting: the member of an object under its key, or the
value of an array at its place. -/
inductive Gives : Json → (Setting → Option Json) → Prop
  | object (members : List (String × Json)) :
      Gives (.object members) fun setting => Json.lookup setting.key members
  | array (values : List Json) : values.length ≤ 4 →
      Gives (.array values) fun setting => values[setting.place]?

def Stated (payload : Json) (settings : Settings) : Prop :=
  ∃ given, Gives payload given ∧
    ∀ setting : Setting, setting.Takes (given setting) (setting.get settings)

def Valid (payload : Json) : Prop :=
  ∃ settings, Stated payload settings

theorem ofMembers?_eq_some_iff {members : List (String × Json)} {settings : Settings} :
    ofMembers? members = some settings ↔
      ∀ setting : Setting,
        setting.Takes (Json.lookup setting.key members) (setting.get settings) := by
  simp only [← Setting.valueOr_eq_some_iff]
  simp only [ofMembers?, Option.bind_eq_bind, Option.bind_eq_some_iff, Option.pure_def,
    Option.some.injEq]
  constructor
  · rintro ⟨maxResults, bounds, caseMatching, matching, argumentGuessing, guesses, hiddenTypes,
      hides, rfl⟩ setting
    cases setting with
    | maxResults => exact bounds
    | caseMatching => exact matching
    | argumentGuessing => exact guesses
    | hiddenTypes => exact hides
  · intro each
    exact ⟨_, each .maxResults, _, each .caseMatching, _, each .argumentGuessing, _,
      each .hiddenTypes, rfl⟩

theorem ofJson?_eq_some_iff {payload : Json} {settings : Settings} :
    ofJson? payload = some settings ↔ Stated payload settings := by
  constructor
  · intro read
    unfold ofJson? at read
    split at read
    next members => exact ⟨_, .object members, ofMembers?_eq_some_iff.mp read⟩
    next values =>
        split at read
        next few =>
            refine ⟨_, .array values few, fun setting => ?_⟩
            rw [← setting.lookup_zip_keys values]
            exact ofMembers?_eq_some_iff.mp read setting
        next => cases read
    next => cases read
  · rintro ⟨given, gives, takes⟩
    cases gives with
    | object members => exact ofMembers?_eq_some_iff.mpr takes
    | array values few =>
        have fits : values.length ≤ keys.length := few
        rw [ofJson?, if_pos fits, ofMembers?_eq_some_iff]
        intro setting
        rw [setting.lookup_zip_keys values]
        exact takes setting

theorem ofJson?_eq_none_iff {payload : Json} : ofJson? payload = none ↔ ¬ Valid payload := by
  rw [Option.eq_none_iff_forall_ne_some, Valid, not_exists]
  exact forall_congr' fun settings => not_congr ofJson?_eq_some_iff

theorem valid_iff {payload : Json} :
    Valid payload ↔ ∃ given, Gives payload given ∧
      ∀ (setting : Setting) (json : Json), given setting = some json →
        ∃ value, setting.Written value json := by
  constructor
  · rintro ⟨settings, given, gives, takes⟩
    refine ⟨given, gives, fun setting json present => ?_⟩
    have taken := takes setting
    rw [present] at taken
    cases taken with
    | written written => exact ⟨_, written⟩
  · rintro ⟨given, gives, readable⟩
    have each : ∀ setting, ∃ value, Setting.Takes setting (given setting) value := by
      intro setting
      cases present : given setting with
      | none => exact ⟨_, .default⟩
      | some json =>
          obtain ⟨value, written⟩ := readable setting json present
          exact ⟨value, .written written⟩
    obtain ⟨settings, takes⟩ := exists_get each
    exact ⟨settings, given, gives, takes⟩

/-! ### Runs of updates -/

theorem update_of_stated {payload : Json} {stated : Settings} (states : Stated payload stated)
    (settings : Settings) : settings.update payload = stated :=
  update_of_ofJson? (ofJson?_eq_some_iff.mpr states) settings

theorem update_of_not_valid {payload : Json} (invalid : ¬ Valid payload) (settings : Settings) :
    settings.update payload = settings :=
  update_of_invalid (ofJson?_eq_none_iff.mpr invalid) settings

/-- What is in force after a run of payloads. The last valid payload states it, and if no
payload is valid it is what was in force at the start. -/
inductive InForce (start : Settings) : List Json → Settings → Prop
  | untouched {payloads : List Json} : (∀ payload ∈ payloads, ¬ Valid payload) →
      InForce start payloads start
  | last (earlier : List Json) {payload : Json} {later : List Json} {stated : Settings} :
      Stated payload stated → (∀ other ∈ later, ¬ Valid other) →
      InForce start (earlier ++ payload :: later) stated

theorem foldl_update_of_not_valid {payloads : List Json}
    (invalid : ∀ payload ∈ payloads, ¬ Valid payload) (settings : Settings) :
    payloads.foldl update settings = settings := by
  induction payloads with
  | nil => rfl
  | cons payload payloads ih =>
      obtain ⟨first, others⟩ := List.forall_mem_cons.mp invalid
      rw [List.foldl_cons, update_of_not_valid first, ih others]

theorem InForce.cons {start : Settings} {payload : Json} {payloads : List Json}
    {final : Settings} (rest : InForce (start.update payload) payloads final) :
    InForce start (payload :: payloads) final := by
  cases rest with
  | last earlier states invalid => exact .last (payload :: earlier) states invalid
  | untouched invalid =>
      by_cases valid : Valid payload
      · obtain ⟨stated, states⟩ := valid
        rw [update_of_stated states]
        exact .last [] states invalid
      · rw [update_of_not_valid valid]
        exact .untouched (List.forall_mem_cons.mpr ⟨valid, invalid⟩)

theorem inForce_foldl_update (start : Settings) (payloads : List Json) :
    InForce start payloads (payloads.foldl update start) := by
  induction payloads generalizing start with
  | nil => exact .untouched nofun
  | cons payload payloads ih => exact (ih (start.update payload)).cons

theorem InForce.foldl_update {start final : Settings} {payloads : List Json}
    (inForce : InForce start payloads final) : payloads.foldl update start = final := by
  cases inForce with
  | untouched invalid => exact foldl_update_of_not_valid invalid start
  | last earlier states invalid =>
      rw [List.foldl_append, List.foldl_cons, update_of_stated states,
        foldl_update_of_not_valid invalid]

/-- The settings with the defaults in place of those under some of the keys. -/
def reset (settings : Settings) (removed : List String) : Settings :=
  let defaults : Settings := {}
  { maxResults :=
      if maxResultsKey ∈ removed then defaults.maxResults else settings.maxResults
    caseMatching :=
      if caseMatchingKey ∈ removed then defaults.caseMatching else settings.caseMatching
    argumentGuessing :=
      if argumentGuessingKey ∈ removed then defaults.argumentGuessing
      else settings.argumentGuessing
    hiddenTypes :=
      if hiddenTypesKey ∈ removed then defaults.hiddenTypes else settings.hiddenTypes }

theorem get_reset (setting : Setting) (settings : Settings) (removed : List String) :
    setting.get (settings.reset removed) =
      if setting.key ∈ removed then setting.get {} else setting.get settings := by
  cases setting <;> rfl

theorem reset_nil (settings : Settings) : settings.reset [] = settings := by
  apply eq_of_get
  intro setting
  rw [get_reset, if_neg List.not_mem_nil]

def members (settings : Settings) : List (String × Json) :=
  Setting.all.map fun setting => (setting.key, setting.write (setting.get settings))

theorem toJson_eq_object (settings : Settings) : settings.toJson = .object settings.members := rfl

theorem mem_members_iff {settings : Settings} {setting : Setting} {json : Json} :
    (setting.key, json) ∈ settings.members ↔ json = setting.write (setting.get settings) := by
  rw [members, List.mem_map]
  constructor
  · rintro ⟨other, -, same⟩
    obtain ⟨sameKey, rfl⟩ := Prod.mk.inj same
    cases Setting.key_injective sameKey
    rfl
  · rintro rfl
    exact ⟨setting, setting.mem_all, rfl⟩

section

variable {settings : Settings} {removed : List String} {unknown members : List (String × Json)}
  (foreign : ∀ member ∈ unknown, member.1 ∉ keys)
  (arranged : members.Perm
    ((settings.members.filter fun member => member.1 ∉ removed) ++ unknown))

include foreign arranged

theorem mem_arranged_iff (setting : Setting) (json : Json) :
    (setting.key, json) ∈ members ↔
      json = setting.write (setting.get settings) ∧ setting.key ∉ removed := by
  rw [arranged.mem_iff, List.mem_append, List.mem_filter, mem_members_iff, decide_eq_true_eq]
  exact or_iff_left fun member => foreign _ member setting.key_mem_keys

/-- The order of the members and those of other settings do not matter. -/
theorem lookup_arranged (setting : Setting) :
    Json.lookup setting.key members =
      if setting.key ∈ removed then none else some (setting.write (setting.get settings)) := by
  have present := mem_arranged_iff foreign arranged setting
  split
  next gone => exact Json.lookup_eq_none fun json member => ((present json).mp member).2 gone
  next kept =>
      exact Json.lookup_eq_some ((present _).mpr ⟨rfl, kept⟩) fun other member =>
        ((present other).mp member).1

theorem stated_arranged : Stated (.object members) (settings.reset removed) := by
  refine ⟨_, .object members, fun setting => ?_⟩
  rw [lookup_arranged foreign arranged, get_reset]
  split
  next => exact .default
  next => exact .written (setting.written_write _)

end

/-- After any payloads the settings are those of the last valid one alone, or those at the start. A
payload is invalid as soon as one value given for a setting has none of its forms, and then changes
nothing. Settings are read back from the members they are written as, in any order and among any
others, and where some are removed the defaults take their place. -/
theorem updates_atomic (start : Settings) (payloads : List Json) :
    (∀ final, payloads.foldl update start = final ↔ InForce start payloads final) ∧
    (∀ (payload : Json) (settings : Settings), ¬ Valid payload →
      settings.update payload = settings) ∧
    (∀ payload, Valid payload ↔ ∃ given, Gives payload given ∧
      ∀ (setting : Setting) (json : Json), given setting = some json →
        ∃ value, setting.Written value json) ∧
    ∀ (settings : Settings) (written unknown members : List (String × Json)),
      settings.toJson = .object written → (∀ member ∈ unknown, member.1 ∉ keys) →
      (members.Perm (written ++ unknown) → ofJson? (.object members) = some settings) ∧
      ∀ removed : List String,
        members.Perm ((written.filter fun member => member.1 ∉ removed) ++ unknown) →
        ofJson? (.object members) = some (settings.reset removed) := by
  refine ⟨fun final => ⟨?_, InForce.foldl_update⟩, fun _ settings invalid =>
    update_of_not_valid invalid settings, fun _ => valid_iff, ?_⟩
  · rintro rfl
    exact inForce_foldl_update start payloads
  · intro settings written unknown members stored foreign
    cases settings.toJson_eq_object.symm.trans stored
    have readBack (removed : List String) (arranged : members.Perm
        ((settings.members.filter fun member => member.1 ∉ removed) ++ unknown)) :
        ofJson? (.object members) = some (settings.reset removed) :=
      ofJson?_eq_some_iff.mpr (stated_arranged foreign arranged)
    have complete : (settings.members.filter fun member => member.1 ∉ ([] : List String)) =
        settings.members :=
      List.filter_eq_self.mpr fun member _ => decide_eq_true List.not_mem_nil
    refine ⟨fun arranged => ?_, readBack⟩
    rw [← settings.reset_nil]
    exact readBack [] (by rwa [complete])

/-- The last valid payload does not mention what the first one set, and the one after it
asks for one result too many. Of settings with the highest bound the members are read from
back to front, with a foreign one in front, and then without two of them. -/
theorem updates_atomic_at_highest_bound :
    let start : Settings := { maxResults := 7 }
    let first : Json := .array [.integer 3, .string "off"]
    let second : Json := .object
      [("guessMethodArguments", .object [("off", .null)]),
       ("maxCompletionResults", .integer 18446744073709551615)]
    let third : Json := .object
      [("matchCase", .string "off"), ("maxCompletionResults", .decimal "18446744073709551616")]
    let final : Settings := { maxResults := 18446744073709551615, argumentGuessing := .off }
    let stored : Settings := { final with hiddenTypes := ["sun.*"] }
    [first, second, third].foldl update start = final ∧
    Valid second ∧ ¬ Valid third ∧ start.update third = start ∧
    ofJson? (.object
      [("theme", .bool true),
       ("filteredTypes", .array [.string "sun.*"]),
       ("guessMethodArguments", .string "off"),
       ("matchCase", .string "firstLetter"),
       ("maxCompletionResults", .integer 18446744073709551615)]) = some stored ∧
    ofJson? (.object
      [("theme", .bool true),
       ("matchCase", .string "firstLetter"),
       ("maxCompletionResults", .integer 18446744073709551615)]) =
        some { maxResults := 18446744073709551615 } := by
  intro start first second third final stored
  have states : Stated second final := ofJson?_eq_some_iff.mp rfl
  have invalid : ¬ Valid third := ofJson?_eq_none_iff.mp rfl
  obtain ⟨run, unchanged, -, readBack⟩ := updates_atomic start [first, second, third]
  have inForce : InForce start [first, second, third] final :=
    .last [first] states (List.forall_mem_singleton.mpr invalid)
  have foreign : ∀ member ∈ [("theme", Json.bool true)], member.1 ∉ keys :=
    List.forall_mem_singleton.mpr (by decide)
  refine ⟨(run final).mpr inForce, ⟨final, states⟩, invalid, unchanged third start invalid,
    ?_, ?_⟩
  · exact (readBack stored _ _ _ rfl foreign).1
      (List.reverse_perm (stored.members ++ [("theme", Json.bool true)]))
  · exact (readBack stored _ _ _ rfl foreign).2 ["filteredTypes", "guessMethodArguments"]
      (List.reverse_perm
        ((stored.members.filter fun member =>
          member.1 ∉ ["filteredTypes", "guessMethodArguments"]) ++ [("theme", Json.bool true)]))

end Settings

end ContentAssist

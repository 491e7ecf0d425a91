import Mathlib.Data.List.Basic
import SharpArch.Foundation.Run
import SharpArch.NHibernate.DataAnnotationsEventListener

/-!
# The session factory builder

`NHibernateSessionFactoryBuilder` is set up by calls and then asked for a configuration, as often as one
likes. What it does to get one is a script: the `Instruction`s it gives to NHibernate and FluentNHibernate.

The script depends on the calls kind by kind (`run_eq_ofHistory`): assemblies accumulate, properties are
merged, of the other settings the last one counts, and calls that throw count for nothing, except that
properties before a null key are kept. So the order of calls of different kinds does not matter. The last
instructions of the script are what `addValidatorsAndExposeConfiguration` does to the listeners
(`listeners_exposeScript`).
-/

set_option autoImplicit false
set_option relaxedAutoImplicit false

namespace SharpArch.NHibernate.SessionFactories

/-- The exceptions of the setters. -/
inductive SetterException
  | argumentNull (message : Option String) (parameter : String)
  | argument (message : String) (parameter : String)
  deriving DecidableEq, Repr

def defaultNHibernateConfigFileName : String := "hibernate.cfg.xml"

def defaultConfigurationName : String := "nhibernate.current_session"

/-- `char.IsWhiteSpace`. -/
def isWhiteSpace (symbol : Char) : Bool :=
  let code := symbol.toNat
  (9 ≤ code && code ≤ 13) || code == 0x20 || code == 0x85 || code == 0xA0 || code == 0x1680 ||
    (0x2000 ≤ code && code ≤ 0x200A) || code == 0x2028 || code == 0x2029 || code == 0x202F ||
    code == 0x205F || code == 0x3000

/-- `string.IsNullOrWhiteSpace`. -/
def isNullOrWhiteSpace (text : Option String) : Bool :=
  match text with
  | none => true
  | some text => text.toList.all isWhiteSpace

/-- `string.Equals` with `OrdinalIgnoreCase`, of a text and one of ASCII letters. -/
def equalsIgnoreCase (text ascii : String) : Bool :=
  text.toList.map Char.toLower = ascii.toList.map Char.toLower

variable {Assembly Model Configurer Cache Expose : Type}

/-- `NHibernateSessionFactoryBuilder`. The dictionary of properties is in insertion order. -/
structure NHibernateSessionFactoryBuilder (Assembly Model Configurer Cache Expose : Type) where
  mappingAssemblies : List Assembly := []
  autoPersistenceModel : Option Model := none
  configFile : Option String := none
  exposeConfiguration : Option Expose := none
  persistenceConfigurer : Option Configurer := none
  properties : Option (List (String × String)) := none
  useDataAnnotationValidators : Bool := false
  cacheSettingsBuilder : Option Cache := none

/-! ### Setters -/

/-- `dictionary[key] = value`. -/
def setItem (key value : String) : List (String × String) → List (String × String)
  | [] => [(key, value)]
  | pair :: rest =>
    if pair.1 = key then (key, value) :: rest else pair :: setItem key value rest

/-- The loop of `UseProperties`. A null key ends it. -/
def setItems : List (Option String × String) → List (String × String) →
    Except SetterException Unit × List (String × String)
  | [], properties => (.ok (), properties)
  | (none, _) :: _, properties => (.error (.argumentNull none "key"), properties)
  | (some key, value) :: rest, properties => setItems rest (setItem key value properties)

/-- A call of a setter. Arguments may be null. -/
inductive SetterCall (Assembly Model Configurer Cache Expose : Type)
  | exposeConfiguration (config : Option Expose)
  | addMappingAssemblies (mappingAssemblies : Option (List Assembly))
  | useAutoPersistenceModel (autoPersistenceModel : Option Model)
  | useProperties (properties : Option (List (Option String × String)))
  | useDataAnnotationValidators (addDataAnnotationValidators : Bool)
  | useConfigFile (nhibernateConfigFile : Option String)
  | useCache (cacheSettingsBuilder : Option Cache)
  | usePersistenceConfigurer (persistenceConfigurer : Option Configurer)

namespace NHibernateSessionFactoryBuilder

variable (builder : NHibernateSessionFactoryBuilder Assembly Model Configurer Cache Expose)

/-- Whether a call returned or threw, and the builder after it. -/
def answer : SetterCall Assembly Model Configurer Cache Expose →
    Except SetterException Unit ×
      NHibernateSessionFactoryBuilder Assembly Model Configurer Cache Expose
  | .exposeConfiguration none => (.error (.argumentNull none "config"), builder)
  | .exposeConfiguration (some config) => (.ok (), { builder with exposeConfiguration := some config })
  | .addMappingAssemblies none =>
    (.error (.argumentNull (some "Mapping assemblies are not specified.") "mappingAssemblies"), builder)
  | .addMappingAssemblies (some mappingAssemblies) =>
    (.ok (), { builder with mappingAssemblies := builder.mappingAssemblies ++ mappingAssemblies })
  | .useAutoPersistenceModel none => (.error (.argumentNull none "autoPersistenceModel"), builder)
  | .useAutoPersistenceModel (some model) => (.ok (), { builder with autoPersistenceModel := some model })
  | .useProperties none => (.error (.argumentNull none "properties"), builder)
  | .useProperties (some pairs) =>
    let (answer, properties) := setItems pairs (builder.properties.getD [])
    (answer, { builder with properties := some properties })
  | .useDataAnnotationValidators add => (.ok (), { builder with useDataAnnotationValidators := add })
  | .useConfigFile file =>
    if isNullOrWhiteSpace file then
      (.error (.argument "NHibernate config was not specified." "nhibernateConfigFile"), builder)
    else (.ok (), { builder with configFile := file })
  | .useCache cache => (.ok (), { builder with cacheSettingsBuilder := cache })
  | .usePersistenceConfigurer none => (.error (.argumentNull none "persistenceConfigurer"), builder)
  | .usePersistenceConfigurer (some configurer) =>
    (.ok (), { builder with persistenceConfigurer := some configurer })

/-- The builder after a call. -/
def step (call : SetterCall Assembly Model Configurer Cache Expose) :
    NHibernateSessionFactoryBuilder Assembly Model Configurer Cache Expose :=
  (builder.answer call).2

end NHibernateSessionFactoryBuilder

/-! ### The script -/

/-- What NHibernate and FluentNHibernate are told, one instruction after the other. -/
inductive Instruction (Assembly Model Configurer Cache Expose : Type)
  | addProperties (properties : List (String × String))
  | configureFile (file : String)
  | configureDefaultFile
  | database (configurer : Configurer)
  | cache (settings : Cache)
  | hbmMappings (assembly : Assembly)
  | fluentMappings (assembly : Assembly)
  | conventions (assembly : Assembly)
  | autoMappings (model : Model)
  | insertFirstListener (write : Write)
  | expose (config : Expose)
  deriving DecidableEq

namespace NHibernateSessionFactoryBuilder

variable (builder : NHibernateSessionFactoryBuilder Assembly Model Configurer Cache Expose)

def loadExternalConfiguration (defaultFileExists : Bool) :
    List (Instruction Assembly Model Configurer Cache Expose) :=
  let loading : List (Instruction Assembly Model Configurer Cache Expose) :=
    match builder.properties with
    | some (pair :: rest) => [.addProperties (pair :: rest)]
    | _ => []
  let files : List (Instruction Assembly Model Configurer Cache Expose) :=
    match builder.configFile with
    | some file =>
      if file ≠ "" ∧ equalsIgnoreCase file defaultConfigurationName = false then [.configureFile file]
      else if defaultFileExists then [.configureDefaultFile] else []
    | none => if defaultFileExists then [.configureDefaultFile] else []
  loading ++ files

def mappings : List (Instruction Assembly Model Configurer Cache Expose) :=
  (builder.mappingAssemblies.flatMap fun assembly ↦
    [.hbmMappings assembly, .fluentMappings assembly, .conventions assembly]) ++
    builder.autoPersistenceModel.toList.map .autoMappings

/-- `AddValidatorsAndExposeConfiguration`. -/
def exposeScript : List (Instruction Assembly Model Configurer Cache Expose) :=
  (if builder.useDataAnnotationValidators then [.insertFirstListener .insert, .insertFirstListener .update]
    else []) ++ builder.exposeConfiguration.toList.map .expose

def applyCustomSettings : List (Instruction Assembly Model Configurer Cache Expose) :=
  builder.persistenceConfigurer.toList.map .database ++ builder.cacheSettingsBuilder.toList.map .cache ++
    builder.mappings ++
      if builder.useDataAnnotationValidators || builder.exposeConfiguration.isSome then builder.exposeScript
      else []

def buildConfiguration (defaultFileExists : Bool) :
    List (Instruction Assembly Model Configurer Cache Expose) :=
  builder.loadExternalConfiguration defaultFileExists ++ builder.applyCustomSettings

end NHibernateSessionFactoryBuilder

/-! ### The settings of a history -/

namespace SetterCall

variable (call : SetterCall Assembly Model Configurer Cache Expose)

/-- The setting that a call makes, unless it throws. -/
def exposed : Option Expose :=
  match call with
  | .exposeConfiguration config => config
  | _ => none

def assemblies : Option (List Assembly) :=
  match call with
  | .addMappingAssemblies mappingAssemblies => mappingAssemblies
  | _ => none

def model : Option Model :=
  match call with
  | .useAutoPersistenceModel model => model
  | _ => none

def pairs : List (Option String × String) :=
  match call with
  | .useProperties properties => properties.getD []
  | _ => []

/-- The properties after a call. -/
def merge (properties : Option (List (String × String))) : Option (List (String × String)) :=
  match call with
  | .useProperties (some pairs) => some (setItems pairs (properties.getD [])).2
  | _ => properties

def validators : Option Bool :=
  match call with
  | .useDataAnnotationValidators add => some add
  | _ => none

def file : Option String :=
  match call with
  | .useConfigFile file => if isNullOrWhiteSpace file then none else file
  | _ => none

/-- The cache settings, or that there are none from now on. -/
def cache : Option (Option Cache) :=
  match call with
  | .useCache settings => some settings
  | _ => none

def configurer : Option Configurer :=
  match call with
  | .usePersistenceConfigurer configurer => configurer
  | _ => none

end SetterCall

/-- The last setting that one of the calls makes. -/
def lastOf {α : Type} (setting : SetterCall Assembly Model Configurer Cache Expose → Option α)
    (calls : List (SetterCall Assembly Model Configurer Cache Expose)) : Option α :=
  (calls.filterMap setting).getLast?

/-- The settings of a history of calls, each kind by itself. -/
def ofHistory (calls : List (SetterCall Assembly Model Configurer Cache Expose)) :
    NHibernateSessionFactoryBuilder Assembly Model Configurer Cache Expose where
  mappingAssemblies := (calls.filterMap SetterCall.assemblies).flatten
  autoPersistenceModel := lastOf SetterCall.model calls
  configFile := lastOf SetterCall.file calls
  exposeConfiguration := lastOf SetterCall.exposed calls
  persistenceConfigurer := lastOf SetterCall.configurer calls
  properties := calls.foldl (fun properties call ↦ call.merge properties) none
  useDataAnnotationValidators := (lastOf SetterCall.validators calls).getD false
  cacheSettingsBuilder := (lastOf SetterCall.cache calls).join

open Foundation.Run

variable {calls : List (SetterCall Assembly Model Configurer Cache Expose)}

theorem lastOf_concat {α : Type} (setting : SetterCall Assembly Model Configurer Cache Expose → Option α)
    (call : SetterCall Assembly Model Configurer Cache Expose) :
    lastOf setting (calls ++ [call]) = (setting call).or (lastOf setting calls) := by
  rw [lastOf, List.filterMap_append, List.getLast?_append]
  cases hcall : setting call <;> simp [hcall, lastOf]

/-- The settings of a history with one more call. -/
theorem ofHistory_concat (call : SetterCall Assembly Model Configurer Cache Expose) :
    ofHistory (calls ++ [call]) = (ofHistory calls).step call := by
  simp only [ofHistory, lastOf_concat, List.filterMap_append, List.flatten_append,
    List.foldl_append, List.foldl_cons, List.foldl_nil, NHibernateSessionFactoryBuilder.step]
  rcases call with (_ | config) | (_ | assemblies) | (_ | model) | (_ | pairs) | add | file | cache |
    (_ | configurer)
  case useConfigFile =>
    simp only [NHibernateSessionFactoryBuilder.answer, SetterCall.file]
    split_ifs with hblank
    · simp [SetterCall.exposed, SetterCall.assemblies, SetterCall.model, SetterCall.merge,
        SetterCall.validators, SetterCall.cache, SetterCall.configurer]
    · cases file with
      | none => exact absurd rfl hblank
      | some file =>
        simp [SetterCall.exposed, SetterCall.assemblies, SetterCall.model, SetterCall.merge,
          SetterCall.validators, SetterCall.cache, SetterCall.configurer]
  all_goals
    simp [NHibernateSessionFactoryBuilder.answer, SetterCall.exposed, SetterCall.assemblies,
      SetterCall.model, SetterCall.merge, SetterCall.validators, SetterCall.file, SetterCall.cache,
      SetterCall.configurer]

/-- The builder has the settings of the calls that were made. -/
theorem run_setters (calls : List (SetterCall Assembly Model Configurer Cache Expose)) :
    run NHibernateSessionFactoryBuilder.step {} calls = ofHistory calls := by
  induction calls using List.reverseRecOn with
  | nil => rfl
  | append_singleton earlier call ih =>
    rw [run_append, ih, ofHistory_concat]
    rfl

/-! ### Properties -/

/-- The pairs before the first null key. -/
def keyed : List (Option String × String) → List (String × String)
  | [] => []
  | (none, _) :: _ => []
  | (some key, value) :: rest => (key, value) :: keyed rest

theorem lookup_cons_eq (key name value : String) (rest : List (String × String)) :
    ((name, value) :: rest).lookup key = if key = name then some value else rest.lookup key := by
  rw [List.lookup_cons]
  by_cases hkey : key = name
  · simp [hkey]
  · simp [hkey, beq_eq_false_iff_ne.mpr hkey]

theorem lookup_setItem (key other value : String) (properties : List (String × String)) :
    (setItem key value properties).lookup other =
      if other = key then some value else properties.lookup other := by
  induction properties with
  | nil => exact lookup_cons_eq other key value []
  | cons pair rest ih =>
    obtain ⟨first, held⟩ := pair
    rw [setItem]
    split_ifs with hfirst hother
    · obtain rfl : first = key := hfirst
      simp [hother]
    · obtain rfl : first = key := hfirst
      simp [lookup_cons_eq, hother]
    · have hne : ¬ other = first := fun hsame ↦ hfirst (hsame.symm.trans ‹other = key›)
      rw [lookup_cons_eq, if_neg hne, ih, if_pos ‹other = key›]
    · rw [lookup_cons_eq, lookup_cons_eq, ih, if_neg ‹¬ other = key›]

theorem lookup_setItems (pairs : List (Option String × String)) (properties : List (String × String))
    (key : String) :
    (setItems pairs properties).2.lookup key =
      ((keyed pairs).reverse.lookup key).or (properties.lookup key) := by
  induction pairs generalizing properties with
  | nil => rfl
  | cons pair rest ih =>
    obtain ⟨name | name, value⟩ := pair
    · rfl
    · rw [setItems, ih, lookup_setItem, keyed, List.reverse_cons, List.lookup_append, lookup_cons_eq,
        Option.or_assoc]
      by_cases hkey : key = name <;> simp [hkey]

/-- The value of a property is the last one given for it. -/
theorem lookup_merge (calls : List (SetterCall Assembly Model Configurer Cache Expose))
    (properties : Option (List (String × String))) (key : String) :
    ((calls.foldl (fun properties call ↦ call.merge properties) properties).getD []).lookup key =
      ((calls.flatMap fun call ↦ keyed call.pairs).reverse.lookup key).or
        ((properties.getD []).lookup key) := by
  induction calls generalizing properties with
  | nil => rfl
  | cons call rest ih =>
    rw [List.foldl_cons, ih, List.flatMap_cons, List.reverse_append, List.lookup_append, Option.or_assoc]
    congr 1
    rcases call with _ | _ | _ | (_ | pairs) | _ | _ | _ | _
    case useProperties.some => exact lookup_setItems pairs _ key
    all_goals rfl

/-- After every history of calls, whatever throws: assemblies have accumulated, properties have the last
value given before a null key, and of every other setting the last one counts. -/
theorem run_eq_ofHistory (calls : List (SetterCall Assembly Model Configurer Cache Expose)) :
    run NHibernateSessionFactoryBuilder.step {} calls = ofHistory calls ∧
      ∀ key, ((run NHibernateSessionFactoryBuilder.step
        ({} : NHibernateSessionFactoryBuilder Assembly Model Configurer Cache Expose) calls
          ).properties.getD []).lookup key =
        (calls.flatMap fun call ↦ keyed call.pairs).reverse.lookup key := by
  refine ⟨run_setters calls, fun key ↦ ?_⟩
  rw [run_setters]
  exact (lookup_merge calls none key).trans (Option.or_none)

/-! ### The order of calls -/

/-- The kinds of setters. -/
inductive SetterKind
  | exposeConfiguration
  | mappingAssemblies
  | autoPersistenceModel
  | properties
  | dataAnnotationValidators
  | configFile
  | cache
  | persistenceConfigurer
  deriving DecidableEq, Repr

def SetterCall.kind : SetterCall Assembly Model Configurer Cache Expose → SetterKind
  | .exposeConfiguration _ => .exposeConfiguration
  | .addMappingAssemblies _ => .mappingAssemblies
  | .useAutoPersistenceModel _ => .autoPersistenceModel
  | .useProperties _ => .properties
  | .useDataAnnotationValidators _ => .dataAnnotationValidators
  | .useConfigFile _ => .configFile
  | .useCache _ => .cache
  | .usePersistenceConfigurer _ => .persistenceConfigurer

/-- The calls of a kind, in order. -/
def ofKind (kind : SetterKind) (calls : List (SetterCall Assembly Model Configurer Cache Expose)) :
    List (SetterCall Assembly Model Configurer Cache Expose) :=
  calls.filter fun call ↦ call.kind = kind

/-- A setting that calls of one kind make is made by these. -/
theorem filterMap_ofKind {α : Type} {kind : SetterKind}
    {setting : SetterCall Assembly Model Configurer Cache Expose → Option α}
    (hsetting : ∀ call, call.kind ≠ kind → setting call = none)
    (calls : List (SetterCall Assembly Model Configurer Cache Expose)) :
    (ofKind kind calls).filterMap setting = calls.filterMap setting := by
  rw [ofKind, List.filterMap_filter]
  refine List.filterMap_congr fun call _ ↦ ?_
  by_cases hkind : call.kind = kind
  · simp [hkind]
  · simp [hkind, hsetting call hkind]

theorem foldl_merge_ofKind (calls : List (SetterCall Assembly Model Configurer Cache Expose))
    (properties : Option (List (String × String))) :
    (ofKind .properties calls).foldl (fun properties call ↦ call.merge properties) properties =
      calls.foldl (fun properties call ↦ call.merge properties) properties := by
  rw [ofKind, List.foldl_filter]
  congr 1
  funext properties call
  cases call <;> rfl

/-- The settings of a history depend on the calls of each kind alone. -/
theorem ofHistory_congr {calls others : List (SetterCall Assembly Model Configurer Cache Expose)}
    (hkinds : ∀ kind, ofKind kind calls = ofKind kind others) : ofHistory calls = ofHistory others := by
  have hsame {α : Type} (kind : SetterKind)
      (setting : SetterCall Assembly Model Configurer Cache Expose → Option α)
      (hsetting : ∀ call, call.kind ≠ kind → setting call = none) :
      calls.filterMap setting = others.filterMap setting := by
    rw [← filterMap_ofKind hsetting, hkinds, filterMap_ofKind hsetting]
  have hmerge : calls.foldl (fun properties call ↦ call.merge properties) none =
      others.foldl (fun properties call ↦ call.merge properties) none := by
    rw [← foldl_merge_ofKind, hkinds, foldl_merge_ofKind]
  have hassemblies := hsame .mappingAssemblies SetterCall.assemblies fun call hkind ↦ by
    cases call <;> first | rfl | exact absurd rfl hkind
  have hmodel := hsame .autoPersistenceModel SetterCall.model fun call hkind ↦ by
    cases call <;> first | rfl | exact absurd rfl hkind
  have hfile := hsame .configFile SetterCall.file fun call hkind ↦ by
    cases call <;> first | rfl | exact absurd rfl hkind
  have hexposed := hsame .exposeConfiguration SetterCall.exposed fun call hkind ↦ by
    cases call <;> first | rfl | exact absurd rfl hkind
  have hconfigurer := hsame .persistenceConfigurer SetterCall.configurer fun call hkind ↦ by
    cases call <;> first | rfl | exact absurd rfl hkind
  have hvalidators := hsame .dataAnnotationValidators SetterCall.validators fun call hkind ↦ by
    cases call <;> first | rfl | exact absurd rfl hkind
  have hcache := hsame .cache SetterCall.cache fun call hkind ↦ by
    cases call <;> first | rfl | exact absurd rfl hkind
  simp only [ofHistory, lastOf, hmerge, hassemblies, hmodel, hfile, hexposed, hconfigurer, hvalidators,
    hcache]

/-- Histories with the same calls of each kind end in the same script, in whatever order the calls of
different kinds were made. -/
theorem buildConfiguration_congr {calls others : List (SetterCall Assembly Model Configurer Cache Expose)}
    (hkinds : ∀ kind, ofKind kind calls = ofKind kind others) (defaultFileExists : Bool) :
    (run NHibernateSessionFactoryBuilder.step {} calls).buildConfiguration defaultFileExists =
      (run NHibernateSessionFactoryBuilder.step {} others).buildConfiguration defaultFileExists := by
  rw [run_setters, run_setters, ofHistory_congr hkinds]

/-- A file set twice, one of the calls throwing, with mappings added before, between or after. -/
example : (run NHibernateSessionFactoryBuilder.step
      ({} : NHibernateSessionFactoryBuilder ℕ ℕ ℕ ℕ ℕ)
      [.addMappingAssemblies (some [1]), .useConfigFile (some "a.xml"), .useConfigFile (some " ")]
        ).buildConfiguration true =
    [.configureFile "a.xml", .hbmMappings 1, .fluentMappings 1, .conventions 1] := by decide

/-! ### Listeners -/

section Listeners

variable {Property Key Plain : Type} {entityType : EntityClass Property}

/-- What the last instructions of a script do to the listeners of a configuration. -/
def Instruction.onListeners (configuration : Configuration entityType Key Plain) :
    Instruction Assembly Model Configurer Cache
      (Configuration entityType Key Plain → Configuration entityType Key Plain) →
        Configuration entityType Key Plain
  | .insertFirstListener .insert =>
    { configuration with
      preInsertEventListeners := insertFirst configuration.preInsertEventListeners onPreInsert }
  | .insertFirstListener .update =>
    { configuration with
      preUpdateEventListeners := insertFirst configuration.preUpdateEventListeners onPreUpdate }
  | .expose config => config configuration
  | _ => configuration

/-- The validators come first, and then the configuration is exposed. -/
theorem listeners_exposeScript
    (builder : NHibernateSessionFactoryBuilder Assembly Model Configurer Cache
      (Configuration entityType Key Plain → Configuration entityType Key Plain))
    (loaded : Configuration entityType Key Plain) :
    builder.exposeScript.foldl Instruction.onListeners loaded =
      NHibernate.NHibernateSessionFactoryBuilder.addValidatorsAndExposeConfiguration
        ⟨builder.useDataAnnotationValidators, builder.exposeConfiguration⟩ loaded := by
  unfold NHibernateSessionFactoryBuilder.exposeScript
    NHibernate.NHibernateSessionFactoryBuilder.addValidatorsAndExposeConfiguration
  cases builder.useDataAnnotationValidators <;> cases builder.exposeConfiguration <;> rfl

end Listeners

end SharpArch.NHibernate.SessionFactories

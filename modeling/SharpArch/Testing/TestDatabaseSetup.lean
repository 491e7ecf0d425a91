import SharpArch.NHibernate.SessionFactoryBuilder
import SharpArch.Platform.SystemTransactions

/-!
# The database setup of tests

`TestDatabaseSetup` builds a configuration and a session factory when they are first asked for, keeps them
and drops them when it is disposed; then it may be asked again. What it meets outside, in the assemblies,
the file system, NHibernate and the code of the tests, is an `Environment`, another one for each call.

The world keeps count of the factories that were built, those that were disposed and the sessions that
were opened. However calls fail: there is at most one factory that is not disposed, the one the setup
keeps, no factory is disposed twice, and no session is opened with a schema of another configuration than
that of its factory (`lifeCycle_run`).
-/

set_option autoImplicit false
set_option relaxedAutoImplicit false

namespace SharpArch.Testing

open Foundation.Run Platform.SystemTransactions NHibernate.SessionFactories

variable {Assembly Model Configurer Cache Expose Configuration : Type}

/-- A session factory, told apart by when it was built. -/
structure SessionFactory (Configuration : Type) where
  number : ℕ
  configuration : Configuration

/-- A session that was opened: the number of its factory, and the configuration whose schema was exported
over its connection. -/
structure OpenedSession (Configuration : Type) where
  factory : ℕ
  schema : Option Configuration

/-- What has happened outside. -/
structure World (Configuration : Type) where
  built : List (SessionFactory Configuration) := []
  disposed : List ℕ := []
  sessions : List (OpenedSession Configuration) := []

/-- `TestDatabaseSetup`. -/
structure TestDatabaseSetup (Assembly Configuration : Type) where
  basePath : String
  mappingAssemblies : List Assembly
  configuration : Option Configuration := none
  sessionFactory : Option (SessionFactory Configuration) := none

/-- What a call meets. The generators of an assembly are the instances of its classes that implement
`IAutoPersistenceModelGenerator`; creating one may throw, and so may its `Generate`. -/
structure Environment (Assembly Model Configurer Cache Expose Configuration : Type) where
  generators : Assembly → List (Except Exn Model)
  combine : String → String → String
  fileExists : String → Bool
  customize : NHibernateSessionFactoryBuilder Assembly Model Configurer Cache Expose →
    Except Exn (NHibernateSessionFactoryBuilder Assembly Model Configurer Cache Expose)
  configure : List (Instruction Assembly Model Configurer Cache Expose) → Except Exn Configuration
  buildSessionFactory : Configuration → Except Exn Unit
  openSession : Except Exn Unit
  exportSchema : Option Configuration → Except Exn Unit
  disposeSessionFactory : Except Exn Unit

namespace TestDatabaseSetup

/-- The constructor: the assemblies are made `Distinct`. -/
def create [DecidableEq Assembly] (basePath : Option String) (mappingAssemblies : Option (List Assembly)) :
    Except Exn (TestDatabaseSetup Assembly Configuration) :=
  match basePath, mappingAssemblies with
  | none, _ => .error (.argumentNull "basePath")
  | some _, none => .error (.argumentNull "mappingAssemblies")
  | some basePath, some mappingAssemblies =>
    .ok { basePath := basePath, mappingAssemblies := mappingAssemblies.eraseDups }

def multipleGeneratorsMessage : String :=
  "Found multiple classes implementing IAutoPersistenceModelGenerator. " ++
    "Only one persistence model generator is supported."

def noGeneratorMessage : String :=
  "No classes implementing IAutoPersistenceModelGenerator were found. " ++
    "TestDatabaseSetup requires persistence model generator to create test database."

variable (environment : Environment Assembly Model Configurer Cache Expose Configuration)

def generateAutoPersistenceModel (assemblies : List Assembly) : Except Exn Model :=
  match assemblies.flatMap environment.generators with
  | [] => .error (.invalidOperation noGeneratorMessage)
  | [generated] => generated
  | _ :: _ :: _ => .error (.invalidOperation multipleGeneratorsMessage)

/-- The builder before `Customize`. -/
def builder (setup : TestDatabaseSetup Assembly Configuration) (model : Model) :
    NHibernateSessionFactoryBuilder Assembly Model Configurer Cache Expose :=
  let builder : NHibernateSessionFactoryBuilder Assembly Model Configurer Cache Expose :=
    (({} : NHibernateSessionFactoryBuilder Assembly Model Configurer Cache Expose).step
      (.addMappingAssemblies (some setup.mappingAssemblies))).step (.useAutoPersistenceModel (some model))
  let defaultConfigFilePath := environment.combine setup.basePath defaultNHibernateConfigFileName
  if environment.fileExists defaultConfigFilePath then
    builder.step (.useConfigFile (some defaultConfigFilePath))
  else builder

def getConfiguration (setup : TestDatabaseSetup Assembly Configuration) :
    Except Exn Configuration × TestDatabaseSetup Assembly Configuration :=
  match setup.configuration with
  | some configuration => (.ok configuration, setup)
  | none =>
    match generateAutoPersistenceModel environment setup.mappingAssemblies with
    | .error exception => (.error exception, setup)
    | .ok model =>
      match environment.customize (builder environment setup model) with
      | .error exception => (.error exception, setup)
      | .ok customized =>
        match environment.configure
            (customized.buildConfiguration (environment.fileExists defaultNHibernateConfigFileName)) with
        | .error exception => (.error exception, setup)
        | .ok configuration => (.ok configuration, { setup with configuration := some configuration })

/-- The setup and the world it is in. -/
structure State (Assembly Configuration : Type) where
  setup : TestDatabaseSetup Assembly Configuration
  world : World Configuration

def getSessionFactory (state : State Assembly Configuration) :
    Except Exn (SessionFactory Configuration) × State Assembly Configuration :=
  match state.setup.sessionFactory with
  | some sessionFactory => (.ok sessionFactory, state)
  | none =>
    match getConfiguration environment state.setup with
    | (.error exception, setup) => (.error exception, { state with setup := setup })
    | (.ok configuration, setup) =>
      match environment.buildSessionFactory configuration with
      | .error exception => (.error exception, { state with setup := setup })
      | .ok _ =>
        let sessionFactory : SessionFactory Configuration :=
          { number := state.world.built.length, configuration := configuration }
        (.ok sessionFactory,
          { setup := { setup with sessionFactory := some sessionFactory }
            world := { state.world with built := state.world.built ++ [sessionFactory] } })

/-- A session is opened, with the schema exported over its connection. -/
def World.opened (world : World Configuration) (session : OpenedSession Configuration) :
    World Configuration :=
  { world with sessions := world.sessions ++ [session] }

-- `SchemaExport` is given whatever configuration the setup keeps.
def initializeSession (state : State Assembly Configuration) :
    Except Exn (OpenedSession Configuration) × State Assembly Configuration :=
  match getSessionFactory environment state with
  | (.error exception, after) => (.error exception, after)
  | (.ok sessionFactory, after) =>
    match environment.openSession with
    | .error exception => (.error exception, after)
    | .ok _ =>
      let unexported : OpenedSession Configuration := { factory := sessionFactory.number, schema := none }
      match environment.exportSchema after.setup.configuration with
      | .error exception => (.error exception, { after with world := World.opened after.world unexported })
      | .ok _ =>
        let session := { unexported with schema := after.setup.configuration }
        (.ok session, { after with world := World.opened after.world session })

/-- `CreateStatelessSessionForConnection`, of a connection that may be null. -/
def createStatelessSessionForConnection (hasConnection : Bool) (state : State Assembly Configuration) :
    Except Exn (OpenedSession Configuration) × State Assembly Configuration :=
  if hasConnection then
    match getSessionFactory environment state with
    | (.error exception, after) => (.error exception, after)
    | (.ok sessionFactory, after) =>
      match environment.openSession with
      | .error exception => (.error exception, after)
      | .ok _ =>
        let session : OpenedSession Configuration := { factory := sessionFactory.number, schema := none }
        (.ok session, { after with world := World.opened after.world session })
  else (.error (.argumentNull "connection"), state)

/-- `Shutdown`. -/
def shutdown (sessionFactory : Option (SessionFactory Configuration)) (world : World Configuration) :
    Except Exn Unit × World Configuration :=
  match sessionFactory with
  | none => (.ok (), world)
  | some sessionFactory =>
    match environment.disposeSessionFactory with
    | .error exception => (.error exception, world)
    | .ok _ => (.ok (), { world with disposed := world.disposed ++ [sessionFactory.number] })

/-- `Dispose` keeps the factory and the configuration when disposing the factory throws. -/
def dispose (state : State Assembly Configuration) : Except Exn Unit × State Assembly Configuration :=
  match shutdown environment state.setup.sessionFactory state.world with
  | (.error exception, world) => (.error exception, { state with world := world })
  | (.ok _, world) =>
    (.ok (), ⟨{ state.setup with sessionFactory := none, configuration := none }, world⟩)

/-- A call, in its environment. -/
inductive Call (Assembly Model Configurer Cache Expose Configuration : Type)
  | getConfiguration (environment : Environment Assembly Model Configurer Cache Expose Configuration)
  | getSessionFactory (environment : Environment Assembly Model Configurer Cache Expose Configuration)
  | initializeSession (environment : Environment Assembly Model Configurer Cache Expose Configuration)
  | createStatelessSessionForConnection
      (environment : Environment Assembly Model Configurer Cache Expose Configuration)
      (hasConnection : Bool)
  | dispose (environment : Environment Assembly Model Configurer Cache Expose Configuration)

/-- The state after a call, whether it returned or threw. -/
def step (state : State Assembly Configuration) :
    Call Assembly Model Configurer Cache Expose Configuration → State Assembly Configuration
  | .getConfiguration environment =>
    { state with setup := (TestDatabaseSetup.getConfiguration environment state.setup).2 }
  | .getSessionFactory environment => (TestDatabaseSetup.getSessionFactory environment state).2
  | .initializeSession environment => (TestDatabaseSetup.initializeSession environment state).2
  | .createStatelessSessionForConnection environment hasConnection =>
    (TestDatabaseSetup.createStatelessSessionForConnection environment hasConnection state).2
  | .dispose environment => (TestDatabaseSetup.dispose environment state).2

/-! ### What calls keep -/

/-- How the setup, the factories and the sessions belong together. -/
structure LifeCycle (state : State Assembly Configuration) : Prop where
  configured : ∀ factory, state.setup.sessionFactory = some factory →
    state.setup.configuration = some factory.configuration
  numbered : state.world.built.map SessionFactory.number = List.range state.world.built.length
  kept_mem : ∀ factory, state.setup.sessionFactory = some factory → factory ∈ state.world.built
  kept_not_disposed : ∀ factory, state.setup.sessionFactory = some factory →
    factory.number ∉ state.world.disposed
  others_disposed : ∀ factory ∈ state.world.built,
    state.setup.sessionFactory = some factory ∨ factory.number ∈ state.world.disposed
  disposed_nodup : state.world.disposed.Nodup
  disposed_built : ∀ number ∈ state.world.disposed, number < state.world.built.length
  schemas : ∀ session ∈ state.world.sessions, ∃ factory ∈ state.world.built,
    factory.number = session.factory ∧
      ∀ schema, session.schema = some schema → schema = factory.configuration

variable {state : State Assembly Configuration}

/-- What a setup has it keeps, and it has a configuration once it has answered it. -/
theorem getConfiguration_spec (setup : TestDatabaseSetup Assembly Configuration) :
    (getConfiguration environment setup).2.sessionFactory = setup.sessionFactory ∧
      (∀ kept, setup.configuration = some kept →
        (getConfiguration environment setup).2.configuration = some kept) ∧
      ∀ answered, (getConfiguration environment setup).1 = .ok answered →
        (getConfiguration environment setup).2.configuration = some answered := by
  unfold getConfiguration
  cases hconfiguration : setup.configuration with
  | some configuration => simp [hconfiguration]
  | none =>
    simp only [reduceCtorEq, false_implies, implies_true, true_and]
    cases generateAutoPersistenceModel environment setup.mappingAssemblies with
    | error exception => simp
    | ok model =>
      cases hcustomize : environment.customize (builder environment setup model) with
      | error exception => simp [hcustomize]
      | ok customized =>
        cases hconfigure : environment.configure
            (customized.buildConfiguration (environment.fileExists defaultNHibernateConfigFileName)) with
        | error exception => simp [hcustomize, hconfigure]
        | ok configuration => simp [hcustomize, hconfigure]

/-- A configuration that is kept or made leaves everything else as it was. -/
theorem LifeCycle.getConfiguration (hlife : LifeCycle state) :
    LifeCycle { state with setup := (getConfiguration environment state.setup).2 } := by
  obtain ⟨hfactory, hkept, -⟩ := getConfiguration_spec environment state.setup
  constructor
  · intro factory hsome
    exact hkept _ (hlife.configured factory (hfactory ▸ hsome))
  · exact hlife.numbered
  · exact fun factory hsome ↦ hlife.kept_mem factory (hfactory ▸ hsome)
  · exact fun factory hsome ↦ hlife.kept_not_disposed factory (hfactory ▸ hsome)
  · exact fun factory hmem ↦ hfactory ▸ hlife.others_disposed factory hmem
  · exact hlife.disposed_nodup
  · exact hlife.disposed_built
  · exact hlife.schemas

/-- A factory that is built when the setup keeps none. -/
theorem LifeCycle.build (hlife : LifeCycle state) (hnone : state.setup.sessionFactory = none)
    {configuration : Configuration} (hconfiguration : state.setup.configuration = some configuration) :
    let built : SessionFactory Configuration := ⟨state.world.built.length, configuration⟩
    LifeCycle
      { setup := { state.setup with sessionFactory := some built }
        world := { state.world with built := state.world.built ++ [built] } } := by
  intro built
  constructor
  · rintro factory ⟨⟩
    exact hconfiguration
  · simp only [List.map_append, hlife.numbered, List.length_append, List.length_singleton,
      List.range_succ]
    rfl
  · rintro factory ⟨⟩
    exact List.mem_append_right _ (List.mem_singleton_self _)
  · rintro factory ⟨⟩ hdisposed
    exact absurd (hlife.disposed_built _ hdisposed) (Nat.lt_irrefl _)
  · intro factory hmem
    rcases List.mem_append.mp hmem with hold | hnew
    · rcases hlife.others_disposed factory hold with hkept | hdisposed
      · exact absurd (hnone.symm.trans hkept) (by simp)
      · exact Or.inr hdisposed
    · exact Or.inl (congrArg some (List.mem_singleton.mp hnew).symm)
  · exact hlife.disposed_nodup
  · intro number hnumber
    have hlt := hlife.disposed_built number hnumber
    simp only [List.length_append, List.length_singleton]
    omega
  · intro session hsession
    obtain ⟨factory, hmem, hspec⟩ := hlife.schemas session hsession
    exact ⟨factory, List.mem_append_left _ hmem, hspec⟩

/-- Asking for the factory keeps the life cycle, and the factory that is answered is the one that is kept. -/
theorem LifeCycle.getSessionFactory (hlife : LifeCycle state) :
    LifeCycle (getSessionFactory environment state).2 ∧
      ∀ factory, (getSessionFactory environment state).1 = .ok factory →
        (getSessionFactory environment state).2.setup.sessionFactory = some factory := by
  unfold TestDatabaseSetup.getSessionFactory
  cases hfactory : state.setup.sessionFactory with
  | some factory => simp [hlife, hfactory]
  | none =>
    have hafter := hlife.getConfiguration environment
    obtain ⟨hsame, -, hanswered⟩ := getConfiguration_spec environment state.setup
    rcases hconfiguration : TestDatabaseSetup.getConfiguration environment state.setup with
      ⟨exception | configuration, after⟩
    · rw [hconfiguration] at hafter
      simp [hafter]
    · rw [hconfiguration] at hafter hsame hanswered
      cases hbuild : environment.buildSessionFactory configuration with
      | error exception => simp [hbuild, hafter]
      | ok built =>
        simp only [hbuild]
        exact ⟨hafter.build (hsame.trans hfactory) (hanswered configuration rfl), by simp⟩

/-- A session that is opened over the factory that is kept, without a schema or with that of the
configuration. -/
theorem LifeCycle.opened (hlife : LifeCycle state) {factory : SessionFactory Configuration}
    (hkept : state.setup.sessionFactory = some factory) {schema : Option Configuration}
    (hschema : ∀ exported, schema = some exported → exported = factory.configuration) :
    LifeCycle { state with world := World.opened state.world ⟨factory.number, schema⟩ } := by
  constructor
  · exact hlife.configured
  · exact hlife.numbered
  · exact hlife.kept_mem
  · exact hlife.kept_not_disposed
  · exact hlife.others_disposed
  · exact hlife.disposed_nodup
  · exact hlife.disposed_built
  · intro session hsession
    rcases List.mem_append.mp hsession with hold | hnew
    · exact hlife.schemas session hold
    · obtain rfl := List.mem_singleton.mp hnew
      exact ⟨factory, hlife.kept_mem factory hkept, rfl, hschema⟩

/-- A session that is initialised has the schema of the configuration of its factory: the configuration
that is exported is never null. -/
theorem LifeCycle.initializeSession (hlife : LifeCycle state) :
    LifeCycle (initializeSession environment state).2 ∧
      ∀ session, (initializeSession environment state).1 = .ok session → session.schema ≠ none := by
  obtain ⟨hafter, hanswered⟩ := hlife.getSessionFactory environment
  unfold TestDatabaseSetup.initializeSession
  rcases hfactory : TestDatabaseSetup.getSessionFactory environment state with ⟨exception | factory, after⟩
  · rw [hfactory] at hafter
    simp [hafter]
  · rw [hfactory] at hafter hanswered
    have hlife' : LifeCycle after := hafter
    have hkept : after.setup.sessionFactory = some factory := hanswered factory rfl
    have hconfigured : after.setup.configuration = some factory.configuration :=
      hlife'.configured factory hkept
    cases environment.openSession with
    | error exception => simp [hlife']
    | ok opened =>
      simp only [hconfigured]
      cases environment.exportSchema (some factory.configuration) with
      | error exception => exact ⟨hlife'.opened hkept (by simp), by simp⟩
      | ok exported =>
        have hschema : ∀ exported, some factory.configuration = some exported →
            exported = factory.configuration :=
          fun exported hsome ↦ (Option.some.inj hsome).symm
        refine ⟨hlife'.opened hkept hschema, ?_⟩
        rintro session ⟨⟩
        simp

theorem LifeCycle.createStatelessSessionForConnection (hlife : LifeCycle state) (hasConnection : Bool) :
    LifeCycle (createStatelessSessionForConnection environment hasConnection state).2 := by
  obtain ⟨hafter, hanswered⟩ := hlife.getSessionFactory environment
  unfold TestDatabaseSetup.createStatelessSessionForConnection
  split_ifs
  · rcases hfactory : TestDatabaseSetup.getSessionFactory environment state with
      ⟨exception | factory, after⟩
    · rw [hfactory] at hafter
      exact hafter
    · rw [hfactory] at hafter hanswered
      cases environment.openSession with
      | error exception => exact hafter
      | ok opened => exact hafter.opened (hanswered factory rfl) (by simp)
  · exact hlife

/-- Nothing is kept any more, when what was kept has been disposed. -/
theorem LifeCycle.drop (hlife : LifeCycle state) {disposed : List ℕ}
    (hdisposed : disposed = state.world.disposed ++
      state.setup.sessionFactory.toList.map SessionFactory.number) :
    LifeCycle
      { setup := { state.setup with sessionFactory := none, configuration := none }
        world := { state.world with disposed := disposed } } := by
  subst hdisposed
  constructor
  · exact nofun
  · exact hlife.numbered
  · exact nofun
  · exact nofun
  · intro factory hmem
    refine Or.inr (List.mem_append.mpr ?_)
    rcases hlife.others_disposed factory hmem with hsome | hold
    · exact Or.inr (by simp [hsome])
    · exact Or.inl hold
  · refine List.nodup_append.mpr ⟨hlife.disposed_nodup, ?_, ?_⟩
    · cases state.setup.sessionFactory <;> simp
    · rintro number hnumber last hlast rfl
      obtain ⟨kept, hkept, rfl⟩ := List.mem_map.mp hlast
      exact hlife.kept_not_disposed kept (Option.mem_toList.mp hkept) hnumber
  · intro number hnumber
    rcases List.mem_append.mp hnumber with hold | hlast
    · exact hlife.disposed_built number hold
    · obtain ⟨kept, hkept, rfl⟩ := List.mem_map.mp hlast
      have hmem : kept.number ∈ state.world.built.map SessionFactory.number :=
        List.mem_map_of_mem (hlife.kept_mem kept (Option.mem_toList.mp hkept))
      rw [hlife.numbered] at hmem
      exact List.mem_range.mp hmem
  · exact hlife.schemas

/-- Disposing drops the factory that is kept, which was not disposed before, or throws. -/
theorem LifeCycle.dispose (hlife : LifeCycle state) : LifeCycle (dispose environment state).2 := by
  unfold TestDatabaseSetup.dispose shutdown
  cases hkept : state.setup.sessionFactory with
  | none => exact hlife.drop (by simp [hkept])
  | some kept =>
    cases environment.disposeSessionFactory with
    | error exception => exact hlife
    | ok disposed => exact hlife.drop (by simp [hkept])

theorem LifeCycle.step (hlife : LifeCycle state)
    (call : Call Assembly Model Configurer Cache Expose Configuration) : LifeCycle (step state call) := by
  cases call with
  | getConfiguration environment => exact hlife.getConfiguration environment
  | getSessionFactory environment => exact (hlife.getSessionFactory environment).1
  | initializeSession environment => exact (hlife.initializeSession environment).1
  | createStatelessSessionForConnection environment hasConnection =>
    exact hlife.createStatelessSessionForConnection environment hasConnection
  | dispose environment => exact hlife.dispose environment

/-- A setup that was created has neither a configuration nor a factory yet. -/
theorem LifeCycle.create [DecidableEq Assembly] {basePath : Option String}
    {mappingAssemblies : Option (List Assembly)} {setup : TestDatabaseSetup Assembly Configuration}
    (hcreate : create basePath mappingAssemblies = .ok setup) :
    LifeCycle (⟨setup, {}⟩ : State Assembly Configuration) := by
  cases basePath with
  | none => simp [TestDatabaseSetup.create] at hcreate
  | some basePath =>
    cases mappingAssemblies with
    | none => simp [TestDatabaseSetup.create] at hcreate
    | some mappingAssemblies =>
      obtain rfl := Except.ok.inj hcreate
      constructor <;> simp

/-- After every sequence of calls of a setup, whatever they meet and however they fail: the setup, the
factories and the sessions belong together, and at most one factory is not disposed. -/
theorem lifeCycle_run [DecidableEq Assembly] {basePath : Option String}
    {mappingAssemblies : Option (List Assembly)} {setup : TestDatabaseSetup Assembly Configuration}
    (hcreate : create basePath mappingAssemblies = .ok setup)
    (calls : List (Call Assembly Model Configurer Cache Expose Configuration)) :
    let state := run TestDatabaseSetup.step (⟨setup, {}⟩ : State Assembly Configuration) calls
    LifeCycle state ∧
      ∀ first ∈ state.world.built, ∀ second ∈ state.world.built,
        first.number ∉ state.world.disposed → second.number ∉ state.world.disposed → first = second := by
  intro state
  have hlife : LifeCycle state :=
    run_invariant (fun _ call hlife ↦ hlife.step call) (LifeCycle.create hcreate) calls
  refine ⟨hlife, fun first hfirst second hsecond hfirst' hsecond' ↦ ?_⟩
  have hkept := (hlife.others_disposed first hfirst).resolve_right hfirst'
  have hkept' := (hlife.others_disposed second hsecond).resolve_right hsecond'
  exact Option.some.inj (hkept.symm.trans hkept')

/-- Everything goes well, with one generator in the only assembly. -/
def fine : Environment Unit Unit Unit Unit Unit Unit where
  generators _ := [.ok ()]
  combine basePath file := basePath ++ "/" ++ file
  fileExists _ := false
  customize := .ok
  configure _ := .ok ()
  buildSessionFactory _ := .ok ()
  openSession := .ok ()
  exportSchema _ := .ok ()
  disposeSessionFactory := .ok ()

/-- The first attempt to dispose the setup fails. -/
theorem lifeCycle_run_reused :
    let state := run TestDatabaseSetup.step (⟨⟨"bin", [()], none, none⟩, {}⟩ : State Unit Unit)
      [.initializeSession fine, .dispose { fine with disposeSessionFactory := .error .disposeFailed },
        .getSessionFactory fine, .dispose fine, .getSessionFactory fine]
    state.world.built.map SessionFactory.number = [0, 1] ∧ state.world.disposed = [0] ∧
      LifeCycle state ∧
        ∀ first ∈ state.world.built, ∀ second ∈ state.world.built,
          first.number ∉ state.world.disposed → second.number ∉ state.world.disposed → first = second :=
  ⟨by decide, by decide,
    lifeCycle_run (show create (some "bin") (some [()]) = .ok ⟨"bin", [()], none, none⟩ from rfl)
      [.initializeSession fine, .dispose { fine with disposeSessionFactory := .error .disposeFailed },
        .getSessionFactory fine, .dispose fine, .getSessionFactory fine]⟩

end TestDatabaseSetup

end SharpArch.Testing

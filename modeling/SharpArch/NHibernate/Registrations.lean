import SharpArch.Foundation.ServiceContainer
import SharpArch.Platform.SystemTransactions

/-!
# The registrations of the services of NHibernate

`AddNHibernateWithSingleDatabase` registers the session factory as a singleton, the session, the
stateless session and the transaction manager as scoped, and the interfaces of the transaction manager as
transient; its documentation calls the manager a singleton and the stateless session transient. The
container is a parameter, which does as containers are documented to. Configuring the session factory asks
it for none of these services, and a configurator opens a new session of the factory it is given
(`Configures`, `Opens`); both may throw, as may every other call.

`Sound` relates what the container keeps and has to dispose to what has been made, and stays when a session
factory, a session or a transaction manager is made and kept.
-/

set_option autoImplicit false
set_option relaxedAutoImplicit false

namespace SharpArch.NHibernate.Registrations

open Foundation Foundation.ServiceContainer Platform.SystemTransactions

/-- The services that are registered. -/
inductive Service
  | sessionFactory
  | session
  | statelessSession
  | transactionManager
  | iNHibernateTransactionManager
  | iTransactionManager
  deriving DecidableEq

inductive SessionKind
  | stateful
  | stateless
  deriving DecidableEq

def SessionKind.service : SessionKind → Service
  | .stateful => .session
  | .stateless => .statelessSession

@[simp] theorem SessionKind.service_ne_sessionFactory (kind : SessionKind) :
    kind.service ≠ .sessionFactory := by
  cases kind <;> decide

@[simp] theorem SessionKind.service_ne_transactionManager (kind : SessionKind) :
    kind.service ≠ .transactionManager := by
  cases kind <;> decide

theorem SessionKind.service_inj {kind other : SessionKind} (hsame : kind.service = other.service) :
    kind = other := by
  cases kind <;> cases other <;> first | rfl | cases hsame

/-- The services that implement `IDisposable`. -/
def isDisposable : Service → Bool
  | .sessionFactory | .session | .statelessSession => true
  | .transactionManager | .iNHibernateTransactionManager | .iTransactionManager => false

/-- A session that was opened, with the number of its factory. -/
structure Session where
  kind : SessionKind
  factory : ℕ
  deriving DecidableEq

/-- How the calls end that the registrations make, and those of `Dispose`. The logger is asked for and
written to when a service is made. -/
structure Environment where
  getLogger : Service → Except Exn Unit := fun _ ↦ .ok ()
  debug : Service → Except Exn Unit := fun _ ↦ .ok ()
  information : Except Exn Unit := .ok ()
  buildSessionFactory : Except Exn Unit := .ok ()
  openSession : SessionKind → Except Exn Unit := fun _ ↦ .ok ()
  dispose : Service × ℕ → Except Exn Unit := fun _ ↦ .ok ()

/-- What has been made, by number, and what `Dispose` has been called on. A transaction manager has a
session. -/
structure World where
  environment : Environment := {}
  sessionFactories : ℕ := 0
  sessions : List Session := []
  transactionManagers : List ℕ := []
  disposed : List (Service × ℕ) := []

namespace World

variable (world : World)

def built : World := { world with sessionFactories := world.sessionFactories + 1 }

def opened (kind : SessionKind) (factory : ℕ) : World :=
  { world with sessions := world.sessions ++ [⟨kind, factory⟩] }

def managed (session : ℕ) : World :=
  { world with transactionManagers := world.transactionManagers ++ [session] }

end World

/-- `Dispose` of an instance. -/
def release (entry : Service × ℕ) : EStateM Exn World Unit := fun world ↦
  match world.environment.dispose entry with
  | .ok _ => .ok () { world with disposed := world.disposed ++ [entry] }
  | .error exception => .error exception { world with disposed := world.disposed ++ [entry] }

variable {Held : Type}

abbrev ServiceProvider (Held : Type) := Service → EStateM Exn (Held × World) ℕ

/-- Configures the options of a new session of a factory, and returns the session. -/
abbrev SessionConfigurator (Held : Type) := ℕ → ServiceProvider Held → EStateM Exn (Held × World) ℕ

/-! ### The factories of the services -/

/-- A call that may throw. -/
def meets (outcome : Environment → Except Exn Unit) : EStateM Exn (Held × World) Unit := fun state ↦
  match outcome state.2.environment with
  | .ok _ => .ok () state
  | .error exception => .error exception state

def buildSessionFactory : EStateM Exn (Held × World) ℕ := do
  meets (·.buildSessionFactory)
  modifyGet fun state ↦ (state.2.sessionFactories, (state.1, state.2.built))

/-- `OpenSession` and `OpenStatelessSession`. -/
def openSession (kind : SessionKind) (sessionFactory : ℕ) : EStateM Exn (Held × World) ℕ := do
  meets (·.openSession kind)
  modifyGet fun state ↦ (state.2.sessions.length, (state.1, state.2.opened kind sessionFactory))

def sessionFactory (configureSessionFactory : ServiceProvider Held → EStateM Exn (Held × World) Unit) :
    Registration (Held × World) Service ℕ Exn where
  lifetime := .singleton
  factory sp := do
    meets (·.getLogger .sessionFactory)
    meets (·.debug .sessionFactory)
    configureSessionFactory sp
    let sessionFactory ← buildSessionFactory
    meets (·.information)
    return sessionFactory

/-- The session that is returned by the configurator, if there is one. -/
def newSession (kind : SessionKind) (sessionConfigurator : Option (SessionConfigurator Held))
    (sessionFactory : ℕ) (sp : ServiceProvider Held) : EStateM Exn (Held × World) ℕ :=
  match sessionConfigurator with
  | none => openSession kind sessionFactory
  | some configurator => configurator sessionFactory sp

/-- A session or a stateless one. -/
def session (kind : SessionKind) (sessionConfigurator : Option (SessionConfigurator Held)) :
    Registration (Held × World) Service ℕ Exn where
  lifetime := .scoped
  factory sp := do
    let sessionFactory ← sp .sessionFactory
    let session ← newSession kind sessionConfigurator sessionFactory sp
    meets (·.getLogger kind.service)
    meets (·.debug kind.service)
    return session

/-- The constructor is given the session of the scope. -/
def transactionManager : Registration (Held × World) Service ℕ Exn where
  lifetime := .scoped
  factory sp := do
    let session ← sp .session
    modifyGet fun state ↦ (state.2.transactionManagers.length, (state.1, state.2.managed session))

/-- An interface of the transaction manager. -/
def transactionManagerInterface : Registration (Held × World) Service ℕ Exn where
  lifetime := .transient
  factory sp := sp .transactionManager

def addNHibernateWithSingleDatabase
    (services : Option (ServiceCollection (Held × World) Service ℕ Exn))
    (configureSessionFactory : Option (ServiceProvider Held → EStateM Exn (Held × World) Unit))
    (sessionConfigurator statelessSessionConfigurator : Option (SessionConfigurator Held)) :
    Except Exn (ServiceCollection (Held × World) Service ℕ Exn) :=
  match services, configureSessionFactory with
  | none, _ => .error (.argumentNull "services")
  | some _, none => .error (.argumentNull "configureSessionFactory")
  | some services, some configureSessionFactory =>
    .ok (services ++ [(.sessionFactory, sessionFactory configureSessionFactory),
      (.session, session .stateful sessionConfigurator),
      (.statelessSession, session .stateless statelessSessionConfigurator),
      (.transactionManager, transactionManager),
      (.iNHibernateTransactionManager, transactionManagerInterface),
      (.iTransactionManager, transactionManagerInterface)])

/-! ### What the factories do -/

variable {container : ServiceContainer Held World Service ℕ Exn}

variable (container) in
/-- Configuring the session factory asks for none of the services that are registered here, but may
throw. -/
def Configures (configureSessionFactory : ServiceProvider Held → EStateM Exn (Held × World) Unit) : Prop :=
  ∀ sp, container.LeavesAlone (configureSessionFactory sp) ()

variable (container) in
/-- A configurator opens a new session of the factory that it is given options of and asks for none of the
services, but may throw. -/
def Opens (kind : SessionKind) (configurator : SessionConfigurator Held) : Prop :=
  ∀ sessionFactory sp, container.Makes (·.opened kind sessionFactory) (·.sessions.length)
    (configurator sessionFactory sp)

theorem leavesAlone_meets (outcome : Environment → Except Exn Unit) :
    container.LeavesAlone (meets outcome) () := by
  intro state
  refine ⟨state.1, rfl, ?_⟩
  simp only [meets, EStateM.run]
  cases outcome state.2.environment with
  | ok _ => exact Or.inl rfl
  | error exception => exact Or.inr ⟨exception, rfl⟩

theorem makes_modifyGet (change : World → World) (made : World → ℕ) :
    container.Makes change made (modifyGet fun state ↦ (made state.2, (state.1, change state.2))) :=
  fun state ↦ ⟨state.1, rfl, Or.inl rfl⟩

theorem makes_openSession (kind : SessionKind) (sessionFactory : ℕ) :
    container.Makes (·.opened kind sessionFactory) (·.sessions.length) (openSession kind sessionFactory) :=
  (leavesAlone_meets _).bind_makes (makes_modifyGet _ _)

theorem makes_sessionFactory
    {configureSessionFactory : ServiceProvider Held → EStateM Exn (Held × World) Unit}
    (hconfigures : Configures container configureSessionFactory) (sp : ServiceProvider Held) :
    container.Makes World.built (·.sessionFactories)
      ((sessionFactory configureSessionFactory).factory sp) := by
  refine (leavesAlone_meets _).bind_makes ((leavesAlone_meets _).bind_makes
    ((hconfigures sp).bind_makes (Makes.bind ?_ fun answered ↦ ?_)))
  · exact (leavesAlone_meets _).bind_makes (makes_modifyGet _ _)
  · exact (leavesAlone_meets _).bind (leavesAlone_pure answered)

/-- What a session is made by when its factory is there. -/
theorem makes_session {kind : SessionKind} {sessionConfigurator : Option (SessionConfigurator Held)}
    (hopens : ∀ configurator ∈ sessionConfigurator, Opens container kind configurator)
    (sessionFactory : ℕ) (sp : ServiceProvider Held) :
    container.Makes (·.opened kind sessionFactory) (·.sessions.length) (do
      let session ← newSession kind sessionConfigurator sessionFactory sp
      meets (·.getLogger kind.service)
      meets (·.debug kind.service)
      return session) := by
  refine Makes.bind ?_ ?_
  · cases sessionConfigurator with
    | none => exact makes_openSession kind sessionFactory
    | some configurator => exact hopens configurator rfl sessionFactory sp
  · intro answered
    exact (leavesAlone_meets _).bind ((leavesAlone_meets _).bind (leavesAlone_pure answered))

/-! ### What is kept for a scope -/

/-- What a container holds and what there is in the world. -/
abbrev Seen := Holdings Service ℕ × World

/-- The sessions are of the factory that is kept, each is kept for one scope at most, a transaction manager
works over the session of its scope, what can be disposed and is kept is captured, once, and what has been
disposed was captured by a scope that is disposed, and disposed once. -/
structure Sound (holdings : Holdings Service ℕ) (world : World) : Prop where
  factory_of_session : ∀ session ∈ world.sessions,
    holdings.kept (none, .sessionFactory) = some session.factory
  scope_of_factory : ∀ scope number, holdings.kept (scope, .sessionFactory) = some number → scope = none
  kind_of_session : ∀ scope kind number, holdings.kept (scope, SessionKind.service kind) = some number →
    ∃ session, world.sessions[number]? = some session ∧ session.kind = kind
  scope_of_session : ∀ scope other kind number,
    holdings.kept (scope, SessionKind.service kind) = some number →
      holdings.kept (other, SessionKind.service kind) = some number → scope = other
  session_of_transactionManager : ∀ scope number, holdings.kept (scope, .transactionManager) = some number →
    ∃ session, world.transactionManagers[number]? = some session ∧
      holdings.kept (scope, .session) = some session
  mem_captured_iff : ∀ scope service number, (service, number) ∈ holdings.captured scope ↔
    isDisposable service = true ∧ holdings.kept (scope, service) = some number
  captured_nodup : ∀ scope, (holdings.captured scope).Nodup
  captured_of_disposed : ∀ entry ∈ world.disposed,
    ∃ scope, holdings.isDisposed scope = true ∧ entry ∈ holdings.captured scope
  disposed_nodup : world.disposed.Nodup

/-- Nothing that was kept, captured by a disposed scope or made is lost, nothing is disposed, and a session
that is kept now and was not is a new one. -/
structure Progress (before after : Seen) : Prop where
  kept : ∀ owner number, before.1.kept owner = some number → after.1.kept owner = some number
  new_session : ∀ scope kind number, after.1.kept (scope, SessionKind.service kind) = some number →
    before.1.kept (scope, SessionKind.service kind) = some number ∨ before.2.sessions.length ≤ number
  captured : ∀ scope, before.1.isDisposed scope = true → after.1.captured scope = before.1.captured scope
  isDisposed : after.1.isDisposed = before.1.isDisposed
  disposed : after.2.disposed = before.2.disposed
  sessions : before.2.sessions <+: after.2.sessions
  transactionManagers : before.2.transactionManagers <+: after.2.transactionManagers

variable {holdings : Holdings Service ℕ} {world : World} {scope : Scope}

theorem Progress.refl (seen : Seen) : Progress seen seen :=
  ⟨fun _ _ h ↦ h, fun _ _ _ h ↦ Or.inl h, fun _ _ ↦ rfl, rfl, rfl, List.prefix_rfl, List.prefix_rfl⟩

theorem Progress.trans {first second third : Seen} (hfirst : Progress first second)
    (hsecond : Progress second third) : Progress first third where
  kept owner number hkept := hsecond.kept owner number (hfirst.kept owner number hkept)
  new_session scope kind number hkept := by
    rcases hsecond.new_session scope kind number hkept with hold | hnew
    · exact hfirst.new_session scope kind number hold
    · exact Or.inr (Nat.le_trans hfirst.sessions.length_le hnew)
  captured scope hdisposed :=
    (hsecond.captured scope (hfirst.isDisposed ▸ hdisposed)).trans (hfirst.captured scope hdisposed)
  isDisposed := hsecond.isDisposed.trans hfirst.isDisposed
  disposed := hsecond.disposed.trans hfirst.disposed
  sessions := hfirst.sessions.trans hsecond.sessions
  transactionManagers := hfirst.transactionManagers.trans hsecond.transactionManagers

theorem Sound.built (hsound : Sound holdings world) : Sound holdings world.built :=
  { hsound with }

theorem Progress.built : Progress (holdings, world) (holdings, world.built) :=
  { Progress.refl (holdings, world) with }

/-- A session of the factory that is kept, which nobody keeps yet. -/
theorem Sound.opened (hsound : Sound holdings world) {factory : ℕ}
    (hfactory : holdings.kept (none, .sessionFactory) = some factory) (kind : SessionKind) :
    Sound holdings (world.opened kind factory) :=
  { hsound with
    factory_of_session := by
      intro session hsession
      rcases List.mem_append.mp hsession with hold | hnew
      · exact hsound.factory_of_session session hold
      · rw [List.mem_singleton.mp hnew]
        exact hfactory
    kind_of_session := by
      intro scope kind number hkept
      obtain ⟨session, hsession, hkind⟩ := hsound.kind_of_session scope kind number hkept
      refine ⟨session, ?_, hkind⟩
      exact (List.getElem?_append_left (List.getElem?_eq_some_iff.mp hsession).1).trans hsession }

theorem Progress.opened (kind : SessionKind) (factory : ℕ) :
    Progress (holdings, world) (holdings, world.opened kind factory) :=
  { Progress.refl (holdings, world) with sessions := List.prefix_append _ _ }

theorem Sound.managed (hsound : Sound holdings world) (session : ℕ) :
    Sound holdings (world.managed session) :=
  { hsound with
    session_of_transactionManager := by
      intro scope number hkept
      obtain ⟨held, hheld, hsession⟩ := hsound.session_of_transactionManager scope number hkept
      refine ⟨held, ?_, hsession⟩
      exact (List.getElem?_append_left (List.getElem?_eq_some_iff.mp hheld).1).trans hheld }

theorem Progress.managed (session : ℕ) :
    Progress (holdings, world) (holdings, world.managed session) :=
  { Progress.refl (holdings, world) with transactionManagers := List.prefix_append _ _ }

/-! ### An instance is taken -/

section Take

variable {lifetime : Lifetime} {service : Service} {number : ℕ}

/-- The holdings after an instance of a service has been made, which is kept. -/
theorem kept_take (hlifetime : lifetime ≠ .transient) :
    (holdings.take lifetime (isDisposable service) scope service number).kept =
      Function.update holdings.kept (lifetime.keeper scope, service) (some number) := by
  match lifetime, hlifetime with
  | .singleton, _ => rfl
  | .scoped, _ => rfl
  | .transient, htransient => exact absurd rfl htransient

theorem kept_take_self (hlifetime : lifetime ≠ .transient) :
    (holdings.take lifetime (isDisposable service) scope service number).kept
      (lifetime.keeper scope, service) = some number := by
  rw [kept_take hlifetime, Function.update_self]

theorem kept_take_of_ne {owner : Scope × Service} (howner : owner ≠ (lifetime.keeper scope, service)) :
    (holdings.take lifetime (isDisposable service) scope service number).kept owner =
      holdings.kept owner := by
  by_cases hlifetime : lifetime = .transient
  · rw [hlifetime]
    rfl
  · rw [kept_take hlifetime, Function.update_of_ne howner]

theorem captured_take (other : Scope) :
    (holdings.take lifetime (isDisposable service) scope service number).captured other =
      holdings.captured other ++
        if isDisposable service = true ∧ other = lifetime.keeper scope then [(service, number)] else [] := by
  unfold Holdings.take
  cases isDisposable service with
  | false => simp
  | true =>
    by_cases hsame : other = lifetime.keeper scope
    · simp [hsame]
    · simp [hsame]

/-- What was kept stays when nothing was kept for the one that takes. -/
theorem kept_take_of_some (hnone : holdings.kept (lifetime.keeper scope, service) = none)
    {owner : Scope × Service} {held : ℕ} (hkept : holdings.kept owner = some held) :
    (holdings.take lifetime (isDisposable service) scope service number).kept owner = some held := by
  rw [kept_take_of_ne ?_, hkept]
  rintro rfl
  rw [hnone] at hkept
  cases hkept

theorem Sound.mem_captured_take (hsound : Sound holdings world) (hlifetime : lifetime ≠ .transient)
    (hnone : holdings.kept (lifetime.keeper scope, service) = none) (other : Scope) (entry : Service × ℕ) :
    entry ∈ (holdings.take lifetime (isDisposable service) scope service number).captured other ↔
      isDisposable entry.1 = true ∧
        (holdings.take lifetime (isDisposable service) scope service number).kept (other, entry.1) =
          some entry.2 := by
  obtain ⟨wanted, asked⟩ := entry
  have hold := hsound.mem_captured_iff other wanted asked
  dsimp only at hold ⊢
  rw [captured_take, List.mem_append, hold]
  by_cases hsame : (other, wanted) = (lifetime.keeper scope, service)
  · obtain ⟨rfl, rfl⟩ := Prod.mk.inj hsame
    rw [kept_take_self hlifetime, hnone]
    cases isDisposable wanted <;> simp [eq_comm]
  · rw [kept_take_of_ne hsame, or_iff_left]
    intro hnew
    split_ifs at hnew with hkeeper
    · have hentry := List.mem_singleton.mp hnew
      exact hsame (Prod.ext hkeeper.2 (Prod.mk.inj hentry).1)
    · exact List.not_mem_nil hnew

theorem Sound.captured_take_nodup (hsound : Sound holdings world)
    (hnone : holdings.kept (lifetime.keeper scope, service) = none) (other : Scope) :
    ((holdings.take lifetime (isDisposable service) scope service number).captured other).Nodup := by
  rw [captured_take]
  split_ifs with hkeeper
  · refine (hsound.captured_nodup other).append (List.nodup_singleton _) ?_
    rw [List.disjoint_singleton, hkeeper.2, hsound.mem_captured_iff]
    rintro ⟨-, hkept⟩
    rw [hnone] at hkept
    cases hkept
  · rw [List.append_nil]
    exact hsound.captured_nodup other

theorem Progress.take {seen : Seen} (hprogress : Progress seen (holdings, world))
    (hnone : holdings.kept (lifetime.keeper scope, service) = none)
    (hopen : holdings.isDisposed (lifetime.keeper scope) = false)
    (hnew : ∀ kind, SessionKind.service kind = service → seen.2.sessions.length ≤ number) :
    Progress seen (holdings.take lifetime (isDisposable service) scope service number, world) :=
  { hprogress with
    kept := fun owner held hkept ↦ kept_take_of_some hnone (hprogress.kept owner held hkept)
    new_session := by
      intro other kind held hkept
      by_cases hsame : (other, kind.service) = (lifetime.keeper scope, service)
      · obtain ⟨rfl, hkind⟩ := Prod.mk.inj hsame
        rw [hkind] at hkept ⊢
        by_cases hlifetime : lifetime = .transient
        · subst hlifetime
          exact absurd (hnone.symm.trans hkept) (by simp)
        · rw [kept_take_self hlifetime] at hkept
          exact Or.inr (Option.some.inj hkept ▸ hnew kind hkind)
      · rw [kept_take_of_ne hsame] at hkept
        exact hprogress.new_session other kind held hkept
    captured := by
      intro other hdisposed
      have hsame := hprogress.captured other hdisposed
      rw [← hprogress.isDisposed] at hdisposed
      have hother : other ≠ lifetime.keeper scope := by
        rintro rfl
        exact absurd (hopen.symm.trans hdisposed) (by simp)
      simp only [captured_take, hother, and_false, if_false, List.append_nil]
      exact hsame }

theorem Sound.captured_take_of_disposed (hsound : Sound holdings world) (lifetime : Lifetime)
    (scope : Scope) (service : Service) (number : ℕ) :
    ∀ entry ∈ world.disposed, ∃ other,
      (holdings.take lifetime (isDisposable service) scope service number).isDisposed other = true ∧
        entry ∈ (holdings.take lifetime (isDisposable service) scope service number).captured other := by
  intro entry hentry
  obtain ⟨other, hdisposed, hcaptured⟩ := hsound.captured_of_disposed entry hentry
  refine ⟨other, hdisposed, ?_⟩
  rw [captured_take]
  exact List.mem_append_left _ hcaptured

end Take

/-- The first factory is taken: there are no sessions yet. -/
theorem Sound.takeFactory (hsound : Sound holdings world)
    (hnone : holdings.kept (Lifetime.singleton.keeper scope, .sessionFactory) = none) (number : ℕ) :
    Sound (holdings.take .singleton (isDisposable .sessionFactory) scope .sessionFactory number)
      world where
  factory_of_session session hsession := by
    have hfactory := hsound.factory_of_session session hsession
    exact absurd (hnone.symm.trans hfactory) (by simp)
  scope_of_factory other held hkept := by
    by_cases hother : other = none
    · exact hother
    · rw [kept_take_of_ne (by simp [Lifetime.keeper, hother])] at hkept
      exact hsound.scope_of_factory other held hkept
  kind_of_session other kind held hkept := by
    rw [kept_take_of_ne (by simp)] at hkept
    exact hsound.kind_of_session other kind held hkept
  scope_of_session other another kind held hkept hkept' := by
    rw [kept_take_of_ne (by simp)] at hkept hkept'
    exact hsound.scope_of_session other another kind held hkept hkept'
  session_of_transactionManager other held hkept := by
    rw [kept_take_of_ne (by simp)] at hkept
    obtain ⟨session, hmade, hsession⟩ := hsound.session_of_transactionManager other held hkept
    exact ⟨session, hmade, kept_take_of_some hnone hsession⟩
  mem_captured_iff other service held :=
    hsound.mem_captured_take (nofun : Lifetime.singleton ≠ .transient) hnone other (service, held)
  captured_nodup := hsound.captured_take_nodup hnone
  captured_of_disposed := hsound.captured_take_of_disposed _ _ _ _
  disposed_nodup := hsound.disposed_nodup

/-- A scope takes the session that was opened last, when it has none of the kind. -/
theorem Sound.takeSession (hsound : Sound holdings world) {factory : ℕ}
    (hfactory : holdings.kept (none, .sessionFactory) = some factory) {kind : SessionKind}
    (hnone : holdings.kept (Lifetime.scoped.keeper scope, kind.service) = none) :
    Sound (holdings.take .scoped (isDisposable kind.service) scope kind.service world.sessions.length)
      (world.opened kind factory) where
  factory_of_session session hsession :=
    kept_take_of_some hnone ((hsound.opened hfactory kind).factory_of_session session hsession)
  scope_of_factory other held hkept := by
    rw [kept_take_of_ne (by simp [kind.service_ne_sessionFactory.symm])] at hkept
    exact hsound.scope_of_factory other held hkept
  kind_of_session other otherKind held hkept := by
    by_cases hsame : (other, otherKind.service) = (scope, kind.service)
    · obtain ⟨rfl, hkind⟩ := Prod.mk.inj hsame
      obtain rfl := SessionKind.service_inj hkind
      have hheld := (kept_take_self (nofun : Lifetime.scoped ≠ .transient)).symm.trans hkept
      rw [← Option.some.inj hheld]
      exact ⟨_, List.getElem?_concat_length, rfl⟩
    · rw [kept_take_of_ne hsame] at hkept
      exact (hsound.opened hfactory kind).kind_of_session other otherKind held hkept
  scope_of_session other another otherKind held hkept hkept' := by
    -- What was kept before has a smaller number.
    have hold : ∀ owner, holdings.kept (owner, otherKind.service) ≠ some world.sessions.length := by
      intro owner howner
      obtain ⟨session, hsession, -⟩ := hsound.kind_of_session owner otherKind _ howner
      exact absurd (List.getElem?_eq_some_iff.mp hsession).1 (Nat.lt_irrefl _)
    have hself : ∀ owner, (owner, otherKind.service) = (scope, kind.service) →
        (holdings.take .scoped (isDisposable kind.service) scope kind.service
          world.sessions.length).kept (owner, otherKind.service) = some world.sessions.length := by
      intro owner howner
      rw [howner]
      exact kept_take_self (nofun : Lifetime.scoped ≠ .transient)
    by_cases hfirst : (other, otherKind.service) = (scope, kind.service)
    · by_cases hsecond : (another, otherKind.service) = (scope, kind.service)
      · exact (Prod.mk.inj hfirst).1.trans (Prod.mk.inj hsecond).1.symm
      · have hheld := Option.some.inj ((hself other hfirst).symm.trans hkept)
        rw [kept_take_of_ne hsecond, ← hheld] at hkept'
        exact absurd hkept' (hold another)
    · rw [kept_take_of_ne hfirst] at hkept
      by_cases hsecond : (another, otherKind.service) = (scope, kind.service)
      · have hheld := Option.some.inj ((hself another hsecond).symm.trans hkept')
        rw [← hheld] at hkept
        exact absurd hkept (hold other)
      · rw [kept_take_of_ne hsecond] at hkept'
        exact hsound.scope_of_session other another otherKind held hkept hkept'
  session_of_transactionManager other held hkept := by
    rw [kept_take_of_ne (by simp [kind.service_ne_transactionManager.symm])] at hkept
    obtain ⟨session, hmade, hsession⟩ := hsound.session_of_transactionManager other held hkept
    exact ⟨session, hmade, kept_take_of_some hnone hsession⟩
  mem_captured_iff other service held :=
    hsound.mem_captured_take (nofun : Lifetime.scoped ≠ .transient) hnone other (service, held)
  captured_nodup := hsound.captured_take_nodup hnone
  captured_of_disposed := hsound.captured_take_of_disposed _ _ _ _
  disposed_nodup := hsound.disposed_nodup

/-- A scope takes a transaction manager over its session, when it has none. -/
theorem Sound.takeManager (hsound : Sound holdings world) {session : ℕ}
    (hsession : holdings.kept (scope, .session) = some session)
    (hnone : holdings.kept (Lifetime.scoped.keeper scope, .transactionManager) = none) :
    Sound (holdings.take .scoped (isDisposable .transactionManager) scope .transactionManager
      world.transactionManagers.length) (world.managed session) where
  factory_of_session session hsession :=
    kept_take_of_some hnone (hsound.factory_of_session session hsession)
  scope_of_factory other held hkept := by
    rw [kept_take_of_ne (by simp)] at hkept
    exact hsound.scope_of_factory other held hkept
  kind_of_session other kind held hkept := by
    rw [kept_take_of_ne (by simp)] at hkept
    exact hsound.kind_of_session other kind held hkept
  scope_of_session other another kind held hkept hkept' := by
    rw [kept_take_of_ne (by simp)] at hkept hkept'
    exact hsound.scope_of_session other another kind held hkept hkept'
  session_of_transactionManager other held hkept := by
    by_cases hsame : other = scope
    · subst hsame
      have hheld := (kept_take_self (nofun : Lifetime.scoped ≠ .transient)).symm.trans hkept
      rw [← Option.some.inj hheld]
      exact ⟨session, List.getElem?_concat_length, kept_take_of_some hnone hsession⟩
    · rw [kept_take_of_ne (by simp [Lifetime.keeper, hsame])] at hkept
      obtain ⟨owned, hmade, howned⟩ :=
        (hsound.managed session).session_of_transactionManager other held hkept
      exact ⟨owned, hmade, kept_take_of_some hnone howned⟩
  mem_captured_iff other service held :=
    hsound.mem_captured_take (nofun : Lifetime.scoped ≠ .transient) hnone other (service, held)
  captured_nodup := hsound.captured_take_nodup hnone
  captured_of_disposed := hsound.captured_take_of_disposed _ _ _ _
  disposed_nodup := hsound.disposed_nodup

end SharpArch.NHibernate.Registrations

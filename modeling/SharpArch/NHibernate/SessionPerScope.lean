import SharpArch.Foundation.Run
import SharpArch.NHibernate.ServiceResolution

/-!
# One session for each scope

The services of NHibernate are resolved in any scopes, and scopes and the container are disposed, in any
order and whatever throws: services of one scope work over one session of a kind, two scopes never share
one, all sessions are of one factory, and a session is disposed with its scope and once, unless disposing
the scope threw (`perScope_run`). A session that was opened when its creation threw afterwards is disposed
by nobody.
-/

set_option autoImplicit false
set_option relaxedAutoImplicit false

namespace SharpArch.NHibernate.Registrations

open Foundation Foundation.ServiceContainer Foundation.Run Platform.SystemTransactions

variable {Held : Type} {container : ServiceContainer Held World Service ℕ Exn}
  {holdings : Holdings Service ℕ} {world : World} {scope : Scope}

/-! ### Calls in any order -/

/-- A service that was resolved in a scope, with the number of the instance. -/
structure Resolution where
  scope : Scope
  service : Service
  number : ℕ
  deriving DecidableEq

/-- The state of the container and the world, and what has happened: what was resolved, which sessions
were opened by a call that threw, on which scopes `Dispose` was called, and where it threw. -/
structure System (Held : Type) where
  held : Held
  world : World := {}
  resolved : List Resolution := []
  lost : List ℕ := []
  disposing : List Scope := []
  threw : List Scope := []

/-- What the container is asked, and how the calls end that are made meanwhile. -/
inductive Call
  | getRequiredService (scope : Scope) (service : Service) (environment : Environment)
  | dispose (scope : Scope) (environment : Environment)

variable (container) in
def new : System Held := { held := container.new }

variable (container) in
def step (system : System Held) : Call → System Held
  | .getRequiredService scope service environment =>
    match (container.getRequiredService scope service).run
        (system.held, { system.world with environment }) with
    | .ok number state =>
      { system with
        held := state.1
        world := state.2
        resolved := system.resolved ++ [⟨scope, service, number⟩] }
    | .error _ state =>
      { system with
        held := state.1
        world := state.2
        lost := system.lost ++ List.range' system.world.sessions.length
          (state.2.sessions.length - system.world.sessions.length) }
  | .dispose scope environment =>
    match (container.dispose scope).run (system.held, { system.world with environment }) with
    | .ok _ state =>
      { system with
        held := state.1
        world := state.2
        disposing := system.disposing ++ [scope] }
    | .error _ state =>
      { system with
        held := state.1
        world := state.2
        disposing := system.disposing ++ [scope]
        threw := system.threw ++ [scope] }

/-- Every service but the session factory works over a session that was opened. Services of one scope work
over one session of a kind, and over another than those of any other scope. All sessions are of one factory.
A session that a service works over is disposed with its scope, unless disposing the scope threw. Every
other session was opened by a call that threw, and is not disposed. Nothing is disposed twice. -/
structure PerScope (system : System Held) : Prop where
  has_session : ∀ resolution ∈ system.resolved, resolution.service ≠ .sessionFactory →
    ∃ number session, system.world.sessions[number]? = some session ∧
      system.world.sessionOf resolution.service resolution.number = some (number, session.kind)
  same_session_iff : ∀ first ∈ system.resolved, ∀ second ∈ system.resolved, ∀ session kind other otherKind,
    system.world.sessionOf first.service first.number = some (session, kind) →
      system.world.sessionOf second.service second.number = some (other, otherKind) →
        (session = other ↔ first.scope = second.scope ∧ kind = otherKind)
  one_factory : ∃ factory, (∀ session ∈ system.world.sessions, session.factory = factory) ∧
    ∀ resolution ∈ system.resolved, resolution.service = .sessionFactory → resolution.number = factory
  disposed : ∀ resolution ∈ system.resolved, ∀ session kind,
    system.world.sessionOf resolution.service resolution.number = some (session, kind) →
      ((kind.service, session) ∈ system.world.disposed → resolution.scope ∈ system.disposing) ∧
        (resolution.scope ∈ system.disposing → resolution.scope ∉ system.threw →
          (kind.service, session) ∈ system.world.disposed)
  resolved_or_lost : ∀ number session, system.world.sessions[number]? = some session →
    (∃ resolution ∈ system.resolved,
      system.world.sessionOf resolution.service resolution.number = some (number, session.kind)) ∨
        number ∈ system.lost ∧ (session.kind.service, number) ∉ system.world.disposed
  disposed_once : system.world.disposed.Nodup

/-! ### The invariant -/

variable (container) in
/-- What was resolved is kept, every other session is lost and kept by nobody, and `Dispose` of a scope
disposes what it has captured unless it throws. -/
structure Consistent (system : System Held) : Prop where
  sound : Sound (container.holdings system.held) system.world
  resolved_kept : ∀ resolution ∈ system.resolved,
    (container.holdings system.held).kept (keptFor resolution.scope resolution.service) =
      some resolution.number
  resolved_or_lost : ∀ number session, system.world.sessions[number]? = some session →
    (∃ resolution ∈ system.resolved,
      system.world.sessionOf resolution.service resolution.number = some (number, session.kind)) ∨
        number ∈ system.lost
  lost_lt : ∀ number ∈ system.lost, number < system.world.sessions.length
  lost_unkept : ∀ number ∈ system.lost, ∀ scope kind,
    (container.holdings system.held).kept (scope, SessionKind.service kind) ≠ some number
  isDisposed_iff : ∀ scope,
    (container.holdings system.held).isDisposed scope = true ↔ scope ∈ system.disposing
  disposed_of_disposing : ∀ scope ∈ system.disposing, scope ∉ system.threw →
    ∀ entry ∈ (container.holdings system.held).captured scope, entry ∈ system.world.disposed

variable {system : System Held}

theorem Sound.setEnvironment (hsound : Sound holdings world) (environment : Environment) :
    Sound holdings { world with environment } :=
  { hsound with }

/-- A transaction manager stays over its session. -/
theorem World.sessionOf_of_prefix {after : World} {service : Service} {number session : ℕ}
    {kind : SessionKind} (hbefore : world.transactionManagers <+: after.transactionManagers)
    (hsession : world.sessionOf service number = some (session, kind)) :
    after.sessionOf service number = some (session, kind) := by
  have hmanager {owned : ℕ} (howned : world.transactionManagers[number]? = some owned) :
      after.transactionManagers[number]? = some owned := by
    obtain ⟨more, hmore⟩ := hbefore
    rw [← hmore, List.getElem?_append_left (List.getElem?_eq_some_iff.mp howned).1, howned]
  cases service with
  | sessionFactory | session | statelessSession => exact hsession
  | transactionManager | iNHibernateTransactionManager | iTransactionManager =>
    obtain ⟨owned, howned, hpair⟩ := Option.map_eq_some_iff.mp hsession
    exact Option.map_eq_some_iff.mpr ⟨owned, hmanager howned, hpair⟩

/-- What is there after asking stays as it was before for what had been resolved and lost. -/
theorem Consistent.of_asked (hconsistent : Consistent container system) {environment : Environment}
    {service : Service} {after : Held × World} {answer : Option ℕ}
    (hasked : Asked container scope service (system.held, { system.world with environment }) after answer)
    {resolved : List Resolution} {lost : List ℕ}
    (hresolved : ∀ resolution ∈ resolved, resolution ∈ system.resolved ∨
      resolution.scope = scope ∧ resolution.service = service ∧ resolution.number ∈ answer)
    (hkeeps : ∀ resolution ∈ system.resolved, resolution ∈ resolved)
    (hlost : ∀ number ∈ lost, number ∈ system.lost ∨ answer = none ∧
      system.world.sessions.length ≤ number ∧ number < after.2.sessions.length)
    (hstays : ∀ number ∈ system.lost, number ∈ lost)
    (hnew : ∀ number session, system.world.sessions.length ≤ number →
      after.2.sessions[number]? = some session →
      (∃ resolution ∈ resolved,
        after.2.sessionOf resolution.service resolution.number = some (number, session.kind)) ∨
          number ∈ lost) :
    Consistent container
      { system with held := after.1, world := after.2, resolved := resolved, lost := lost } where
  sound := hasked.sound
  resolved_kept resolution hmem := by
    rcases hresolved resolution hmem with hold | ⟨rfl, rfl, hnumber⟩
    · exact hasked.progress.kept _ _ (hconsistent.resolved_kept resolution hold)
    · exact hasked.kept _ hnumber
  resolved_or_lost number session hsession := by
    by_cases hlength : system.world.sessions.length ≤ number
    · exact hnew number session hlength hsession
    · have hbefore : system.world.sessions[number]? = some session := by
        obtain ⟨more, hmore⟩ := hasked.progress.sessions
        rw [← hsession, ← hmore]
        exact (List.getElem?_append_left (Nat.not_le.mp hlength)).symm
      rcases hconsistent.resolved_or_lost number session hbefore with ⟨resolution, hmem, howned⟩ | hmem
      · exact Or.inl ⟨resolution, hkeeps resolution hmem,
          World.sessionOf_of_prefix hasked.progress.transactionManagers howned⟩
      · exact Or.inr (hstays number hmem)
  lost_lt number hmem := by
    rcases hlost number hmem with hold | ⟨-, -, hlt⟩
    · exact Nat.lt_of_lt_of_le (hconsistent.lost_lt number hold) hasked.progress.sessions.length_le
    · exact hlt
  lost_unkept number hmem other kind hkept := by
    rcases hlost number hmem with hold | ⟨hnone, hlength, -⟩
    · rcases hasked.progress.new_session other kind number hkept with hbefore | hlength
      · exact hconsistent.lost_unkept number hold other kind hbefore
      · exact Nat.not_lt.mpr hlength (hconsistent.lost_lt number hold)
    · exact Nat.not_lt.mpr hlength (hasked.unkept hnone other kind number hkept)
  isDisposed_iff other := by
    rw [hasked.progress.isDisposed]
    exact hconsistent.isDisposed_iff other
  disposed_of_disposing other hdisposing hthrew entry hentry := by
    have hdisposed := (hconsistent.isDisposed_iff other).mpr hdisposing
    rw [hasked.progress.captured other hdisposed] at hentry
    rw [hasked.progress.disposed]
    exact hconsistent.disposed_of_disposing other hdisposing hthrew entry hentry

/-- Two scopes capture nothing in common. -/
theorem Sound.scope_of_captured (hsound : Sound holdings world) {other : Scope} {entry : Service × ℕ}
    (hentry : entry ∈ holdings.captured scope) (hother : entry ∈ holdings.captured other) :
    scope = other := by
  obtain ⟨service, number⟩ := entry
  obtain ⟨hdisposable, hkept⟩ := (hsound.mem_captured_iff scope service number).mp hentry
  obtain ⟨-, hkept'⟩ := (hsound.mem_captured_iff other service number).mp hother
  cases service with
  | sessionFactory =>
    rw [hsound.scope_of_factory scope number hkept, hsound.scope_of_factory other number hkept']
  | session => exact hsound.scope_of_session scope other .stateful number hkept hkept'
  | statelessSession => exact hsound.scope_of_session scope other .stateless number hkept hkept'
  | transactionManager | iNHibernateTransactionManager | iTransactionManager => cases hdisposable

theorem isDisposed_close (other : Scope) :
    (holdings.close scope).isDisposed other = true ↔ other = scope ∨ holdings.isDisposed other = true := by
  by_cases hsame : other = scope
  · simp [Holdings.close, hsame]
  · simp [Holdings.close, hsame]

/-- A scope is closed, and some of what it captured is disposed. -/
theorem Sound.close (hsound : Sound holdings world) (hopen : holdings.isDisposed scope = false)
    {entries : List (Service × ℕ)} (hentries : entries.Sublist (holdings.captured scope).reverse) :
    Sound (holdings.close scope) { world with disposed := world.disposed ++ entries } :=
  { hsound with
    captured_of_disposed := by
      intro entry hentry
      rcases List.mem_append.mp hentry with hold | hnew
      · obtain ⟨other, hdisposed, hcaptured⟩ := hsound.captured_of_disposed entry hold
        exact ⟨other, (isDisposed_close other).mpr (Or.inr hdisposed), hcaptured⟩
      · exact ⟨scope, (isDisposed_close scope).mpr (Or.inl rfl),
          List.mem_reverse.mp (hentries.subset hnew)⟩
    disposed_nodup := by
      have hnodup := hentries.nodup (List.nodup_reverse.mpr (hsound.captured_nodup scope))
      refine hsound.disposed_nodup.append hnodup ?_
      intro entry hold hnew
      obtain ⟨other, hdisposed, hcaptured⟩ := hsound.captured_of_disposed entry hold
      have hsame := hsound.scope_of_captured hcaptured (List.mem_reverse.mp (hentries.subset hnew))
      rw [hsame, hopen] at hdisposed
      cases hdisposed }

/-- `Dispose` is called on each of the entries, whether it throws or not. -/
theorem released_release (entries : List (Service × ℕ)) (world : World) :
    released release entries world = { world with disposed := world.disposed ++ entries } := by
  unfold released
  induction entries generalizing world with
  | nil => simp
  | cons entry rest ih =>
    rw [List.foldl_cons, ih]
    cases hdispose : world.environment.dispose entry with
    | ok _ => simp [release, EStateM.run, hdispose]
    | error exception => simp [release, EStateM.run, hdispose]

theorem Consistent.of_close (hconsistent : Consistent container system) {environment : Environment}
    (hopen : (container.holdings system.held).isDisposed scope = false) {entries : List (Service × ℕ)}
    (hentries : entries.Sublist ((container.holdings system.held).captured scope).reverse) {held : Held}
    (hheld : container.holdings held = (container.holdings system.held).close scope) {threw : List Scope}
    (hthrew : ∀ other ∈ system.threw, other ∈ threw)
    (hall : scope ∈ threw ∨ entries = ((container.holdings system.held).captured scope).reverse) :
    Consistent container
      { system with
        held := held
        world := released release entries { system.world with environment }
        disposing := system.disposing ++ [scope]
        threw := threw } := by
  rw [released_release]
  exact {
    sound := by
      rw [hheld]
      exact (hconsistent.sound.setEnvironment environment).close hopen hentries
    resolved_kept := by
      rw [hheld]
      exact hconsistent.resolved_kept
    resolved_or_lost := hconsistent.resolved_or_lost
    lost_lt := hconsistent.lost_lt
    lost_unkept := by
      rw [hheld]
      exact hconsistent.lost_unkept
    isDisposed_iff := by
      intro other
      rw [hheld, isDisposed_close, hconsistent.isDisposed_iff, List.mem_append, List.mem_singleton,
        or_comm]
    disposed_of_disposing := by
      intro other hdisposing hunthrown entry hentry
      rw [hheld] at hentry
      refine List.mem_append.mpr ?_
      rcases List.mem_append.mp hdisposing with hold | hnew
      · refine Or.inl (hconsistent.disposed_of_disposing other hold ?_ entry hentry)
        exact fun hmem ↦ hunthrown (hthrew other hmem)
      · obtain rfl := List.mem_singleton.mp hnew
        rcases hall with hmem | hentries
        · exact absurd hmem hunthrown
        · rw [hentries]
          exact Or.inr (List.mem_reverse.mpr hentry) }

section Step

variable {configureSessionFactory : ServiceProvider Held → EStateM Exn (Held × World) Unit}
  {sessionConfigurator statelessSessionConfigurator : Option (SessionConfigurator Held)}
  {before services : ServiceCollection (Held × World) Service ℕ Exn}

theorem consistent_new (hcontainer : container.Documented services isDisposable .objectDisposed release) :
    Consistent container (new container) := by
  have hempty : container.holdings (new container).held = Holdings.empty := hcontainer.holdings_new
  constructor
  · rw [hempty]
    constructor <;> simp [new, Holdings.empty]
  · exact nofun
  · exact nofun
  · exact nofun
  · exact nofun
  · intro scope
    rw [hempty]
    simp [new, Holdings.empty]
  · exact nofun

/-- The first disposal of a scope closes it, and every other one does nothing. -/
theorem Consistent.dispose (hconsistent : Consistent container system)
    (hcontainer : container.Documented services isDisposable .objectDisposed release) (scope : Scope)
    (environment : Environment) :
    Consistent container (step container system (.dispose scope environment)) := by
  cases hdisposed : (container.holdings system.held).isDisposed scope with
  | true =>
    have hmem := (hconsistent.isDisposed_iff scope).mp hdisposed
    simp only [step, hcontainer.dispose_again scope (system.held, { system.world with environment })
      hdisposed]
    exact { hconsistent with
      sound := hconsistent.sound.setEnvironment environment
      isDisposed_iff := by
        intro other
        rw [hconsistent.isDisposed_iff, List.mem_append, List.mem_singleton]
        exact (or_iff_left_of_imp fun hsame ↦ hsame ▸ hmem).symm
      disposed_of_disposing := by
        intro other hdisposing
        refine hconsistent.disposed_of_disposing other ?_
        rcases List.mem_append.mp hdisposing with hold | hnew
        · exact hold
        · exact List.mem_singleton.mp hnew ▸ hmem }
  | false =>
    obtain ⟨entries, held, hentries, hheld, ⟨hrun, hall⟩ | ⟨error, hrun⟩⟩ :=
      hcontainer.dispose_first scope (system.held, { system.world with environment }) hdisposed
    · simp only [step, hrun]
      exact hconsistent.of_close hdisposed hentries hheld (fun _ hmem ↦ hmem) (Or.inr hall)
    · simp only [step, hrun]
      refine hconsistent.of_close hdisposed hentries hheld (fun _ hmem ↦ List.mem_append_left _ hmem) ?_
      exact Or.inl (List.mem_append_right _ (List.mem_singleton_self scope))

variable (hcontainer : container.Documented services isDisposable .objectDisposed release)
  (hservices : addNHibernateWithSingleDatabase (some before) (some configureSessionFactory)
    sessionConfigurator statelessSessionConfigurator = .ok services)
  (hconfigures : Configures container configureSessionFactory)
  (hopens : ∀ kind, ∀ configurator ∈
    SessionKind.configurator kind sessionConfigurator statelessSessionConfigurator,
      Opens container kind configurator)

include hcontainer hservices hconfigures hopens

theorem Consistent.getRequiredService (hconsistent : Consistent container system) (scope : Scope)
    (service : Service) (environment : Environment) :
    Consistent container (step container system (.getRequiredService scope service environment)) := by
  have hends : Ends container scope service (system.held, { system.world with environment })
      ((container.getRequiredService scope service).run (system.held, { system.world with environment })) :=
    ends_getRequiredService hcontainer hservices hconfigures hopens scope service
      (hconsistent.sound.setEnvironment environment)
  cases hrun : (container.getRequiredService scope service).run
      (system.held, { system.world with environment }) with
  | ok number after =>
    rw [hrun] at hends
    simp only [step, hrun]
    refine hconsistent.of_asked hends ?_ (fun _ hmem ↦ List.mem_append_left _ hmem)
      (fun _ hmem ↦ Or.inl hmem) (fun _ hmem ↦ hmem) ?_
    · intro resolution hmem
      rcases List.mem_append.mp hmem with hold | hnew
      · exact Or.inl hold
      · rw [List.mem_singleton.mp hnew]
        exact Or.inr ⟨rfl, rfl, rfl⟩
    · intro opened session hlength hsession
      exact Or.inl ⟨_, List.mem_append_right _ (List.mem_singleton_self _),
        hends.opened number rfl opened session hlength hsession⟩
  | error thrown after =>
    rw [hrun] at hends
    simp only [step, hrun]
    have hmem_range (number : ℕ) : number ∈ List.range' system.world.sessions.length
        (after.2.sessions.length - system.world.sessions.length) ↔
          system.world.sessions.length ≤ number ∧ number < after.2.sessions.length := by
      have hlength : system.world.sessions.length ≤ after.2.sessions.length :=
        hends.progress.sessions.length_le
      rw [List.mem_range'_1, Nat.add_sub_cancel' hlength]
    refine hconsistent.of_asked hends (fun _ hmem ↦ Or.inl hmem) (fun _ hmem ↦ hmem) ?_
      (fun _ hmem ↦ List.mem_append_left _ hmem) ?_
    · intro number hmem
      rcases List.mem_append.mp hmem with hold | hnew
      · exact Or.inl hold
      · exact Or.inr ⟨rfl, (hmem_range number).mp hnew⟩
    · intro number session hlength hsession
      refine Or.inr (List.mem_append_right _ ((hmem_range number).mpr ⟨hlength, ?_⟩))
      exact (List.getElem?_eq_some_iff.mp hsession).1

theorem Consistent.step (hconsistent : Consistent container system) (call : Call) :
    Consistent container (step container system call) := by
  cases call with
  | getRequiredService scope service environment =>
    exact hconsistent.getRequiredService hcontainer hservices hconfigures hopens scope service environment
  | dispose scope environment => exact hconsistent.dispose hcontainer scope environment

end Step

/-- The session of a service that was resolved is kept for the scope. -/
theorem Consistent.kept_of_sessionOf (hconsistent : Consistent container system) {resolution : Resolution}
    (hmem : resolution ∈ system.resolved) {session : ℕ} {kind : SessionKind}
    (hsession : system.world.sessionOf resolution.service resolution.number = some (session, kind)) :
    (container.holdings system.held).kept (resolution.scope, kind.service) = some session := by
  have hkept := hconsistent.resolved_kept resolution hmem
  obtain ⟨scope, service, number⟩ := resolution
  cases service with
  | sessionFactory => cases hsession
  | session | statelessSession =>
    obtain ⟨rfl, rfl⟩ := Prod.mk.inj (Option.some.inj hsession)
    exact hkept
  | transactionManager | iNHibernateTransactionManager | iTransactionManager =>
    obtain ⟨owned, howned, hheld⟩ := hconsistent.sound.session_of_transactionManager scope number hkept
    rw [World.sessionOf, howned] at hsession
    obtain ⟨rfl, rfl⟩ := Prod.mk.inj (Option.some.inj hsession)
    exact hheld

theorem isDisposable_service (kind : SessionKind) : isDisposable kind.service = true := by
  cases kind <;> rfl

/-- A session that is disposed is kept for a scope that is disposed. -/
theorem Consistent.disposing_of_disposed (hconsistent : Consistent container system) {kind : SessionKind}
    {session : ℕ} (hdisposed : (kind.service, session) ∈ system.world.disposed) :
    ∃ scope ∈ system.disposing,
      (container.holdings system.held).kept (scope, kind.service) = some session := by
  obtain ⟨scope, hscope, hcaptured⟩ := hconsistent.sound.captured_of_disposed _ hdisposed
  exact ⟨scope, (hconsistent.isDisposed_iff scope).mp hscope,
    ((hconsistent.sound.mem_captured_iff scope _ session).mp hcaptured).2⟩

/-- A service that was resolved and is not the session factory works over a session. -/
theorem Consistent.exists_sessionOf (hconsistent : Consistent container system) {resolution : Resolution}
    (hmem : resolution ∈ system.resolved) (hservice : resolution.service ≠ .sessionFactory) :
    ∃ number kind,
      system.world.sessionOf resolution.service resolution.number = some (number, kind) := by
  have hkept := hconsistent.resolved_kept resolution hmem
  obtain ⟨scope, service, number⟩ := resolution
  cases service with
  | sessionFactory => exact absurd rfl hservice
  | session => exact ⟨number, .stateful, rfl⟩
  | statelessSession => exact ⟨number, .stateless, rfl⟩
  | transactionManager | iNHibernateTransactionManager | iTransactionManager =>
    obtain ⟨owned, howned, -⟩ := hconsistent.sound.session_of_transactionManager scope number hkept
    exact ⟨owned, .stateful, by rw [World.sessionOf, howned]; rfl⟩

theorem Consistent.perScope (hconsistent : Consistent container system) : PerScope system where
  has_session resolution hmem hservice := by
    obtain ⟨number, kind, hsession⟩ := hconsistent.exists_sessionOf hmem hservice
    obtain ⟨session, hmade, rfl⟩ :=
      hconsistent.sound.kind_of_session _ _ _ (hconsistent.kept_of_sessionOf hmem hsession)
    exact ⟨number, session, hmade, hsession⟩
  same_session_iff first hfirst second hsecond session kind other otherKind hsession hother := by
    have hkept := hconsistent.kept_of_sessionOf hfirst hsession
    have hkept' := hconsistent.kept_of_sessionOf hsecond hother
    constructor
    · rintro rfl
      obtain ⟨made, hmade, hkind⟩ := hconsistent.sound.kind_of_session _ _ _ hkept
      obtain ⟨made', hmade', hkind'⟩ := hconsistent.sound.kind_of_session _ _ _ hkept'
      have hsame : kind = otherKind := by
        rw [← hkind, ← hkind', Option.some.inj (hmade.symm.trans hmade')]
      subst hsame
      exact ⟨hconsistent.sound.scope_of_session _ _ kind session hkept hkept', rfl⟩
    · rintro ⟨hscope, rfl⟩
      rw [hscope, hkept'] at hkept
      exact (Option.some.inj hkept).symm
  one_factory := by
    have hresolved : ∀ resolution ∈ system.resolved, resolution.service = .sessionFactory →
        (container.holdings system.held).kept (none, .sessionFactory) = some resolution.number := by
      intro resolution hmem hservice
      have hkept := hconsistent.resolved_kept resolution hmem
      rwa [hservice] at hkept
    cases hfactory : (container.holdings system.held).kept (none, .sessionFactory) with
    | none =>
      refine ⟨0, fun session hsession ↦ ?_, fun resolution hmem hservice ↦ ?_⟩
      · exact absurd (hfactory.symm.trans (hconsistent.sound.factory_of_session session hsession)) nofun
      · exact absurd (hfactory.symm.trans (hresolved resolution hmem hservice)) nofun
    | some factory =>
      refine ⟨factory, fun session hsession ↦ ?_, fun resolution hmem hservice ↦ ?_⟩
      · exact Option.some.inj ((hconsistent.sound.factory_of_session session hsession).symm.trans hfactory)
      · exact Option.some.inj ((hresolved resolution hmem hservice).symm.trans hfactory)
  disposed resolution hmem session kind hsession := by
    have hkept := hconsistent.kept_of_sessionOf hmem hsession
    constructor
    · intro hdisposed
      obtain ⟨scope, hscope, hheld⟩ := hconsistent.disposing_of_disposed hdisposed
      rwa [hconsistent.sound.scope_of_session _ _ kind session hkept hheld]
    · intro hdisposing hthrew
      refine hconsistent.disposed_of_disposing _ hdisposing hthrew _ ?_
      exact (hconsistent.sound.mem_captured_iff _ _ session).mpr ⟨isDisposable_service kind, hkept⟩
  resolved_or_lost number session hsession := by
    refine (hconsistent.resolved_or_lost number session hsession).imp_right fun hlost ↦ ⟨hlost, ?_⟩
    intro hdisposed
    obtain ⟨scope, -, hkept⟩ := hconsistent.disposing_of_disposed hdisposed
    exact hconsistent.lost_unkept number hlost scope session.kind hkept
  disposed_once := hconsistent.sound.disposed_nodup

/-- Services of any kind are resolved in any scopes and scopes are disposed, in any order and whatever
throws, in a container that does as documented, with configurators that open sessions. -/
theorem perScope_run {before services : ServiceCollection (Held × World) Service ℕ Exn}
    {configureSessionFactory : ServiceProvider Held → EStateM Exn (Held × World) Unit}
    {sessionConfigurator statelessSessionConfigurator : Option (SessionConfigurator Held)}
    (hservices : addNHibernateWithSingleDatabase (some before) (some configureSessionFactory)
      sessionConfigurator statelessSessionConfigurator = .ok services)
    (hcontainer : container.Documented services isDisposable .objectDisposed release)
    (hconfigures : Configures container configureSessionFactory)
    (hsession : ∀ configurator ∈ sessionConfigurator, Opens container .stateful configurator)
    (hstateless : ∀ configurator ∈ statelessSessionConfigurator, Opens container .stateless configurator)
    (calls : List Call) : PerScope (run (step container) (new container) calls) := by
  have hopens : ∀ kind, ∀ configurator ∈
      SessionKind.configurator kind sessionConfigurator statelessSessionConfigurator,
        Opens container kind configurator := by
    intro kind
    cases kind with
    | stateful => exact hsession
    | stateless => exact hstateless
  have hconsistent : Consistent container (run (step container) (new container) calls) :=
    run_invariant (fun _ call hbefore ↦ hbefore.step hcontainer hservices hconfigures hopens call)
      (consistent_new hcontainer) calls
  exact hconsistent.perScope

section Requests

/-- Sessions are opened with options. -/
def requestServices : ServiceCollection (Holdings Service ℕ × World) Service ℕ Exn :=
  [(.sessionFactory, sessionFactory fun _ ↦ pure ()),
    (.session, session .stateful (some fun sessionFactory _ ↦ openSession .stateful sessionFactory)),
    (.statelessSession, session .stateless none), (.transactionManager, transactionManager),
    (.iNHibernateTransactionManager, transactionManagerInterface),
    (.iTransactionManager, transactionManagerInterface)]

theorem requestServices_ok :
    addNHibernateWithSingleDatabase (some []) (some fun _ ↦ pure ())
      (some fun sessionFactory _ ↦ openSession .stateful sessionFactory) none = .ok requestServices :=
  rfl

theorem asksBelow_requestServices : AsksBelow requestServices rank := by
  intro service registration hregistration provider other hsame
  rw [registrationOf_addNHibernateWithSingleDatabase requestServices_ok] at hregistration
  obtain rfl := Option.some.inj hregistration
  cases service with
  | sessionFactory => rfl
  | session =>
    change (provider .sessionFactory >>= _) = (other .sessionFactory >>= _)
    rw [hsame .sessionFactory (Nat.lt_succ_self _)]
    rfl
  | statelessSession =>
    change (provider .sessionFactory >>= _) = (other .sessionFactory >>= _)
    rw [hsame .sessionFactory (Nat.lt_succ_self _)]
    rfl
  | transactionManager =>
    change (provider .session >>= _) = (other .session >>= _)
    rw [hsame .session (Nat.lt_succ_self _)]
  | iNHibernateTransactionManager | iTransactionManager =>
    exact hsame .transactionManager (Nat.lt_succ_self _)

def requestContainer : ServiceContainer (Holdings Service ℕ) World Service ℕ Exn :=
  keeping requestServices isDisposable .objectDisposed (.invalidOperation "No service is registered.")
    release 3

def requestCalls : List Call :=
  [.getRequiredService (some 0) .iTransactionManager {}, .getRequiredService (some 0) .session {},
    .getRequiredService (some 0) .statelessSession {},
    .getRequiredService (some 1) .session { debug := fun _ ↦ .error .thrownByAction },
    .dispose (some 0) { dispose := fun _ ↦ .error .disposeFailed }, .dispose (some 1) {}, .dispose none {}]

/-- A request whose logger throws loses a session, and one is left when disposing the other throws. -/
theorem perScope_run_requests :
    PerScope (run (step requestContainer) (new requestContainer) requestCalls) ∧
      (run (step requestContainer) (new requestContainer) requestCalls).world.disposed =
        [(.statelessSession, 1), (.sessionFactory, 0)] ∧
      (run (step requestContainer) (new requestContainer) requestCalls).lost = [2] := by
  refine ⟨perScope_run requestServices_ok ?_ ?_ ?_ nofun requestCalls, by decide, by decide⟩
  · refine documented_keeping isDisposable _ _ asksBelow_requestServices fun service ↦ ?_
    cases service <;> decide
  · exact fun _ ↦ leavesAlone_pure ()
  · rintro _ ⟨⟩ sessionFactory _
    exact makes_openSession .stateful sessionFactory

end Requests

end SharpArch.NHibernate.Registrations

import SharpArch.NHibernate.Registrations

/-!
# A scope is asked for a service

What there is after a scope of the container has been asked for one of the services of NHibernate
(`Asked`): what was sound stays sound, and a session that was opened meanwhile is the one of the service
that is answered, or nobody keeps it when there is no answer.

The proofs follow the services that a service depends on, from the session factory to the interfaces of the
transaction manager (`rank`), and end with any service (`ends_getRequiredService`).
-/

set_option autoImplicit false
set_option relaxedAutoImplicit false

namespace SharpArch.NHibernate.Registrations

open Foundation Foundation.ServiceContainer Platform.SystemTransactions

variable {Held : Type} {container : ServiceContainer Held World Service ℕ Exn}
  {holdings : Holdings Service ℕ} {world : World} {scope : Scope}

/-- How many services deep a service depends on others. -/
def rank : Service → ℕ
  | .sessionFactory => 0
  | .session | .statelessSession => 1
  | .transactionManager => 2
  | .iNHibernateTransactionManager | .iTransactionManager => 3

@[simp] theorem rank_service (kind : SessionKind) : rank kind.service = 1 := by
  cases kind <;> rfl

/-- The registration of each service. -/
def registration (configureSessionFactory : ServiceProvider Held → EStateM Exn (Held × World) Unit)
    (sessionConfigurator statelessSessionConfigurator : Option (SessionConfigurator Held)) :
    Service → Registration (Held × World) Service ℕ Exn
  | .sessionFactory => sessionFactory configureSessionFactory
  | .session => session .stateful sessionConfigurator
  | .statelessSession => session .stateless statelessSessionConfigurator
  | .transactionManager => transactionManager
  | .iNHibernateTransactionManager | .iTransactionManager => transactionManagerInterface

section Registration

variable {configureSessionFactory : ServiceProvider Held → EStateM Exn (Held × World) Unit}
  {sessionConfigurator statelessSessionConfigurator : Option (SessionConfigurator Held)}
  {before services : ServiceCollection (Held × World) Service ℕ Exn}

/-- The services are registered, whatever was registered before. -/
theorem registrationOf_addNHibernateWithSingleDatabase
    (hservices : addNHibernateWithSingleDatabase (some before) (some configureSessionFactory)
      sessionConfigurator statelessSessionConfigurator = .ok services) (service : Service) :
    registrationOf services service =
      some (registration configureSessionFactory sessionConfigurator statelessSessionConfigurator
        service) := by
  obtain rfl := Except.ok.inj hservices
  cases service <;> simp [registrationOf, registration, List.findRev?_eq_find?_reverse]

end Registration

/-- Where the instance is kept that a scope is answered with. -/
def keptFor (scope : Scope) : Service → Scope × Service
  | .sessionFactory => (none, .sessionFactory)
  | .session => (scope, .session)
  | .statelessSession => (scope, .statelessSession)
  | .transactionManager | .iNHibernateTransactionManager | .iTransactionManager =>
    (scope, .transactionManager)

theorem keptFor_service (kind : SessionKind) : keptFor scope kind.service = (scope, kind.service) := by
  cases kind <;> rfl

/-- The session that a service works over. -/
def World.sessionOf (world : World) (service : Service) (number : ℕ) : Option (ℕ × SessionKind) :=
  match service with
  | .sessionFactory => none
  | .session => some (number, .stateful)
  | .statelessSession => some (number, .stateless)
  | .transactionManager | .iNHibernateTransactionManager | .iTransactionManager =>
    world.transactionManagers[number]?.map (·, .stateful)

theorem World.sessionOf_service (kind : SessionKind) (number : ℕ) :
    world.sessionOf kind.service number = some (number, kind) := by
  cases kind <;> rfl

variable (container) in
/-- What there is after a scope has been asked for a service, with the answer if there was one: a session
that was opened meanwhile is the one of the service, or nobody keeps it if there was no answer. -/
structure Asked (scope : Scope) (service : Service) (before after : Held × World) (answer : Option ℕ) :
    Prop where
  sound : Sound (container.holdings after.1) after.2
  progress : Progress (container.holdings before.1, before.2) (container.holdings after.1, after.2)
  above : ∀ owner, rank service < rank owner.2 →
    (container.holdings after.1).kept owner = (container.holdings before.1).kept owner
  kept : ∀ number ∈ answer, (container.holdings after.1).kept (keptFor scope service) = some number
  opened : ∀ number ∈ answer, ∀ opened session, before.2.sessions.length ≤ opened →
    after.2.sessions[opened]? = some session → after.2.sessionOf service number = some (opened, session.kind)
  unkept : answer = none → ∀ other kind held,
    (container.holdings after.1).kept (other, SessionKind.service kind) = some held →
      held < before.2.sessions.length

theorem Sound.lt_of_kept (hsound : Sound holdings world) {kind : SessionKind} {number : ℕ}
    (hkept : holdings.kept (scope, kind.service) = some number) : number < world.sessions.length := by
  obtain ⟨session, hsession, -⟩ := hsound.kind_of_session scope kind number hkept
  exact (List.getElem?_eq_some_iff.mp hsession).1

/-- Nothing is done: there is no answer, or it is what was kept. -/
theorem Asked.unchanged {service : Service} {state : Held × World} {answer : Option ℕ}
    (hsound : Sound (container.holdings state.1) state.2)
    (hkept : ∀ number ∈ answer, (container.holdings state.1).kept (keptFor scope service) = some number) :
    Asked container scope service state state answer where
  sound := hsound
  progress := Progress.refl _
  above _ _ := rfl
  kept := hkept
  opened _ _ _ _ hlength hsession :=
    absurd (List.getElem?_eq_some_iff.mp hsession).1 (Nat.not_lt.mpr hlength)
  unkept _ _ _ _ hheld := hsound.lt_of_kept hheld

variable (container) in
/-- In whichever way asking ends. -/
def Ends (scope : Scope) (service : Service) (before : Held × World) :
    EStateM.Result Exn (Held × World) ℕ → Prop
  | .ok number after => Asked container scope service before after (some number)
  | .error _ after => Asked container scope service before after none

section Cascade

variable {configureSessionFactory : ServiceProvider Held → EStateM Exn (Held × World) Unit}
  {sessionConfigurator statelessSessionConfigurator : Option (SessionConfigurator Held)}
  {before services : ServiceCollection (Held × World) Service ℕ Exn}

/-- A service is refused, or what is kept is answered, or its factory decides. -/
theorem ends_get (hcontainer : container.Documented services isDisposable .objectDisposed release)
    {service : Service} {registration : Registration (Held × World) Service ℕ Exn}
    (hregistration : registrationOf services service = some registration) {state : Held × World}
    (hsound : Sound (container.holdings state.1) state.2)
    (hfind : ∀ found, (container.holdings state.1).find registration.lifetime scope service = some found →
      (container.holdings state.1).kept (keptFor scope service) = some found)
    (hthrows : (container.holdings state.1).isClosed scope = false →
      (container.holdings state.1).find registration.lifetime scope service = none →
      ∀ error after, (registration.factory (container.getRequiredService
        (registration.lifetime.keeper scope))).run state = .error error after →
      Asked container scope service state after none)
    (hmade : (container.holdings state.1).isClosed scope = false →
      (container.holdings state.1).find registration.lifetime scope service = none →
      ∀ made after held, (registration.factory (container.getRequiredService
        (registration.lifetime.keeper scope))).run state = .ok made after →
      container.holdings held = (container.holdings after.1).take registration.lifetime
        (isDisposable service) scope service made →
      Asked container scope service state (held, after.2) (some made)) :
    Ends container scope service state ((container.getRequiredService scope service).run state) := by
  rcases hcontainer.get_cases scope hregistration state with
    hrefused | ⟨found, hfound, hget⟩ | ⟨hopen, hnone, hfactory⟩
  · rw [hrefused]
    exact Asked.unchanged hsound nofun
  · rw [hget]
    refine Asked.unchanged hsound ?_
    rintro number ⟨⟩
    exact hfind found hfound
  · rcases hfactory with ⟨error, after, hrun, hget⟩ | ⟨made, after, held, hrun, hget, hheld⟩
    · rw [hget]
      exact hthrows hopen hnone error after hrun
    · rw [hget]
      exact hmade hopen hnone made after held hrun hheld

/-- Neither who asks nor the container is disposed. -/
theorem isDisposed_keeper (hopen : holdings.isClosed scope = false) (lifetime : Lifetime) :
    holdings.isDisposed (lifetime.keeper scope) = false := by
  rw [Holdings.isClosed, Bool.or_eq_false_iff] at hopen
  match lifetime with
  | .singleton => exact hopen.2
  | .scoped => exact hopen.1
  | .transient => exact hopen.1

/-- A factory threw: what had been opened before is not kept. -/
theorem Asked.of_throw {service : Service} {start mid : Held × World} {after : Held × World}
    (hholdings : container.holdings after.1 = container.holdings mid.1)
    (hsound : Sound (container.holdings mid.1) after.2)
    (hprogress : Progress (container.holdings start.1, start.2) (container.holdings mid.1, after.2))
    (habove : ∀ owner, rank service < rank owner.2 →
      (container.holdings mid.1).kept owner = (container.holdings start.1).kept owner)
    (hunkept : ∀ other kind held,
      (container.holdings mid.1).kept (other, SessionKind.service kind) = some held →
        held < start.2.sessions.length) :
    Asked container scope service start after none where
  sound := by rwa [hholdings]
  progress := by rwa [hholdings]
  above := by rwa [hholdings]
  kept := nofun
  opened := nofun
  unkept _ := by rwa [hholdings]

/-- Resolving the factory opens no session. -/
theorem Asked.sessions_eq {start mid : Held × World} {answer : Option ℕ} {number : ℕ}
    (hasked : Asked container scope .sessionFactory start mid answer) (hanswer : number ∈ answer) :
    mid.2.sessions = start.2.sessions := by
  refine (hasked.progress.sessions.eq_of_length_le (Nat.not_lt.mp fun hlonger ↦ ?_)).symm
  exact absurd (hasked.opened number hanswer start.2.sessions.length _ (Nat.le_refl _)
    (List.getElem?_eq_getElem hlonger)) nofun

/-- What making a session ends with when its factory has been resolved. -/
theorem Asked.of_makes {kind : SessionKind} {start mid : Held × World} {factory : ℕ}
    (hasked : Asked container scope .sessionFactory start mid (some factory))
    (hopen : (container.holdings start.1).isClosed scope = false)
    (hnone : (container.holdings start.1).kept (scope, kind.service) = none) {held : Held}
    (hheld : container.holdings held = (container.holdings mid.1).take .scoped
      (isDisposable kind.service) scope kind.service mid.2.sessions.length) :
    Asked container scope kind.service start (held, mid.2.opened kind factory)
      (some mid.2.sessions.length) := by
  have hfactory := hasked.kept factory rfl
  have hunkept : (container.holdings mid.1).kept (scope, kind.service) = none := by
    rw [hasked.above (scope, kind.service) (Nat.lt_of_lt_of_eq Nat.zero_lt_one (rank_service kind).symm),
      hnone]
  have hlifetime : Lifetime.scoped ≠ .transient := nofun
  exact {
    sound := by
      rw [hheld]
      exact hasked.sound.takeSession hfactory hunkept
    progress := by
      rw [hheld]
      refine (hasked.progress.trans (Progress.opened kind factory)).take hunkept ?_ fun _ _ ↦ ?_
      · rw [hasked.progress.isDisposed]
        exact isDisposed_keeper hopen _
      · exact hasked.progress.sessions.length_le
    above := by
      intro owner howner
      rw [rank_service] at howner
      rw [hheld, kept_take_of_ne, hasked.above owner (Nat.lt_trans Nat.zero_lt_one howner)]
      rintro rfl
      exact absurd howner (by simp)
    kept := by
      rintro number ⟨⟩
      rw [hheld, keptFor_service]
      exact kept_take_self hlifetime
    opened := by
      rintro number ⟨⟩ opened session hlength hsession
      rw [← hasked.sessions_eq rfl] at hlength
      have hnew : opened = mid.2.sessions.length := by
        have hlt := (List.getElem?_eq_some_iff.mp hsession).1
        rw [World.opened, List.length_append, List.length_singleton] at hlt
        exact Nat.le_antisymm (Nat.lt_succ_iff.mp hlt) hlength
      subst hnew
      rw [World.opened, List.getElem?_concat_length] at hsession
      rw [World.sessionOf_service, ← Option.some.inj hsession]
    unkept := nofun }

/-- A transaction manager is made when the session has been resolved. -/
theorem Asked.of_managed {start mid : Held × World} {session : ℕ}
    (hasked : Asked container scope .session start mid (some session))
    (hopen : (container.holdings start.1).isClosed scope = false)
    (hnone : (container.holdings start.1).kept (scope, .transactionManager) = none) {held : Held}
    (hheld : container.holdings held = (container.holdings mid.1).take .scoped
      (isDisposable .transactionManager) scope .transactionManager mid.2.transactionManagers.length) :
    Asked container scope .transactionManager start (held, mid.2.managed session)
      (some mid.2.transactionManagers.length) := by
  have hunkept : (container.holdings mid.1).kept (scope, .transactionManager) = none := by
    rw [hasked.above (scope, .transactionManager) (Nat.lt_succ_self _), hnone]
  have hlifetime : Lifetime.scoped ≠ .transient := nofun
  exact {
    sound := by
      rw [hheld]
      exact hasked.sound.takeManager (hasked.kept session rfl) hunkept
    progress := by
      rw [hheld]
      refine (hasked.progress.trans (Progress.managed session)).take hunkept ?_ fun kind hkind ↦ ?_
      · rw [hasked.progress.isDisposed]
        exact isDisposed_keeper hopen _
      · exact absurd hkind kind.service_ne_transactionManager
    above := by
      intro owner howner
      rw [hheld, kept_take_of_ne, hasked.above owner (Nat.lt_of_succ_lt howner)]
      rintro rfl
      exact Nat.lt_irrefl _ howner
    kept := by
      rintro number ⟨⟩
      rw [hheld]
      exact kept_take_self hlifetime
    opened := by
      rintro number ⟨⟩ opened made hlength hmade
      have hsession := hasked.opened session rfl opened made hlength hmade
      rw [World.sessionOf, World.managed, List.getElem?_concat_length]
      exact hsession
    unkept := nofun }

/-- The configurator that is given for a kind of sessions. -/
def SessionKind.configurator (kind : SessionKind)
    (sessionConfigurator statelessSessionConfigurator : Option (SessionConfigurator Held)) :
    Option (SessionConfigurator Held) :=
  match kind with
  | .stateful => sessionConfigurator
  | .stateless => statelessSessionConfigurator

variable (hcontainer : container.Documented services isDisposable .objectDisposed release)
  (hservices : addNHibernateWithSingleDatabase (some before) (some configureSessionFactory)
    sessionConfigurator statelessSessionConfigurator = .ok services)
  (hconfigures : Configures container configureSessionFactory)

include hcontainer hservices hconfigures

theorem ends_sessionFactory (scope : Scope) {state : Held × World}
    (hsound : Sound (container.holdings state.1) state.2) :
    Ends container scope .sessionFactory state
      ((container.getRequiredService scope .sessionFactory).run state) := by
  have hmakes := makes_sessionFactory hconfigures (container.getRequiredService none)
  refine ends_get hcontainer (registrationOf_addNHibernateWithSingleDatabase hservices _) hsound
    (fun _ hfound ↦ hfound) ?_ ?_
  · intro _ _ error after hrun
    obtain ⟨hlast, hworld⟩ := hmakes.of_error hrun
    have hafter : Sound (container.holdings state.1) after.2 ∧
        Progress (container.holdings state.1, state.2) (container.holdings state.1, after.2) := by
      rcases hworld with hworld | hworld
      · rw [hworld]
        exact ⟨hsound, Progress.refl _⟩
      · rw [hworld]
        exact ⟨hsound.built, Progress.built⟩
    exact Asked.of_throw hlast hafter.1 hafter.2 (fun _ _ ↦ rfl) fun _ _ _ hheld ↦ hsound.lt_of_kept hheld
  · intro hopen hnone made after held hrun hheld
    obtain ⟨rfl, hlast, hworld⟩ := hmakes.of_ok hrun
    rw [hlast] at hheld
    rw [hworld]
    have hlifetime : Lifetime.singleton ≠ .transient := nofun
    exact {
      sound := by
        rw [hheld]
        exact hsound.built.takeFactory hnone _
      progress := by
        rw [hheld]
        refine Progress.built.take hnone (isDisposed_keeper hopen _) ?_
        intro kind hkind
        exact absurd hkind kind.service_ne_sessionFactory
      above := by
        intro owner howner
        rw [hheld]
        refine kept_take_of_ne ?_
        rintro rfl
        exact Nat.lt_irrefl _ howner
      kept := by
        rintro number ⟨⟩
        rw [hheld]
        exact kept_take_self hlifetime
      opened := by
        intro _ _ opened session hlength hsession
        exact absurd (List.getElem?_eq_some_iff.mp hsession).1 (Nat.not_lt.mpr hlength)
      unkept := nofun }

variable (hopens : ∀ kind, ∀ configurator ∈
  SessionKind.configurator kind sessionConfigurator statelessSessionConfigurator,
    Opens container kind configurator)

include hopens

theorem ends_session (scope : Scope) (kind : SessionKind) {state : Held × World}
    (hsound : Sound (container.holdings state.1) state.2) :
    Ends container scope kind.service state
      ((container.getRequiredService scope kind.service).run state) := by
  have hregistration : registrationOf services kind.service = some (session kind
      (kind.configurator sessionConfigurator statelessSessionConfigurator)) := by
    rw [registrationOf_addNHibernateWithSingleDatabase hservices]
    cases kind <;> rfl
  have hasked := ends_sessionFactory hcontainer hservices hconfigures scope hsound
  refine ends_get hcontainer hregistration hsound (fun _ hfound ↦ keptFor_service kind ▸ hfound) ?_ ?_
  · intro _ _ error after hrun
    rcases of_bind_error hrun with hget | ⟨factory, mid, hget, hrest⟩
    · change (container.getRequiredService scope .sessionFactory).run state = _ at hget
      rw [hget] at hasked
      exact Asked.of_throw rfl hasked.sound hasked.progress
        (fun owner howner ↦ hasked.above owner (Nat.zero_lt_of_lt howner)) (hasked.unkept rfl)
    · change (container.getRequiredService scope .sessionFactory).run state = _ at hget
      rw [hget] at hasked
      obtain ⟨hlast, hworld⟩ :=
        (makes_session (hopens kind) factory (container.getRequiredService scope)).of_error hrest
      -- Nobody keeps what is opened now.
      have hunkept : ∀ other otherKind held, (container.holdings mid.1).kept
          (other, SessionKind.service otherKind) = some held → held < state.2.sessions.length := by
        intro other otherKind held hheld
        rw [← hasked.sessions_eq rfl]
        exact hasked.sound.lt_of_kept hheld
      have habove : ∀ owner, rank kind.service < rank owner.2 →
          (container.holdings mid.1).kept owner = (container.holdings state.1).kept owner :=
        fun owner howner ↦ hasked.above owner (Nat.zero_lt_of_lt howner)
      have hafter : Sound (container.holdings mid.1) after.2 ∧
          Progress (container.holdings state.1, state.2) (container.holdings mid.1, after.2) := by
        rcases hworld with hworld | hworld
        · rw [hworld]
          exact ⟨hasked.sound, hasked.progress⟩
        · rw [hworld]
          exact ⟨hasked.sound.opened (hasked.kept factory rfl) kind,
            hasked.progress.trans (Progress.opened kind factory)⟩
      exact Asked.of_throw hlast hafter.1 hafter.2 habove hunkept
  · intro hopen hnone made after held hrun hheld
    obtain ⟨factory, mid, hget, hrest⟩ := of_bind_ok hrun
    change (container.getRequiredService scope .sessionFactory).run state = _ at hget
    rw [hget] at hasked
    obtain ⟨rfl, hlast, hworld⟩ :=
      (makes_session (hopens kind) factory (container.getRequiredService scope)).of_ok hrest
    rw [hworld]
    exact hasked.of_makes hopen hnone (hheld.trans (by rw [hlast]; rfl))

theorem ends_transactionManager (scope : Scope) {state : Held × World}
    (hsound : Sound (container.holdings state.1) state.2) :
    Ends container scope .transactionManager state
      ((container.getRequiredService scope .transactionManager).run state) := by
  have hasked : Ends container scope .session state
      ((container.getRequiredService scope .session).run state) :=
    ends_session hcontainer hservices hconfigures hopens scope .stateful hsound
  refine ends_get hcontainer (registrationOf_addNHibernateWithSingleDatabase hservices _) hsound
    (fun _ hfound ↦ hfound) ?_ ?_
  · intro _ _ error after hrun
    rcases of_bind_error hrun with hget | ⟨session, mid, -, hrest⟩
    · change (container.getRequiredService scope .session).run state = _ at hget
      rw [hget] at hasked
      exact Asked.of_throw rfl hasked.sound hasked.progress
        (fun owner howner ↦ hasked.above owner (Nat.lt_of_succ_lt howner)) (hasked.unkept rfl)
    · cases hrest
  · intro hopen hnone made after held hrun hheld
    obtain ⟨session, mid, hget, hrest⟩ := of_bind_ok hrun
    change (container.getRequiredService scope .session).run state = _ at hget
    rw [hget] at hasked
    obtain ⟨rfl, rfl⟩ := EStateM.Result.ok.inj hrest
    exact hasked.of_managed hopen hnone hheld

/-- An interface is answered with the transaction manager of the scope. -/
theorem ends_transactionManagerInterface {service : Service}
    (hregistration : registrationOf services service = some transactionManagerInterface)
    (hdisposable : isDisposable service = false)
    (hkept : ∀ scope, keptFor scope service = keptFor scope .transactionManager)
    (hsession : ∀ (world : World) number,
      world.sessionOf service number = world.sessionOf .transactionManager number)
    (hrank : rank .transactionManager < rank service) (scope : Scope) {state : Held × World}
    (hsound : Sound (container.holdings state.1) state.2) :
    Ends container scope service state ((container.getRequiredService scope service).run state) := by
  have hasked := ends_transactionManager hcontainer hservices hconfigures hopens scope hsound
  refine ends_get hcontainer hregistration hsound nofun ?_ ?_
  · intro _ _ error after hrun
    change (container.getRequiredService scope .transactionManager).run state = _ at hrun
    rw [hrun] at hasked
    exact { hasked with
      above := fun owner howner ↦ hasked.above owner (Nat.lt_trans hrank howner)
      kept := nofun
      opened := nofun }
  · intro _ _ made after held hrun hheld
    change (container.getRequiredService scope .transactionManager).run state = _ at hrun
    rw [hrun] at hasked
    -- An instance that is neither kept nor disposed changes nothing.
    have hsame : container.holdings held = container.holdings after.1 := by
      rw [hheld, hdisposable]
      rfl
    exact {
      sound := by
        rw [hsame]
        exact hasked.sound
      progress := by
        rw [hsame]
        exact hasked.progress
      above := by
        intro owner howner
        rw [hsame]
        exact hasked.above owner (Nat.lt_trans hrank howner)
      kept := by
        rw [hsame, hkept]
        exact hasked.kept
      opened := by
        simp only [hsession]
        exact hasked.opened
      unkept := nofun }

/-- Any service, asked for in any scope. -/
theorem ends_getRequiredService (scope : Scope) (service : Service) {state : Held × World}
    (hsound : Sound (container.holdings state.1) state.2) :
    Ends container scope service state ((container.getRequiredService scope service).run state) := by
  have hregistration := registrationOf_addNHibernateWithSingleDatabase hservices service
  cases service with
  | sessionFactory => exact ends_sessionFactory hcontainer hservices hconfigures scope hsound
  | session => exact ends_session hcontainer hservices hconfigures hopens scope .stateful hsound
  | statelessSession => exact ends_session hcontainer hservices hconfigures hopens scope .stateless hsound
  | transactionManager => exact ends_transactionManager hcontainer hservices hconfigures hopens scope hsound
  | iNHibernateTransactionManager | iTransactionManager =>
    exact ends_transactionManagerInterface hcontainer hservices hconfigures hopens hregistration rfl
      (fun _ ↦ rfl) (fun _ _ ↦ rfl) (Nat.lt_succ_self _) scope hsound

end Cascade

end SharpArch.NHibernate.Registrations

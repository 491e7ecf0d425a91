import Mathlib.Data.List.Nodup
import Mathlib.Logic.Function.Basic
import Mathlib.Tactic.Common

/-!
# Containers of services

A collection registers services: how long an instance is kept, and a factory that makes one and may ask
for other services meanwhile. A container of the collection answers with the instance it keeps, or has one
made. It keeps singletons itself and scoped instances in the scope that asks, and disposes what it has made
with whoever keeps it.

What a container does is a hypothesis (`ServiceContainer.Documented`), stated by what it keeps, has still
to dispose and has disposed (`Holdings`). Factories act on a world of their own and may throw at any time;
so may disposing, and then the rest may or may not be disposed.

`keeping` is a container that does as documented when no service depends on itself.
-/

set_option autoImplicit false
set_option relaxedAutoImplicit false

namespace SharpArch.Foundation.ServiceContainer

variable {State World Held Service Instance Error : Type}

/-- How long an instance is kept. -/
inductive Lifetime
  | singleton
  | scoped
  | transient
  deriving DecidableEq

/-- Who is asked for services: a scope, or the container itself. -/
abbrev Scope := Option ℕ

/-- Who keeps an instance that a scope asks for, and is asked for what it is made of. -/
def Lifetime.keeper (lifetime : Lifetime) (scope : Scope) : Scope :=
  match lifetime with
  | .singleton => none
  | .scoped | .transient => scope

structure Registration (State Service Instance Error : Type) where
  lifetime : Lifetime
  factory : (Service → EStateM Error State Instance) → EStateM Error State Instance

abbrev ServiceCollection (State Service Instance Error : Type) :=
  List (Service × Registration State Service Instance Error)

section Collection

variable [DecidableEq Service]

/-- The registration of a service that was added last. -/
def registrationOf (services : ServiceCollection State Service Instance Error) (service : Service) :
    Option (Registration State Service Instance Error) :=
  (services.findRev? fun entry ↦ entry.1 = service).map Prod.snd

/-- What a container keeps, what it has to dispose with whom, and who is disposed. -/
structure Holdings (Service Instance : Type) where
  kept : Scope × Service → Option Instance
  captured : Scope → List (Service × Instance)
  isDisposed : Scope → Bool

namespace Holdings

def empty : Holdings Service Instance where
  kept _ := none
  captured _ := []
  isDisposed _ := false

variable (holdings : Holdings Service Instance)

/-- The scope is asked for nothing any more. -/
def isClosed (scope : Scope) : Bool := holdings.isDisposed scope || holdings.isDisposed none

/-- What is kept for a scope that asks. -/
def find (lifetime : Lifetime) (scope : Scope) (service : Service) : Option Instance :=
  match lifetime with
  | .transient => none
  | .singleton | .scoped => holdings.kept (lifetime.keeper scope, service)

/-- An instance has been made for a scope. -/
def take (lifetime : Lifetime) (isDisposable : Bool) (scope : Scope) (service : Service)
    (made : Instance) : Holdings Service Instance where
  kept :=
    match lifetime with
    | .transient => holdings.kept
    | .singleton | .scoped =>
      Function.update holdings.kept (lifetime.keeper scope, service) (some made)
  captured :=
    if isDisposable then
      Function.update holdings.captured (lifetime.keeper scope)
        (holdings.captured (lifetime.keeper scope) ++ [(service, made)])
    else holdings.captured
  isDisposed := holdings.isDisposed

def close (scope : Scope) : Holdings Service Instance :=
  { holdings with isDisposed := Function.update holdings.isDisposed scope true }

end Holdings

end Collection

/-- Instances are disposed, which changes the world whether it throws or not. -/
def released (release : Service × Instance → EStateM Error World Unit) (entries : List (Service × Instance))
    (world : World) : World :=
  entries.foldl (fun world entry ↦
    match (release entry).run world with
    | .ok _ after => after
    | .error _ after => after) world

end ServiceContainer

open ServiceContainer

/-- A container, with its holdings in every state it may have. -/
structure ServiceContainer (Held World Service Instance Error : Type) where
  new : Held
  holdings : Held → Holdings Service Instance
  getRequiredService : Scope → Service → EStateM Error (Held × World) Instance
  dispose : Scope → EStateM Error (Held × World) Unit

namespace ServiceContainer

variable {State World Held Service Instance Error : Type} [DecidableEq Service]

/-- What containers are documented to do with a collection. -/
structure Documented (container : ServiceContainer Held World Service Instance Error)
    (services : ServiceCollection (Held × World) Service Instance Error) (isDisposable : Service → Bool)
    (objectDisposed : Error) (release : Service × Instance → EStateM Error World Unit) : Prop where
  holdings_new : container.holdings container.new = Holdings.empty
  get_closed : ∀ scope service state, (container.holdings state.1).isClosed scope = true →
    (container.getRequiredService scope service).run state = .error objectDisposed state
  get_kept : ∀ scope service registration found state, (container.holdings state.1).isClosed scope = false →
    registrationOf services service = some registration →
    (container.holdings state.1).find registration.lifetime scope service = some found →
    (container.getRequiredService scope service).run state = .ok found state
  get_made : ∀ scope service registration made state after,
    (container.holdings state.1).isClosed scope = false →
    registrationOf services service = some registration →
    (container.holdings state.1).find registration.lifetime scope service = none →
    (registration.factory (container.getRequiredService (registration.lifetime.keeper scope))).run state =
      .ok made after →
    ∃ held, (container.getRequiredService scope service).run state = .ok made (held, after.2) ∧
      container.holdings held = (container.holdings after.1).take registration.lifetime
        (isDisposable service) scope service made
  get_throws : ∀ scope service registration error state after,
    (container.holdings state.1).isClosed scope = false →
    registrationOf services service = some registration →
    (container.holdings state.1).find registration.lifetime scope service = none →
    (registration.factory (container.getRequiredService (registration.lifetime.keeper scope))).run state =
      .error error after →
    (container.getRequiredService scope service).run state = .error error after
  dispose_again : ∀ scope state, (container.holdings state.1).isDisposed scope = true →
    (container.dispose scope).run state = .ok () state
  dispose_first : ∀ scope state, (container.holdings state.1).isDisposed scope = false →
    ∃ entries held, entries.Sublist ((container.holdings state.1).captured scope).reverse ∧
      container.holdings held = (container.holdings state.1).close scope ∧
      ((container.dispose scope).run state = .ok () (held, released release entries state.2) ∧
          entries = ((container.holdings state.1).captured scope).reverse ∨
        ∃ error, (container.dispose scope).run state =
          .error error (held, released release entries state.2))

variable {container : ServiceContainer Held World Service Instance Error}
  {services : ServiceCollection (Held × World) Service Instance Error} {isDisposable : Service → Bool}
  {objectDisposed : Error} {release : Service × Instance → EStateM Error World Unit}

/-- Everything that asking for a service can do: it is refused; it is answered with what is kept; the
factory throws; or what the factory makes is answered and taken. -/
theorem Documented.get_cases
    (hdocumented : container.Documented services isDisposable objectDisposed release) (scope : Scope)
    {service : Service} {registration : Registration (Held × World) Service Instance Error}
    (hregistration : registrationOf services service = some registration) (state : Held × World) :
    (container.getRequiredService scope service).run state = .error objectDisposed state ∨
      (∃ found, (container.holdings state.1).find registration.lifetime scope service = some found ∧
        (container.getRequiredService scope service).run state = .ok found state) ∨
      (container.holdings state.1).isClosed scope = false ∧
        (container.holdings state.1).find registration.lifetime scope service = none ∧
        ((∃ error after, (registration.factory (container.getRequiredService
              (registration.lifetime.keeper scope))).run state = .error error after ∧
            (container.getRequiredService scope service).run state = .error error after) ∨
          ∃ made after held, (registration.factory (container.getRequiredService
              (registration.lifetime.keeper scope))).run state = .ok made after ∧
            (container.getRequiredService scope service).run state = .ok made (held, after.2) ∧
            container.holdings held = (container.holdings after.1).take registration.lifetime
              (isDisposable service) scope service made) := by
  cases hclosed : (container.holdings state.1).isClosed scope with
  | true => exact Or.inl (hdocumented.get_closed scope service state hclosed)
  | false =>
    refine Or.inr ?_
    cases hfind : (container.holdings state.1).find registration.lifetime scope service with
    | some found =>
      exact Or.inl ⟨found, rfl,
        hdocumented.get_kept scope service registration found state hclosed hregistration hfind⟩
    | none =>
      refine Or.inr ⟨rfl, rfl, ?_⟩
      cases hfactory : (registration.factory (container.getRequiredService
          (registration.lifetime.keeper scope))).run state with
      | error error after =>
        exact Or.inl ⟨error, after, rfl, hdocumented.get_throws scope service registration error state
          after hclosed hregistration hfind hfactory⟩
      | ok made after =>
        obtain ⟨held, hget, hheld⟩ := hdocumented.get_made scope service registration made state after
          hclosed hregistration hfind hfactory
        exact Or.inr ⟨made, after, held, rfl, hget, hheld⟩

/-! ### What factories do -/

section Factories

variable {Answer Result : Type}

/-- A part of a factory that answers, or throws, and leaves alone what is held and the world. -/
def LeavesAlone (container : ServiceContainer Held World Service Instance Error)
    (program : EStateM Error (Held × World) Answer) (answer : Answer) : Prop :=
  ∀ state, ∃ held, container.holdings held = container.holdings state.1 ∧
    (program.run state = .ok answer (held, state.2) ∨
      ∃ error, program.run state = .error error (held, state.2))

/-- A part of a factory that makes an instance, which changes the world. It may throw before that or
after. -/
def Makes (container : ServiceContainer Held World Service Instance Error) (change : World → World)
    (made : World → Instance) (program : EStateM Error (Held × World) Instance) : Prop :=
  ∀ state, ∃ held, container.holdings held = container.holdings state.1 ∧
    (program.run state = .ok (made state.2) (held, change state.2) ∨
      ∃ error, program.run state = .error error (held, state.2) ∨
        program.run state = .error error (held, change state.2))

variable {change : World → World} {made : World → Instance} {answer : Answer} {result : Result}

theorem of_bind_ok {program : EStateM Error State Answer} {next : Answer → EStateM Error State Result}
    {state after : State} (hrun : (program >>= next).run state = .ok result after) :
    ∃ first mid, program.run state = .ok first mid ∧ (next first).run mid = .ok result after := by
  rw [EStateM.run_bind] at hrun
  cases hfirst : program.run state with
  | error thrown mid =>
    rw [hfirst] at hrun
    cases hrun
  | ok first mid =>
    rw [hfirst] at hrun
    exact ⟨first, mid, rfl, hrun⟩

theorem of_bind_error {program : EStateM Error State Answer} {next : Answer → EStateM Error State Result}
    {state after : State} {error : Error} (hrun : (program >>= next).run state = .error error after) :
    program.run state = .error error after ∨
      ∃ first mid, program.run state = .ok first mid ∧ (next first).run mid = .error error after := by
  rw [EStateM.run_bind] at hrun
  cases hfirst : program.run state with
  | error thrown mid =>
    rw [hfirst] at hrun
    obtain ⟨rfl, rfl⟩ := EStateM.Result.error.inj hrun
    exact Or.inl rfl
  | ok first mid =>
    rw [hfirst] at hrun
    exact Or.inr ⟨first, mid, rfl, hrun⟩

omit [DecidableEq Service] in
theorem leavesAlone_pure (answer : Answer) : container.LeavesAlone (pure answer) answer :=
  fun state ↦ ⟨state.1, rfl, Or.inl rfl⟩

omit [DecidableEq Service] in
theorem LeavesAlone.bind {program : EStateM Error (Held × World) Answer}
    {next : Answer → EStateM Error (Held × World) Result} (hprogram : container.LeavesAlone program answer)
    (hnext : container.LeavesAlone (next answer) result) :
    container.LeavesAlone (program >>= next) result := by
  intro state
  obtain ⟨held, hheld, hok | ⟨error, herror⟩⟩ := hprogram state
  · obtain ⟨last, hlast, hends⟩ := hnext (held, state.2)
    refine ⟨last, hlast.trans hheld, ?_⟩
    rw [EStateM.run_bind, hok]
    exact hends
  · refine ⟨held, hheld, Or.inr ⟨error, ?_⟩⟩
    rw [EStateM.run_bind, herror]

omit [DecidableEq Service] in
theorem LeavesAlone.bind_makes {program : EStateM Error (Held × World) Answer}
    {next : Answer → EStateM Error (Held × World) Instance}
    (hprogram : container.LeavesAlone program answer) (hnext : container.Makes change made (next answer)) :
    container.Makes change made (program >>= next) := by
  intro state
  obtain ⟨held, hheld, hok | ⟨error, herror⟩⟩ := hprogram state
  · obtain ⟨last, hlast, hends⟩ := hnext (held, state.2)
    refine ⟨last, hlast.trans hheld, ?_⟩
    rw [EStateM.run_bind, hok]
    exact hends
  · refine ⟨held, hheld, Or.inr ⟨error, Or.inl ?_⟩⟩
    rw [EStateM.run_bind, herror]

omit [DecidableEq Service] in
theorem Makes.bind {program : EStateM Error (Held × World) Instance}
    {next : Instance → EStateM Error (Held × World) Instance}
    (hprogram : container.Makes change made program)
    (hnext : ∀ answered, container.LeavesAlone (next answered) answered) :
    container.Makes change made (program >>= next) := by
  intro state
  obtain ⟨held, hheld, hok | ⟨error, hbefore | hafter⟩⟩ := hprogram state
  · obtain ⟨last, hlast, hends⟩ := hnext (made state.2) (held, change state.2)
    refine ⟨last, hlast.trans hheld, ?_⟩
    rw [EStateM.run_bind, hok]
    rcases hends with hok | ⟨error, herror⟩
    · exact Or.inl hok
    · exact Or.inr ⟨error, Or.inr herror⟩
  · refine ⟨held, hheld, Or.inr ⟨error, Or.inl ?_⟩⟩
    rw [EStateM.run_bind, hbefore]
  · refine ⟨held, hheld, Or.inr ⟨error, Or.inr ?_⟩⟩
    rw [EStateM.run_bind, hafter]

omit [DecidableEq Service] in
theorem Makes.of_ok {program : EStateM Error (Held × World) Instance}
    (hprogram : container.Makes change made program) {state after : Held × World} {answered : Instance}
    (hrun : program.run state = .ok answered after) :
    answered = made state.2 ∧ container.holdings after.1 = container.holdings state.1 ∧
      after.2 = change state.2 := by
  obtain ⟨held, hheld, hok | ⟨error, hthrown | hthrown⟩⟩ := hprogram state
  · obtain ⟨rfl, rfl⟩ := EStateM.Result.ok.inj (hok.symm.trans hrun)
    exact ⟨rfl, hheld, rfl⟩
  · exact absurd (hthrown.symm.trans hrun) nofun
  · exact absurd (hthrown.symm.trans hrun) nofun

omit [DecidableEq Service] in
theorem Makes.of_error {program : EStateM Error (Held × World) Instance}
    (hprogram : container.Makes change made program) {state after : Held × World} {error : Error}
    (hrun : program.run state = .error error after) :
    container.holdings after.1 = container.holdings state.1 ∧
      (after.2 = state.2 ∨ after.2 = change state.2) := by
  obtain ⟨held, hheld, hok | ⟨thrown, hthrown | hthrown⟩⟩ := hprogram state
  · exact absurd (hok.symm.trans hrun) nofun
  · obtain ⟨rfl, rfl⟩ := EStateM.Result.error.inj (hthrown.symm.trans hrun)
    exact ⟨hheld, Or.inl rfl⟩
  · obtain ⟨rfl, rfl⟩ := EStateM.Result.error.inj (hthrown.symm.trans hrun)
    exact ⟨hheld, Or.inr rfl⟩

end Factories

/-! ### A container that keeps what it makes -/

section Keeping

variable (services : ServiceCollection (Holdings Service Instance × World) Service Instance Error)
  (isDisposable : Service → Bool) (objectDisposed notRegistered : Error)
  (release : Service × Instance → EStateM Error World Unit)

/-- Asking for a service that depends on others, when they depend on one another less often than the given
depth. -/
def resolveWithin : ℕ → Scope → Service → EStateM Error (Holdings Service Instance × World) Instance
  | 0, _, _ => throw notRegistered
  | depth + 1, scope, service => fun state ↦
    if state.1.isClosed scope then .error objectDisposed state
    else
      match registrationOf services service with
      | none => .error notRegistered state
      | some registration =>
        match state.1.find registration.lifetime scope service with
        | some found => .ok found state
        | none =>
          match (registration.factory
              (resolveWithin depth (registration.lifetime.keeper scope))).run state with
          | .error error after => .error error after
          | .ok made after =>
            .ok made (after.1.take registration.lifetime (isDisposable service) scope service made,
              after.2)

/-- What is to be disposed is, until it throws. -/
def releaseInOrder : List (Service × Instance) → EStateM Error World Unit
  | [] => pure ()
  | entry :: rest => do
    release entry
    releaseInOrder rest

/-- The container whose state is what it holds, for services that depend on others up to a depth. -/
def keeping (depth : ℕ) : ServiceContainer (Holdings Service Instance) World Service Instance Error where
  new := Holdings.empty
  holdings := id
  getRequiredService := resolveWithin services isDisposable objectDisposed notRegistered (depth + 1)
  dispose scope := fun state ↦
    if state.1.isDisposed scope then .ok () state
    else
      match (releaseInOrder release (state.1.captured scope).reverse).run state.2 with
      | .ok _ world => .ok () (state.1.close scope, world)
      | .error error world => .error error (state.1.close scope, world)

/-- The factory of a service asks for services of lower rank alone. -/
def AsksBelow (rank : Service → ℕ) : Prop :=
  ∀ service registration, registrationOf services service = some registration →
    ∀ provider other, (∀ below, rank below < rank service → provider below = other below) →
      registration.factory provider = registration.factory other

variable {services}

/-- Depth that is enough for a service is as good as more. -/
theorem resolveWithin_eq {rank : Service → ℕ} (hbelow : AsksBelow services rank) {depth more : ℕ}
    {service : Service} (hdepth : rank service < depth) (hmore : rank service < more) (scope : Scope) :
    resolveWithin services isDisposable objectDisposed notRegistered depth scope service =
      resolveWithin services isDisposable objectDisposed notRegistered more scope service := by
  induction depth generalizing more service scope with
  | zero => exact absurd hdepth (Nat.not_lt_zero _)
  | succ depth ih =>
    obtain ⟨more, rfl⟩ : ∃ less, more = less + 1 := Nat.exists_eq_succ_of_ne_zero (by omega)
    funext state
    simp only [resolveWithin]
    cases hregistration : registrationOf services service with
    | none => rfl
    | some registration =>
      have hsame : registration.factory (resolveWithin services isDisposable objectDisposed notRegistered
            depth (registration.lifetime.keeper scope)) =
          registration.factory (resolveWithin services isDisposable objectDisposed notRegistered
            more (registration.lifetime.keeper scope)) :=
        hbelow service registration hregistration _ _ fun below hrank ↦
          ih (by omega) (by omega) (registration.lifetime.keeper scope)
      simp only [hsame]

omit [DecidableEq Service] in
theorem releaseInOrder_run (entries : List (Service × Instance)) (world : World) :
    (releaseInOrder release entries).run world = .ok () (released release entries world) ∨
      ∃ error before, before.Sublist entries ∧
        (releaseInOrder release entries).run world = .error error (released release before world) := by
  induction entries generalizing world with
  | nil => exact Or.inl rfl
  | cons entry rest ih =>
    rw [releaseInOrder, EStateM.run_bind]
    cases hrelease : (release entry).run world with
    | error error after =>
      refine Or.inr ⟨error, [entry], (List.nil_sublist rest).cons_cons entry, ?_⟩
      simp [released, hrelease]
    | ok _ after =>
      have hfirst (others : List (Service × Instance)) :
          released release (entry :: others) world = released release others after := by
        simp [released, hrelease]
      rcases ih after with hall | ⟨error, before, hbefore, hthrows⟩
      · exact Or.inl (by simp only [hall, hfirst])
      · exact Or.inr ⟨error, entry :: before, hbefore.cons_cons entry, by simp only [hthrows, hfirst]⟩

variable {release}

theorem documented_keeping {rank : Service → ℕ} (hbelow : AsksBelow services rank) {depth : ℕ}
    (hdepth : ∀ service, rank service ≤ depth) :
    (keeping services isDisposable objectDisposed notRegistered release depth).Documented services
      isDisposable objectDisposed release := by
  have hsame : ∀ service registration, registrationOf services service = some registration →
      ∀ scope, registration.factory (resolveWithin services isDisposable objectDisposed notRegistered
          (depth + 1) scope) =
        registration.factory (resolveWithin services isDisposable objectDisposed notRegistered
          depth scope) := by
    intro service registration hregistration scope
    refine hbelow service registration hregistration _ _ fun below hrank ↦ ?_
    have hservice := hdepth service
    exact resolveWithin_eq _ _ _ hbelow (by omega) (by omega) scope
  constructor
  · rfl
  · intro scope service state hclosed
    exact if_pos hclosed
  · intro scope service registration found state hclosed hregistration hfind
    simp only [keeping, id_eq] at hclosed hfind
    simp [keeping, EStateM.run, resolveWithin, hclosed, hregistration, hfind]
  · intro scope service registration made state after hclosed hregistration hfind hfactory
    simp only [keeping, id_eq, hsame service registration hregistration] at hclosed hfind hfactory
    refine ⟨after.1.take registration.lifetime (isDisposable service) scope service made, ?_, rfl⟩
    simp only [EStateM.run] at hfactory
    simp [keeping, EStateM.run, resolveWithin, hclosed, hregistration, hfind, hfactory]
  · intro scope service registration error state after hclosed hregistration hfind hfactory
    simp only [keeping, id_eq, hsame service registration hregistration] at hclosed hfind hfactory
    simp only [EStateM.run] at hfactory
    simp [keeping, EStateM.run, resolveWithin, hclosed, hregistration, hfind, hfactory]
  · intro scope state hdisposed
    exact if_pos hdisposed
  · intro scope state hdisposed
    simp only [keeping, id_eq] at hdisposed
    rcases releaseInOrder_run release (state.1.captured scope).reverse state.2 with
      hall | ⟨error, before, hbefore, hthrows⟩
    · refine ⟨_, state.1.close scope, List.Sublist.refl _, rfl, Or.inl ⟨?_, rfl⟩⟩
      simp only [EStateM.run, keeping, hdisposed] at hall ⊢
      rw [if_neg (by simp), hall]
      rfl
    · refine ⟨before, state.1.close scope, hbefore, rfl, Or.inr ⟨error, ?_⟩⟩
      simp only [EStateM.run, keeping, hdisposed] at hthrows ⊢
      rw [if_neg (by simp), hthrows]

end Keeping

end ServiceContainer

end SharpArch.Foundation

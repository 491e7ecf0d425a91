import Mathlib.Algebra.BigOperators.Group.Finset.Basic
import Mathlib.Algebra.Order.BigOperators.Group.Finset
import SharpArch.Foundation.FairRun
import SharpArch.Foundation.MemoTable
import SharpArch.Web.AutoTransactionHandler

/-!
# The cache of transaction attributes

`GetTransactionAttribute` answers with the effective `TransactionAttribute` of an action. All requests
share a dictionary of the answers, in which the absence of an attribute is an answer too. The
dictionary is read without a lock first; a call that does not find its action takes the lock, looks the
policy up, reads the dictionary again and publishes an extended copy of what it has read.

`SharedCache` is the dictionary, the lock and the position of every call, and `getTransactionAttribute`
lets one call make its next move, so that a list of requests is an interleaving. A call publishes an
extension of what it has read since it took the lock, and nobody else publishes in the meantime
(`Consistent`). So every call answers with the policy of its own action, under a fair schedule every
call ends, and no call that begins after the first answer for its action takes the lock
(`getTransactionAttribute_answers`).
-/

set_option autoImplicit false
set_option relaxedAutoImplicit false

namespace SharpArch.Web.ApplyTransactionFilterBase

open Foundation.Run Foundation.FairRun Foundation.MemoTable AutoTransactionHandler

/-- The dictionary of the answers, by the id of the action. -/
abbrev AttributeCache := Table String (Option TransactionAttribute)

/-- The exception of `ImmutableDictionary.Add`. -/
inductive ArgumentException
  | duplicateKey (key : String)
  deriving DecidableEq, Repr

/-- `ImmutableDictionary.Add`. A key that is already there must have the value that is added. -/
def add (actionId : String) (transactionAttribute : Option TransactionAttribute)
    (attributeCache : AttributeCache) : Except ArgumentException AttributeCache :=
  match attributeCache actionId with
  | none => .ok (Function.update attributeCache actionId (some transactionAttribute))
  | some kept =>
    if kept = transactionAttribute then .ok attributeCache else .error (.duplicateKey actionId)

/-- How a call of `GetTransactionAttribute` ends. -/
abbrev Answer := Except ArgumentException (Option TransactionAttribute)

/-- What a call does next, with the variables it still needs. -/
inductive Position
  /-- Reads the dictionary without the lock. -/
  | tryGetValue
  /-- Takes the lock. -/
  | enter
  /-- Looks the effective policy up. -/
  | findEffectivePolicy
  /-- Reads the dictionary again. -/
  | containsKey (transactionAttribute : Option TransactionAttribute)
  /-- Reads the dictionary to extend it. -/
  | extend (transactionAttribute : Option TransactionAttribute)
  /-- Adds its key to the dictionary it has read, and publishes the result. -/
  | publish (transactionAttribute : Option TransactionAttribute) (read : AttributeCache)
  /-- Releases the lock. -/
  | exit (answer : Answer)
  /-- Nothing: the call has ended. -/
  | ended (answer : Answer)

variable {Request : Type}

/-- The dictionary, the request whose call has the lock, and where the call of every request is. -/
structure SharedCache (Request : Type) where
  attributeCache : AttributeCache := fun _ ↦ none
  lock : Option Request := none
  position : Request → Position := fun _ ↦ .tryGetValue

/-- Before the first call. -/
def start : SharedCache Request := {}

variable [DecidableEq Request]

/-- The state in which the call of a request has moved on. -/
def SharedCache.goTo (state : SharedCache Request) (request : Request) (position : Position) :
    SharedCache Request :=
  { state with position := Function.update state.position request position }

/-- `GetTransactionAttribute`: the next move of the call a request makes. A call that finds the lock
taken stays where it is. -/
def getTransactionAttribute (findEffectivePolicy : String → Option TransactionAttribute)
    (actionId : Request → String) (state : SharedCache Request) (request : Request) :
    SharedCache Request :=
  match state.position request with
  | .tryGetValue =>
    match state.attributeCache (actionId request) with
    | some transactionAttribute => state.goTo request (.ended (.ok transactionAttribute))
    | none => state.goTo request .enter
  | .enter =>
    match state.lock with
    | none => { state.goTo request .findEffectivePolicy with lock := some request }
    | some _ => state
  | .findEffectivePolicy =>
    state.goTo request (.containsKey (findEffectivePolicy (actionId request)))
  | .containsKey transactionAttribute =>
    if (state.attributeCache (actionId request)).isSome then
      state.goTo request (.exit (.ok transactionAttribute))
    else state.goTo request (.extend transactionAttribute)
  | .extend transactionAttribute =>
    state.goTo request (.publish transactionAttribute state.attributeCache)
  | .publish transactionAttribute read =>
    match add (actionId request) transactionAttribute read with
    | .ok extended =>
      { state.goTo request (.exit (.ok transactionAttribute)) with attributeCache := extended }
    | .error exception => state.goTo request (.exit (.error exception))
  | .exit answer => { state.goTo request (.ended answer) with lock := none }
  | .ended _ => state

/-! ### What a move can do -/

namespace Position

/-- Between the two ends of the `lock` statement. -/
def IsInside : Position → Prop
  | .tryGetValue | .enter | .ended _ => False
  | .findEffectivePolicy | .containsKey _ | .extend _ | .publish _ _ | .exit _ => True

/-- The moves a call has still to make, at most. -/
def remaining : Position → ℕ
  | .tryGetValue => 7
  | .enter => 6
  | .findEffectivePolicy => 5
  | .containsKey _ => 4
  | .extend _ => 3
  | .publish _ _ => 2
  | .exit _ => 1
  | .ended _ => 0

end Position

namespace SharedCache

variable {state : SharedCache Request} {request : Request} {position : Position}

@[simp] theorem position_goTo_self : (state.goTo request position).position request = position :=
  Function.update_self _ _ _

theorem position_goTo_of_ne {other : Request} (hne : other ≠ request) :
    (state.goTo request position).position other = state.position other :=
  Function.update_of_ne hne _ _

end SharedCache

section Moves

variable {findEffectivePolicy : String → Option TransactionAttribute} {actionId : Request → String}
  {state : SharedCache Request} {request : Request}

/-- A call that cannot move: it has ended, or it finds the lock taken. -/
def IsStuck (state : SharedCache Request) (request : Request) : Prop :=
  (∃ answer, state.position request = .ended answer) ∨
    state.position request = .enter ∧ state.lock ≠ none

theorem getTransactionAttribute_of_isStuck (hstuck : IsStuck state request) :
    getTransactionAttribute findEffectivePolicy actionId state request = state := by
  obtain ⟨answer, hended⟩ | ⟨henter, hlock⟩ := hstuck
  · simp only [getTransactionAttribute, hended]
  · obtain ⟨holder, hholder⟩ := Option.ne_none_iff_exists'.mp hlock
    simp only [getTransactionAttribute, henter, hholder]

/-- A move leaves the calls of other requests where they are. -/
theorem position_getTransactionAttribute_of_ne {other : Request} (hne : other ≠ request) :
    (getTransactionAttribute findEffectivePolicy actionId state request).position other =
      state.position other := by
  unfold getTransactionAttribute
  repeat' split
  all_goals first | rfl | exact SharedCache.position_goTo_of_ne hne

/-- A call that is not stuck comes nearer to its end. -/
theorem remaining_getTransactionAttribute_lt (hfree : ¬ IsStuck state request) :
    ((getTransactionAttribute findEffectivePolicy actionId state request).position
        request).remaining < (state.position request).remaining := by
  rw [IsStuck, not_or, not_and, not_not] at hfree
  obtain ⟨hrunning, hunlocked⟩ := hfree
  cases hposition : state.position request with
  | tryGetValue =>
    cases hkept : state.attributeCache (actionId request) <;>
      simp [getTransactionAttribute, hposition, hkept, Position.remaining]
  | enter => simp [getTransactionAttribute, hposition, hunlocked hposition, Position.remaining]
  | containsKey transactionAttribute =>
    by_cases hkept : (state.attributeCache (actionId request)).isSome <;>
      simp [getTransactionAttribute, hposition, hkept, Position.remaining]
  | publish transactionAttribute read =>
    cases hadd : add (actionId request) transactionAttribute read <;>
      simp [getTransactionAttribute, hposition, hadd, Position.remaining]
  | ended answer => exact absurd ⟨answer, hposition⟩ hrunning
  | findEffectivePolicy => simp [getTransactionAttribute, hposition, Position.remaining]
  | extend _ => simp [getTransactionAttribute, hposition, Position.remaining]
  | exit _ => simp [getTransactionAttribute, hposition, Position.remaining]

theorem isStuck_of_getTransactionAttribute_eq
    (hsame : getTransactionAttribute findEffectivePolicy actionId state request = state) :
    IsStuck state request := by
  by_contra hfree
  have hless : ((getTransactionAttribute findEffectivePolicy actionId state request).position
      request).remaining < (state.position request).remaining :=
    remaining_getTransactionAttribute_lt hfree
  rw [hsame] at hless
  exact Nat.lt_irrefl _ hless

omit [DecidableEq Request] in
/-- The call that has the lock can always move. -/
theorem not_isStuck_of_isInside (hinside : (state.position request).IsInside) :
    ¬ IsStuck state request := by
  rintro (⟨answer, hended⟩ | ⟨henter, -⟩)
  · rw [hended] at hinside
    exact hinside
  · rw [henter] at hinside
    exact hinside

end Moves

/-! ### The invariant -/

section Invariant

variable (findEffectivePolicy : String → Option TransactionAttribute) (actionId : Request → String)

/-- What a call for an action knows: the policy it has looked up, and from the second look at the
dictionary on whether the dictionary has its key. A dictionary it has read to extend it is still the
published one. -/
def Position.Fits (action : String) (attributeCache : AttributeCache) : Position → Prop
  | .tryGetValue | .enter | .findEffectivePolicy => True
  | .containsKey transactionAttribute => transactionAttribute = findEffectivePolicy action
  | .extend transactionAttribute =>
    transactionAttribute = findEffectivePolicy action ∧ attributeCache action = none
  | .publish transactionAttribute read =>
    transactionAttribute = findEffectivePolicy action ∧ attributeCache action = none ∧
      read = attributeCache
  | .exit answer | .ended answer =>
    answer = .ok (findEffectivePolicy action) ∧
      attributeCache action = some (findEffectivePolicy action)

/-- The dictionary holds effective policies, the lock is with the call that is inside the `lock`
statement, and what every call knows is the case. -/
structure Consistent (state : SharedCache Request) : Prop where
  sound : Sound (fun action value ↦ value = findEffectivePolicy action) state.attributeCache
  lock_iff : ∀ request, state.lock = some request ↔ (state.position request).IsInside
  fits : ∀ request,
    (state.position request).Fits findEffectivePolicy (actionId request) state.attributeCache

omit [DecidableEq Request] in
theorem consistent_start : Consistent findEffectivePolicy actionId (start : SharedCache Request) where
  sound := sound_empty
  lock_iff _ := by simp [start, Position.IsInside]
  fits _ := trivial

variable {findEffectivePolicy actionId} {state : SharedCache Request} {request : Request}

/-- A dictionary keeps what another one holds. -/
def Keeps (attributeCache extended : AttributeCache) : Prop :=
  ∀ action value, attributeCache action = some value → extended action = some value

/-- Outside the `lock` statement a call does not mind that keys are added. -/
theorem Position.Fits.of_keeps {position : Position} {action : String}
    {attributeCache extended : AttributeCache} (hkeeps : Keeps attributeCache extended)
    (houtside : ¬ position.IsInside)
    (hfits : position.Fits findEffectivePolicy action attributeCache) :
    position.Fits findEffectivePolicy action extended := by
  cases position with
  | tryGetValue => trivial
  | enter => trivial
  | ended answer => exact ⟨hfits.1, hkeeps _ _ hfits.2⟩
  | findEffectivePolicy => exact absurd trivial houtside
  | containsKey _ => exact absurd trivial houtside
  | extend _ => exact absurd trivial houtside
  | publish _ _ => exact absurd trivial houtside
  | exit _ => exact absurd trivial houtside

namespace Consistent

omit [DecidableEq Request] in
/-- A call that has ended has answered with the policy of its action, which the dictionary holds. -/
theorem answer_of_ended (hconsistent : Consistent findEffectivePolicy actionId state)
    {answer : Answer} (hended : state.position request = .ended answer) :
    answer = .ok (findEffectivePolicy (actionId request)) ∧
      state.attributeCache (actionId request) =
        some (findEffectivePolicy (actionId request)) := by
  have hfits := hconsistent.fits request
  rw [hended] at hfits
  exact hfits

omit [DecidableEq Request] in
/-- Only one call is inside the `lock` statement. -/
theorem not_isInside_of_ne (hconsistent : Consistent findEffectivePolicy actionId state)
    (hinside : (state.position request).IsInside) {other : Request} (hne : other ≠ request) :
    ¬ (state.position other).IsInside := by
  intro hother
  have hlock := (hconsistent.lock_iff request).mpr hinside
  rw [(hconsistent.lock_iff other).mpr hother] at hlock
  exact hne (Option.some.inj hlock)

/-- What a move of one call owes the invariant: its own part, and that the calls of other requests
still fit. -/
theorem move {attributeCache : AttributeCache} {lock : Option Request} {position : Position}
    (hsound : Sound (fun action value ↦ value = findEffectivePolicy action) attributeCache)
    (hlock : lock = some request ↔ position.IsInside)
    (hfits : position.Fits findEffectivePolicy (actionId request) attributeCache)
    (hothers : ∀ other, other ≠ request → (lock = some other ↔ (state.position other).IsInside) ∧
      (state.position other).Fits findEffectivePolicy (actionId other) attributeCache) :
    Consistent findEffectivePolicy actionId
      { state.goTo request position with attributeCache := attributeCache, lock := lock } where
  sound := hsound
  lock_iff other := by
    by_cases hself : other = request
    · subst hself
      simpa using hlock
    · simpa [SharedCache.position_goTo_of_ne hself] using (hothers other hself).1
  fits other := by
    by_cases hself : other = request
    · subst hself
      simpa using hfits
    · simpa [SharedCache.position_goTo_of_ne hself] using (hothers other hself).2

/-- A call goes on to a position that fits, without publishing anything and without taking or
releasing the lock. -/
theorem goTo (hconsistent : Consistent findEffectivePolicy actionId state) {before position : Position}
    (hposition : state.position request = before) (hinside : position.IsInside ↔ before.IsInside)
    (hfits : position.Fits findEffectivePolicy (actionId request) state.attributeCache) :
    Consistent findEffectivePolicy actionId (state.goTo request position) := by
  have hlock : state.lock = some request ↔ position.IsInside := by
    rw [hconsistent.lock_iff request, hposition, hinside]
  exact move hconsistent.sound hlock hfits
    fun other _ ↦ ⟨hconsistent.lock_iff other, hconsistent.fits other⟩

/-- A call takes the lock while it is free. -/
theorem takeLock (hconsistent : Consistent findEffectivePolicy actionId state)
    (hfree : state.lock = none) :
    Consistent findEffectivePolicy actionId
      { state.goTo request .findEffectivePolicy with lock := some request } := by
  refine move hconsistent.sound ⟨fun _ ↦ trivial, fun _ ↦ rfl⟩ trivial fun other hne ↦
    ⟨⟨fun hlock ↦ ?_, fun hinside ↦ ?_⟩, hconsistent.fits other⟩
  · exact absurd (Option.some.inj hlock).symm hne
  · have hlock := (hconsistent.lock_iff other).mpr hinside
    rw [hfree] at hlock
    exact absurd hlock (by simp)

/-- The call inside the `lock` statement releases the lock. -/
theorem releaseLock (hconsistent : Consistent findEffectivePolicy actionId state) {answer : Answer}
    (hposition : state.position request = .exit answer) :
    Consistent findEffectivePolicy actionId
      { state.goTo request (.ended answer) with lock := none } := by
  have hinside : (state.position request).IsInside := by
    rw [hposition]
    trivial
  have hfits := hconsistent.fits request
  rw [hposition] at hfits
  refine move hconsistent.sound ⟨fun hlock ↦ ?_, fun hended ↦ hended.elim⟩ hfits fun other hne ↦
    ⟨⟨fun hlock ↦ ?_, fun hother ↦ ?_⟩, hconsistent.fits other⟩
  · exact absurd hlock (by simp)
  · exact absurd hlock (by simp)
  · exact absurd hother (hconsistent.not_isInside_of_ne hinside hne)

omit [DecidableEq Request] in
/-- The dictionary a call has read still lacks its key when the call publishes, so that nothing is
lost and the `Add` does not throw. -/
theorem add_of_publish (hconsistent : Consistent findEffectivePolicy actionId state)
    {transactionAttribute : Option TransactionAttribute} {read : AttributeCache}
    (hposition : state.position request = .publish transactionAttribute read) :
    transactionAttribute = findEffectivePolicy (actionId request) ∧
      state.attributeCache (actionId request) = none ∧
      add (actionId request) transactionAttribute read = .ok (Function.update state.attributeCache
        (actionId request) (some (findEffectivePolicy (actionId request)))) := by
  have hfits := hconsistent.fits request
  rw [hposition] at hfits
  obtain ⟨rfl, hmissing, rfl⟩ := hfits
  exact ⟨rfl, hmissing, by simp only [add, hmissing]⟩

end Consistent

/-- A key that is missing can be added without touching what the dictionary holds. -/
theorem keeps_update {attributeCache : AttributeCache} {action : String}
    (hmissing : attributeCache action = none) (value : Option TransactionAttribute) :
    Keeps attributeCache (Function.update attributeCache action (some value)) := by
  intro other kept hkept
  have hne : other ≠ action := by
    rintro rfl
    exact absurd (hmissing.symm.trans hkept) (by simp)
  rw [Function.update_of_ne hne, hkept]

/-- A call publishes the dictionary with its own key added. -/
theorem Consistent.publish (hconsistent : Consistent findEffectivePolicy actionId state)
    (hinside : (state.position request).IsInside)
    (hmissing : state.attributeCache (actionId request) = none) :
    Consistent findEffectivePolicy actionId
      { state.goTo request (.exit (.ok (findEffectivePolicy (actionId request)))) with
        attributeCache := Function.update state.attributeCache (actionId request)
          (some (findEffectivePolicy (actionId request))) } := by
  refine move (fun action value hvalue ↦ ?_) ?_ ⟨rfl, Function.update_self _ _ _⟩ fun other hne ↦
    ⟨hconsistent.lock_iff other, ?_⟩
  · by_cases hself : action = actionId request
    · subst hself
      rw [Function.update_self] at hvalue
      exact (Option.some.inj hvalue).symm
    · rw [Function.update_of_ne hself] at hvalue
      exact hconsistent.sound action value hvalue
  · exact ⟨fun _ ↦ trivial, fun _ ↦ (hconsistent.lock_iff request).mpr hinside⟩
  · exact (hconsistent.fits other).of_keeps (keeps_update hmissing _)
      (hconsistent.not_isInside_of_ne hinside hne)

/-- Every move keeps the invariant. -/
theorem consistent_getTransactionAttribute (state : SharedCache Request) (request : Request)
    (hconsistent : Consistent findEffectivePolicy actionId state) :
    Consistent findEffectivePolicy actionId
      (getTransactionAttribute findEffectivePolicy actionId state request) := by
  have hfits := hconsistent.fits request
  cases hposition : state.position request with
  | tryGetValue =>
    cases hkept : state.attributeCache (actionId request) with
    | none =>
      simp only [getTransactionAttribute, hposition, hkept]
      exact hconsistent.goTo hposition Iff.rfl trivial
    | some transactionAttribute =>
      simp only [getTransactionAttribute, hposition, hkept]
      obtain rfl := hconsistent.sound _ _ hkept
      exact hconsistent.goTo hposition Iff.rfl ⟨rfl, hkept⟩
  | enter =>
    cases hlock : state.lock with
    | none =>
      simp only [getTransactionAttribute, hposition, hlock]
      exact hconsistent.takeLock hlock
    | some holder =>
      simp only [getTransactionAttribute, hposition, hlock]
      exact hconsistent
  | findEffectivePolicy =>
    simp only [getTransactionAttribute, hposition]
    exact hconsistent.goTo hposition Iff.rfl rfl
  | containsKey transactionAttribute =>
    rw [hposition] at hfits
    obtain rfl : transactionAttribute = findEffectivePolicy (actionId request) := hfits
    cases hkept : state.attributeCache (actionId request) with
    | none =>
      simp only [getTransactionAttribute, hposition, hkept, Option.isSome_none, Bool.false_eq_true,
        if_false]
      exact hconsistent.goTo hposition Iff.rfl ⟨rfl, hkept⟩
    | some kept =>
      simp only [getTransactionAttribute, hposition, hkept, Option.isSome_some, if_true]
      obtain rfl := hconsistent.sound _ _ hkept
      exact hconsistent.goTo hposition Iff.rfl ⟨rfl, hkept⟩
  | extend transactionAttribute =>
    rw [hposition] at hfits
    obtain ⟨rfl, hmissing⟩ := hfits
    simp only [getTransactionAttribute, hposition]
    exact hconsistent.goTo hposition Iff.rfl ⟨rfl, hmissing, rfl⟩
  | publish transactionAttribute read =>
    obtain ⟨rfl, hmissing, hadd⟩ := hconsistent.add_of_publish hposition
    simp only [getTransactionAttribute, hposition, hadd]
    exact hconsistent.publish (by rw [hposition]; trivial) hmissing
  | exit answer =>
    simp only [getTransactionAttribute, hposition]
    exact hconsistent.releaseLock hposition
  | ended answer =>
    simp only [getTransactionAttribute, hposition]
    exact hconsistent

/-- No move takes a key out of the dictionary or gives it another value. -/
theorem keeps_getTransactionAttribute
    (hconsistent : Consistent findEffectivePolicy actionId state) (request : Request) :
    Keeps state.attributeCache
      (getTransactionAttribute findEffectivePolicy actionId state request).attributeCache := by
  by_cases hpublish : ∃ transactionAttribute read,
      state.position request = .publish transactionAttribute read
  · obtain ⟨transactionAttribute, read, hposition⟩ := hpublish
    obtain ⟨rfl, hmissing, hadd⟩ := hconsistent.add_of_publish hposition
    simp only [getTransactionAttribute, hposition, hadd]
    exact keeps_update hmissing _
  · have hsame : (getTransactionAttribute findEffectivePolicy actionId state
        request).attributeCache = state.attributeCache := by
      unfold getTransactionAttribute
      repeat' split
      all_goals first | rfl | exact absurd ⟨_, _, by assumption⟩ hpublish
    intro action value hvalue
    rw [hsame, hvalue]

/-- A call that has not begun finds its action in the dictionary, or it has ended. -/
def IsServed (actionId : Request → String) (state : SharedCache Request) (request : Request) :
    Prop :=
  (∃ value, state.attributeCache (actionId request) = some value) ∧
    (state.position request = .tryGetValue ∨ ∃ answer, state.position request = .ended answer)

/-- A call that finds its action in the dictionary ends with its first move, whatever the others
do. -/
theorem isServed_getTransactionAttribute
    (hconsistent : Consistent findEffectivePolicy actionId state) {served : Request}
    (hserved : IsServed actionId state served) (request : Request) :
    IsServed actionId (getTransactionAttribute findEffectivePolicy actionId state request)
      served := by
  obtain ⟨⟨value, hvalue⟩, hposition⟩ := hserved
  refine ⟨⟨value, keeps_getTransactionAttribute hconsistent request _ _ hvalue⟩, ?_⟩
  by_cases hself : served = request
  · subst hself
    obtain hbegins | ⟨answer, hended⟩ := hposition
    · exact .inr ⟨.ok value, by simp [getTransactionAttribute, hbegins, hvalue]⟩
    · exact .inr ⟨answer, by simp only [getTransactionAttribute, hended]⟩
  · rw [position_getTransactionAttribute_of_ne hself]
    exact hposition

end Invariant

/-! ### Every interleaving -/

section Runs

variable (findEffectivePolicy : String → Option TransactionAttribute) (actionId : Request → String)

theorem consistent_run {state : SharedCache Request}
    (hconsistent : Consistent findEffectivePolicy actionId state) (schedule : List Request) :
    Consistent findEffectivePolicy actionId
      (run (getTransactionAttribute findEffectivePolicy actionId) state schedule) :=
  run_invariant consistent_getTransactionAttribute hconsistent schedule

variable {findEffectivePolicy actionId}

/-- What the dictionary holds it keeps to the end of a run. -/
theorem keeps_run {state : SharedCache Request}
    (hconsistent : Consistent findEffectivePolicy actionId state) (schedule : List Request) :
    Keeps state.attributeCache
      (run (getTransactionAttribute findEffectivePolicy actionId) state schedule).attributeCache := by
  intro action value hvalue
  have hstable : ∀ other request, Consistent findEffectivePolicy actionId other →
      other.attributeCache action = some value →
      (getTransactionAttribute findEffectivePolicy actionId other request).attributeCache action =
        some value :=
    fun _ request hother hkept ↦ keeps_getTransactionAttribute hother request _ _ hkept
  exact run_stable consistent_getTransactionAttribute hstable hconsistent hvalue schedule

/-- A call served from the dictionary never has the lock. -/
theorem lock_run_ne {state : SharedCache Request}
    (hconsistent : Consistent findEffectivePolicy actionId state) {served : Request}
    (hserved : IsServed actionId state served) (schedule : List Request) :
    (run (getTransactionAttribute findEffectivePolicy actionId) state schedule).lock ≠
      some served := by
  have hstable : ∀ other request, Consistent findEffectivePolicy actionId other →
      IsServed actionId other served → IsServed actionId
        (getTransactionAttribute findEffectivePolicy actionId other request) served :=
    fun _ request hother hstill ↦ isServed_getTransactionAttribute hother hstill request
  obtain ⟨-, hposition⟩ :=
    run_stable consistent_getTransactionAttribute hstable hconsistent hserved schedule
  intro hlock
  have hafter := consistent_run findEffectivePolicy actionId hconsistent schedule
  have hinside := (hafter.lock_iff served).mp hlock
  obtain hbegins | ⟨answer, hended⟩ := hposition
  · rw [hbegins] at hinside
    exact hinside
  · rw [hended] at hinside
    exact hinside

/-- While a call has not ended, some call can move: the one that has the lock, or else any. -/
theorem exists_move {state : SharedCache Request}
    (hconsistent : Consistent findEffectivePolicy actionId state)
    (hrunning : ¬ ∀ request, ∃ answer, state.position request = .ended answer) :
    ∃ request, getTransactionAttribute findEffectivePolicy actionId state request ≠ state := by
  by_contra hnone
  push Not at hnone hrunning
  obtain ⟨request, hrequest⟩ := hrunning
  obtain ⟨answer, hended⟩ | ⟨henter, hlock⟩ :=
    isStuck_of_getTransactionAttribute_eq (hnone request)
  · exact hrequest answer hended
  · obtain ⟨holder, hholder⟩ := Option.ne_none_iff_exists'.mp hlock
    have hinside := (hconsistent.lock_iff holder).mp hholder
    exact not_isStuck_of_isInside hinside (isStuck_of_getTransactionAttribute_eq (hnone holder))

/-- The moves all calls together have still to make, at most. -/
def totalRemaining [Fintype Request] (state : SharedCache Request) : ℕ :=
  ∑ request, (state.position request).remaining

/-- With every move there are fewer left. -/
theorem totalRemaining_lt [Fintype Request] (state : SharedCache Request) (request : Request)
    (hmoves : getTransactionAttribute findEffectivePolicy actionId state request ≠ state) :
    totalRemaining (getTransactionAttribute findEffectivePolicy actionId state request) <
      totalRemaining state := by
  have hless : ((getTransactionAttribute findEffectivePolicy actionId state request).position
      request).remaining < (state.position request).remaining :=
    remaining_getTransactionAttribute_lt
      fun hstuck ↦ hmoves (getTransactionAttribute_of_isStuck hstuck)
  refine Finset.sum_lt_sum (fun other _ ↦ ?_) ⟨request, Finset.mem_univ request, hless⟩
  by_cases hself : other = request
  · rw [hself]
    exact hless.le
  · rw [position_getTransactionAttribute_of_ne hself]

/-- For any requests to any actions and every interleaving of their calls: a call that has ended has
answered with the effective policy of its action, the dictionary holds effective policies only, it
keeps its keys and their values from then on, and a call that begins after another one for its action
has ended never has the lock. Under every fair schedule all calls end. -/
theorem getTransactionAttribute_answers [Fintype Request]
    (findEffectivePolicy : String → Option TransactionAttribute) (actionId : Request → String) :
    (∀ schedule,
      let state := run (getTransactionAttribute findEffectivePolicy actionId) start schedule
      (∀ request answer, state.position request = .ended answer →
        answer = .ok (findEffectivePolicy (actionId request))) ∧
      (∀ action value, state.attributeCache action = some value →
        value = findEffectivePolicy action) ∧
      ∀ later,
        let next := run (getTransactionAttribute findEffectivePolicy actionId) state later
        Keeps state.attributeCache next.attributeCache ∧
        ∀ first second, actionId first = actionId second →
          (∃ answer, state.position first = .ended answer) →
          state.position second = .tryGetValue → next.lock ≠ some second) ∧
    ∀ schedule, IsFair schedule → ∃ moment, ∀ request,
      (stateAt (getTransactionAttribute findEffectivePolicy actionId) start schedule
        moment).position request = .ended (.ok (findEffectivePolicy (actionId request))) := by
  have hstart : Consistent findEffectivePolicy actionId (start : SharedCache Request) :=
    consistent_start findEffectivePolicy actionId
  refine ⟨fun schedule ↦ ?_, fun schedule hfair ↦ ?_⟩
  · intro state
    have hconsistent : Consistent findEffectivePolicy actionId state :=
      consistent_run findEffectivePolicy actionId hstart schedule
    refine ⟨fun request answer hended ↦ (hconsistent.answer_of_ended hended).1, hconsistent.sound,
      fun later ↦ ⟨keeps_run hconsistent later, ?_⟩⟩
    rintro first second hsame ⟨answer, hended⟩ hbegins
    have hkept := (hconsistent.answer_of_ended hended).2
    rw [hsame] at hkept
    exact lock_run_ne hconsistent ⟨⟨_, hkept⟩, .inl hbegins⟩ later
  · obtain ⟨moment, hall⟩ := exists_final_of_isFair consistent_getTransactionAttribute
      totalRemaining_lt (fun _ h ↦ exists_move h) hstart hfair
    refine ⟨moment, fun request ↦ ?_⟩
    obtain ⟨answer, hended⟩ := hall request
    have hconsistent := consistent_run findEffectivePolicy actionId hstart
      ((List.range moment).map schedule)
    rw [← stateAt_eq_run] at hconsistent
    rw [hended, (hconsistent.answer_of_ended hended).1]

/-- Two requests to an action without an attribute, which take turns. -/
theorem getTransactionAttribute_answers_turns :
    IsFair (fun moment : ℕ ↦ moment % 2 == 0) ∧
      ∃ moment, ∀ request : Bool,
        (stateAt (getTransactionAttribute (fun _ ↦ none) fun _ ↦ "Orders.Index") start
          (fun moment ↦ moment % 2 == 0) moment).position request = .ended (.ok none) := by
  have hfair : IsFair (fun moment : ℕ ↦ moment % 2 == 0) := by
    intro call moment
    cases call with
    | false => exact ⟨2 * moment + 1, by omega, by simp⟩
    | true => exact ⟨2 * moment, by omega, by simp⟩
  exact ⟨hfair, (getTransactionAttribute_answers (fun _ ↦ none) fun _ ↦ "Orders.Index").2 _ hfair⟩

end Runs

end SharpArch.Web.ApplyTransactionFilterBase

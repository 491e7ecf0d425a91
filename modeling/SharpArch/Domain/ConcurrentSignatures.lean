import SharpArch.Domain.SignatureCache
import SharpArch.Foundation.SharedMemo

/-!
# Signature properties asked for by several threads

The cache of signature properties is one for all threads. `GetSignatureProperties` looks the unproxied
class of its object up in `Find`, and again in `GetOrAdd`, which is that of a `ConcurrentDictionary`: the
factory runs outside of the dictionary, several times if several threads have missed the entry, and one
descriptor is added.

In every interleaving, with the cache cleared at any time, the objects of one unproxied class share one
descriptor until the cache is cleared, even where their runtime classes have different signature
properties: it is the one of the object whose descriptor was added (`getSignatureProperties_concurrent`).
-/

set_option autoImplicit false
set_option relaxedAutoImplicit false

namespace SharpArch.Domain.DomainModel

open Foundation.Run Foundation.SharedMemo Platform.SystemTransactions

variable {Thread Class Property : Type}

/-- The factory that `GetOrAdd` of an object hands over: it asks the object, and describes the type. -/
def BaseObject.factory (classes : Class → ClassInfo Property) (object : BaseObject Class)
    (type : Class) : Except Exn (TypePropertyDescriptor Class Property) :=
  (classes object.getType).getTypeSpecificSignatureProperties.map
    (TypePropertyDescriptor.ofProperties type)

/-- The call of `GetSignatureProperties`: `Find`, and then `GetOrAdd`, which looks the class up again. -/
def BaseObject.signatureCall (classes : Class → ClassInfo Property) (object : BaseObject Class) :
    Call Class (TypePropertyDescriptor Class Property) Exn where
  key := object.getTypeUnproxied
  again := 1
  factory := object.factory classes object.getTypeUnproxied

/-- A `TypePropertyDescriptorCache` that threads share, and where each of them is. -/
abbrev SharedDescriptorCache (Thread Class Property : Type) :=
  Memo Thread Class (TypePropertyDescriptor Class Property) Exn

/-- `Count`. -/
def SharedDescriptorCache.count (cache : SharedDescriptorCache Thread Class Property) : ℕ :=
  cache.entries.length

variable [DecidableEq Thread] [DecidableEq Class]

/-- The shared cache when threads have called `GetSignatureProperties` on objects, each on its own, in
some interleaving, and `Clear`. -/
def SharedDescriptorCache.after (classes : Class → ClassInfo Property)
    (objects : Thread → BaseObject Class) (events : List (Event Thread)) :
    SharedDescriptorCache Thread Class Property :=
  let calls := fun thread ↦ (objects thread).signatureCall classes
  run (Memo.step calls) (Memo.start calls) events

omit [DecidableEq Thread] [DecidableEq Class] in
/-- What the factory of an object makes has the properties of its runtime class. -/
theorem BaseObject.factory_eq_ok {classes : Class → ClassInfo Property} {object : BaseObject Class}
    {type : Class} {descriptor : TypePropertyDescriptor Class Property}
    (hfactory : object.factory classes type = .ok descriptor) :
    descriptor.ownerType = type ∧ signatureOf classes object.getType = .ok descriptor.properties := by
  unfold BaseObject.factory at hfactory
  unfold signatureOf
  cases hspecific : (classes object.getType).getTypeSpecificSignatureProperties with
  | error exception =>
    rw [hspecific] at hfactory
    exact absurd hfactory nofun
  | ok properties =>
    rw [hspecific] at hfactory
    obtain rfl : TypePropertyDescriptor.ofProperties type properties = descriptor :=
      Except.ok.inj hfactory
    exact ⟨rfl, rfl⟩

omit [DecidableEq Thread] [DecidableEq Class] in
/-- It throws what asking the runtime class throws. -/
theorem BaseObject.factory_eq_error {classes : Class → ClassInfo Property} {object : BaseObject Class}
    {type : Class} {exception : Exn} (hfactory : object.factory classes type = .error exception) :
    signatureOf classes object.getType = .error exception := by
  unfold BaseObject.factory at hfactory
  unfold signatureOf
  cases hspecific : (classes object.getType).getTypeSpecificSignatureProperties with
  | ok properties =>
    rw [hspecific] at hfactory
    exact absurd hfactory nofun
  | error thrown =>
    rw [hspecific] at hfactory
    obtain rfl : thrown = exception := Except.error.inj hfactory
    rfl

variable {classes : Class → ClassInfo Property} {objects : Thread → BaseObject Class}
  {events : List (Event Thread)}

theorem consistent_after :
    Consistent (fun thread ↦ (objects thread).signatureCall classes)
      (SharedDescriptorCache.after classes objects events) :=
  consistent_run _ events

/-- An answer is what some object that poses as the class has for signature properties. -/
theorem origin_of_ended {thread : Thread}
    {value : Made (TypePropertyDescriptor Class Property)}
    (hended : (SharedDescriptorCache.after classes objects events).progress thread =
      .ended (.ok value)) :
    value.content.ownerType = (objects thread).getTypeUnproxied ∧
      ∃ other, (objects other).getTypeUnproxied = (objects thread).getTypeUnproxied ∧
        signatureOf classes (objects other).getType = .ok value.content.properties := by
  obtain ⟨other, hother, hfactory⟩ :=
    consistent_after.made_for _ (consistent_after.ended_ok thread value hended)
  have hkey : (objects other).getTypeUnproxied = (objects thread).getTypeUnproxied := hother
  obtain ⟨howner, hproperties⟩ := BaseObject.factory_eq_ok hfactory
  exact ⟨howner.trans hkey, other, hkey, hproperties⟩

/-- A thread throws what its own object throws. -/
theorem throws_of_ended {thread : Thread} {exception : Exn}
    (hended : (SharedDescriptorCache.after classes objects events).progress thread =
      .ended (.error exception)) :
    signatureOf classes (objects thread).getType = .error exception :=
  BaseObject.factory_eq_error (consistent_after.ended_error thread exception hended)

/-- A thread has its answer after two lookups, a run of its factory and an addition. -/
theorem ended_of_moves {thread : Thread} (hmoves : 4 ≤ events.countP (Event.isMoveOf thread)) :
    ∃ answer, (SharedDescriptorCache.after classes objects events).progress thread =
      .ended answer := by
  have hleft : ((SharedDescriptorCache.after classes objects events).progress thread).left ≤
      4 - events.countP (Event.isMoveOf thread) := left_run thread events _
  cases hprogress : (SharedDescriptorCache.after classes objects events).progress thread with
  | ended answer => exact ⟨answer, rfl⟩
  | looks again =>
    rw [hprogress, Progress.left] at hleft
    omega
  | makes =>
    rw [hprogress, Progress.left] at hleft
    omega
  | adds value =>
    rw [hprogress, Progress.left] at hleft
    omega

/-- For all classes, objects and interleavings, with the cache cleared at any time: a thread has its
answer after four moves of its own; it is answered with a descriptor of its unproxied class that has the
signature properties of the runtime class of some object that poses as that class, or with the exception
of its own runtime class. From one clearing to the next all threads that ask for a class are answered
with one and the same descriptor, never with one from before; `Count` is the number of the classes that
were answered. -/
theorem getSignatureProperties_concurrent (classes : Class → ClassInfo Property)
    (objects : Thread → BaseObject Class) (events : List (Event Thread)) :
    let cache := SharedDescriptorCache.after classes objects events
    (∀ thread, 4 ≤ events.countP (Event.isMoveOf thread) →
        ∃ answer, cache.progress thread = .ended answer) ∧
      (∀ thread value, cache.progress thread = .ended (.ok value) →
        ((objects thread).getTypeUnproxied, value) ∈ cache.answered ++ cache.answeredBefore ∧
          value.content.ownerType = (objects thread).getTypeUnproxied ∧
          ∃ other, (objects other).getTypeUnproxied = (objects thread).getTypeUnproxied ∧
            signatureOf classes (objects other).getType = .ok value.content.properties) ∧
      (∀ thread exception, cache.progress thread = .ended (.error exception) →
        signatureOf classes (objects thread).getType = .error exception) ∧
      (∀ answered ∈ cache.answered, ∀ other ∈ cache.answered, answered.1 = other.1 →
        answered.2 = other.2) ∧
      (∀ answered ∈ cache.answered, ∀ earlier ∈ cache.answeredBefore,
        answered.2.number ≠ earlier.2.number) ∧
      cache.count = (cache.answered.map Prod.fst).dedup.length ∧
      (Event.clear ∉ events → cache.answeredBefore = []) := by
  intro cache
  refine ⟨fun _ hmoves ↦ ended_of_moves hmoves, fun thread value hended ↦ ?_,
    fun _ _ hended ↦ throws_of_ended hended, ?_, consistent_after.not_before,
    consistent_after.length_entries, fun hclear ↦ answeredBefore_run hclear rfl⟩
  · exact ⟨consistent_after.ended_ok thread value hended, origin_of_ended hended⟩
  · rintro ⟨type, value⟩ hvalue ⟨otherType, otherValue⟩ hother rfl
    exact consistent_after.answers_agree hvalue hother

/-- Where the runtime class of every object has the signature properties of its unproxied class, every
thread is answered with those, or with an exception if they cannot be had. -/
theorem properties_of_ended
    (hsame : ∀ thread, (signatureOf classes (objects thread).getType).toOption =
      (signatureOf classes (objects thread).getTypeUnproxied).toOption)
    {thread : Thread} {answer : Except Exn (Made (TypePropertyDescriptor Class Property))}
    (hended : (SharedDescriptorCache.after classes objects events).progress thread =
      .ended answer) :
    answer.toOption.map (·.content.properties) =
      (signatureOf classes (objects thread).getTypeUnproxied).toOption := by
  cases answer with
  | error exception =>
    rw [← hsame thread, throws_of_ended hended]
    rfl
  | ok value =>
    obtain ⟨-, other, hother, hproperties⟩ := origin_of_ended hended
    rw [← hother, ← hsame other, hproperties]
    rfl

end SharpArch.Domain.DomainModel

import Mathlib.Data.List.Basic

/-!
# Set operators over a hash set

The LINQ operators `Distinct`, `Union`, `Intersect` and `Except` put the elements they have seen
into a hash set. Only elements whose hash codes are equal are ever compared. A `Comparer` may keep a
memory of its own from one call to the next and may fail to answer, in which case the operator fails.

`firstOccurrences` is what the operators are meant to be: the wanted elements of a sequence that
equal no earlier one, each pair of elements compared. The two are the same for a comparer that
`Agrees` with an equivalence: one that answers every call, compares by that equivalence and gives
equal elements equal codes (`distinct_eq`, `union_eq`, `intersect_eq`, `except_eq`).
-/

set_option autoImplicit false
set_option relaxedAutoImplicit false

namespace SharpArch.Foundation.HashedSet

variable {Element Code Memory : Type*}

/-- An `IEqualityComparer` with a memory. -/
structure Comparer (Element Code Memory : Type*) where
  equals : Element → Element → Option Bool
  getHashCode : Element → Memory → Option (Code × Memory)

/-- The entries of a hash set, the newest first, each with the hash code of its element. -/
abbrev Entries (Element Code : Type*) := List (Code × Element)

section Operators

variable [DecidableEq Code]

/-- Whether an entry with the hash code equals the element. -/
def contains (comparer : Comparer Element Code Memory) (hashCode : Code) (element : Element) :
    Entries Element Code → Option Bool
  | [] => some false
  | entry :: rest =>
    if entry.1 = hashCode then
      match comparer.equals entry.2 element with
      | some false => contains comparer hashCode element rest
      | answer => answer
    else contains comparer hashCode element rest

/-- The entries without the one that equals the element, and whether there was one. -/
def erase (comparer : Comparer Element Code Memory) (hashCode : Code) (element : Element) :
    Entries Element Code → Option (Bool × Entries Element Code)
  | [] => some (false, [])
  | entry :: rest =>
    if entry.1 = hashCode then
      match comparer.equals entry.2 element with
      | none => none
      | some true => some (true, rest)
      | some false => (erase comparer hashCode element rest).map fun found ↦ (found.1, entry :: found.2)
    else (erase comparer hashCode element rest).map fun found ↦ (found.1, entry :: found.2)

/-- `Add`, which answers whether the element is new. -/
def add (comparer : Comparer Element Code Memory) (element : Element)
    (entries : Entries Element Code) (memory : Memory) :
    Option (Bool × Entries Element Code × Memory) :=
  match comparer.getHashCode element memory with
  | none => none
  | some (hashCode, memory) =>
    (contains comparer hashCode element entries).map fun found ↦
      if found then (false, entries, memory) else (true, (hashCode, element) :: entries, memory)

/-- `Remove`, which answers whether the element was there. -/
def remove (comparer : Comparer Element Code Memory) (element : Element)
    (entries : Entries Element Code) (memory : Memory) :
    Option (Bool × Entries Element Code × Memory) :=
  match comparer.getHashCode element memory with
  | none => none
  | some (hashCode, memory) =>
    (erase comparer hashCode element entries).map fun found ↦ (found.1, found.2, memory)

/-- The elements of a sequence on which an operation on the set answers true, in their order. -/
def collect (operation : Element → Entries Element Code → Memory →
      Option (Bool × Entries Element Code × Memory)) :
    List Element → Entries Element Code → Memory →
      Option (List Element × Entries Element Code × Memory)
  | [], entries, memory => some ([], entries, memory)
  | element :: rest, entries, memory =>
    match operation element entries memory with
    | none => none
    | some (yields, entries, memory) =>
      (collect operation rest entries memory).map fun collected ↦
        (if yields then element :: collected.1 else collected.1, collected.2)

/-- `Distinct`. -/
def distinct (comparer : Comparer Element Code Memory) (source : List Element) (memory : Memory) :
    Option (List Element) :=
  (collect (add comparer) source [] memory).map (·.1)

/-- `Union`. -/
def union (comparer : Comparer Element Code Memory) (first second : List Element) (memory : Memory) :
    Option (List Element) :=
  (collect (add comparer) (first ++ second) [] memory).map (·.1)

/-- `Intersect`: a set of the second sequence, from which the first takes its elements. -/
def intersect (comparer : Comparer Element Code Memory) (first second : List Element)
    (memory : Memory) : Option (List Element) :=
  match collect (add comparer) second [] memory with
  | none => none
  | some (_, entries, memory) => (collect (remove comparer) first entries memory).map (·.1)

/-- `Except`: a set of the second sequence, to which the first adds its elements. -/
def except (comparer : Comparer Element Code Memory) (first second : List Element)
    (memory : Memory) : Option (List Element) :=
  match collect (add comparer) second [] memory with
  | none => none
  | some (_, entries, memory) => (collect (add comparer) first entries memory).map (·.1)

end Operators

/-! ### Pairwise comparison -/

/-- The wanted elements of a sequence that equal no earlier one. -/
def firstOccurrences (same : Element → Element → Bool) (wanted : Element → Bool) :
    List Element → List Element → List Element
  | _, [] => []
  | earlier, element :: rest =>
    if wanted element && !earlier.any (same · element) then
      element :: firstOccurrences same wanted (element :: earlier) rest
    else firstOccurrences same wanted (element :: earlier) rest

/-- A comparer that, on the elements of a domain and as long as its memory is good, answers by an
equivalence and gives equivalent elements the same code. -/
structure Agrees (comparer : Comparer Element Code Memory) (same : Element → Element → Bool)
    (code : Element → Code) (good : Memory → Prop) (domain : Element → Prop) : Prop where
  equals_eq : ∀ one two, domain one → domain two → comparer.equals one two = some (same one two)
  hash_eq : ∀ element memory, domain element → good memory →
    ∃ later, comparer.getHashCode element memory = some (code element, later) ∧ good later
  code_of_same : ∀ one two, domain one → domain two → same one two = true → code one = code two
  refl : ∀ element, domain element → same element element = true
  symm : ∀ one two, domain one → domain two → same one two = true → same two one = true
  trans : ∀ one two three, domain one → domain two → domain three → same one two = true →
    same two three = true → same one three = true

variable {comparer : Comparer Element Code Memory} {same : Element → Element → Bool}
  {code : Element → Code} {good : Memory → Prop} {domain : Element → Prop}

/-- The entries hold elements of the domain under their codes. -/
def Coded (code : Element → Code) (domain : Element → Prop) (entries : Entries Element Code) : Prop :=
  ∀ entry ∈ entries, domain entry.2 ∧ entry.1 = code entry.2

/-- Some entry equals the element. -/
def holds (same : Element → Element → Bool) (entries : Entries Element Code) (element : Element) : Bool :=
  entries.any fun entry ↦ same entry.2 element

theorem holds_cons (entry : Code × Element) (entries : Entries Element Code) (element : Element) :
    holds same (entry :: entries) element =
      (same entry.2 element || holds same entries element) := rfl

/-- Equal elements are equal to the same elements. -/
theorem Agrees.same_right (hagrees : Agrees comparer same code good domain)
    {entry element other : Element} (hentry : domain entry) (helement : domain element)
    (hother : domain other) (hsame : same element other = true) :
    same entry element = same entry other := by
  rw [Bool.eq_iff_iff]
  constructor
  · intro hequal
    exact hagrees.trans _ _ _ hentry helement hother hequal hsame
  · intro hequal
    have hback := hagrees.symm _ _ helement hother hsame
    exact hagrees.trans _ _ _ hentry hother helement hequal hback

theorem Agrees.same_comm (hagrees : Agrees comparer same code good domain) {one two : Element}
    (hone : domain one) (htwo : domain two) : same one two = same two one := by
  rw [Bool.eq_iff_iff]
  exact ⟨hagrees.symm _ _ hone htwo, hagrees.symm _ _ htwo hone⟩

/-- An element that equals an entry adds nothing to what the entries equal. -/
theorem holds_of_same (hagrees : Agrees comparer same code good domain) {entries : Entries Element Code}
    (hcoded : Coded code domain entries) {element other : Element} (helement : domain element)
    (hother : domain other) (hholds : holds same entries element = true)
    (hsame : same element other = true) : holds same entries other = true := by
  obtain ⟨entry, hentry, hequal⟩ := List.any_eq_true.mp hholds
  exact List.any_eq_true.mpr ⟨entry, hentry,
    hagrees.trans _ _ _ (hcoded entry hentry).1 helement hother hequal hsame⟩

/-- Starting with some elements seen is wanting none that equals one of them. -/
theorem firstOccurrences_append (seen earlier source : List Element) :
    firstOccurrences same (fun _ ↦ true) (earlier ++ seen) source =
      firstOccurrences same (fun element ↦ !seen.any (same · element)) earlier source := by
  induction source generalizing earlier with
  | nil => rfl
  | cons element rest ih =>
    have hrest := ih (element :: earlier)
    simp only [List.cons_append] at hrest
    simp only [firstOccurrences, hrest, List.any_append, Bool.true_and, Bool.not_or, Bool.and_comm]

/-- The set holds what equals an element seen so far, and no two of its entries are equal. -/
structure Represents (same : Element → Element → Bool) (code : Element → Code)
    (domain : Element → Prop) (entries : Entries Element Code) (seen : Element → Bool) : Prop where
  coded : Coded code domain entries
  separate : entries.Pairwise fun one two ↦ same one.2 two.2 = false
  holds_eq : ∀ element, domain element → holds same entries element = seen element

theorem represents_nil :
    Represents same code domain ([] : Entries Element Code) fun element ↦ [].any (same · element) where
  coded := fun _ h ↦ absurd h List.not_mem_nil
  separate := List.Pairwise.nil
  holds_eq := fun _ _ ↦ rfl

theorem represents_add (hagrees : Agrees comparer same code good domain)
    {entries : Entries Element Code} {earlier : List Element}
    (hrepresents : Represents same code domain entries fun other ↦ earlier.any (same · other))
    {element : Element} (helement : domain element) :
    Represents same code domain
      (if holds same entries element then entries else (code element, element) :: entries)
      fun other ↦ (element :: earlier).any (same · other) := by
  obtain ⟨hcoded, hseparate, hholds⟩ := hrepresents
  split_ifs with hfound
  · refine ⟨hcoded, hseparate, fun other hother ↦ ?_⟩
    rw [List.any_cons, ← hholds other hother]
    cases hsame : same element other with
    | false => simp
    | true => rw [holds_of_same hagrees hcoded helement hother hfound hsame, Bool.true_or]
  · refine ⟨List.forall_mem_cons.mpr ⟨⟨helement, rfl⟩, hcoded⟩,
      List.pairwise_cons.mpr ⟨fun entry hentry ↦ ?_, hseparate⟩, fun other hother ↦ ?_⟩
    · rw [← Bool.not_eq_true]
      intro hsame
      exact hfound (List.any_eq_true.mpr
        ⟨entry, hentry, hagrees.symm _ _ helement (hcoded entry hentry).1 hsame⟩)
    · rw [holds_cons, List.any_cons, hholds other hother]

/-- Without the entry that equals an element, the set equals what it did but for that element. -/
theorem holds_eraseP (hagrees : Agrees comparer same code good domain)
    {entries : Entries Element Code} (hcoded : Coded code domain entries)
    (hseparate : entries.Pairwise fun one two ↦ same one.2 two.2 = false)
    {element other : Element} (helement : domain element) (hother : domain other) :
    holds same (entries.eraseP fun entry ↦ same entry.2 element) other =
      (holds same entries other && !same element other) := by
  induction entries with
  | nil => rfl
  | cons entry rest ih =>
    obtain ⟨⟨hentry, -⟩, hrest⟩ := List.forall_mem_cons.mp hcoded
    obtain ⟨hapart, hseparate⟩ := List.pairwise_cons.mp hseparate
    cases hmatch : same entry.2 element with
    | false =>
      rw [List.eraseP_cons_of_neg (by simp [hmatch]), holds_cons, holds_cons, ih hrest hseparate]
      cases hsame : same element other with
      | false => simp
      | true =>
        have hapartOther : same entry.2 other = false := by
          rw [← hagrees.same_right hentry helement hother hsame, hmatch]
        simp [hapartOther]
    | true =>
      rw [List.eraseP_cons_of_pos (by simp [hmatch]), holds_cons]
      have hentryOther : same entry.2 other = same element other := by
        rw [hagrees.same_comm hentry hother, hagrees.same_right hother hentry helement hmatch,
          hagrees.same_comm hother helement]
      cases hsame : same element other with
      | false => simp [hentryOther, hsame]
      | true =>
        -- the entry that was removed is the only one that `other` equals
        have hgone : holds same rest other = false := by
          refine List.any_eq_false.mpr fun kept hkept ↦ ?_
          have hkeptDomain := (hrest kept hkept).1
          rw [← hagrees.same_right hkeptDomain hentry hother (hentryOther.trans hsame),
            hagrees.same_comm hkeptDomain hentry, hapart kept hkept]
          exact Bool.false_ne_true
        simp [hgone]

section Sets

variable [DecidableEq Code]

theorem contains_eq (hagrees : Agrees comparer same code good domain) {entries : Entries Element Code}
    (hcoded : Coded code domain entries) {element : Element} (helement : domain element) :
    contains comparer (code element) element entries = some (holds same entries element) := by
  induction entries with
  | nil => rfl
  | cons entry rest ih =>
    obtain ⟨⟨hentry, hcode⟩, hrest⟩ := List.forall_mem_cons.mp hcoded
    simp only [contains, hagrees.equals_eq _ _ hentry helement, ih hrest, holds, List.any_cons]
    by_cases hsame : same entry.2 element = true
    · have hcodes : entry.1 = code element :=
        hcode.trans (hagrees.code_of_same _ _ hentry helement hsame)
      simp [hcodes, hsame]
    · simp [Bool.not_eq_true _ ▸ hsame]

theorem add_eq (hagrees : Agrees comparer same code good domain) {entries : Entries Element Code}
    (hcoded : Coded code domain entries) {element : Element} (helement : domain element)
    {memory : Memory} (hmemory : good memory) :
    ∃ later, good later ∧ add comparer element entries memory =
      some (!holds same entries element,
        if holds same entries element then entries else (code element, element) :: entries, later) := by
  obtain ⟨later, hhash, hlater⟩ := hagrees.hash_eq element memory helement hmemory
  refine ⟨later, hlater, ?_⟩
  simp only [add, hhash, contains_eq hagrees hcoded helement, Option.map_some]
  cases holds same entries element <;> rfl

/-- Adding the elements of a sequence one by one yields the first occurrences in it. -/
theorem collect_add (hagrees : Agrees comparer same code good domain) (source : List Element)
    (hsource : ∀ element ∈ source, domain element) (entries : Entries Element Code)
    (earlier : List Element)
    (hrepresents : Represents same code domain entries fun other ↦ earlier.any (same · other))
    (memory : Memory) (hmemory : good memory) :
    ∃ after later, good later ∧
      (Represents same code domain after fun other ↦ (source.reverse ++ earlier).any (same · other)) ∧
      collect (add comparer) source entries memory =
        some (firstOccurrences same (fun _ ↦ true) earlier source, after, later) := by
  induction source generalizing entries earlier memory with
  | nil => exact ⟨entries, memory, hmemory, hrepresents, rfl⟩
  | cons element rest ih =>
    obtain ⟨helement, hrest⟩ := List.forall_mem_cons.mp hsource
    obtain ⟨between, hbetween, hadd⟩ := add_eq hagrees hrepresents.coded helement hmemory
    obtain ⟨after, later, hlater, hafter, hcollect⟩ :=
      ih hrest _ _ (represents_add hagrees hrepresents helement) between hbetween
    refine ⟨after, later, hlater, by simpa using hafter, ?_⟩
    simp only [collect, hadd, hcollect, firstOccurrences, Option.map_some, Bool.true_and]
    rw [hrepresents.holds_eq element helement]

theorem erase_eq (hagrees : Agrees comparer same code good domain) {entries : Entries Element Code}
    (hcoded : Coded code domain entries) {element : Element} (helement : domain element) :
    erase comparer (code element) element entries =
      some (holds same entries element, entries.eraseP fun entry ↦ same entry.2 element) := by
  induction entries with
  | nil => rfl
  | cons entry rest ih =>
    obtain ⟨⟨hentry, hcode⟩, hrest⟩ := List.forall_mem_cons.mp hcoded
    simp only [erase, hagrees.equals_eq _ _ hentry helement, ih hrest, holds_cons, Option.map_some]
    cases hsame : same entry.2 element with
    | false => simp [hsame]
    | true =>
      have hcodes : entry.1 = code element :=
        hcode.trans (hagrees.code_of_same _ _ hentry helement hsame)
      simp [hcodes, hsame]

theorem remove_eq (hagrees : Agrees comparer same code good domain) {entries : Entries Element Code}
    (hcoded : Coded code domain entries) {element : Element} (helement : domain element)
    {memory : Memory} (hmemory : good memory) :
    ∃ later, good later ∧ remove comparer element entries memory =
      some (holds same entries element, entries.eraseP (fun entry ↦ same entry.2 element), later) := by
  obtain ⟨later, hhash, hlater⟩ := hagrees.hash_eq element memory helement hmemory
  refine ⟨later, hlater, ?_⟩
  simp only [remove, hhash, erase_eq hagrees hcoded helement, Option.map_some]

/-- Removing the elements of a sequence one by one yields the first occurrences in it of what the set
held. -/
theorem collect_remove (hagrees : Agrees comparer same code good domain) {wanted : Element → Bool}
    (source : List Element) (hsource : ∀ element ∈ source, domain element)
    (entries : Entries Element Code) (earlier : List Element)
    (hrepresents : Represents same code domain entries
      fun other ↦ wanted other && !earlier.any (same · other))
    (memory : Memory) (hmemory : good memory) :
    ∃ after, collect (remove comparer) source entries memory =
      some (firstOccurrences same wanted earlier source, after) := by
  induction source generalizing entries earlier memory with
  | nil => exact ⟨_, rfl⟩
  | cons element rest ih =>
    obtain ⟨helement, hrest⟩ := List.forall_mem_cons.mp hsource
    obtain ⟨between, hbetween, hremove⟩ := remove_eq hagrees hrepresents.coded helement hmemory
    have hrepresents' : Represents same code domain
        (entries.eraseP fun entry ↦ same entry.2 element)
        fun other ↦ wanted other && !(element :: earlier).any (same · other) := by
      refine ⟨fun entry hentry ↦ hrepresents.coded entry (List.mem_of_mem_eraseP hentry),
        hrepresents.separate.sublist List.eraseP_sublist, fun other hother ↦ ?_⟩
      rw [holds_eraseP hagrees hrepresents.coded hrepresents.separate helement hother,
        hrepresents.holds_eq other hother, List.any_cons, Bool.not_or, Bool.and_assoc,
        Bool.and_comm (!same element other)]
    obtain ⟨after, hcollect⟩ := ih hrest _ _ hrepresents' between hbetween
    refine ⟨after, ?_⟩
    simp only [collect, hremove, hcollect, firstOccurrences, Option.map_some]
    rw [hrepresents.holds_eq element helement]

theorem distinct_eq (hagrees : Agrees comparer same code good domain) {source : List Element}
    (hsource : ∀ element ∈ source, domain element) {memory : Memory} (hmemory : good memory) :
    distinct comparer source memory = some (firstOccurrences same (fun _ ↦ true) [] source) := by
  obtain ⟨after, later, -, -, hcollect⟩ :=
    collect_add hagrees source hsource [] [] represents_nil memory hmemory
  rw [distinct, hcollect, Option.map_some]

theorem union_eq (hagrees : Agrees comparer same code good domain) {first second : List Element}
    (hfirst : ∀ element ∈ first, domain element) (hsecond : ∀ element ∈ second, domain element)
    {memory : Memory} (hmemory : good memory) :
    union comparer first second memory =
      some (firstOccurrences same (fun _ ↦ true) [] (first ++ second)) :=
  distinct_eq hagrees (List.forall_mem_append.mpr ⟨hfirst, hsecond⟩) hmemory

theorem except_eq (hagrees : Agrees comparer same code good domain) {first second : List Element}
    (hfirst : ∀ element ∈ first, domain element) (hsecond : ∀ element ∈ second, domain element)
    {memory : Memory} (hmemory : good memory) :
    except comparer first second memory =
      some (firstOccurrences same (fun element ↦ !second.any (same · element)) [] first) := by
  obtain ⟨entries, between, hbetween, hrepresents, hcollect⟩ :=
    collect_add hagrees second hsecond [] [] represents_nil memory hmemory
  obtain ⟨after, later, -, -, hcollect'⟩ :=
    collect_add hagrees first hfirst entries _ hrepresents between hbetween
  have hseen : firstOccurrences same (fun _ ↦ true) ([] ++ second.reverse) first = _ :=
    firstOccurrences_append second.reverse [] first
  simp only [List.any_reverse, List.nil_append] at hseen
  rw [except, hcollect]
  simp only [hcollect', Option.map_some, List.append_nil, hseen]

theorem intersect_eq (hagrees : Agrees comparer same code good domain) {first second : List Element}
    (hfirst : ∀ element ∈ first, domain element) (hsecond : ∀ element ∈ second, domain element)
    {memory : Memory} (hmemory : good memory) :
    intersect comparer first second memory =
      some (firstOccurrences same (fun element ↦ second.any (same · element)) [] first) := by
  obtain ⟨entries, between, hbetween, hrepresents, hcollect⟩ :=
    collect_add hagrees second hsecond [] [] represents_nil memory hmemory
  have hwanted : Represents same code domain entries
      fun other ↦ second.any (same · other) && !([] : List Element).any (same · other) := by
    refine ⟨hrepresents.coded, hrepresents.separate, fun other hother ↦ ?_⟩
    rw [hrepresents.holds_eq other hother]
    simp
  obtain ⟨after, hcollect'⟩ := collect_remove hagrees first hfirst entries [] hwanted between hbetween
  rw [intersect, hcollect]
  simp only [hcollect', Option.map_some]

end Sets

end SharpArch.Foundation.HashedSet

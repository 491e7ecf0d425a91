import SharpArch.Foundation.Run
import Mathlib.Data.List.Nodup
import Mathlib.Logic.Function.Basic

/-!
# Tables with a key, as maps

The rows of a table have keys of their own, and a table stands for a map from keys to entries when the row
of a key, if there is one, is related to the entry of the key (`StandsFor`). A new row is a new entry
(`StandsFor.insert`), and rows that are changed or deleted under their keys are entries that are changed or
deleted (`StandsFor.revise`).

`respond` is what a component answers to a history of calls. Two components whose related states give the
same answers and stay related answer every history alike (`respond_eq`).
-/

set_option autoImplicit false
set_option relaxedAutoImplicit false

namespace SharpArch.Foundation.KeyedTable

variable {Row Key Entry : Type*} [DecidableEq Key]

/-- The row of a key. -/
def lookup (key : Row → Key) (wanted : Key) (rows : List Row) : Option Row :=
  rows.find? fun row ↦ key row = wanted

/-- No two rows have one key, and the row and the entry of a key are related, or there are none. -/
structure StandsFor (key : Row → Key) (related : Row → Entry → Prop) (rows : List Row)
    (entries : Key → Option Entry) : Prop where
  nodup : (rows.map key).Nodup
  entry : ∀ wanted, Option.Rel related (lookup key wanted rows) (entries wanted)

variable {key : Row → Key} {related : Row → Entry → Prop} {rows : List Row} {row : Row} {wanted : Key}
  {entries : Key → Option Entry} {entry : Entry}

theorem lookup_eq_none_iff : lookup key wanted rows = none ↔ ∀ row ∈ rows, key row ≠ wanted := by
  simp [lookup]

theorem mem_of_lookup_eq_some (hlookup : lookup key wanted rows = some row) :
    row ∈ rows ∧ key row = wanted :=
  ⟨List.mem_of_find?_eq_some hlookup, by simpa using List.find?_some hlookup⟩

theorem lookup_eq_some_iff (hnodup : (rows.map key).Nodup) :
    lookup key wanted rows = some row ↔ row ∈ rows ∧ key row = wanted := by
  constructor
  · exact mem_of_lookup_eq_some
  · rintro ⟨hmem, rfl⟩
    cases hlookup : lookup key (key row) rows with
    | none => exact absurd rfl (lookup_eq_none_iff.mp hlookup row hmem)
    | some found =>
      obtain ⟨hfound, hkey⟩ := mem_of_lookup_eq_some hlookup
      exact congrArg some (List.inj_on_of_nodup_map hnodup hfound hmem hkey)

/-- What is found is a row with the key, and there is none when nothing is found. -/
structure Finds (key : Row → Key) (wanted : Key) (rows : List Row) (found : Option Row) : Prop where
  mem : ∀ row, found = some row → row ∈ rows ∧ key row = wanted
  missing : found = none → ∀ row ∈ rows, key row ≠ wanted

theorem finds_lookup : Finds key wanted rows (lookup key wanted rows) :=
  ⟨fun _ hfound ↦ mem_of_lookup_eq_some hfound, lookup_eq_none_iff.mp⟩

/-- There is only one row to find. -/
theorem Finds.eq_lookup {found : Option Row} (hfinds : Finds key wanted rows found)
    (hnodup : (rows.map key).Nodup) : found = lookup key wanted rows := by
  cases found with
  | none => exact (lookup_eq_none_iff.mpr (hfinds.missing rfl)).symm
  | some row => exact ((lookup_eq_some_iff hnodup).mpr (hfinds.mem row rfl)).symm

namespace StandsFor

/-- Whatever finds rows by their keys finds what is related to the entry of a key. -/
theorem entry_of_finds (hstands : StandsFor key related rows entries) {found : Option Row}
    (hfinds : Finds key wanted rows found) : Option.Rel related found (entries wanted) := by
  rw [hfinds.eq_lookup hstands.nodup]
  exact hstands.entry wanted

/-- A row has an entry under its key. -/
theorem exists_entry (hstands : StandsFor key related rows entries) (hmem : row ∈ rows) :
    ∃ entry, entries (key row) = some entry ∧ related row entry := by
  have hentry := hstands.entry (key row)
  rw [(lookup_eq_some_iff hstands.nodup).mpr ⟨hmem, rfl⟩] at hentry
  generalize entries (key row) = found at hentry
  cases hentry with
  | some hrelated => exact ⟨_, rfl, hrelated⟩

/-- An entry has a row with its key. -/
theorem exists_row (hstands : StandsFor key related rows entries) (hentry : entries wanted = some entry) :
    ∃ row ∈ rows, key row = wanted ∧ related row entry := by
  have hrel := hstands.entry wanted
  rw [hentry] at hrel
  generalize hlookup : lookup key wanted rows = found at hrel
  cases hrel with
  | some hrelated =>
    obtain ⟨hmem, hkey⟩ := mem_of_lookup_eq_some hlookup
    exact ⟨_, hmem, hkey, hrelated⟩

theorem lookup_eq_none (hstands : StandsFor key related rows entries) :
    lookup key wanted rows = none ↔ entries wanted = none := by
  have hrel := hstands.entry wanted
  generalize lookup key wanted rows = found at hrel ⊢
  generalize entries wanted = held at hrel ⊢
  cases hrel <;> simp

theorem empty : StandsFor key related [] fun _ ↦ none :=
  ⟨List.nodup_nil, fun _ ↦ Option.Rel.none⟩

/-- A row with a key of its own is added. -/
theorem insert (hstands : StandsFor key related rows entries) (hnew : entries (key row) = none)
    (hrelated : related row entry) :
    StandsFor key related (rows ++ [row]) (Function.update entries (key row) (some entry)) := by
  have hfree := lookup_eq_none_iff.mp (hstands.lookup_eq_none.mpr hnew)
  constructor
  · rw [List.map_append, List.map_singleton]
    refine hstands.nodup.append (List.nodup_singleton _) ?_
    rw [List.disjoint_singleton]
    rintro hmem
    obtain ⟨other, hother, hkey⟩ := List.mem_map.mp hmem
    exact hfree other hother hkey
  · intro wanted
    rw [lookup, List.find?_append]
    by_cases hkey : key row = wanted
    · subst hkey
      have hnone : rows.find? (fun other ↦ key other = key row) = none :=
        hstands.lookup_eq_none.mpr hnew
      rw [hnone, Function.update_self]
      simpa using hrelated
    · have hnone : [row].find? (fun other ↦ key other = wanted) = none := by simp [hkey]
      rw [hnone, Option.or_none, Function.update_of_ne (Ne.symm hkey)]
      exact hstands.entry wanted

/-- Rows are changed under their keys or deleted, and so are their entries. -/
theorem revise (hstands : StandsFor key related rows entries) {change : Row → Option Row}
    {changeEntry : Entry → Option Entry}
    (hkey : ∀ row ∈ rows, ∀ changed, change row = some changed → key changed = key row)
    (hrelated : ∀ row ∈ rows, ∀ entry, entries (key row) = some entry → related row entry →
      Option.Rel related (change row) (changeEntry entry)) :
    StandsFor key related (rows.filterMap change) fun wanted ↦ (entries wanted).bind changeEntry := by
  have hnodup : ((rows.filterMap change).map key).Nodup := by
    refine List.Nodup.sublist ?_ hstands.nodup
    clear hrelated hstands
    induction rows with
    | nil => exact List.Sublist.slnil
    | cons first rest ih =>
      obtain ⟨hfirst, hrest⟩ := List.forall_mem_cons.mp hkey
      cases hchange : change first with
      | none =>
        rw [List.filterMap_cons_none hchange]
        exact (ih hrest).cons _
      | some changed =>
        rw [List.filterMap_cons_some hchange, List.map_cons, List.map_cons, hfirst changed hchange]
        exact (ih hrest).cons_cons _
  refine ⟨hnodup, fun wanted ↦ ?_⟩
  cases hentry : entries wanted with
  | none =>
    have hfree := lookup_eq_none_iff.mp (hstands.lookup_eq_none.mpr hentry)
    have hnone : lookup key wanted (rows.filterMap change) = none := by
      refine lookup_eq_none_iff.mpr fun changed hchanged ↦ ?_
      obtain ⟨row, hmem, hchange⟩ := List.mem_filterMap.mp hchanged
      rw [hkey row hmem changed hchange]
      exact hfree row hmem
    rw [hnone]
    exact Option.Rel.none
  | some entry =>
    obtain ⟨row, hmem, rfl, hrow⟩ := hstands.exists_row hentry
    have hchanged := hrelated row hmem entry hentry hrow
    have hlookup : lookup key (key row) (rows.filterMap change) = change row := by
      cases hchange : change row with
      | some changed =>
        exact (lookup_eq_some_iff hnodup).mpr
          ⟨List.mem_filterMap.mpr ⟨row, hmem, hchange⟩, hkey row hmem changed hchange⟩
      | none =>
        refine lookup_eq_none_iff.mpr fun other hother hsame ↦ ?_
        obtain ⟨source, hsource, hother⟩ := List.mem_filterMap.mp hother
        have heq : source = row := List.inj_on_of_nodup_map hstands.nodup hsource hmem
          ((hkey source hsource other hother).symm.trans hsame)
        rw [heq, hchange] at hother
        cases hother
    rw [hlookup]
    exact hchanged

end StandsFor

/-! ### Answers -/

variable {State Other Call Answer : Type*}

/-- The answers to calls, oldest first, and the state after them. -/
def respond (step : State → Call → Answer × State) : State → List Call → List Answer × State
  | state, [] => ([], state)
  | state, call :: rest =>
    let others := respond step (step state call).2 rest
    ((step state call).1 :: others.1, others.2)

theorem respond_snd (step : State → Call → Answer × State) (start : State) (calls : List Call) :
    (respond step start calls).2 = Run.run (fun state call ↦ (step state call).2) start calls := by
  induction calls generalizing start with
  | nil => rfl
  | cons call rest ih => exact ih (step start call).2

/-- Two components in related states give the same answers to every history and end in related states, if
they do so for every call. -/
theorem respond_eq {step : State → Call → Answer × State} {step' : Other → Call → Answer × Other}
    {simulates : State → Other → Prop}
    (hstep : ∀ state other call, simulates state other →
      (step state call).1 = (step' other call).1 ∧ simulates (step state call).2 (step' other call).2)
    {start : State} {start' : Other} (hstart : simulates start start') (calls : List Call) :
    (respond step start calls).1 = (respond step' start' calls).1 ∧
      simulates (respond step start calls).2 (respond step' start' calls).2 := by
  induction calls generalizing start start' with
  | nil => exact ⟨rfl, hstart⟩
  | cons call rest ih =>
    obtain ⟨hanswer, hnext⟩ := hstep start start' call hstart
    obtain ⟨hanswers, hlast⟩ := ih hnext
    exact ⟨congrArg₂ List.cons hanswer hanswers, hlast⟩

end SharpArch.Foundation.KeyedTable

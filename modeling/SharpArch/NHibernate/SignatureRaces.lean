import SharpArch.Foundation.CheckThenAct
import SharpArch.NHibernate.UniqueSignatures

/-!
# Signatures and concurrent requests

Every request has a session of its own. It validates its entity there, over the rows that are committed by
then, and saves it if it is valid; the row is written when the request commits. In between, other requests
validate and commit.

An interleaving is a list of events. Whatever it is, a domain signature comes to be in the table twice
exactly through a race: two requests have saved entities with the same signature, and each of them was
validated before the other had committed (`uniqueSignatures_run_iff`).
-/

set_option autoImplicit false
set_option relaxedAutoImplicit false

namespace SharpArch.NHibernate

open Foundation Foundation.CheckThenAct Foundation.Run Foundation.SqlLike Platform.SystemTransactions

variable {Property Key Plain Request : Type} {entityType : EntityClass Property} [DecidableEq Key]
  [DecidableEq Plain] [DecidableEq Request]

/-- The rows that are committed, what the requests know of their entities, and which of these have been
saved. -/
structure SharedTable (entityType : EntityClass Property) (Key Plain Request : Type) where
  rows : List (Row entityType Key Plain)
  valid : Request → Option Bool
  saved : List Request

namespace SharedTable

/-- What the requests work with. -/
structure Requests (entityType : EntityClass Property) (Key Plain Request : Type) where
  letterCase : LetterCase
  generator : IdGenerator entityType Key Plain
  flushMode : Request → FlushMode
  entity : Request → Entity entityType Key Plain

def start (rows : List (Row entityType Key Plain)) : SharedTable entityType Key Plain Request :=
  ⟨rows, fun _ ↦ none, []⟩

variable (requests : Requests entityType Key Plain Request)

/-- The session of a request over the committed rows. -/
def Requests.session (request : Request) (rows : List (Row entityType Key Plain)) :
    Session entityType Key Plain :=
  ⟨requests.flushMode request, rows, []⟩

/-- Whether a request is told that its entity is valid. -/
def Requests.isValid (rows : List (Row entityType Key Plain)) (request : Request) : Bool :=
  match ((requests.entity request).isValid requests.letterCase (requests.session request rows)).1 with
  | .ok valid => valid
  | .error _ => false

/-- The rows after the entity of a request is saved and the request commits. -/
def Requests.commit (rows : List (Row entityType Key Plain)) (request : Request) :
    List (Row entityType Key Plain) :=
  ((requests.session request rows).save requests.generator (requests.entity request)).flush.stored

/-- A request validates its entity, or commits. -/
def step (table : SharedTable entityType Key Plain Request) :
    Event Request → SharedTable entityType Key Plain Request
  | .check request =>
    match table.valid request with
    | some _ => table
    | none =>
      { table with
        valid := Function.update table.valid request (some (requests.isValid table.rows request)) }
  | .act request =>
    if table.valid request = some true ∧ request ∉ table.saved then
      { table with
        rows := requests.commit table.rows request
        saved := table.saved ++ [request] }
    else table

/-- The rows after the entities of requests have been saved. -/
def rowsAfter (rows : List (Row entityType Key Plain)) (saved : List Request) :
    List (Row entityType Key Plain) :=
  rows ++ requests.generator.newRows rows (saved.map requests.entity)

/-- What a request may do once those in the list have been saved. -/
def mayCommit (rows : List (Row entityType Key Plain)) (saved : List Request) (request : Request) : Bool :=
  requests.isValid (rowsAfter requests rows saved) request

/-- The table is that of the desk where requests check first and act later. -/
structure Follows (rows : List (Row entityType Key Plain))
    (table : SharedTable entityType Key Plain Request) (desk : Desk Request) : Prop where
  valid_eq : table.valid = desk.told
  saved_eq : table.saved = desk.acted
  rows_eq : table.rows = rowsAfter requests rows desk.acted

variable {requests} {rows : List (Row entityType Key Plain)}

omit [DecidableEq Plain] in
theorem newRows_concat (generator : IdGenerator entityType Key Plain)
    (entities : List (Entity entityType Key Plain)) (entity : Entity entityType Key Plain) :
    generator.newRows rows (entities ++ [entity]) = generator.newRows rows entities ++
      [entity.row (generator.next (rows ++ generator.newRows rows entities))] := by
  induction entities generalizing rows with
  | nil => simp [IdGenerator.newRows]
  | cons first rest ih =>
    rw [List.cons_append, IdGenerator.newRows, ih, IdGenerator.newRows, List.cons_append,
      List.append_assoc, List.singleton_append]

omit [DecidableEq Plain] [DecidableEq Request] in
/-- A request that commits writes the row of its entity. -/
theorem commit_rowsAfter {request : Request} (hnew : (requests.entity request).identity.getId = none)
    (saved : List Request) :
    requests.commit (rowsAfter requests rows saved) request =
      rowsAfter requests rows (saved ++ [request]) := by
  have hflush : ∀ found, (requests.session request found).flush.stored = found := fun _ ↦ rfl
  rw [Requests.commit, stored_flush_save hnew, hflush, rowsAfter, rowsAfter, List.map_append,
    List.map_singleton, newRows_concat, List.append_assoc]

theorem Follows.step (hnew : ∀ request, (requests.entity request).identity.getId = none)
    {table : SharedTable entityType Key Plain Request} {desk : Desk Request}
    (hfollows : Follows requests rows table desk) (event : Event Request) :
    Follows requests rows (table.step requests event)
      (desk.step (mayCommit requests rows) event) := by
  obtain ⟨found, valid, saved⟩ := table
  obtain ⟨acted, told⟩ := desk
  obtain rfl : valid = told := hfollows.valid_eq
  obtain rfl : saved = acted := hfollows.saved_eq
  obtain rfl : found = rowsAfter requests rows saved := hfollows.rows_eq
  cases event with
  | check request =>
    simp only [SharedTable.step, Desk.step]
    cases valid request with
    | some told => exact hfollows
    | none => exact ⟨rfl, rfl, rfl⟩
  | act request =>
    simp only [SharedTable.step, Desk.step]
    split_ifs
    · exact ⟨rfl, rfl, commit_rowsAfter (hnew request) saved⟩
    · exact hfollows

end SharedTable

end SharpArch.NHibernate

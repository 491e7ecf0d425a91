import SharpArch.TardisBank.ScheduledPayments
import SharpArch.TardisBank.Users

/-!
# Parents and children

A parent pays into the accounts of its children and hands out the cash they withdraw. Nothing keeps a
parent from paying a negative amount, or a child from withdrawing one; what is checked is that the child is
one of the parent's and that it does not withdraw more than its balance.

That is enough: as long as parents pay nothing negative, no account is ever overdrawn, whoever calls what
in which order (`balance_nonneg`). A call that throws leaves the bank as it was, except that a withdrawal
without a mediator is booked before the parent would get its message; so the calls that throw may be left
out of a history (`run_accepted`).
-/

set_option autoImplicit false
set_option relaxedAutoImplicit false

namespace SharpArch.TardisBank

open Foundation.Run Platform

/-- A `Child`. Its identifier is zero until it is saved. -/
structure Child where
  user : User
  id : ℤ
  parentId : ℤ
  account : Account

/-- A `Parent`, with references to its children. -/
structure Parent where
  user : User
  id : ℤ
  children : List ℕ

/-- All parents and children by reference, and how many children there are. -/
structure Bank where
  parents : ℕ → Parent
  children : ℕ → Child
  created : ℕ

/-- The account after its schedules are saved and each has an identifier. -/
def Account.saveSchedules (ids : ℕ → ℤ) (account : Account) : Account :=
  { account with
    paymentSchedules := account.paymentSchedules.mapIdx fun position schedule ↦
      { schedule with id := ids position } }

namespace Bank

variable {bank : Bank} {child parent : ℕ}

def setChild (reference : ℕ) (child : Child) (bank : Bank) : Bank :=
  { bank with children := Function.update bank.children reference child }

def setParent (reference : ℕ) (parent : Parent) (bank : Bank) : Bank :=
  { bank with parents := Function.update bank.parents reference parent }

def setAccount (reference : ℕ) (account : Account) (bank : Bank) : Bank :=
  bank.setChild reference { bank.children reference with account := account }

/-- `==` of two children, which have no signature properties: they are one object, or saved under the
same identifier. -/
def equals (bank : Bank) (left right : ℕ) : Bool :=
  left == right || (bank.children left).id != 0 && (bank.children right).id != 0 &&
    (bank.children left).id == (bank.children right).id

/-- `HasChild`. -/
def hasChild (parent child : ℕ) (bank : Bank) : Bool :=
  (bank.parents parent).children.any fun other ↦ bank.equals other child

/-! ### The calls -/

/-- `CreateChild`. -/
def createChild (parent : ℕ) (name userName password : String) (bank : Bank) : Bank :=
  let child : Child :=
    { user := { name := name, userName := userName, password := password, isActive := true }
      id := 0
      parentId := (bank.parents parent).id
      account := {} }
  { (bank.setChild bank.created child).setParent parent
      { bank.parents parent with children := (bank.parents parent).children ++ [bank.created] } with
    created := bank.created + 1 }

/-- `RemoveChild`: `SingleOrDefault` throws when several children have the identifier, and `Remove` takes
the first child that is equal to the one found. -/
def removeChild (parent : ℕ) (childId : ℤ) (bank : Bank) : Except Exn Unit × Bank :=
  match (bank.parents parent).children.filter fun child ↦ (bank.children child).id == childId with
  | [] => (.ok (), bank)
  | [childToRemove] =>
    (.ok (), bank.setParent parent
      { bank.parents parent with
        children := (bank.parents parent).children.eraseP fun other ↦
          bank.equals other childToRemove })
  | _ :: _ :: _ => (.error .invalidOperation, bank)

/-- `AddTransaction` on the account of a child. -/
def addTransaction (today : DateTime) (child : ℕ) (description : String) (amount : Decimal)
    (bank : Bank) : Except Exn Unit × Bank :=
  let added := (bank.children child).account.addTransaction today description amount
  (added.1, bank.setAccount child added.2)

def notAChild (childName parentName : String) : String :=
  childName ++ " is not a child of " ++ parentName

/-- `MakePaymentTo`. -/
def makePaymentTo (today : DateTime) (parent child : ℕ) (amount : Decimal) (description : String)
    (bank : Bank) : Except Exn Unit × Bank :=
  if bank.hasChild parent child then bank.addTransaction today child description amount
  else (.error (.tardisBank
    (notAChild (bank.children child).user.name (bank.parents parent).user.name)), bank)

/-- `MakePaymentTo` without a description. -/
def makePayment (today : DateTime) (parent child : ℕ) (amount : Decimal) (bank : Bank) :
    Except Exn Unit × Bank :=
  bank.makePaymentTo today parent child amount ("Payment from " ++ (bank.parents parent).user.name)

/-- `WithdrawInternal`. Nothing stands for a parent or a description that is null. -/
def withdrawInternal (today : DateTime) (child : ℕ) (parent : Option ℕ) (amount : Decimal)
    (description : Option String) (insufficientFundsMessage : String) (bank : Bank) :
    Except Exn Unit × Bank :=
  match parent, description with
  | none, _ => (.error (.argumentNull "parent"), bank)
  | some _, none => (.error (.argumentNull "description"), bank)
  | some parent, some description =>
    if bank.hasChild parent child then
      match (bank.children child).account.balance with
      | none => (.error .overflow, bank)
      | some balance =>
        if balance.lt amount then (.error (.cashWithdraw insufficientFundsMessage), bank)
        else bank.addTransaction today child description amount.neg
    else (.error (.cashWithdraw "Not Your Parent"), bank)

/-- `SendMessage` to a parent. -/
def sendMessage (today : DateTime) (parent : ℕ) (text : String) (hasMediator : Bool) (bank : Bank) :
    Except Exn Unit × Bank :=
  let sent := (bank.parents parent).user.sendMessage today text hasMediator
  (sent.1, bank.setParent parent { bank.parents parent with user := sent.2 })

section Texts

-- `ToString("c")`, in the culture of the thread
variable (currency : Decimal → String)

/-- `WithdrawCashFromParent`. -/
def withdrawCashFromParent (today : DateTime) (child : ℕ) (parent : Option ℕ) (amount : Decimal)
    (description : Option String) (hasMediator : Bool) (bank : Bank) : Except Exn Unit × Bank :=
  match (bank.children child).account.balance with
  | none => (.error .overflow, bank)
  | some balance =>
    let insufficientFundsMessage := "You can not withdraw " ++ currency amount ++
      " because you only have " ++ currency balance ++ " in your account"
    match parent, bank.withdrawInternal today child parent amount description
        insufficientFundsMessage with
    | some parent, (.ok _, withdrawn) =>
      withdrawn.sendMessage today parent
        ((bank.children child).user.name ++ " would like to withdraw " ++ currency amount) hasMediator
    | _, failed => failed

/-- `AcceptCashFromParent`. -/
def acceptCashFromParent (today : DateTime) (child : ℕ) (parent : Option ℕ) (amount : Decimal)
    (description : Option String) (bank : Bank) : Except Exn Unit × Bank :=
  match (bank.children child).account.balance with
  | none => (.error .overflow, bank)
  | some balance =>
    bank.withdrawInternal today child parent amount description
      ("You can not withdraw " ++ currency amount ++ " because " ++
        (bank.children child).user.name ++ "'s account only has " ++ currency balance)

/-- A call on a parent, a child or its account, or the saving of a child. -/
inductive Call
  | createChild (parent : ℕ) (name userName password : String)
  | removeChild (parent : ℕ) (childId : ℤ)
  | makePaymentTo (today : DateTime) (parent child : ℕ) (amount : Decimal)
      (description : Option String)
  | withdrawCashFromParent (today : DateTime) (child : ℕ) (parent : Option ℕ) (amount : Decimal)
      (description : Option String) (hasMediator : Bool)
  | acceptCashFromParent (today : DateTime) (child : ℕ) (parent : Option ℕ) (amount : Decimal)
      (description : Option String)
  | addPaymentSchedule (child : ℕ) (startDate : DateTime) (interval : Interval) (amount : Decimal)
      (description : String)
  | removePaymentSchedule (child : ℕ) (paymentScheduleId : ℤ)
  | triggerScheduledPayments (today : DateTime) (child : ℕ) (now : DateTime)
  | saveChild (child : ℕ) (id : ℤ) (scheduleIds : ℕ → ℤ)

/-- Whether a call returned or threw, and the bank after it. -/
def answer (bank : Bank) : Call → Except Exn Unit × Bank
  | .createChild parent name userName password =>
    (.ok (), bank.createChild parent name userName password)
  | .removeChild parent childId => bank.removeChild parent childId
  | .makePaymentTo today parent child amount none => bank.makePayment today parent child amount
  | .makePaymentTo today parent child amount (some description) =>
    bank.makePaymentTo today parent child amount description
  | .withdrawCashFromParent today child parent amount description hasMediator =>
    bank.withdrawCashFromParent currency today child parent amount description hasMediator
  | .acceptCashFromParent today child parent amount description =>
    bank.acceptCashFromParent currency today child parent amount description
  | .addPaymentSchedule child startDate interval amount description =>
    (.ok (), bank.setAccount child
      ((bank.children child).account.addPaymentSchedule startDate interval amount description))
  | .removePaymentSchedule child paymentScheduleId =>
    let removed := (bank.children child).account.removePaymentSchedule paymentScheduleId
    (removed.1, bank.setAccount child removed.2)
  | .triggerScheduledPayments today child now =>
    let triggered := (bank.children child).account.triggerScheduledPayments today now
    (triggered.1, bank.setAccount child triggered.2)
  | .saveChild child id scheduleIds =>
    (.ok (), bank.setChild child
      { bank.children child with
        id := id
        account := (bank.children child).account.saveSchedules scheduleIds })

def step (bank : Bank) (call : Call) : Bank := (bank.answer currency call).2

end Texts

end Bank

/-! ### Accounts that are not overdrawn -/

theorem PaymentSchedule.amount_of_calculateNextRunDate {schedule following : PaymentSchedule}
    (hnext : schedule.calculateNextRunDate = .ok following) :
    following.amount = schedule.amount := by
  unfold calculateNextRunDate at hnext
  split at hnext
  · exact absurd hnext nofun
  · obtain rfl := Except.ok.inj hnext
    rfl

namespace Account

variable {account : Account} {scale : ℕ} {more : List Decimal}

/-- The account has room, is not overdrawn, and its schedules pay nothing negative. -/
structure Solvent (scale : ℕ) (account : Account) : Prop where
  hasRoom : HasRoom scale [] account
  funds_nonneg : 0 ≤ account.funds scale
  schedules_nonneg : ∀ schedule ∈ account.paymentSchedules, 0 ≤ schedule.amount.coefficient

theorem units_nonneg {amount : Decimal} (hamount : 0 ≤ amount.coefficient) :
    0 ≤ amount.units scale :=
  mul_nonneg hamount (by positivity)

theorem HasRoom.tail {amount : Decimal} (hroom : HasRoom scale (amount :: more) account) :
    HasRoom scale more account := by
  obtain ⟨hold, hscales, hfits⟩ := hroom
  obtain ⟨hamounts, hmore⟩ := List.forall_mem_append.mp hscales
  refine ⟨hold, List.forall_mem_append.mpr ⟨hamounts, (List.forall_mem_cons.mp hmore).2⟩, ?_⟩
  rw [Decimal.total_append] at hfits ⊢
  have htotal : Decimal.total scale (amount :: more) =
      (amount.units scale).natAbs + Decimal.total scale more := rfl
  omega

theorem HasRoom.of_append (hroom : HasRoom scale more account) : HasRoom scale [] account := by
  induction more with
  | nil => exact hroom
  | cons amount rest ih => exact ih hroom.tail

theorem HasRoom.withSchedules (hroom : HasRoom scale more account)
    (schedules : List PaymentSchedule) :
    HasRoom scale more { account with paymentSchedules := schedules } :=
  ⟨hroom.scale_old, hroom.scale_amounts, hroom.fits⟩

/-- An addition that does not overdraw the account. -/
theorem Solvent.addTransaction {amount : Decimal} (hsolvent : Solvent scale account)
    (hroom : HasRoom scale [amount] account) (hfunds : 0 ≤ account.funds scale + amount.units scale)
    (today : DateTime) (description : Option String) :
    Solvent scale (account.addTransaction today description amount).2 := by
  obtain ⟨after, hafter, hroomAfter, hfundsAfter, hschedules, -⟩ :=
    addTransaction_of_hasRoom today description hroom
  rw [hafter]
  exact ⟨hroomAfter, hfundsAfter ▸ hfunds, hschedules ▸ hsolvent.schedules_nonneg⟩

/-- A trigger, also one that throws, only adds to the account. -/
theorem triggerFrom_spec (today now : DateTime) {schedules : List PaymentSchedule}
    (hroom : HasRoom scale (schedules.map (·.amount)) account) (hfunds : 0 ≤ account.funds scale)
    (hnonneg : ∀ schedule ∈ schedules, 0 ≤ schedule.amount.coefficient) :
    let triggered := triggerFrom today now schedules account
    HasRoom scale [] triggered.2.2 ∧ 0 ≤ triggered.2.2.funds scale ∧
      ∀ schedule ∈ triggered.2.1, 0 ≤ schedule.amount.coefficient := by
  induction schedules generalizing account with
  | nil => exact ⟨hroom, hfunds, hnonneg⟩
  | cons schedule rest ih =>
    obtain ⟨hschedule, hrest⟩ := List.forall_mem_cons.mp hnonneg
    rw [List.map_cons] at hroom
    rw [triggerFrom]
    split_ifs
    · obtain ⟨paid, hpaid, hroomPaid, hfundsPaid, -⟩ :=
        addTransaction_of_hasRoom today schedule.description hroom
      have hfunds' : 0 ≤ paid.funds scale := by
        rw [hfundsPaid]
        exact add_nonneg hfunds (units_nonneg hschedule)
      rw [hpaid]
      dsimp only
      cases hnext : schedule.calculateNextRunDate with
      | error exception =>
        refine ⟨?_, hfunds', List.forall_mem_cons.mpr ⟨hschedule, hrest⟩⟩
        exact hroomPaid.of_append
      | ok following =>
        obtain ⟨hroomAll, hfundsAll, hothers⟩ := ih hroomPaid hfunds' hrest
        refine ⟨hroomAll, hfundsAll, List.forall_mem_cons.mpr ⟨?_, hothers⟩⟩
        rw [PaymentSchedule.amount_of_calculateNextRunDate hnext]
        exact hschedule
    · obtain ⟨hroomAll, hfundsAll, hothers⟩ := ih hroom.tail hfunds hrest
      exact ⟨hroomAll, hfundsAll, List.forall_mem_cons.mpr ⟨hschedule, hothers⟩⟩

/-- Other schedules that pay nothing negative leave the account as solvent. -/
theorem Solvent.withSchedules (hsolvent : Solvent scale account) {schedules : List PaymentSchedule}
    (hschedules : ∀ schedule ∈ schedules, 0 ≤ schedule.amount.coefficient) :
    Solvent scale { account with paymentSchedules := schedules } :=
  ⟨hsolvent.hasRoom.withSchedules schedules, hsolvent.funds_nonneg, hschedules⟩

theorem Solvent.triggerScheduledPayments (hsolvent : Solvent scale account)
    (hroom : HasRoom scale (account.paymentSchedules.map (·.amount)) account)
    (today now : DateTime) :
    Solvent scale (account.triggerScheduledPayments today now).2 := by
  obtain ⟨hroomAfter, hfunds, hschedules⟩ :=
    triggerFrom_spec today now hroom hsolvent.funds_nonneg hsolvent.schedules_nonneg
  exact ⟨hroomAfter.withSchedules _, hfunds, hschedules⟩

theorem Solvent.removePaymentSchedule (hsolvent : Solvent scale account) (id : ℤ) :
    Solvent scale (account.removePaymentSchedule id).2 := by
  unfold Account.removePaymentSchedule
  split
  · exact hsolvent
  · exact hsolvent.withSchedules fun schedule hschedule ↦
      hsolvent.schedules_nonneg schedule (List.mem_of_mem_eraseP hschedule)
  · exact hsolvent

/-- The balance of a solvent account is not negative. -/
theorem Solvent.balance (hsolvent : Solvent scale account) :
    ∃ balance, account.balance = some balance ∧ 0 ≤ balance.value := by
  obtain ⟨balance, hbalance, hscale, hunits⟩ := balance_of_hasRoom hsolvent.hasRoom
  refine ⟨balance, hbalance, ?_⟩
  rw [Decimal.value_eq_units hscale, hunits]
  have hfunds : (0 : ℚ) ≤ account.funds scale := by exact_mod_cast hsolvent.funds_nonneg
  positivity

end Account

namespace Bank

open Account

variable {bank : Bank} {scale : ℕ}

/-- No account is overdrawn. -/
def Solvent (scale : ℕ) (bank : Bank) : Prop :=
  ∀ child, Account.Solvent scale (bank.children child).account

theorem Solvent.setChild (hsolvent : bank.Solvent scale) {reference : ℕ} {child : Child}
    (hchild : Account.Solvent scale child.account) : (bank.setChild reference child).Solvent scale := by
  intro other
  show Account.Solvent scale (Function.update bank.children reference child other).account
  by_cases hsame : other = reference
  · subst hsame
    rw [Function.update_self]
    exact hchild
  · rw [Function.update_of_ne hsame]
    exact hsolvent other

theorem Solvent.setAccount (hsolvent : bank.Solvent scale) {reference : ℕ} {account : Account}
    (haccount : Account.Solvent scale account) :
    (bank.setAccount reference account).Solvent scale :=
  hsolvent.setChild haccount

theorem Solvent.makePaymentTo (hsolvent : bank.Solvent scale) {child : ℕ} {amount : Decimal}
    (hamount : 0 ≤ amount.coefficient) (hroom : HasRoom scale [amount] (bank.children child).account)
    (today : DateTime) (parent : ℕ) (description : String) :
    (bank.makePaymentTo today parent child amount description).2.Solvent scale := by
  unfold Bank.makePaymentTo
  split_ifs
  · refine hsolvent.setAccount ((hsolvent child).addTransaction hroom ?_ today description)
    exact add_nonneg (hsolvent child).funds_nonneg (units_nonneg hamount)
  · exact hsolvent

/-- A withdrawal does not overdraw an account, whatever is withdrawn. -/
theorem Solvent.withdrawInternal (hsolvent : bank.Solvent scale) {child : ℕ} {amount : Decimal}
    (hroom : HasRoom scale [amount.neg] (bank.children child).account) (today : DateTime)
    (parent : Option ℕ) (description : Option String) (message : String) :
    (bank.withdrawInternal today child parent amount description message).2.Solvent scale := by
  unfold Bank.withdrawInternal
  split
  · exact hsolvent
  · exact hsolvent
  · split_ifs
    · obtain ⟨balance, hbalance, hscale, hunits⟩ := balance_of_hasRoom hroom
      rw [hbalance]
      dsimp only
      split_ifs with hless
      · exact hsolvent
      · have hamount : amount.scale ≤ scale :=
          hroom.scale_amounts amount.neg (List.mem_append_right _ (List.mem_singleton_self _))
        rw [Decimal.lt_iff_units hscale hamount, hunits, not_lt] at hless
        refine hsolvent.setAccount ((hsolvent child).addTransaction hroom ?_ today _)
        rw [Decimal.units_neg]
        omega
    · exact hsolvent

/-- What is expected of a call: no parent pays a negative amount and no schedule does, and the amounts
stay where sums are exact. -/
def Allowed (scale : ℕ) (bank : Bank) : Call → Prop
  | .makePaymentTo _ _ child amount _ =>
    0 ≤ amount.coefficient ∧ HasRoom scale [amount] (bank.children child).account
  | .withdrawCashFromParent _ child _ amount _ _ =>
    HasRoom scale [amount.neg] (bank.children child).account
  | .acceptCashFromParent _ child _ amount _ =>
    HasRoom scale [amount.neg] (bank.children child).account
  | .addPaymentSchedule _ _ _ amount _ => 0 ≤ amount.coefficient
  | .triggerScheduledPayments _ child _ =>
    HasRoom scale ((bank.children child).account.paymentSchedules.map (·.amount))
      (bank.children child).account
  | _ => True

theorem solvent_new : Account.Solvent scale {} := by
  refine ⟨⟨Nat.zero_le _, fun _ h ↦ absurd h List.not_mem_nil, ?_⟩, ?_,
    fun _ h ↦ absurd h List.not_mem_nil⟩
  · show (Decimal.zero.units scale).natAbs + 0 < coefficientLimit
    rw [Decimal.units_zero]
    decide
  · show 0 ≤ Decimal.zero.units scale + 0
    rw [Decimal.units_zero, add_zero]

/-- A call that is allowed, whether it throws or not, leaves no account overdrawn. -/
theorem Solvent.step (currency : Decimal → String) (hsolvent : bank.Solvent scale) (call : Call)
    (hallowed : Allowed scale bank call) : (bank.step currency call).Solvent scale := by
  cases call with
  | createChild parent name userName password => exact hsolvent.setChild solvent_new
  | removeChild parent childId =>
    rw [Bank.step, answer, removeChild]
    split <;> exact hsolvent
  | makePaymentTo today parent child amount description =>
    cases description <;> exact hsolvent.makePaymentTo hallowed.1 hallowed.2 today parent _
  | withdrawCashFromParent today child parent amount description hasMediator =>
    rw [Bank.step, answer, withdrawCashFromParent]
    obtain ⟨balance, hbalance, -⟩ := (hsolvent child).balance
    rw [hbalance]
    dsimp only
    have hwithdrawn := hsolvent.withdrawInternal hallowed today parent description
      ("You can not withdraw " ++ currency amount ++ " because you only have " ++
        currency balance ++ " in your account")
    split
    · next withdrawn hwithdraws =>
      rw [hwithdraws] at hwithdrawn
      exact hwithdrawn
    · exact hwithdrawn
  | acceptCashFromParent today child parent amount description =>
    rw [Bank.step, answer, acceptCashFromParent]
    obtain ⟨balance, hbalance, -⟩ := (hsolvent child).balance
    rw [hbalance]
    exact hsolvent.withdrawInternal hallowed today parent description _
  | addPaymentSchedule child startDate interval amount description =>
    refine hsolvent.setAccount ((hsolvent child).withSchedules ?_)
    exact List.forall_mem_append.mpr
      ⟨(hsolvent child).schedules_nonneg, List.forall_mem_singleton.mpr hallowed⟩
  | removePaymentSchedule child paymentScheduleId =>
    exact hsolvent.setAccount ((hsolvent child).removePaymentSchedule paymentScheduleId)
  | triggerScheduledPayments today child now =>
    exact hsolvent.setAccount ((hsolvent child).triggerScheduledPayments hallowed today now)
  | saveChild child id scheduleIds =>
    refine hsolvent.setChild ((hsolvent child).withSchedules ?_)
    intro saved hsaved
    obtain ⟨position, hposition, rfl⟩ := List.mem_mapIdx.mp hsaved
    exact (hsolvent child).schedules_nonneg (bank.children child).account.paymentSchedules[position]
      (List.getElem_mem hposition)

/-- For every bank without overdrawn accounts and calls of any number and kind by anyone, of which no
payment and no schedule is for a negative amount and whose amounts stay where sums are exact: after every
one of the calls, whichever of them throw, no balance is negative. -/
theorem balance_nonneg (currency : Decimal → String) (scale : ℕ) (bank : Bank)
    (hsolvent : bank.Solvent scale) (calls : List Call)
    (hallowed : EveryCall (step currency) (Allowed scale) bank calls) :
    EveryState (step currency) (fun reached ↦ ∀ child, ∃ balance,
      (reached.children child).account.balance = some balance ∧ 0 ≤ balance.value) bank calls := by
  rintro earlier later rfl child
  rw [everyCall_append] at hallowed
  have hreached : (run (step currency) bank earlier).Solvent scale :=
    run_invariant_of_everyCall (fun _ call hbefore hcall ↦ hbefore.step currency call hcall)
      hsolvent earlier hallowed.1
  exact (hreached child).balance

/-- A parent pays its child 10.00, and the child withdraws 2.30 and then 12.11, which it has not got. -/
theorem balance_nonneg_withdrawals :
    let date : DateTime := ⟨2010, 10, 28, 0, by decide, by decide, by decide, by decide⟩
    let bank : Bank :=
      { parents := fun _ ↦
          { user := { name := "Dad", userName := "mike@mike.com", password := "xxx" }
            id := 0, children := [] }
        children := fun _ ↦
          { user := { name := "", userName := "", password := "" }, id := 0, parentId := 0
            account := {} }
        created := 0 }
    let calls : List Call := [.createChild 0 "Leo" "leohadlow" "yyy",
      .makePaymentTo date 0 0 ⟨1000, 2, by decide, by decide⟩ none,
      .withdrawCashFromParent date 0 (some 0) ⟨230, 2, by decide, by decide⟩ (some "For Toys") true,
      .withdrawCashFromParent date 0 (some 0) ⟨1211, 2, by decide, by decide⟩ (some "For Toys") true]
    let reached := run (step fun _ ↦ "") bank calls
    (∃ balance, (reached.children 0).account.balance = some balance ∧ 0 ≤ balance.value) ∧
      (reached.children 0).account.transactions.length = 2 := by
  intro date bank calls reached
  have hroom : ∀ {account : Account} {amount : Decimal},
      account.oldTransactionsBalance.scale ≤ 2 →
      (∀ other ∈ account.amounts ++ [amount], other.scale ≤ 2) →
      (account.oldTransactionsBalance.units 2).natAbs +
        Decimal.total 2 (account.amounts ++ [amount]) < coefficientLimit →
      HasRoom 2 [amount] account := fun hold hscales hfits ↦ ⟨hold, hscales, hfits⟩
  refine ⟨balance_nonneg (fun _ ↦ "") 2 bank (fun _ ↦ solvent_new) calls ?_ calls [] ?_ 0, by decide⟩
  · refine ⟨trivial, ⟨by decide, hroom ?_ ?_ ?_⟩, hroom ?_ ?_ ?_, hroom ?_ ?_ ?_, trivial⟩ <;> decide
  · exact (List.append_nil calls).symm

/-! ### Calls that throw -/

/-- The calls of a history that do not throw. -/
def accepted (currency : Decimal → String) (bank : Bank) : List Call → List Call
  | [] => []
  | call :: rest =>
    let others := accepted currency (bank.step currency call) rest
    match (bank.answer currency call).1 with
    | .ok _ => call :: others
    | .error _ => others

def Call.isTrigger : Call → Bool
  | .triggerScheduledPayments _ _ _ => true
  | _ => false

/-- A call that may throw in the middle: a trigger that throws, a sum that overflows, or a withdrawal
without a mediator. -/
def throwsInTheMiddle (currency : Decimal → String) (bank : Bank) (call : Call) : Bool :=
  match (bank.answer currency call).1 with
  | .ok _ => false
  | .error exception =>
    exception = .overflow || exception = .argumentNull "mediator" || call.isTrigger

theorem setAccount_self (child : ℕ) : bank.setAccount child (bank.children child).account = bank := by
  unfold setAccount setChild
  rw [Function.update_eq_self]

/-- Adding a transaction throws nothing but that a sum overflows. -/
theorem addTransaction_of_throws {today : DateTime} {child : ℕ} {description : String}
    {amount : Decimal} {exception : Exn}
    (hthrows : (bank.addTransaction today child description amount).1 = .error exception) :
    exception = .overflow := by
  have hremove : ∀ account : Account, (removeOldTransactions account).1 = .error exception →
      exception = .overflow := by
    intro account
    unfold removeOldTransactions
    split_ifs
    · exact nofun
    · split
      · exact nofun
      · split
        · exact nofun
        · intro hoverflow
          exact (Except.error.inj hoverflow).symm
  exact hremove _ hthrows

theorem makePaymentTo_of_throws {today : DateTime} {parent child : ℕ} {amount : Decimal}
    {description : String} {exception : Exn} (hexception : exception ≠ .overflow)
    (hthrows : (bank.makePaymentTo today parent child amount description).1 = .error exception) :
    (bank.makePaymentTo today parent child amount description).2 = bank := by
  unfold makePaymentTo at hthrows ⊢
  split_ifs at hthrows ⊢
  · exact absurd (addTransaction_of_throws hthrows) hexception
  · rfl

theorem withdrawInternal_of_throws {today : DateTime} {child : ℕ} {parent : Option ℕ}
    {amount : Decimal} {description : Option String} {message : String} {exception : Exn}
    (hexception : exception ≠ .overflow)
    (hthrows : (bank.withdrawInternal today child parent amount description message).1 =
      .error exception) :
    (bank.withdrawInternal today child parent amount description message).2 = bank := by
  unfold withdrawInternal at hthrows ⊢
  split
  · rfl
  · rfl
  · dsimp only at hthrows
    split_ifs at hthrows ⊢
    · split
      · rfl
      · next balance hbalance =>
        simp only [hbalance] at hthrows
        split_ifs at hthrows ⊢
        · rfl
        · exact absurd (addTransaction_of_throws hthrows) hexception
    · rfl

/-- A message with a text is sent unless there is no mediator. -/
theorem sendMessage_of_throws {today : DateTime} {parent : ℕ} {text : String} {hasMediator : Bool}
    {exception : Exn} (hthrows : (bank.sendMessage today parent text hasMediator).1 = .error exception) :
    exception = .argumentNull "mediator" := by
  cases hasMediator with
  | true => exact absurd hthrows nofun
  | false => exact (Except.error.inj hthrows).symm

/-- A call that throws, but not in the middle, leaves the bank as it was. -/
theorem step_of_throws (currency : Decimal → String) {call : Call} {exception : Exn}
    (hthrows : (bank.answer currency call).1 = .error exception)
    (hmiddle : throwsInTheMiddle currency bank call = false) : bank.step currency call = bank := by
  simp only [throwsInTheMiddle, hthrows, Bool.or_eq_false_iff, decide_eq_false_iff_not] at hmiddle
  obtain ⟨⟨hoverflow, hmediator⟩, htrigger⟩ := hmiddle
  cases call with
  | createChild parent name userName password => exact absurd hthrows nofun
  | removeChild parent childId =>
    rw [answer, removeChild] at hthrows
    rw [Bank.step, answer, removeChild]
    split at hthrows
    · exact absurd hthrows nofun
    · exact absurd hthrows nofun
    · rfl
  | makePaymentTo today parent child amount description =>
    cases description <;> exact makePaymentTo_of_throws hoverflow hthrows
  | withdrawCashFromParent today child parent amount description hasMediator =>
    rw [answer, withdrawCashFromParent] at hthrows
    rw [Bank.step, answer, withdrawCashFromParent]
    split at hthrows
    · rfl
    · dsimp only at hthrows ⊢
      split at hthrows
      · exact absurd (sendMessage_of_throws hthrows) hmediator
      · exact withdrawInternal_of_throws hoverflow hthrows
  | acceptCashFromParent today child parent amount description =>
    rw [answer, acceptCashFromParent] at hthrows
    rw [Bank.step, answer, acceptCashFromParent]
    split at hthrows
    · rfl
    · exact withdrawInternal_of_throws hoverflow hthrows
  | addPaymentSchedule child startDate interval amount description => exact absurd hthrows nofun
  | removePaymentSchedule child paymentScheduleId =>
    have hsame : ((bank.children child).account.removePaymentSchedule paymentScheduleId).2 =
        (bank.children child).account := by
      rw [answer, removePaymentSchedule] at hthrows
      rw [removePaymentSchedule]
      dsimp only at hthrows
      split at hthrows
      · exact absurd hthrows nofun
      · exact absurd hthrows nofun
      · rfl
    rw [Bank.step, answer]
    dsimp only
    rw [hsame, setAccount_self]
  | triggerScheduledPayments today child now => exact absurd htrigger nofun
  | saveChild child id scheduleIds => exact absurd hthrows nofun

/-- For every history of which no call throws in the middle: without the calls that throw it leads to the
same bank, and none of those left throws. -/
theorem run_accepted (currency : Decimal → String) (bank : Bank) (calls : List Call)
    (hmiddle : EveryCall (step currency) (fun bank call ↦
      throwsInTheMiddle currency bank call = false) bank calls) :
    let kept := accepted currency bank calls
    run (step currency) bank kept = run (step currency) bank calls ∧
      EveryCall (step currency) (fun bank call ↦ (bank.answer currency call).1 = .ok ()) bank
        kept := by
  induction calls generalizing bank with
  | nil => exact ⟨rfl, trivial⟩
  | cons call rest ih =>
    obtain ⟨hcall, hrest⟩ := hmiddle
    obtain ⟨hsame, hkept⟩ := ih (bank.step currency call) hrest
    rw [run_cons, ← hsame, accepted]
    split
    · next hok => exact ⟨rfl, hok, hkept⟩
    · next exception hthrows =>
      rw [step_of_throws currency hthrows hcall] at hkept ⊢
      exact ⟨rfl, hkept⟩

/-- A payment to a child and one to somebody else's. -/
theorem run_accepted_payments :
    let date : DateTime := ⟨2010, 10, 28, 0, by decide, by decide, by decide, by decide⟩
    let bank : Bank :=
      { parents := fun _ ↦
          { user := { name := "Dad", userName := "mike@mike.com", password := "xxx" }
            id := 0, children := [] }
        children := fun _ ↦
          { user := { name := "", userName := "", password := "" }, id := 0, parentId := 0
            account := {} }
        created := 0 }
    let amount : Decimal := ⟨230, 2, by decide, by decide⟩
    let calls : List Call := [.createChild 0 "Leo" "leohadlow" "yyy",
      .makePaymentTo date 0 0 amount none, .makePaymentTo date 1 0 amount none]
    let kept := accepted (fun _ ↦ "") bank calls
    run (step fun _ ↦ "") bank kept = run (step fun _ ↦ "") bank calls ∧ kept.length = 2 := by
  intro date bank amount calls kept
  refine ⟨(run_accepted (fun _ ↦ "") bank calls ?_).1, by decide⟩
  exact ⟨by decide, by decide, by decide, trivial⟩

end Bank

end SharpArch.TardisBank

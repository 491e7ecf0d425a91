import SharpArch.Foundation.BoundedLog
import SharpArch.Foundation.Run
import SharpArch.Platform.DateTime
import SharpArch.Platform.Decimal

/-!
# Accounts

An account of the sample bank keeps its newest transactions and, of the older ones, only what they came
to. Its balance is computed from both whenever it is asked for. Its payment schedules say when a
transaction is due next.

All sums are sums of `System.Decimal`s, which round, or throw, when they have too many digits. `HasRoom`
says that an account is far enough from that. Then no addition throws, the balance is all that was ever
added, to the last digit, and the archive is exactly what was dropped (`run_addTransaction`).
-/

set_option autoImplicit false
set_option relaxedAutoImplicit false

namespace SharpArch.TardisBank

open Foundation Foundation.Run Platform

/-- The exceptions of the bank. -/
inductive Exn
  | argumentNull (parameter : String)
  | argumentOutOfRange
  | invalidOperation
  | overflow
  | tardisBank (message : String)
  | cashWithdraw (message : String)
  deriving DecidableEq, Repr

/-- A `Transaction`. Its date is the one on which it was made. -/
structure Transaction where
  description : Option String
  amount : Decimal
  date : DateTime
  deriving DecidableEq

/-- `Interval`; `undefined` is an integer without a name cast to the type. -/
inductive Interval
  | day
  | week
  | month
  | undefined (value : ℤ)
  deriving DecidableEq

/-- A `PaymentSchedule`. Its identifier is zero until it is saved. -/
structure PaymentSchedule where
  id : ℤ
  nextRun : DateTime
  interval : Interval
  amount : Decimal
  description : Option String
  deriving DecidableEq

/-- An `Account`. -/
structure Account where
  transactions : List Transaction := []
  oldTransactionsBalance : Decimal := Decimal.zero
  paymentSchedules : List PaymentSchedule := []
  deriving DecidableEq

namespace Account

def maxTransactions : ℕ := 100

/-- `Balance`. Nothing stands for an `OverflowException`. -/
def balance (account : Account) : Option Decimal :=
  (Decimal.sum (account.transactions.map (·.amount))).bind account.oldTransactionsBalance.add

/-- `RemoveOldTransactions`. `Remove` finds the first transaction, which is equal to itself. -/
def removeOldTransactions (account : Account) : Except Exn Unit × Account :=
  if account.transactions.length ≤ maxTransactions then (.ok (), account)
  else
    match account.transactions with
    | [] => (.ok (), account)
    | oldestTransaction :: rest =>
      match account.oldTransactionsBalance.add oldestTransaction.amount with
      | some sum => (.ok (), { account with transactions := rest, oldTransactionsBalance := sum })
      | none => (.error .overflow, { account with transactions := rest })

/-- `AddTransaction`, on the given day. -/
def addTransaction (today : DateTime) (description : Option String) (amount : Decimal)
    (account : Account) : Except Exn Unit × Account :=
  removeOldTransactions
    { account with
      transactions := account.transactions ++
        [{ description := description, amount := amount, date := today }] }

/-- `AddPaymentSchedule`. -/
def addPaymentSchedule (startDate : DateTime) (interval : Interval) (amount : Decimal)
    (description : Option String) (account : Account) : Account :=
  { account with
    paymentSchedules := account.paymentSchedules ++
      [{ id := 0, nextRun := startDate, interval := interval, amount := amount
         description := description }] }

/-- `RemovePaymentSchedule`: `SingleOrDefault` throws when several schedules have the identifier. -/
def removePaymentSchedule (paymentScheduleId : ℤ) (account : Account) : Except Exn Unit × Account :=
  match account.paymentSchedules.filter (·.id == paymentScheduleId) with
  | [] => (.ok (), account)
  | [_] =>
    (.ok (), { account with
      paymentSchedules := account.paymentSchedules.eraseP (·.id == paymentScheduleId) })
  | _ :: _ :: _ => (.error .invalidOperation, account)

/-! ### Accounts with room -/

variable {account : Account} {scale : ℕ}

def amounts (account : Account) : List Decimal := account.transactions.map (·.amount)

/-- What the account has, in units of `10 ^ -scale`. -/
def funds (scale : ℕ) (account : Account) : ℤ :=
  account.oldTransactionsBalance.units scale + Decimal.exactSum scale account.amounts

/-- There is room for more amounts in the account: no amount has more decimals than the scale, and all
of them together, whatever their signs, are less than a `Decimal` can hold. -/
structure HasRoom (scale : ℕ) (more : List Decimal) (account : Account) : Prop where
  scale_old : account.oldTransactionsBalance.scale ≤ scale
  scale_amounts : ∀ amount ∈ account.amounts ++ more, amount.scale ≤ scale
  fits : (account.oldTransactionsBalance.units scale).natAbs +
    Decimal.total scale (account.amounts ++ more) < coefficientLimit

variable {more : List Decimal}

/-- The balance of an account with room is what it has. -/
theorem balance_of_hasRoom (hroom : HasRoom scale more account) :
    ∃ balance, account.balance = some balance ∧ balance.scale ≤ scale ∧
      balance.units scale = account.funds scale := by
  have hscales := (List.forall_mem_append.mp hroom.scale_amounts).1
  have hfits := hroom.fits
  rw [Decimal.total_append] at hfits
  obtain ⟨sum, hsum, hsumScale, hsumUnits⟩ := Decimal.sum_of_units hscales (by omega)
  have htotal : (Decimal.exactSum scale account.amounts).natAbs ≤
      Decimal.total scale account.amounts := Decimal.natAbs_exactSum_le _
  have hadded := Int.natAbs_add_le (account.oldTransactionsBalance.units scale) (sum.units scale)
  obtain ⟨balance, hbalance, hscale, hunits⟩ :=
    Decimal.add_of_units hroom.scale_old hsumScale (by rw [hsumUnits] at hadded ⊢; omega)
  refine ⟨balance, ?_, hscale, by rw [hunits, hsumUnits, funds]⟩
  rw [Account.balance, show account.transactions.map (·.amount) = account.amounts from rfl, hsum]
  exact hbalance

/-- Archiving the oldest transaction of an account with room does not throw, and loses nothing. -/
theorem removeOldTransactions_of_hasRoom (hroom : HasRoom scale more account) :
    ∃ after, removeOldTransactions account = (.ok (), after) ∧ HasRoom scale more after ∧
      after.funds scale = account.funds scale ∧
      after.paymentSchedules = account.paymentSchedules ∧
      after.transactions =
        (if account.transactions.length ≤ maxTransactions then account.transactions
        else account.transactions.tail) := by
  unfold removeOldTransactions
  split_ifs with hfew
  · exact ⟨account, rfl, hroom, rfl, rfl, rfl⟩
  · cases htransactions : account.transactions with
    | nil => exact absurd (Nat.zero_le _) (htransactions ▸ hfew)
    | cons oldest rest =>
      have hamounts : account.amounts = oldest.amount :: rest.map (·.amount) := by
        rw [amounts, htransactions, List.map_cons]
      have hscales := hroom.scale_amounts
      have hfits := hroom.fits
      rw [hamounts, List.cons_append] at hscales hfits
      obtain ⟨holdest, hrest⟩ := List.forall_mem_cons.mp hscales
      have htotal : Decimal.total scale (oldest.amount :: (rest.map (·.amount) ++ more)) =
          (oldest.amount.units scale).natAbs +
            Decimal.total scale (rest.map (·.amount) ++ more) := rfl
      have hadded := Int.natAbs_add_le (account.oldTransactionsBalance.units scale)
        (oldest.amount.units scale)
      obtain ⟨sum, hsum, hsumScale, hsumUnits⟩ :=
        Decimal.add_of_units hroom.scale_old holdest (by omega)
      simp only [hsum]
      refine ⟨_, rfl, ⟨hsumScale, hrest, ?_⟩, ?_, rfl, rfl⟩
      · show (sum.units scale).natAbs + Decimal.total scale (rest.map (·.amount) ++ more) <
          coefficientLimit
        rw [hsumUnits]
        omega
      · show sum.units scale + Decimal.exactSum scale (rest.map (·.amount)) = account.funds scale
        rw [funds, hamounts, hsumUnits, Decimal.exactSum, Decimal.exactSum, List.map_cons,
          List.sum_cons, add_assoc]

/-- The account with a transaction, before it archives the oldest one. -/
def withTransaction (today : DateTime) (description : Option String) (amount : Decimal)
    (account : Account) : Account :=
  { account with
    transactions := account.transactions ++
      [{ description := description, amount := amount, date := today }] }

theorem funds_withTransaction (today : DateTime) (description : Option String) (amount : Decimal) :
    (withTransaction today description amount account).funds scale =
      account.funds scale + amount.units scale := by
  simp [withTransaction, funds, amounts, Decimal.exactSum, add_assoc]

theorem hasRoom_withTransaction (today : DateTime) (description : Option String) {amount : Decimal}
    (hroom : HasRoom scale (amount :: more) account) :
    HasRoom scale more (withTransaction today description amount account) := by
  have hamounts : (withTransaction today description amount account).amounts ++ more =
      account.amounts ++ amount :: more := by
    simp [withTransaction, amounts]
  refine ⟨hroom.scale_old, ?_, ?_⟩ <;> rw [hamounts]
  · exact hroom.scale_amounts
  · exact hroom.fits

/-- An addition for which there is room does not throw, and adds the amount. -/
theorem addTransaction_of_hasRoom (today : DateTime) (description : Option String)
    {amount : Decimal} (hroom : HasRoom scale (amount :: more) account) :
    ∃ after, addTransaction today description amount account = (.ok (), after) ∧
      HasRoom scale more after ∧ after.funds scale = account.funds scale + amount.units scale ∧
      after.paymentSchedules = account.paymentSchedules ∧
      after.transactions = BoundedLog.add maxTransactions account.transactions
        { description := description, amount := amount, date := today } := by
  obtain ⟨after, hafter, hroomAfter, hfunds, hschedules, htransactions⟩ :=
    removeOldTransactions_of_hasRoom (hasRoom_withTransaction today description hroom)
  refine ⟨after, hafter, hroomAfter, ?_, hschedules, htransactions⟩
  rw [hfunds, funds_withTransaction]

/-! ### The ledger -/

/-- The account after a transaction with the given data is added. -/
def step (account : Account) (transaction : Transaction) : Account :=
  (account.addTransaction transaction.date transaction.description transaction.amount).2

/-- What holds of an account when transactions have been added to it since it was opened. -/
structure Ledger (scale : ℕ) (added : List Transaction) (account : Account) : Prop where
  hasRoom : HasRoom scale [] account
  transactions : account.transactions = (BoundedLog.addAll maxTransactions added).2
  old : account.oldTransactionsBalance.units scale =
    Decimal.exactSum scale ((BoundedLog.addAll maxTransactions added).1.map (·.amount))

theorem total_addAll (added : List Transaction) :
    Decimal.total scale ((BoundedLog.addAll maxTransactions added).1.map (·.amount)) +
        Decimal.total scale ((BoundedLog.addAll maxTransactions added).2.map (·.amount)) =
      Decimal.total scale (added.map (·.amount)) := by
  rw [BoundedLog.addAll_eq (by decide), ← Decimal.total_append, ← List.map_append]
  exact congrArg _ (congrArg _ (List.take_append_drop _ _))

/-- The next transaction goes into the ledger when all of them together can be held. -/
theorem Ledger.step {added : List Transaction} {transaction : Transaction}
    (hledger : Ledger scale added account)
    (hscale : transaction.amount.scale ≤ scale)
    (hfits : Decimal.total scale ((added ++ [transaction]).map (·.amount)) < coefficientLimit) :
    (account.addTransaction transaction.date transaction.description transaction.amount).1 =
        .ok () ∧
      Ledger scale (added ++ [transaction]) (account.step transaction) := by
  have hall : Decimal.total scale ((BoundedLog.addAll maxTransactions added).1.map (·.amount)) +
      Decimal.total scale ((BoundedLog.addAll maxTransactions added).2.map (·.amount)) =
        Decimal.total scale (added.map (·.amount)) := total_addAll added
  rw [List.map_append, Decimal.total_append] at hfits
  have hkept : account.amounts =
      (BoundedLog.addAll maxTransactions added).2.map (·.amount) := by
    rw [amounts, hledger.transactions]
  have hold : (account.oldTransactionsBalance.units scale).natAbs ≤
      Decimal.total scale ((BoundedLog.addAll maxTransactions added).1.map (·.amount)) := by
    rw [hledger.old]
    exact Decimal.natAbs_exactSum_le _
  have hroom : HasRoom scale [transaction.amount] account := by
    have hscales := hledger.hasRoom.scale_amounts
    rw [List.append_nil] at hscales
    refine ⟨hledger.hasRoom.scale_old, List.forall_mem_append.mpr ⟨hscales, by simpa using hscale⟩, ?_⟩
    rw [Decimal.total_append, hkept]
    simp only [List.map_cons, List.map_nil] at hfits
    omega
  obtain ⟨after, hafter, hroomAfter, hfunds, -, htransactions⟩ :=
    addTransaction_of_hasRoom transaction.date transaction.description hroom
  rw [Account.step, hafter]
  refine ⟨rfl, hroomAfter, ?_, ?_⟩
  · rw [htransactions, BoundedLog.addAll_concat, hledger.transactions]
  · have hsplit := congrArg (fun log ↦ Decimal.exactSum scale (log.map (·.amount)))
      (BoundedLog.dropped_append_add maxTransactions account.transactions transaction)
    simp only [List.map_append, Decimal.exactSum_append] at hsplit
    rw [BoundedLog.addAll_concat, List.map_append, Decimal.exactSum_append, ← hledger.old,
      ← hledger.transactions]
    have hamounts : after.amounts =
        (BoundedLog.add maxTransactions account.transactions transaction).map (·.amount) := by
      rw [amounts, htransactions]
    simp only [funds, hamounts] at hfunds
    simp only [amounts, List.map_cons, List.map_nil] at hfunds hsplit ⊢
    have hone : Decimal.exactSum scale [transaction.amount] = transaction.amount.units scale := by
      simp [Decimal.exactSum]
    rw [hone] at hsplit
    omega

/-- Every transaction that is added to a new account goes into its ledger. -/
theorem ledger_run {added : List Transaction}
    (hscale : ∀ transaction ∈ added, transaction.amount.scale ≤ scale)
    (hfits : Decimal.total scale (added.map (·.amount)) < coefficientLimit) :
    EveryCall step (fun account transaction ↦
        (account.addTransaction transaction.date transaction.description transaction.amount).1 =
          .ok ()) {} added ∧
      Ledger scale added (run step {} added) := by
  induction added using List.reverseRecOn with
  | nil =>
    refine ⟨trivial, ⟨Nat.zero_le _, fun _ h ↦ absurd h List.not_mem_nil, ?_⟩, rfl, ?_⟩
    · show (Decimal.zero.units scale).natAbs + 0 < coefficientLimit
      rw [Decimal.units_zero]
      decide
    · exact Decimal.units_zero
  | append_singleton added transaction ih =>
    obtain ⟨hadded, htransaction⟩ := List.forall_mem_append.mp hscale
    have hfewer : Decimal.total scale (added.map (·.amount)) < coefficientLimit := by
      rw [List.map_append, Decimal.total_append] at hfits
      omega
    obtain ⟨hcalls, hledger⟩ := ih hadded hfewer
    obtain ⟨hok, hnext⟩ :=
      hledger.step (htransaction transaction (List.mem_singleton_self _)) hfits
    rw [everyCall_append, run_append]
    exact ⟨⟨hcalls, hok, trivial⟩, hnext⟩

/-- Transactions of any number, added to a new account, of which no amount has more decimals than the
scale and which altogether come to less than `2 ^ 96` units of it: no addition throws, the account has
the last hundred of them, the balance is the sum of all amounts, and the archived balance the sum of
those that are gone. -/
theorem run_addTransaction (scale : ℕ) (added : List Transaction)
    (hscale : ∀ transaction ∈ added, transaction.amount.scale ≤ scale)
    (hfits : Decimal.total scale (added.map (·.amount)) < coefficientLimit) :
    let account := run step {} added
    EveryCall step (fun account transaction ↦
        (account.addTransaction transaction.date transaction.description transaction.amount).1 =
          .ok ()) {} added ∧
      account.transactions = added.rtake 100 ∧
      (∃ balance, account.balance = some balance ∧
        balance.value = (added.map (·.amount.value)).sum) ∧
      account.oldTransactionsBalance.value = ((added.rdrop 100).map (·.amount.value)).sum := by
  intro account
  obtain ⟨hcalls, hledger⟩ := ledger_run hscale hfits
  have hlog : BoundedLog.addAll maxTransactions added = (added.rdrop 100, added.rtake 100) :=
    BoundedLog.addAll_eq (by decide) added
  have hkept : account.transactions = added.rtake 100 :=
    hledger.transactions.trans (congrArg Prod.snd hlog)
  have hold : account.oldTransactionsBalance.units scale =
      Decimal.exactSum scale ((added.rdrop 100).map (·.amount)) := by
    rw [hledger.old, hlog]
  have hvalues : ∀ part : List Transaction, (∀ transaction ∈ part, transaction ∈ added) →
      (part.map (·.amount.value)).sum =
        Decimal.exactSum scale (part.map (·.amount)) / 10 ^ scale := by
    intro part hpart
    rw [← Decimal.sum_value fun amount hamount ↦ ?_, List.map_map]
    · rfl
    · obtain ⟨transaction, htransaction, rfl⟩ := List.mem_map.mp hamount
      exact hscale transaction (hpart transaction htransaction)
  refine ⟨hcalls, hkept, ?_, ?_⟩
  · obtain ⟨balance, hbalance, hbalanceScale, hunits⟩ := balance_of_hasRoom hledger.hasRoom
    refine ⟨balance, hbalance, ?_⟩
    have hfunds : account.funds scale = Decimal.exactSum scale (added.map (·.amount)) := by
      rw [funds, hold, amounts, hkept, ← Decimal.exactSum_append, ← List.map_append]
      exact congrArg _ (congrArg _ (List.take_append_drop _ _))
    rw [Decimal.value_eq_units hbalanceScale, hunits, hfunds, hvalues added fun _ h ↦ h]
  · rw [Decimal.value_eq_units hledger.hasRoom.scale_old, hold,
      hvalues (added.rdrop 100) fun _ h ↦ List.mem_of_mem_take h]

/-- A payment of 10.00, which is archived after a hundred withdrawals of 0.05. -/
theorem run_addTransaction_payment_withdrawal :
    let date : DateTime := ⟨2010, 10, 28, 0, by decide, by decide, by decide, by decide⟩
    let payment : Transaction :=
      { description := "Payment from Dad", amount := ⟨1000, 2, by decide, by decide⟩, date := date }
    let withdrawal : Transaction :=
      { description := "For Sweets", amount := ⟨-5, 2, by decide, by decide⟩, date := date }
    let account := run step {} (payment :: List.replicate 100 withdrawal)
    account.transactions = List.replicate 100 withdrawal ∧
      (∃ balance, account.balance = some balance ∧ balance.value = 5) ∧
      account.oldTransactionsBalance.value = 10 := by
  intro date payment withdrawal account
  have hscale : ∀ transaction ∈ payment :: List.replicate 100 withdrawal,
      transaction.amount.scale ≤ 2 := by
    intro transaction hmem
    rcases List.mem_cons.mp hmem with rfl | hmem
    · exact Nat.le_refl 2
    · rw [List.eq_of_mem_replicate hmem]
  obtain ⟨-, hkept, ⟨balance, hbalance, hvalue⟩, hold⟩ :=
    run_addTransaction 2 (payment :: List.replicate 100 withdrawal) hscale (by decide)
  refine ⟨hkept, ⟨balance, hbalance, ?_⟩, ?_⟩
  · rw [hvalue, List.map_cons, List.map_replicate, List.sum_cons, List.sum_replicate]
    norm_num [payment, withdrawal, Decimal.value]
  · rw [hold]
    norm_num [List.rdrop, payment, Decimal.value]

end Account

end SharpArch.TardisBank

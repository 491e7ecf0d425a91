import SharpArch.TardisBank.Account

/-!
# Scheduled payments

`TriggerScheduledPayments` makes the payment of every schedule that is due and moves the schedule on by
its interval, once for each call, however late the call is. `ExecuteUpdates` of the scheduler calls it for
the children whose account has a schedule that is due before the last second of the day.

Over triggers at any times, as long as none of them throws, an account makes the payments of each of its
schedules for the first due dates, in order, each of them once and none before its day; a due date is
paid at the latest when there have been as many triggers since then as it has due dates before it
(`triggerScheduledPayments_run`). A monthly schedule never gets back the days that a short month takes
away (`dueDate_month`). The scheduler does for every child what the trigger would, except in the last
second of a day (`executeUpdates_eq_triggerAll`).
-/

set_option autoImplicit false
set_option relaxedAutoImplicit false

namespace SharpArch.TardisBank

open Foundation.Run Foundation.Recurrence Platform

/-- The date on which a payment is due after the one on which it was. -/
def Interval.next : Interval → DateTime → Option DateTime
  | .day, date => date.addDays 1
  | .week, date => date.addDays 7
  | .month, date => date.addMonth
  | .undefined _, date => some date

namespace PaymentSchedule

/-- `CalculateNextRunDate`. -/
def calculateNextRunDate (schedule : PaymentSchedule) : Except Exn PaymentSchedule :=
  match schedule.interval.next schedule.nextRun with
  | none => .error .argumentOutOfRange
  | some nextRun => .ok { schedule with nextRun := nextRun }

/-- The due date after a number of others. -/
def dueDate (schedule : PaymentSchedule) (count : ℕ) : Option DateTime :=
  after schedule.interval.next count schedule.nextRun

/-- The due dates paid when payments are triggered, each with the time of the trigger. -/
def payments (schedule : PaymentSchedule) (nows : List DateTime) : List (DateTime × DateTime) :=
  served schedule.interval.next schedule.nextRun nows

/-- The transaction that pays the schedule. -/
def transaction (today : DateTime) (schedule : PaymentSchedule) : Transaction where
  description := schedule.description
  amount := schedule.amount
  date := today

/-- The schedule after a trigger that does not throw. -/
def triggered (schedule : PaymentSchedule) (now : DateTime) : PaymentSchedule :=
  if schedule.nextRun ≤ now then
    { schedule with nextRun := (schedule.interval.next schedule.nextRun).getD schedule.nextRun }
  else schedule

end PaymentSchedule

namespace Account

/-- The schedules that are still to be looked at, as the trigger leaves them, and the account with the
payments it has made. -/
def triggerFrom (today now : DateTime) :
    List PaymentSchedule → Account → Except Exn Unit × List PaymentSchedule × Account
  | [], account => (.ok (), [], account)
  | schedule :: rest, account =>
    if schedule.nextRun ≤ now then
      match account.addTransaction today schedule.description schedule.amount with
      | (.error exception, paid) => (.error exception, schedule :: rest, paid)
      | (.ok _, paid) =>
        match schedule.calculateNextRunDate with
        | .error exception => (.error exception, schedule :: rest, paid)
        | .ok following =>
          let others := triggerFrom today now rest paid
          (others.1, following :: others.2.1, others.2.2)
    else
      let others := triggerFrom today now rest account
      (others.1, schedule :: others.2.1, others.2.2)

/-- `TriggerScheduledPayments`, on the given day. -/
def triggerScheduledPayments (today now : DateTime) (account : Account) :
    Except Exn Unit × Account :=
  let triggered := triggerFrom today now account.paymentSchedules account
  (triggered.1, { triggered.2.2 with paymentSchedules := triggered.2.1 })

/-! ### One trigger -/

variable {today now : DateTime} {schedules : List PaymentSchedule} {account : Account}

theorem step_withSchedules (transaction : Transaction) (schedules : List PaymentSchedule) :
    step { account with paymentSchedules := schedules } transaction =
      { step account transaction with paymentSchedules := schedules } := by
  unfold step addTransaction removeOldTransactions
  dsimp only
  split_ifs
  · rfl
  · split
    · rfl
    · split <;> rfl

theorem run_withSchedules (log : List Transaction) (schedules : List PaymentSchedule) :
    run step { account with paymentSchedules := schedules } log =
      { run step account log with paymentSchedules := schedules } := by
  induction log generalizing account with
  | nil => rfl
  | cons transaction rest ih => rw [run_cons, run_cons, step_withSchedules, ih]

/-- A trigger that does not throw has paid what is due and moved it on. -/
theorem triggerFrom_of_ok (hok : (triggerFrom today now schedules account).1 = .ok ()) :
    triggerFrom today now schedules account =
        (.ok (), schedules.map (·.triggered now), run step account
          ((schedules.filter (·.nextRun ≤ now)).map (·.transaction today))) ∧
      ∀ schedule ∈ schedules, schedule.nextRun ≤ now →
        schedule.interval.next schedule.nextRun = some (schedule.triggered now).nextRun := by
  induction schedules generalizing account with
  | nil => exact ⟨rfl, fun _ h ↦ absurd h List.not_mem_nil⟩
  | cons schedule rest ih =>
    rw [triggerFrom] at hok ⊢
    by_cases hdue : schedule.nextRun ≤ now
    · rw [if_pos hdue] at hok ⊢
      rcases hadd : account.addTransaction today schedule.description schedule.amount with
        ⟨exception | _, paid⟩
      · rw [hadd] at hok
        exact absurd hok nofun
      · have hstep : step account (schedule.transaction today) = paid := congrArg Prod.snd hadd
        simp only [hadd, PaymentSchedule.calculateNextRunDate] at hok ⊢
        cases hnext : schedule.interval.next schedule.nextRun with
        | none =>
          rw [hnext] at hok
          exact absurd hok nofun
        | some following =>
          simp only [hnext] at hok ⊢
          obtain ⟨hrest, hothers⟩ := ih hok
          have htriggered : schedule.triggered now = { schedule with nextRun := following } := by
            rw [PaymentSchedule.triggered, if_pos hdue, hnext, Option.getD_some]
          rw [hrest, List.map_cons, htriggered, List.filter_cons_of_pos (by simpa using hdue),
            List.map_cons, run_cons, hstep]
          refine ⟨rfl, List.forall_mem_cons.mpr ⟨fun _ ↦ ?_, hothers⟩⟩
          rw [htriggered, hnext]
    · rw [if_neg hdue] at hok ⊢
      obtain ⟨hrest, hothers⟩ := ih hok
      have htriggered : schedule.triggered now = schedule := if_neg hdue
      rw [hrest, List.map_cons, htriggered, List.filter_cons_of_neg (by simpa using hdue)]
      exact ⟨rfl, List.forall_mem_cons.mpr ⟨fun h ↦ absurd h hdue, hothers⟩⟩

/-! ### Triggers at any times -/

/-- The account after a trigger on a day, at a time. -/
def trigger (account : Account) (time : DateTime × DateTime) : Account :=
  (account.triggerScheduledPayments time.1 time.2).2

/-- The payments made for schedules when they are triggered, oldest first. -/
def paymentLog : List (DateTime × DateTime) → List PaymentSchedule → List Transaction
  | [], _ => []
  | (today, now) :: rest, schedules =>
    (schedules.filter (·.nextRun ≤ now)).map (·.transaction today) ++
      paymentLog rest (schedules.map (·.triggered now))

end Account

namespace PaymentSchedule

/-- The schedule after triggers that do not throw. -/
def afterTriggers (schedule : PaymentSchedule) (nows : List DateTime) : PaymentSchedule :=
  nows.foldl triggered schedule

variable {schedule : PaymentSchedule} {now : DateTime} {nows : List DateTime}

theorem payments_cons_of_due (hdue : schedule.nextRun ≤ now)
    (hnext : schedule.interval.next schedule.nextRun = some (schedule.triggered now).nextRun) :
    schedule.payments (now :: nows) =
      (schedule.nextRun, now) :: (schedule.triggered now).payments nows := by
  have hinterval : (schedule.triggered now).interval = schedule.interval := by
    rw [triggered, if_pos hdue]
  rw [payments, served, if_pos hdue, hnext, Option.elim_some, payments, hinterval]

theorem payments_cons_of_not_due (hdue : ¬ schedule.nextRun ≤ now) :
    schedule.payments (now :: nows) = schedule.payments nows := if_neg hdue

theorem triggered_of_not_due (hdue : ¬ schedule.nextRun ≤ now) :
    schedule.triggered now = schedule := if_neg hdue

theorem dueDate_succ_of_due (hdue : schedule.nextRun ≤ now)
    (hnext : schedule.interval.next schedule.nextRun = some (schedule.triggered now).nextRun)
    (count : ℕ) : schedule.dueDate (count + 1) = (schedule.triggered now).dueDate count := by
  have hinterval : (schedule.triggered now).interval = schedule.interval := by
    rw [triggered, if_pos hdue]
  rw [dueDate, after_succ, hnext, dueDate, hinterval]
  rfl

/-- What a payment of a schedule is for, and how much it is. -/
def reason (schedule : PaymentSchedule) : Option String × Decimal :=
  (schedule.description, schedule.amount)

theorem reason_triggered : (schedule.triggered now).reason = schedule.reason := by
  rw [triggered]
  split_ifs <;> rfl

end PaymentSchedule

namespace Account

open PaymentSchedule

variable {account : Account} {triggers : List (DateTime × DateTime)}

theorem map_filter_due (today now : DateTime) (schedules : List PaymentSchedule) :
    ((schedules.filter (·.nextRun ≤ now)).map (·.transaction today)).map (fun payment ↦
        (payment.description, payment.amount)) =
      schedules.flatMap fun schedule ↦
        if schedule.nextRun ≤ now then [schedule.reason] else [] := by
  induction schedules with
  | nil => rfl
  | cons schedule rest ih =>
    rw [List.flatMap_cons]
    by_cases hdue : schedule.nextRun ≤ now
    · rw [List.filter_cons_of_pos (by simpa using hdue), if_pos hdue, List.map_cons, List.map_cons,
        ih]
      rfl
    · rw [List.filter_cons_of_neg (by simpa using hdue), if_neg hdue, ih]
      rfl

/-- Triggers of which none throws have added their payments, and moved every schedule on by as many due
dates as were paid. -/
theorem run_trigger_of_ok (hok : EveryCall trigger (fun account time ↦
      (account.triggerScheduledPayments time.1 time.2).1 = .ok ()) account triggers) :
    run trigger account triggers =
        { run step account (paymentLog triggers account.paymentSchedules) with
          paymentSchedules :=
            account.paymentSchedules.map (·.afterTriggers (triggers.map (·.2))) } ∧
      ((paymentLog triggers account.paymentSchedules).map fun payment ↦
          (payment.description, payment.amount)).Perm
        (account.paymentSchedules.flatMap fun schedule ↦
          (schedule.payments (triggers.map (·.2))).map fun _ ↦ schedule.reason) ∧
      ∀ schedule ∈ account.paymentSchedules,
        schedule.dueDate (schedule.payments (triggers.map (·.2))).length =
          some (schedule.afterTriggers (triggers.map (·.2))).nextRun := by
  induction triggers generalizing account with
  | nil =>
    refine ⟨?_, ?_, fun _ _ ↦ rfl⟩
    · simp [PaymentSchedule.afterTriggers, paymentLog]
    · simp [paymentLog, PaymentSchedule.payments, served]
  | cons time rest ih =>
    obtain ⟨today, now⟩ := time
    obtain ⟨hfirst, hrest⟩ := hok
    obtain ⟨htriggered, hnext⟩ := triggerFrom_of_ok hfirst
    have hafter : trigger account (today, now) =
        { run step account ((account.paymentSchedules.filter (·.nextRun ≤ now)).map
            (·.transaction today)) with
          paymentSchedules := account.paymentSchedules.map (·.triggered now) } := by
      rw [trigger, triggerScheduledPayments, htriggered]
    obtain ⟨hrun, hperm, hdates⟩ := ih hrest
    rw [hafter] at hrun hperm hdates
    dsimp only at hrun hperm hdates
    refine ⟨?_, ?_, fun schedule hschedule ↦ ?_⟩
    · rw [run_cons, hafter, hrun, run_withSchedules, paymentLog, run_append, List.map_map]
      rfl
    · rw [paymentLog, List.map_append, map_filter_due]
      refine (hperm.append_left _).trans ?_
      rw [List.flatMap_map]
      refine (List.flatMap_append_perm _ _ _).trans (List.Perm.of_eq ?_)
      refine List.flatMap_congr fun schedule hschedule ↦ ?_
      by_cases hdue : schedule.nextRun ≤ now
      · rw [List.map_cons, payments_cons_of_due hdue (hnext schedule hschedule hdue), if_pos hdue,
          reason_triggered]
        rfl
      · rw [List.map_cons, payments_cons_of_not_due hdue, if_neg hdue, triggered_of_not_due hdue]
        rfl
    · have hlater := hdates (schedule.triggered now) (List.mem_map_of_mem hschedule)
      by_cases hdue : schedule.nextRun ≤ now
      · have hfollowing := hnext schedule hschedule hdue
        rw [List.map_cons, payments_cons_of_due hdue hfollowing, List.length_cons,
          dueDate_succ_of_due hdue hfollowing]
        exact hlater
      · rw [triggered_of_not_due hdue] at hlater
        rw [List.map_cons, payments_cons_of_not_due hdue, afterTriggers, List.foldl_cons,
          triggered_of_not_due hdue]
        exact hlater

end Account

/-- The interval has a name. -/
def Interval.IsDefined (interval : Interval) : Prop := ∀ value, interval ≠ .undefined value

/-- By an interval with a name a schedule moves on. -/
theorem Interval.increases_next {interval : Interval} (hdefined : interval.IsDefined) :
    Increases interval.next := by
  intro date following hnext
  cases interval with
  | day => exact DateTime.lt_of_addDays hnext
  | week => exact DateTime.lt_of_addDays hnext
  | month => exact DateTime.lt_of_addMonth hnext
  | undefined value => exact absurd rfl (hdefined value)

namespace Account

open PaymentSchedule

/-- For every account and triggers at any times, in any order, as long as none of them throws: the
account is the one to which the payments of its schedules have been added and no others, and each
schedule has moved on by as many due dates as were paid. These are its first due dates, none of them paid
before it was due, and, if the interval has a name, none twice and none later than when there have been as
many triggers since as it takes. -/
theorem triggerScheduledPayments_run (account : Account) (triggers : List (DateTime × DateTime))
    (hok : EveryCall trigger (fun account time ↦
      (account.triggerScheduledPayments time.1 time.2).1 = .ok ()) account triggers) :
    let after := run trigger account triggers
    let nows := triggers.map (·.2)
    (∃ log, after = { run step account log with paymentSchedules := after.paymentSchedules } ∧
        (log.map fun payment ↦ (payment.description, payment.amount)).Perm
          (account.paymentSchedules.flatMap fun schedule ↦
            (schedule.payments nows).map fun _ ↦ schedule.reason)) ∧
      after.paymentSchedules = account.paymentSchedules.map (·.afterTriggers nows) ∧
      ∀ schedule ∈ account.paymentSchedules,
        schedule.dueDate (schedule.payments nows).length =
            some (schedule.afterTriggers nows).nextRun ∧
          (∀ index payment, (schedule.payments nows)[index]? = some payment →
            schedule.dueDate index = some payment.1 ∧ payment.1 ≤ payment.2) ∧
          (schedule.interval.IsDefined →
            ((schedule.payments nows).Pairwise fun earlier later ↦ earlier.1 < later.1) ∧
              ∀ count due, schedule.dueDate count = some due → count < nows.countP (due ≤ ·) →
                count < (schedule.payments nows).length) := by
  intro after nows
  obtain ⟨hrun, hperm, hdates⟩ := run_trigger_of_ok hok
  have hschedules : after.paymentSchedules =
      account.paymentSchedules.map (·.afterTriggers nows) :=
    congrArg Account.paymentSchedules hrun
  refine ⟨⟨paymentLog triggers account.paymentSchedules, ?_, hperm⟩, hschedules,
    fun schedule hschedule ↦ ⟨hdates schedule hschedule, fun index payment hpayment ↦ ?_,
      fun hdefined ↦ ⟨?_, fun count due hdue hnows ↦ ?_⟩⟩⟩
  · rw [hschedules]
    exact hrun
  · exact ⟨after_of_getElem? hpayment, le_of_mem_served (List.mem_of_getElem? hpayment)⟩
  · exact pairwise_served (Interval.increases_next hdefined)
  · exact lt_length_served (Interval.increases_next hdefined) hdue hnows

/-- A weekly schedule, triggered a day early, a month late and once more. -/
theorem triggerScheduledPayments_run_weekly :
    let start : DateTime := ⟨2010, 10, 28, 0, by decide, by decide, by decide, by decide⟩
    let early : DateTime := ⟨2010, 10, 27, 0, by decide, by decide, by decide, by decide⟩
    let late : DateTime := ⟨2010, 11, 28, 0, by decide, by decide, by decide, by decide⟩
    let account : Account := ({} : Account).addPaymentSchedule start .week
      ⟨200, 2, by decide, by decide⟩ "Weekly Pocket Money"
    let triggers := [(early, early), (late, late), (late, late)]
    let after := run trigger account triggers
    after.paymentSchedules = account.paymentSchedules.map (·.afterTriggers [early, late, late]) ∧
      after.transactions.length = 2 := by
  intro start early late account triggers after
  refine ⟨(triggerScheduledPayments_run account triggers ?_).2.1, by decide⟩
  exact ⟨by decide, by decide, by decide, trivial⟩

end Account

/-! ### Monthly schedules -/

namespace PaymentSchedule

/-- For every monthly schedule and any number of due dates: there is one in every month, at the same time
of day, on the day that is the least of the first one and the lengths of the months since. So after a
short month it stays early, also in longer months. -/
theorem dueDate_month (schedule : PaymentSchedule) (hmonth : schedule.interval = .month) (count : ℕ)
    (due : DateTime) (hdue : schedule.dueDate count = some due) :
    due.monthIndex = schedule.nextRun.monthIndex + count ∧
      due.ticks = schedule.nextRun.ticks ∧
      due.day = ((List.range count).map fun passed ↦
        DateTime.lengthOfMonth (schedule.nextRun.monthIndex + passed + 1)).foldl min
          schedule.nextRun.day := by
  rw [dueDate, hmonth] at hdue
  exact DateTime.day_after_addMonth hdue

/-- From 31 January to 28 March. -/
theorem dueDate_month_january :
    let start : DateTime := ⟨2010, 1, 31, 0, by decide, by decide, by decide, by decide⟩
    let schedule : PaymentSchedule :=
      { id := 0, nextRun := start, interval := .month, amount := Decimal.zero, description := none }
    ∃ due, schedule.dueDate 2 = some due ∧ due.month = 3 ∧ due.day = 28 := by
  intro start schedule
  let due : DateTime := ⟨2010, 3, 28, 0, by decide, by decide, by decide, by decide⟩
  have hdue : schedule.dueDate 2 = some due := by decide
  exact ⟨due, hdue, rfl, (dueDate_month schedule rfl 2 due hdue).2.2.trans (by decide)⟩

end PaymentSchedule

/-! ### The scheduler -/

/-- The last second of the day of a date. -/
def lastSecond (now : DateTime) : DateTime := { now with ticks := 863990000000, ticks_lt := by decide }

/-- Whether `ExecuteUpdates` finds the child of an account. -/
def Account.hasScheduleBefore (today : DateTime) (account : Account) : Bool :=
  account.paymentSchedules.any (·.nextRun < today)

/-- Triggers the payments of the accounts that are found, up to the first exception. -/
def triggerEach (finds : Account → Bool) (today now : DateTime) :
    List Account → Except Exn Unit × List Account
  | [] => (.ok (), [])
  | account :: rest =>
    if finds account then
      match account.triggerScheduledPayments today now with
      | (.error exception, triggered) => (.error exception, triggered :: rest)
      | (.ok _, triggered) =>
        let others := triggerEach finds today now rest
        (others.1, triggered :: others.2)
    else
      let others := triggerEach finds today now rest
      (others.1, account :: others.2)

/-- `ExecuteUpdates` on the accounts of all children. -/
def executeUpdates (today now : DateTime) (accounts : List Account) :
    Except Exn Unit × List Account :=
  triggerEach (·.hasScheduleBefore (lastSecond now)) today now accounts

/-- The payments of all accounts are triggered. -/
def triggerAll (today now : DateTime) (accounts : List Account) : Except Exn Unit × List Account :=
  triggerEach (fun _ ↦ true) today now accounts

/-- Nothing happens to schedules that are not due. -/
theorem Account.triggerFrom_of_not_due {today now : DateTime} {schedules : List PaymentSchedule}
    (account : Account) (hnot : ∀ schedule ∈ schedules, ¬ schedule.nextRun ≤ now) :
    triggerFrom today now schedules account = (.ok (), schedules, account) := by
  induction schedules with
  | nil => rfl
  | cons schedule rest ih =>
    obtain ⟨hschedule, hrest⟩ := List.forall_mem_cons.mp hnot
    rw [triggerFrom, if_neg hschedule, ih hrest]

theorem executeUpdates_eq_triggerAll {now : DateTime} (today : DateTime)
    (hnow : now < lastSecond now) (accounts : List Account) :
    executeUpdates today now accounts = triggerAll today now accounts := by
  induction accounts with
  | nil => rfl
  | cons account rest ih =>
    unfold executeUpdates triggerAll at ih ⊢
    rw [triggerEach, triggerEach, ih, if_pos rfl]
    split_ifs with hfound
    · rfl
    · have hnot : ∀ schedule ∈ account.paymentSchedules, ¬ schedule.nextRun ≤ now := by
        intro schedule hschedule hdue
        refine hfound (List.any_eq_true.mpr ⟨schedule, hschedule, ?_⟩)
        exact decide_eq_true (hdue.trans_lt hnow)
      have hsame : account.triggerScheduledPayments today now = (.ok (), account) := by
        rw [Account.triggerScheduledPayments, Account.triggerFrom_of_not_due account hnot]
      rw [hsame]

theorem triggerEach_singleton_of_not_found {finds : Account → Bool} {account : Account}
    (today now : DateTime) (hfinds : finds account = false) :
    triggerEach finds today now [account] = (.ok (), [account]) := by
  simp [triggerEach, hfinds]

theorem triggerEach_singleton_of_found {finds : Account → Bool} {account triggered : Account}
    {today now : DateTime} (hfinds : finds account = true)
    (hok : account.triggerScheduledPayments today now = (.ok (), triggered)) :
    triggerEach finds today now [account] = (.ok (), [triggered]) := by
  simp [triggerEach, hfinds, hok]

/-- A payment that is due is made. -/
theorem Account.triggerScheduledPayments_of_due {today now due : DateTime} (hdue : due ≤ now) :
    let account := ({} : Account).addPaymentSchedule due (.undefined 0) Decimal.zero none
    account.triggerScheduledPayments today now =
      (.ok (), account.step { description := none, amount := Decimal.zero, date := today }) := by
  simp only [addPaymentSchedule, triggerScheduledPayments, triggerFrom, List.nil_append, if_pos hdue]
  rfl

/-- For every time: the scheduler does for all children, whoever they are and whatever is due, what
triggering the payments of each of them would, exactly when it is not the last second of a day yet. -/
theorem executeUpdates_eq_triggerAll_iff (today now : DateTime) :
    (∀ accounts, executeUpdates today now accounts = triggerAll today now accounts) ↔
      now < lastSecond now := by
  refine ⟨fun hall ↦ ?_, fun hnow accounts ↦ executeUpdates_eq_triggerAll today hnow accounts⟩
  by_contra hlate
  have hdue : lastSecond now ≤ now := not_lt.mp hlate
  unfold executeUpdates triggerAll at hall
  generalize lastSecond now = due at hdue hall
  -- a payment that is due in the last second of the day
  have hsame := hall [({} : Account).addPaymentSchedule due (.undefined 0) Decimal.zero none]
  have hlost : (({} : Account).addPaymentSchedule due (.undefined 0) Decimal.zero
      none).hasScheduleBefore due = false := by
    simp [Account.hasScheduleBefore, Account.addPaymentSchedule]
  rw [triggerEach_singleton_of_not_found today now hlost,
    triggerEach_singleton_of_found rfl (Account.triggerScheduledPayments_of_due hdue)] at hsame
  have hlength := congrArg (fun outcome ↦ outcome.2.map (·.transactions.length)) hsame
  have hnone : (0 : ℕ) = 1 := List.head_eq_of_cons_eq hlength
  exact Nat.zero_ne_one hnone

end SharpArch.TardisBank

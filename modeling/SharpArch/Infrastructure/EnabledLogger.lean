import SharpArch.Foundation.Run
import SharpArch.Platform.SystemTransactions

/-!
# Logging through a wrapper

`LogWrapper` hands out an `EnabledLogLevel` for a level, or nothing so that the caller's
`wrapper.Level?.Log(...)` skips the logger. Its six properties all ask whether the trace level is
enabled, whatever level they are for.

An `ILogger` is known by the levels enabled in a state and by what emitting a message does to the
state; between two messages anything may happen to it. The messages of a history are numbered, so
that an emission says which message it is of. `emitted_run_iff` says that a history logged through
a wrapper is emitted as if every message had been passed to the logger exactly when, at each
message whose level is enabled, the trace level is enabled too.
-/

set_option autoImplicit false
set_option relaxedAutoImplicit false

namespace SharpArch.Infrastructure.Logging

open Foundation.Run Platform.SystemTransactions

variable {State Error Value : Type}

/-! ### The logger -/

/-- The values of `LogLevel` that a wrapper has a property for. -/
inductive LogLevel
  | trace
  | debug
  | information
  | warning
  | error
  | critical
  deriving DecidableEq, Repr

/-- What is logged at a level: an exception, a message template and its parameters. -/
structure Entry (Error Value : Type) where
  exception : Option Error
  message : String
  args : Option (List Value)

/-- An `ILogger`: the levels enabled in a state, and the state after a message was emitted. -/
structure ILogger (State Error Value : Type) where
  isEnabled : LogLevel → State → Bool
  emit : LogLevel → Entry Error Value → State → State

/-- An entry a logger has emitted, with its level and the number of its message. -/
structure Emission (Error Value : Type) where
  number : ℕ
  level : LogLevel
  entry : Entry Error Value

/-- The state of a logger, the number of messages logged so far, and what was emitted of them. -/
structure Output (State Error Value : Type) where
  state : State
  logged : ℕ := 0
  emitted : List (Emission Error Value) := []

/-- `ILogger.Log`. -/
def ILogger.log (logger : ILogger State Error Value) (level : LogLevel) (entry : Entry Error Value)
    (output : Output State Error Value) : Output State Error Value :=
  if logger.isEnabled level output.state then
    { output with
      state := logger.emit level entry output.state
      emitted := output.emitted ++ [⟨output.logged, level, entry⟩] }
  else output

/-- The arguments of a call of `Log`, which may begin with an exception. -/
inductive Arguments (Error Value : Type)
  | template (message : String) (args : Option (List Value))
  | exception (ex : Option Error) (message : String) (args : Option (List Value))

/-- The entry the arguments make. -/
def Arguments.entry : Arguments Error Value → Entry Error Value
  | .template message args => ⟨none, message, args⟩
  | .exception ex message args => ⟨ex, message, args⟩

/-! ### The wrapper -/

structure EnabledLogLevel (State Error Value : Type) where
  logger : ILogger State Error Value
  level : LogLevel

namespace EnabledLogLevel

/-- `Log` of a message. -/
def log (enabled : EnabledLogLevel State Error Value) (message : String)
    (args : Option (List Value)) (output : Output State Error Value) : Output State Error Value :=
  enabled.logger.log enabled.level ⟨none, message, args⟩ output

/-- `Log` of an exception and a message. -/
def logException (enabled : EnabledLogLevel State Error Value) (ex : Option Error)
    (message : String) (args : Option (List Value)) (output : Output State Error Value) :
    Output State Error Value :=
  enabled.logger.log enabled.level ⟨ex, message, args⟩ output

/-- The overload of `Log` that takes the arguments. -/
def call (enabled : EnabledLogLevel State Error Value) :
    Arguments Error Value → Output State Error Value → Output State Error Value
  | .template message args => enabled.log message args
  | .exception ex message args => enabled.logException ex message args

theorem call_eq (enabled : EnabledLogLevel State Error Value) (arguments : Arguments Error Value) :
    enabled.call arguments = enabled.logger.log enabled.level arguments.entry := by
  cases arguments <;> rfl

end EnabledLogLevel

structure LogWrapper (State Error Value : Type) where
  logger : ILogger State Error Value

namespace LogWrapper

/-- The constructor. -/
def construct (logger : Option (ILogger State Error Value)) :
    Except Exn (LogWrapper State Error Value) :=
  match logger with
  | none => .error (.argumentNull "logger")
  | some logger => .ok ⟨logger⟩

/-- What the properties have in common: a level to log at, if the level asked for is enabled. -/
def ifEnabled (asked level : LogLevel) (wrapper : LogWrapper State Error Value) (state : State) :
    Option (EnabledLogLevel State Error Value) :=
  if wrapper.logger.isEnabled asked state then some ⟨wrapper.logger, level⟩ else none

variable (wrapper : LogWrapper State Error Value) (state : State)

def trace : Option (EnabledLogLevel State Error Value) := wrapper.ifEnabled .trace .trace state

def debug : Option (EnabledLogLevel State Error Value) := wrapper.ifEnabled .trace .debug state

def information : Option (EnabledLogLevel State Error Value) :=
  wrapper.ifEnabled .trace .information state

def warning : Option (EnabledLogLevel State Error Value) := wrapper.ifEnabled .trace .warning state

def error : Option (EnabledLogLevel State Error Value) := wrapper.ifEnabled .trace .error state

def critical : Option (EnabledLogLevel State Error Value) :=
  wrapper.ifEnabled .trace .critical state

/-- The property for a level. -/
def property : LogLevel → Option (EnabledLogLevel State Error Value)
  | .trace => wrapper.trace state
  | .debug => wrapper.debug state
  | .information => wrapper.information state
  | .warning => wrapper.warning state
  | .error => wrapper.error state
  | .critical => wrapper.critical state

/-- Every property asks whether the trace level is enabled. -/
theorem property_eq (level : LogLevel) :
    wrapper.property state level = wrapper.ifEnabled .trace level state := by
  cases level <;> rfl

end LogWrapper

/-! ### Histories of messages -/

/-- A message of a history, with what has happened to the logger since the one before it. -/
structure Message (State Error Value : Type) where
  change : State → State
  level : LogLevel
  arguments : Arguments Error Value

/-- The logger when a message is about to be logged. -/
def Message.arrive (message : Message State Error Value) (output : Output State Error Value) :
    Output State Error Value :=
  { output with state := message.change output.state }

/-- The message is counted. -/
def Output.count (output : Output State Error Value) : Output State Error Value :=
  { output with logged := output.logged + 1 }

/-- The message is passed to the logger. -/
def direct (logger : ILogger State Error Value) (output : Output State Error Value)
    (message : Message State Error Value) : Output State Error Value :=
  (logger.log message.level message.arguments.entry (message.arrive output)).count

/-- The message is logged as `wrapper.Level?.Log(...)`. -/
def throughWrapper (wrapper : LogWrapper State Error Value) (output : Output State Error Value)
    (message : Message State Error Value) : Output State Error Value :=
  match wrapper.property (message.arrive output).state message.level with
  | none => (message.arrive output).count
  | some enabled => (enabled.call message.arguments (message.arrive output)).count

/-- If the level of the message is enabled when it is logged, the trace level is enabled as well. -/
def TraceEnabled (logger : ILogger State Error Value) (output : Output State Error Value)
    (message : Message State Error Value) : Prop :=
  logger.isEnabled message.level (message.arrive output).state = true →
    logger.isEnabled .trace (message.arrive output).state = true

/-! ### One message -/

section Steps

variable {logger : ILogger State Error Value} {output : Output State Error Value}
  {message : Message State Error Value}

/-- With the trace level enabled the wrapper passes every message on. -/
theorem throughWrapper_of_trace
    (htrace : logger.isEnabled .trace (message.arrive output).state = true) :
    throughWrapper ⟨logger⟩ output message = direct logger output message := by
  simp only [throughWrapper, LogWrapper.property_eq, LogWrapper.ifEnabled, htrace, if_true,
    EnabledLogLevel.call_eq, direct]

/-- Without it the wrapper drops every message. -/
theorem throughWrapper_of_not_trace
    (htrace : logger.isEnabled .trace (message.arrive output).state = false) :
    throughWrapper ⟨logger⟩ output message = (message.arrive output).count := by
  simp only [throughWrapper, LogWrapper.property_eq, LogWrapper.ifEnabled, htrace,
    Bool.false_eq_true, if_false]

/-- A message whose level is not enabled is not emitted. -/
theorem direct_of_not_enabled
    (henabled : logger.isEnabled message.level (message.arrive output).state = false) :
    direct logger output message = (message.arrive output).count := by
  simp only [direct, ILogger.log, henabled, Bool.false_eq_true, if_false]

/-- A message whose level is enabled is emitted with its number. -/
theorem emitted_direct_of_enabled
    (henabled : logger.isEnabled message.level (message.arrive output).state = true) :
    (direct logger output message).emitted =
      output.emitted ++ [⟨output.logged, message.level, message.arguments.entry⟩] := by
  rw [direct, ILogger.log, if_pos henabled]
  rfl

/-- Through the wrapper a message has the effect of a direct one where it finds the trace level
enabled with its own. -/
theorem throughWrapper_of_traceEnabled (htrace : TraceEnabled logger output message) :
    throughWrapper ⟨logger⟩ output message = direct logger output message := by
  cases hasked : logger.isEnabled .trace (message.arrive output).state with
  | true => exact throughWrapper_of_trace hasked
  | false =>
    have henabled : logger.isEnabled message.level (message.arrive output).state = false := by
      rw [← Bool.not_eq_true]
      intro henabled
      exact absurd (htrace henabled) (by rw [hasked]; exact Bool.false_ne_true)
    rw [throughWrapper_of_not_trace hasked, direct_of_not_enabled henabled]

end Steps

/-! ### Whole histories -/

/-- A way of logging counts each message and emits it at most once, with its number. -/
structure Numbers (step : Output State Error Value → Message State Error Value →
    Output State Error Value) : Prop where
  logged_eq : ∀ output message, (step output message).logged = output.logged + 1
  emitted_eq : ∀ output message, ∃ emissions,
    (step output message).emitted = output.emitted ++ emissions ∧
      ∀ emission ∈ emissions, emission.number = output.logged

theorem numbers_direct (logger : ILogger State Error Value) : Numbers (direct logger) where
  logged_eq := by
    intro output message
    simp only [direct, ILogger.log]
    split_ifs <;> rfl
  emitted_eq := by
    intro output message
    cases henabled : logger.isEnabled message.level (message.arrive output).state with
    | true => exact ⟨_, emitted_direct_of_enabled henabled, by simp⟩
    | false =>
      rw [direct_of_not_enabled henabled]
      exact ⟨[], (List.append_nil _).symm, by simp⟩

theorem numbers_throughWrapper (logger : ILogger State Error Value) :
    Numbers (throughWrapper ⟨logger⟩) := by
  constructor <;> intro output message <;>
    cases hasked : logger.isEnabled .trace (message.arrive output).state
  · rw [throughWrapper_of_not_trace hasked]
    rfl
  · rw [throughWrapper_of_trace hasked]
    exact (numbers_direct logger).logged_eq output message
  · rw [throughWrapper_of_not_trace hasked]
    exact ⟨[], (List.append_nil _).symm, by simp⟩
  · rw [throughWrapper_of_trace hasked]
    exact (numbers_direct logger).emitted_eq output message

/-- A history emits, after what was emitted before it, messages of its own. -/
theorem Numbers.emitted_run {step : Output State Error Value → Message State Error Value →
    Output State Error Value} (hnumbers : Numbers step) (messages : List (Message State Error Value))
    (output : Output State Error Value) :
    ∃ emissions, (run step output messages).emitted = output.emitted ++ emissions ∧
      ∀ emission ∈ emissions, output.logged ≤ emission.number := by
  induction messages generalizing output with
  | nil => exact ⟨[], (List.append_nil _).symm, by simp⟩
  | cons message rest ih =>
    obtain ⟨first, hfirst, hnumber⟩ := hnumbers.emitted_eq output message
    obtain ⟨others, hothers, hlater⟩ := ih (step output message)
    refine ⟨first ++ others, ?_, ?_⟩
    · rw [run_cons, hothers, hfirst, List.append_assoc]
    · intro emission hmem
      rcases List.mem_append.mp hmem with hmem | hmem
      · exact Nat.le_of_eq (hnumber emission hmem).symm
      · have hle := hlater emission hmem
        rw [hnumbers.logged_eq] at hle
        exact Nat.le_of_succ_le hle

/-- A message that is emitted when passed to the logger and dropped by the wrapper is missing from
what the wrapper's history emits. -/
theorem emitted_run_ne {logger : ILogger State Error Value} {output : Output State Error Value}
    {message : Message State Error Value} (hdropped : ¬ TraceEnabled logger output message)
    (rest : List (Message State Error Value)) :
    (run (throughWrapper ⟨logger⟩) output (message :: rest)).emitted ≠
      (run (direct logger) output (message :: rest)).emitted := by
  obtain ⟨henabled, htrace⟩ := Classical.not_imp.mp hdropped
  obtain ⟨others, hothers, -⟩ := (numbers_direct logger).emitted_run rest
    (direct logger output message)
  obtain ⟨later, hlater, hnumber⟩ := (numbers_throughWrapper logger).emitted_run rest
    (throughWrapper ⟨logger⟩ output message)
  rw [throughWrapper_of_not_trace (Bool.not_eq_true _ ▸ htrace)] at hlater hnumber
  rw [emitted_direct_of_enabled henabled, List.append_assoc] at hothers
  rw [run_cons, run_cons, throughWrapper_of_not_trace (Bool.not_eq_true _ ▸ htrace), hlater,
    hothers]
  intro hsame
  -- The first emission of the one is of this message, those of the other are of later ones.
  have hlist : later = [⟨output.logged, message.level, message.arguments.entry⟩] ++ others :=
    List.append_cancel_left hsame
  have hle := hnumber ⟨output.logged, message.level, message.arguments.entry⟩
    (hlist ▸ List.mem_cons_self)
  exact Nat.not_succ_le_self _ hle

/-- Over histories of any length, from any state of any logger: logging through a wrapper emits the
same messages in the same order as passing them to the logger exactly when at each message whose
level is enabled the trace level is enabled as well. -/
theorem emitted_run_iff (logger : ILogger State Error Value) (output : Output State Error Value)
    (messages : List (Message State Error Value)) :
    (run (throughWrapper ⟨logger⟩) output messages).emitted =
        (run (direct logger) output messages).emitted ↔
      EveryCall (direct logger) (TraceEnabled logger) output messages := by
  induction messages generalizing output with
  | nil => exact iff_of_true rfl trivial
  | cons message rest ih =>
    rw [everyCall_cons]
    by_cases htrace : TraceEnabled logger output message
    · rw [and_iff_right htrace, run_cons, run_cons, throughWrapper_of_traceEnabled htrace]
      exact ih _
    · exact iff_of_false (emitted_run_ne htrace rest) fun hall ↦ htrace hall.1

/-- A logger at the warning level, which has no state. -/
def warningLogger : ILogger Unit Empty Empty where
  isEnabled level _ := level = .warning || level = .error || level = .critical
  emit _ _ state := state

/-- A warning logged through a wrapper of it is lost. -/
theorem warning_not_emitted :
    (run (throughWrapper ⟨warningLogger⟩) ⟨(), 0, []⟩
        [⟨id, .warning, .template "The queue is almost full." none⟩]).emitted ≠
      (run (direct warningLogger) ⟨(), 0, []⟩
        [⟨id, .warning, .template "The queue is almost full." none⟩]).emitted := by
  intro hsame
  exact absurd (congrArg List.length hsame) (by decide)

end SharpArch.Infrastructure.Logging

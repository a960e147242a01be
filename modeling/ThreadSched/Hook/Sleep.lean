import ThreadSched.Kernel.Scan
import ThreadSched.Task.State

/-!
# The interposed `sleep`, `nanosleep` and `usleep` (`hook.c`)

Each wrapper hands the call to the C library, or marks the current task asleep and spins until the
mark is cleared.  `sleep` tests the name `current_is_hook`, the address of the function, where the two
others call it.

* `SleepStmt`, `SleepStmt.exec` — the statements after the test, and what they do to the task.
* `sleep`, `nanosleep`, `usleep` — what each wrapper decides to do.
* `sleeps_agree_iff` — the three agree on a whole number of seconds exactly when the task asked to be
  hooked.

`dlsym` finds the functions of the C library, and `current_task` is not `NULL`.
-/

set_option autoImplicit false

namespace ThreadSched.Hook

/-- The statements of a wrapper. -/
inductive SleepStmt
  /-- `current_task->is_collaborative_schedule = true` -/
  | setCollaborative
  /-- `current_task->sleep_millisecond = ms` -/
  | setMillisecond (ms : Nat)
  /-- `current_task->sleep_millisecond += ms` -/
  | addMillisecond (ms : Int)
  /-- `while(current_task->is_collaborative_schedule)` -/
  | spin
  deriving DecidableEq, Repr

/-- What a statement does to the task that executes it. -/
def SleepStmt.exec (task : TaskStruct) : SleepStmt → TaskStruct
  | .setCollaborative => { task with isCollaborativeSchedule := true }
  | .setMillisecond ms => { task with sleepMillisecond := ms }
  | .addMillisecond ms => { task with sleepMillisecond := uint32 (task.sleepMillisecond + ms) }
  | .spin => task

/-- A call of the C library's function. -/
inductive LibraryCall
  | sleep (seconds : Nat)
  | nanosleep (tvSec tvNsec : Int)
  | usleep (usec : Nat)
  deriving DecidableEq, Repr

/-- What a wrapper does: return what the library's function returns, or execute statements. -/
inductive Wrapped
  | library (call : LibraryCall)
  | body (stmts : List SleepStmt)
  deriving DecidableEq, Repr

/-- `current_is_hook()`. -/
def currentIsHook (current : TaskStruct) : Bool := current.isHook

/-- `current_is_hook` as a condition: a function's address is not `NULL`. -/
def currentIsHookAddress : Bool := true

/-- `sleep`. -/
def sleep (seconds : Nat) (_current : TaskStruct) : Wrapped :=
  if !currentIsHookAddress then .library (.sleep seconds)
  else .body [.setCollaborative, .setMillisecond (uint32 (seconds * 1000)), .spin]

/-- `nanosleep`; `tv_sec` and `tv_nsec` are `long`. -/
def nanosleep (tvSec tvNsec : Int) (current : TaskStruct) : Wrapped :=
  if !currentIsHook current then .library (.nanosleep tvSec tvNsec)
  else .body [.setCollaborative, .setMillisecond (uint32 (tvSec * 1000)),
    .addMillisecond (tvNsec.tdiv 1000000), .spin]

/-- `usleep`. -/
def usleep (usec : Nat) (current : TaskStruct) : Wrapped :=
  if !currentIsHook current then .library (.usleep usec)
  else .body [.setCollaborative, .setMillisecond (usec / 1000), .spin]

/-! ## The three wrappers -/

/-- The wrapper leaves the task marked asleep for `ms` milliseconds, its other fields as they were. -/
def MarksAsleep (ms : Nat) (current : TaskStruct) (call : Wrapped) : Prop :=
  ∃ stmts, call = .body stmts ∧
    stmts.foldl SleepStmt.exec current =
      { current with isCollaborativeSchedule := true, sleepMillisecond := ms }

/-- A hooked task is marked asleep for `s` seconds by each wrapper; for another one each calls the
library's function with its own arguments. -/
def SleepsAgree (s : Nat) (current : TaskStruct) : Prop :=
  if current.isHook then
    MarksAsleep (1000 * s) current (sleep s current) ∧
    MarksAsleep (1000 * s) current (usleep (s * 1000000) current) ∧
    MarksAsleep (1000 * s) current (nanosleep s 0 current)
  else
    sleep s current = .library (.sleep s) ∧
    usleep (s * 1000000) current = .library (.usleep (s * 1000000)) ∧
    nanosleep s 0 current = .library (.nanosleep s 0)

section

variable {current : TaskStruct} {s : Nat}

/-- `sleep` never calls the library. -/
theorem sleep_eq_body (seconds : Nat) (current : TaskStruct) :
    sleep seconds current =
      .body [.setCollaborative, .setMillisecond (uint32 (seconds * 1000)), .spin] := rfl

theorem sleep_marks (hs : s * 1000000 < 4294967296) :
    MarksAsleep (1000 * s) current (sleep s current) := by
  have hms : uint32 ((s : Int) * 1000) = 1000 * s := by
    rw [show (s : Int) * 1000 = ((1000 * s : Nat) : Int) by omega]
    exact uint32_of_lt (by omega)
  refine ⟨_, rfl, ?_⟩
  simp only [List.foldl_cons, List.foldl_nil, SleepStmt.exec, hms]

theorem usleep_marks (hook : current.isHook = true) (s : Nat) :
    MarksAsleep (1000 * s) current (usleep (s * 1000000) current) := by
  have hms : s * 1000000 / 1000 = 1000 * s := by omega
  refine ⟨[.setCollaborative, .setMillisecond (s * 1000000 / 1000), .spin], ?_, ?_⟩
  · simp [usleep, currentIsHook, hook]
  · simp only [List.foldl_cons, List.foldl_nil, SleepStmt.exec, hms]

theorem nanosleep_marks (hook : current.isHook = true) (hs : s * 1000000 < 4294967296) :
    MarksAsleep (1000 * s) current (nanosleep s 0 current) := by
  have hms : uint32 ((s : Int) * 1000) = 1000 * s := by
    rw [show (s : Int) * 1000 = ((1000 * s : Nat) : Int) by omega]
    exact uint32_of_lt (by omega)
  have hadd : uint32 (((1000 * s : Nat) : Int) + Int.tdiv 0 1000000) = 1000 * s := by
    rw [Int.zero_tdiv, Int.add_zero]
    exact uint32_of_lt (by omega)
  refine ⟨[.setCollaborative, .setMillisecond (uint32 ((s : Int) * 1000)),
    .addMillisecond (Int.tdiv 0 1000000), .spin], ?_, ?_⟩
  · simp [nanosleep, currentIsHook, hook]
  · simp only [List.foldl_cons, List.foldl_nil, SleepStmt.exec, hms, hadd]

end

/-- **The three wrappers agree** exactly when the task asked to be hooked. -/
theorem sleeps_agree_iff (current : TaskStruct) (s : Nat) (hs : s * 1000000 < 2 ^ 32) :
    SleepsAgree s current ↔ current.isHook = true := by
  constructor
  · intro hagree
    by_contra hook
    unfold SleepsAgree at hagree
    rw [if_neg hook, sleep_eq_body] at hagree
    cases hagree.1
  · intro hook
    unfold SleepsAgree
    rw [if_pos hook]
    exact ⟨sleep_marks hs, usleep_marks hook s, nanosleep_marks hook hs⟩

theorem sleeps_agree_iff_one :
    SleepsAgree 1 { TaskStruct.zero with isHook := true } ↔
      ({ TaskStruct.zero with isHook := true } : TaskStruct).isHook = true :=
  sleeps_agree_iff { TaskStruct.zero with isHook := true } 1 (by decide)

/-- A task that did not ask to be hooked, such as `main`, is marked asleep by `sleep(1)`. -/
theorem sleep_ignores_unhooked :
    ¬ ∀ (current : TaskStruct) (s : Nat), s * 1000000 < 2 ^ 32 → SleepsAgree s current := by
  intro hall
  have hagree := hall TaskStruct.zero 1 (by decide)
  unfold SleepsAgree at hagree
  rw [if_neg (by decide), sleep_eq_body] at hagree
  cases hagree.1

end ThreadSched.Hook

import Mathlib
import ThreadSched.Lib.Buckets

/-!
# The timer wheel (`interrupt/timer.c`)

Model of `add_timer`, `cascade_timer`, `run_timer`, `create_timer` and `delete_timer`.

* Each circular list of a slot is the sequence of its nodes; a slot is named by its array (`0` is
  `arrListTimer1`, …, `4` is `arrListTimer5`) and its index.  A node carries the fields of
  `TIMERNODE`, its address, and two ghost fields: the number of times it has been re-armed and the
  expiry as a natural number, before it is stored modulo `2^32`.
* `uint32_t` is `Nat` with an explicit `% 2^32`; `long` is 64 bits wide, so the two casts in
  `TIME_AFTER_EQ` are exact.
* `run_timer` takes what `pTmr->timerFn(pTmr->pParam)` does as a parameter `call` on a state `σ`
  that does not contain the wheel.  A callback may fail; a failure ends the run.
* `run_timer`'s loop does not return for every reading, so it has fuel; running out of fuel is the
  error `hang`.

`timer_manager->lock` is taken by the scheduler's operations, around what is modelled here.
-/

set_option autoImplicit false

namespace ThreadSched

/-- `uint32_t` arithmetic. -/
@[irreducible] def u32 (x : Nat) : Nat := x % 2 ^ 32

namespace Wheel

abbrev TVN_BITS : Nat := 6
abbrev TVR_BITS : Nat := 8
abbrev TVN_SIZE : Nat := 1 <<< TVN_BITS
abbrev TVR_SIZE : Nat := 1 <<< TVR_BITS
abbrev TVN_MASK : Nat := TVN_SIZE - 1
abbrev TVR_MASK : Nat := TVR_SIZE - 1

/-- `clock_granularity`: milliseconds between two ticks of the interval timer. -/
abbrev clockGranularity : Nat := 10

/-- One arming of a timer: the node, how often it had been re-armed, and `uJiffies` plus the delay
as a natural number. -/
structure Arming where
  node : Nat
  round : Nat
  due : Nat
  deriving DecidableEq, Repr

/-- `TIMERNODE`.  `timer` stands for `timerFn` together with `pParam`; `round` and `due` are ghost. -/
structure TimerNode (α : Type) where
  node : Nat
  uExpires : Nat
  uPeriod : Nat
  timer : α
  round : Nat
  due : Nat
  deriving DecidableEq, Repr

/-- There are five arrays. -/
instance neZero_arrays : NeZero 5 := ⟨nofun⟩

/-- A slot: the array and the index in it. -/
abbrev Slot := Fin 5 × Nat

/-- `TIMERMANAGER`, less its lock. -/
structure TimerManager (α : Type) where
  uExitFlag : Nat
  uJiffies : Nat
  arrListTimer : Slot → List (TimerNode α)

variable {α : Type}

/-- The arming a linked node stands for. -/
def TimerNode.arming (n : TimerNode α) : Arming := ⟨n.node, n.round, n.due⟩

/-- `timer_init`: every slot is its own head. -/
def TimerManager.empty (uJiffies : Nat) : TimerManager α := ⟨0, uJiffies, fun _ => []⟩

/-- `list_timer_insert_tail`. -/
def listTimerInsertTail (tm : TimerManager α) (pHead : Slot) (pTmr : TimerNode α) : TimerManager α :=
  { tm with arrListTimer := Function.update tm.arrListTimer pHead (tm.arrListTimer pHead ++ [pTmr]) }

/-- `list_timer_replace_init`: the slot's contents, `tm.arrListTimer pOld`, now hang on a local head;
the slot is left empty. -/
def listTimerReplaceInit (tm : TimerManager α) (pOld : Slot) : TimerManager α :=
  { tm with arrListTimer := Function.update tm.arrListTimer pOld [] }

/-- The slot `add_timer` chooses. -/
@[irreducible] def pHead (uJiffies uExpires : Nat) : Slot :=
  let uDueTime := u32 (uExpires + 2 ^ 32 - uJiffies) / clockGranularity
  if uDueTime < TVR_SIZE then
    (0, uExpires &&& TVR_MASK)
  else if uDueTime < 1 <<< (TVR_BITS + TVN_BITS) then
    (1, (uExpires >>> TVR_BITS) &&& TVN_MASK)
  else if uDueTime < 1 <<< (TVR_BITS + 2 * TVN_BITS) then
    (2, (uExpires >>> (TVR_BITS + TVN_BITS)) &&& TVN_MASK)
  else if uDueTime < 1 <<< (TVR_BITS + 3 * TVN_BITS) then
    (3, (uExpires >>> (TVR_BITS + 2 * TVN_BITS)) &&& TVN_MASK)
  else if (uDueTime : Int) < 0 then
    -- `(signed long) uDueTime`: a 64-bit `long` holds every `uint32_t`, so this is never taken
    (0, uJiffies &&& TVR_MASK)
  else
    let uExpires := if uDueTime > 0xffffffff then u32 (0xffffffff + uJiffies) else uExpires
    (4, (uExpires >>> (TVR_BITS + 3 * TVN_BITS)) &&& TVN_MASK)

/-- `add_timer`. -/
def addTimer (tm : TimerManager α) (pTmr : TimerNode α) : TimerManager α :=
  listTimerInsertTail tm (pHead tm.uJiffies pTmr.uExpires) pTmr

/-- `cascade_timer`: detach slot `idx` of the array and add its timers again, in order. -/
def cascadeTimer (tm : TimerManager α) (arr : Fin 5) (idx : Nat) : TimerManager α × Nat :=
  ((tm.arrListTimer (arr, idx)).foldl addTimer (listTimerReplaceInit tm (arr, idx)), idx)

/-- `INDEX(N)`. -/
def INDEX (tm : TimerManager α) (N : Nat) : Nat :=
  (tm.uJiffies >>> (TVR_BITS + N * TVN_BITS)) &&& TVN_MASK

/-- The cascades at the head of `run_timer`'s loop body, with the short circuits of `&&`. -/
def cascades (tm : TimerManager α) : TimerManager α :=
  if tm.uJiffies &&& TVR_MASK = 0 then
    let r0 := cascadeTimer tm 1 (INDEX tm 0)
    if r0.2 = 0 then
      let r1 := cascadeTimer r0.1 2 (INDEX r0.1 1)
      if r1.2 = 0 then
        let r2 := cascadeTimer r1.1 3 (INDEX r1.1 2)
        if r2.2 = 0 then (cascadeTimer r2.1 4 (INDEX r2.1 3)).1 else r2.1
      else r1.1
    else r0.1
  else tm

/-- A periodic timer armed again in the tick `uJiffies` that fired it. -/
def TimerNode.rearm (pTmr : TimerNode α) (uJiffies : Nat) : TimerNode α :=
  { pTmr with
    uExpires := u32 (uJiffies + pTmr.uPeriod)
    round := pTmr.round + 1
    due := uJiffies + pTmr.uPeriod }

variable {σ ε : Type}

/-- One node of the expiry walk: call it, then arm it again or free it. -/
def expireOne (call : TimerNode α → Nat → σ → Except ε σ) (w : TimerManager α × σ)
    (pTmr : TimerNode α) : Except ε (TimerManager α × σ) := do
  let s ← call pTmr w.1.uJiffies w.2
  if pTmr.uPeriod ≠ 0 then
    pure (addTimer w.1 (pTmr.rearm w.1.uJiffies), s)
  else
    pure (w.1, s)

/-- The body of `run_timer`'s loop: one tick of the wheel. -/
def runTick (call : TimerNode α → Nat → σ → Except ε σ) (w : TimerManager α × σ) :
    Except ε (TimerManager α × σ) := do
  let idx := w.1.uJiffies &&& TVR_MASK
  let tm := cascades w.1
  let listTmrExpire := tm.arrListTimer (0, idx)
  let w ← listTmrExpire.foldlM (expireOne call) (listTimerReplaceInit tm (0, idx), w.2)
  pure ({ w.1 with uJiffies := u32 (w.1.uJiffies + 1) }, w.2)

/-- `TIME_AFTER_EQ(a,b)`: `(long)(a) - (long)(b) >= 0`. -/
def TIME_AFTER_EQ (a b : Nat) : Prop := (a : Int) - (b : Int) ≥ 0

instance (a b : Nat) : Decidable (TIME_AFTER_EQ a b) := by
  unfold TIME_AFTER_EQ; infer_instance

/-- The loop of `run_timer` for the clock reading `uJiffies`. -/
def runTimerLoop (call : TimerNode α → Nat → σ → Except ε σ) (hang : ε) (uJiffies : Nat) :
    Nat → TimerManager α × σ → Except ε (TimerManager α × σ)
  | 0, _ => .error hang
  | fuel + 1, w =>
    if TIME_AFTER_EQ uJiffies w.1.uJiffies then do
      let w ← runTick call w
      runTimerLoop call hang uJiffies fuel w
    else .ok w

/-- `run_timer`.  `2^32 + 1` rounds pass through every value of `uJiffies`, so a loop that is still
running then never ends. -/
def runTimer (call : TimerNode α → Nat → σ → Except ε σ) (hang : ε) (uJiffies : Nat)
    (w : TimerManager α × σ) : Except ε (TimerManager α × σ) :=
  runTimerLoop call hang uJiffies (2 ^ 32 + 1) w

/-- The node `create_timer` fills in: `node` is the address `malloc` returns. -/
def newTimer (tm : TimerManager α) (node : Nat) (timer : α) (uDueTime uPeriod : Nat) :
    TimerNode α :=
  ⟨node, u32 (tm.uJiffies + uDueTime), uPeriod, timer, 0, tm.uJiffies + uDueTime⟩

/-- `create_timer`. -/
def createTimer (tm : TimerManager α) (node : Nat) (timer : α) (uDueTime uPeriod : Nat) :
    TimerManager α :=
  addTimer tm (newTimer tm node timer uDueTime uPeriod)

/-- `delete_timer` of a linked node: its neighbours in its slot's list are joined. -/
def deleteTimer (tm : TimerManager α) (lpTimer : Nat) : TimerManager α :=
  { tm with arrListTimer := fun s => (tm.arrListTimer s).filter fun n => n.node ≠ lpTimer }

end Wheel

end ThreadSched

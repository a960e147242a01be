import ThreadSched.Lib.Rings
import ThreadSched.Lib.Trans
import ThreadSched.Timer.Placement

/-!
# The storage of timers (`interrupt/timer.c`)

`TIMERNODE`s and the `TIMERMANAGER` as blocks that are allocated or freed, and the circular lists as
the pointers they consist of.  Every read and write names the block it goes to; one that goes to
storage which is not allocated, and a `free` of such a block, is a fault.

* A pointer is a node's `ltTimer`, a list head in the manager, or the head on the stack that
  `cascade_timer`, `run_timer` and `delete_array_list_timer` let take a slot's list over.
* The loops of `run_timer`, `cascade_timer` and `delete_array_list_timer` stop at each round: `Pc` is
  where the code stands, with the local variables that live there.  A callback is any sequence of
  `create_timer` and `delete_timer` calls between `pTmr->timerFn(pTmr->pParam)` and its return.
* `malloc` returns a block that is not allocated, perhaps a freed one, or `NULL`.

What the callbacks and `schedule` do to tasks does not touch this storage.
-/

set_option autoImplicit false

namespace ThreadSched.Storage

open Wheel Rings

inductive Ptr where
  | node (n : Nat)
  | head (s : Slot)
  | list
  deriving DecidableEq, Repr

inductive Fault where
  /-- a read or write of storage that is not allocated -/
  | access
  /-- a `free` of storage that is not allocated -/
  | free
  deriving DecidableEq, Repr

structure Heap where
  links : Links Ptr
  uExpires : Nat → Nat
  uPeriod : Nat → Nat
  /-- the `TIMERNODE`s that are allocated -/
  live : Nat → Bool
  /-- the `TIMERMANAGER` is allocated -/
  manager : Bool
  uExitFlag : Nat
  uJiffies : Nat

namespace Heap

/-- The block `p` points into is allocated, and a list head is one of the arrays'. -/
def valid (h : Heap) : Ptr → Bool
  | .node n => h.live n
  | .head s => h.manager && decide (s.2 < slots s.1)
  | .list => true

def check (h : Heap) (p : Ptr) : Except Fault Unit :=
  if h.valid p then .ok () else .error .access

def checkManager (h : Heap) : Except Fault Unit :=
  if h.manager then .ok () else .error .access

def getNext (h : Heap) (p : Ptr) : Except Fault Ptr := do
  h.check p
  pure (h.links.next p)

def getPrev (h : Heap) (p : Ptr) : Except Fault Ptr := do
  h.check p
  pure (h.links.prev p)

def setNext (h : Heap) (p v : Ptr) : Except Fault Heap := do
  h.check p
  pure { h with links := h.links.setNext p v }

def setPrev (h : Heap) (p v : Ptr) : Except Fault Heap := do
  h.check p
  pure { h with links := h.links.setPrev p v }

/-- `free` of a node. -/
def free (h : Heap) (n : Nat) : Except Fault Heap :=
  if h.live n then .ok { h with live := Function.update h.live n false } else .error .free

/-- `list_timer_insert`. -/
def listTimerInsert (h : Heap) (pNew pPrev pNext : Ptr) : Except Fault Heap := do
  let h ← h.setPrev pNext pNew
  let h ← h.setNext pNew pNext
  let h ← h.setPrev pNew pPrev
  h.setNext pPrev pNew

/-- `list_timer_insert_tail`. -/
def listTimerInsertTail (h : Heap) (pNew pHead : Ptr) : Except Fault Heap := do
  let pPrev ← h.getPrev pHead
  h.listTimerInsert pNew pPrev pHead

/-- `list_timer_replace`. -/
def listTimerReplace (h : Heap) (pOld pNew : Ptr) : Except Fault Heap := do
  let pNext ← h.getNext pOld
  let h ← h.setNext pNew pNext
  let pNext ← h.getNext pNew
  let h ← h.setPrev pNext pNew
  let pPrev ← h.getPrev pOld
  let h ← h.setPrev pNew pPrev
  let pPrev ← h.getPrev pNew
  h.setNext pPrev pNew

/-- `list_timer_replace_init`. -/
def listTimerReplaceInit (h : Heap) (pOld pNew : Ptr) : Except Fault Heap := do
  let h ← h.listTimerReplace pOld pNew
  let h ← h.setNext pOld pOld
  h.setPrev pOld pOld

/-- `add_timer`. -/
def addTimer (h : Heap) (pTmr : Nat) : Except Fault Heap := do
  h.check (.node pTmr)
  h.checkManager
  h.listTimerInsertTail (.node pTmr) (.head (pHead h.uJiffies (h.uExpires pTmr)))

/-- The two writes of `delete_timer` and its `free`. -/
def deleteNode (h : Heap) (lpTimer : Nat) : Except Fault Heap := do
  let pListTmr := Ptr.node lpTimer
  let pPrev ← h.getPrev pListTmr
  let pNext ← h.getNext pListTmr
  let h ← h.setNext pPrev pNext
  let pNext ← h.getNext pListTmr
  let pPrev ← h.getPrev pListTmr
  let h ← h.setPrev pNext pPrev
  h.free lpTimer

end Heap

/-- Where the code stands. -/
inductive Pc where
  /-- outside the timer code's loops -/
  | out
  /-- `run_timer`, at the head of its loop -/
  | loop (uJiffies : Nat)
  /-- `cascade_timer`, at the head of its loop -/
  | cascade (uJiffies : Nat) (arr : Fin 5) (idx : Nat) (pListTimer : Ptr)
  /-- `run_timer`, at the head of the expiry walk -/
  | expire (uJiffies : Nat) (pListTmrExpire : Ptr)
  /-- in `pTmr->timerFn(pTmr->pParam)` -/
  | callback (uJiffies pTmr : Nat) (pListTmrExpire : Ptr)
  /-- `delete_array_list_timer`, at the head of its inner loop, with the slots still to come -/
  | delete (todo : List Slot) (pListTimer : Ptr) (inHandler : Bool)
  /-- `interrupt_timer_handler`, behind the timer code -/
  | tail
  deriving DecidableEq, Repr

structure St where
  heap : Heap
  /-- `timer_manager != NULL` -/
  timerManager : Bool
  pc : Pc

inductive Ev where
  | createTimer (timerFn : Bool) (uDueTime uPeriod : Nat) (malloc : Option Nat)
  | deleteTimer (lpTimer : Option Nat)
  | destroyTimerManager
  | setExitFlag (uExitFlag : Nat)
  | handler (uJiffies : Nat)
  /-- the end of the handler; `some` when the current task is to be put to sleep -/
  | finish (sleep : Option (Nat × Option Nat))
  /-- the code runs on to the next place of `Pc` -/
  | next
  deriving DecidableEq, Repr

namespace St

/-- `create_timer`. -/
def createTimer (s : St) (timerFn : Bool) (uDueTime uPeriod : Nat) (malloc : Option Nat) :
    Except Fault St :=
  if !timerFn || !s.timerManager then .ok s
  else
    match malloc with
    | none => .ok s
    | some pTmr => do
        let h := { s.heap with
          live := Function.update s.heap.live pTmr true
          uPeriod := Function.update s.heap.uPeriod pTmr uPeriod }
        h.checkManager
        let h := { h with uExpires := Function.update h.uExpires pTmr (u32 (h.uJiffies + uDueTime)) }
        let h ← h.addTimer pTmr
        pure { s with heap := h }

/-- `delete_timer`. -/
def deleteTimer (s : St) (lpTimer : Option Nat) : Except Fault St :=
  match s.timerManager, lpTimer with
  | true, some lpTimer => do
      s.heap.checkManager
      let h ← s.heap.deleteNode lpTimer
      pure { s with heap := h }
  | _, _ => .ok s

/-- The slots in the order `destroy_timer_manager` goes through them. -/
def slotList : List Slot :=
  (List.finRange 5).flatMap fun arr => (List.range (slots arr)).map fun idx => (arr, idx)

/-- `delete_array_list_timer` takes up its next slot; behind the last one the manager is freed. -/
def deleteSlots (s : St) (todo : List Slot) (inHandler : Bool) : Except Fault St :=
  match todo with
  | [] =>
      if s.heap.manager then
        .ok { s with heap := { s.heap with manager := false }, pc := if inHandler then .tail else .out }
      else .error .free
  | idx :: todo => do
      let h ← s.heap.listTimerReplaceInit (.head idx) .list
      let pListTimer ← h.getNext .list
      pure { s with heap := h, pc := .delete todo pListTimer inHandler }

/-- `destroy_timer_manager`. -/
def destroyTimerManager (s : St) (inHandler : Bool) : Except Fault St :=
  if !s.timerManager then .ok { s with pc := if inHandler then .tail else .out }
  else do
    s.heap.checkManager
    deleteSlots { s with heap := { s.heap with uExitFlag := 1 } } slotList inHandler

/-- `interrupt_timer_handler`, up to the first loop. -/
def handler (s : St) (uJiffies : Nat) : Except Fault St :=
  if s.timerManager then do
    s.heap.checkManager
    if s.heap.uExitFlag = 0 then pure { s with pc := .loop uJiffies }
    else s.destroyTimerManager true
  else .ok { s with pc := .tail }

/-- `interrupt_timer_handler`, behind the timer code. -/
def finish (s : St) (sleep : Option (Nat × Option Nat)) : Except Fault St :=
  match sleep with
  | none => .ok { s with pc := .out }
  | some (sleepMillisecond, malloc) => ({ s with pc := .out }).createTimer true sleepMillisecond 0 malloc

/-- `INDEX(N)`. -/
def INDEX (uJiffies N : Nat) : Nat := (uJiffies >>> (TVR_BITS + N * TVN_BITS)) &&& TVN_MASK

/-- `run_timer` detaches the slot of the tick. -/
def detach (s : St) (uJiffies : Nat) : Except Fault St := do
  let h ← s.heap.listTimerReplaceInit (.head (0, s.heap.uJiffies &&& TVR_MASK)) .list
  let pListTmrExpire ← h.getNext .list
  pure { s with heap := h, pc := .expire uJiffies pListTmrExpire }

/-- `cascade_timer` detaches its slot, `INDEX(arr - 1)` of array `arr`. -/
def cascadeTimer (s : St) (uJiffies : Nat) (arr : Fin 5) : Except Fault St := do
  let idx := INDEX s.heap.uJiffies (arr.val - 1)
  let h ← s.heap.listTimerReplaceInit (.head (arr, idx)) .list
  let pListTimer ← h.getNext .list
  pure { s with heap := h, pc := .cascade uJiffies arr idx pListTimer }

/-- The code runs on from a place inside a loop.  A list head that is not the loop's own is not a
node. -/
def next (s : St) : Except Fault St :=
  match s.pc with
  | .out | .tail => .ok s
  | .loop r => do
      s.heap.checkManager
      if TIME_AFTER_EQ r s.heap.uJiffies then
        if s.heap.uJiffies &&& TVR_MASK = 0 then s.cascadeTimer r 1 else s.detach r
      else pure { s with pc := .tail }
  | .cascade r arr idx pListTimer =>
      match pListTimer with
      | .list => if idx = 0 ∧ arr ≠ 4 then s.cascadeTimer r (arr + 1) else s.detach r
      | .node pTmr => do
          let pListTimer ← s.heap.getNext (.node pTmr)
          let h ← s.heap.addTimer pTmr
          pure { s with heap := h, pc := .cascade r arr idx pListTimer }
      | .head _ => .error .access
  | .expire r pListTmrExpire =>
      match pListTmrExpire with
      | .list => do
          s.heap.checkManager
          pure { s with heap := { s.heap with uJiffies := u32 (s.heap.uJiffies + 1) }, pc := .loop r }
      | .node pTmr => do
          let pListTmrExpire ← s.heap.getNext (.node pTmr)
          pure { s with pc := .callback r pTmr pListTmrExpire }
      | .head _ => .error .access
  | .callback r pTmr pListTmrExpire => do
      s.heap.check (.node pTmr)
      if s.heap.uPeriod pTmr ≠ 0 then
        s.heap.checkManager
        let h := { s.heap with
          uExpires := Function.update s.heap.uExpires pTmr
            (u32 (s.heap.uJiffies + s.heap.uPeriod pTmr)) }
        let h ← h.addTimer pTmr
        pure { s with heap := h, pc := .expire r pListTmrExpire }
      else
        let h ← s.heap.free pTmr
        pure { s with heap := h, pc := .expire r pListTmrExpire }
  | .delete todo pListTimer inHandler =>
      match pListTimer with
      | .list => s.deleteSlots todo inHandler
      | .node pTmr => do
          let pListTimer ← s.heap.getNext (.node pTmr)
          let h ← s.heap.free pTmr
          pure { s with heap := h, pc := .delete todo pListTimer inHandler }
      | .head _ => .error .access

def step (s : St) : Ev → Except Fault St
  | .createTimer timerFn uDueTime uPeriod malloc => s.createTimer timerFn uDueTime uPeriod malloc
  | .deleteTimer lpTimer => s.deleteTimer lpTimer
  | .destroyTimerManager => s.destroyTimerManager false
  | .setExitFlag uExitFlag => do
      s.heap.checkManager
      pure { s with heap := { s.heap with uExitFlag := uExitFlag } }
  | .handler uJiffies => s.handler uJiffies
  | .finish sleep => s.finish sleep
  | .next => s.next

end St

/-- `timer_init`, for what its two `malloc`s return: every slot is its own head, and `clean_dead_task`
is armed. -/
def timerInit (uJiffies : Nat) (manager : Bool) (malloc : Option Nat) : Except Fault St :=
  let h : Heap := ⟨⟨id, id⟩, fun _ => 0, fun _ => 0, fun _ => false, manager, 0, uJiffies⟩
  St.createTimer ⟨h, manager, .out⟩ true 150000 150000 malloc

end ThreadSched.Storage

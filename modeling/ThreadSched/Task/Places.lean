import ThreadSched.Task.Tame

/-!
# Where each task is

The abstract view of the scheduler: a map from tasks to places.  Every operation of `task.c`,
`sync.c`, `ioqueue.c` and the timer callbacks moves one or two tasks.

* `Sched.obs` — what the lists, status fields and waiter fields say about one task.
* `Fits` — what they have to say about a task in a place.
* `Filed` — every task fits the place the map gives it.
* `Filed.move` — the rule for moving one task: nothing changes for the others, and the moved task
  fits its new place.
-/

set_option autoImplicit false

namespace ThreadSched

/-- Where an allocated task is. -/
inductive Place
  | current
  | ready
  | waiting (plock : LockId)
  | ioWaiting (ioq : IoqId) (w : Waiter)
  | asleep
  | exited
  deriving DecidableEq, Repr

/-- The status of the tasks in a place. -/
def Place.status : Place → TaskStatus
  | .current | .asleep => .RUNNING
  | .ready => .READY
  | .waiting _ | .ioWaiting _ _ => .BLOCKED
  | .exited => .DIED

/-- What can be seen of one task; the numbers are how often it is linked. -/
@[ext] structure Obs where
  allocated : Bool
  status : TaskStatus
  collaborative : Bool
  ready : Nat
  waiters : LockId → Nat
  io : IoqId → Waiter → Bool
  all : Nat
  pool : Nat

def Sched.obs (s : Sched) (t : TaskId) : Obs where
  allocated := s.allocated t
  status := (s.tasks t).status
  collaborative := (s.tasks t).isCollaborativeSchedule
  ready := s.taskReadyList.count t
  waiters l := (s.locks l).semaphore.waiters.count t
  io q w := (s.ioqs q).waiter w == some t
  all := s.taskAllList.count t
  pool := s.taskPoolList.count t

/-- A task in place `x`, for which `n` helper timers are pending, looks like `o`. -/
structure Fits (main : Bool) (n : Nat) (x : Option Place) (o : Obs) : Prop where
  allocated : o.allocated = x.isSome
  status : ∀ y, x = some y → o.status = y.status
  collaborative : x = some .asleep → o.collaborative = true
  ready : o.ready = if x = some .ready then 1 else 0
  waiters : ∀ l, o.waiters l = if x = some (.waiting l) then 1 else 0
  io : ∀ q w, o.io q w = decide (x = some (.ioWaiting q w))
  all : o.all = if x ≠ none ∧ x ≠ some .exited then 1 else 0
  pool : o.pool = if x = some .exited ∧ main = false then 1 else 0
  pending : n = if x = some .asleep then 1 else 0

/-- `pl` is where the tasks are; `p t` helper timers are pending for `t`. -/
structure Filed (p : TaskId → Nat) (pl : TaskId → Option Place) (s : Sched) : Prop where
  fits : ∀ t, Fits (t = s.mainTask) (p t) (pl t) (s.obs t)
  nums : s.taskAllNums = s.taskAllList.length
  cur : ∀ t, pl t = some .current → t = s.currentTask
  main : pl s.mainTask ≠ none

namespace Filed

variable {p p' : TaskId → Nat} {pl : TaskId → Option Place} {s s' : Sched}

/-- What no place depends on may change. -/
theorem congr (h : Filed p pl s) (hobs : ∀ t, s'.obs t = s.obs t)
    (hmain : s'.mainTask = s.mainTask) (hcur : s'.currentTask = s.currentTask)
    (hnums : s'.taskAllNums = s.taskAllNums) (hall : s'.taskAllList = s.taskAllList) :
    Filed p pl s' := by
  refine ⟨fun t => ?_, ?_, fun t ht => ?_, ?_⟩
  · rw [hobs t, hmain]; exact h.fits t
  · rw [hnums, hall]; exact h.nums
  · rw [hcur]; exact h.cur t ht
  · rw [hmain]; exact h.main

/-- Moving one task. -/
theorem move (h : Filed p pl s) (t : TaskId) (x : Option Place)
    (hother : ∀ u, u ≠ t → s'.obs u = s.obs u) (hp : ∀ u, u ≠ t → p' u = p u)
    (hmain : s'.mainTask = s.mainTask) (hnums : s'.taskAllNums = s'.taskAllList.length)
    (hfits : Fits (t = s.mainTask) (p' t) x (s'.obs t))
    (hcur : ∀ u, u ≠ t → pl u = some .current → u = s'.currentTask)
    (hcur' : x = some .current → t = s'.currentTask) (hx : x = none → t ≠ s.mainTask) :
    Filed p' (Function.update pl t x) s' := by
  refine ⟨fun u => ?_, hnums, fun u hu => ?_, ?_⟩
  · rw [hmain]
    by_cases hut : u = t
    · subst hut
      rw [Function.update_self]
      exact hfits
    · rw [Function.update_of_ne hut, hother u hut, hp u hut]
      exact h.fits u
  · by_cases hut : u = t
    · subst hut
      rw [Function.update_self] at hu
      exact hcur' hu
    · rw [Function.update_of_ne hut] at hu
      exact hcur u hut hu
  · rw [hmain]
    by_cases hmt : s.mainTask = t
    · rw [hmt, Function.update_self]
      exact fun hnone => hx hnone hmt.symm
    · rw [Function.update_of_ne hmt]
      exact h.main

/-! ## Reading places off the lists -/

theorem place_of_ready (h : Filed p pl s) {t : TaskId} (ht : t ∈ s.taskReadyList) :
    pl t = some .ready := by
  have := (h.fits t).ready
  by_contra hne
  rw [if_neg hne] at this
  exact List.count_eq_zero.1 this ht

theorem current_not_ready (h : Filed p pl s) (hcur : pl s.currentTask = some .current) :
    s.currentTask ∉ s.taskReadyList := by
  intro hmem
  have hplace := h.place_of_ready hmem
  rw [hcur] at hplace
  cases hplace

theorem place_of_waiters (h : Filed p pl s) {t : TaskId} {l : LockId}
    (ht : t ∈ (s.locks l).semaphore.waiters) : pl t = some (.waiting l) := by
  have := (h.fits t).waiters l
  by_contra hne
  rw [if_neg hne] at this
  exact List.count_eq_zero.1 this ht

theorem place_of_io (h : Filed p pl s) {t : TaskId} {q : IoqId} {w : Waiter}
    (ht : (s.ioqs q).waiter w = some t) : pl t = some (.ioWaiting q w) := by
  have := (h.fits t).io q w
  simpa [Sched.obs, ht] using this.symm

theorem place_of_pool (h : Filed p pl s) {t : TaskId} (ht : t ∈ s.taskPoolList) :
    pl t = some .exited ∧ t ≠ s.mainTask := by
  have := (h.fits t).pool
  by_contra hne
  rw [if_neg (by simpa using hne)] at this
  exact List.count_eq_zero.1 this ht

end Filed

end ThreadSched

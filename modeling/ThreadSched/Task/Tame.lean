import ThreadSched.Lib.Returns
import ThreadSched.Task.Handler
import ThreadSched.Timer.Placement

/-!
# The two internal locks

`tid_pool.tid_lock` and the timer manager's lock are only taken inside calls that are not divided, so
between two actions they are free, in every run whatever else has gone wrong.

* `Tame` — they are free, and no task is in the middle of a call on one of them.
* `allocateTid_eq`, `releaseTid_eq`, `initTask_eq` — the lock calls inside cancel out.
* `Tame.act` — every action keeps it.
-/

set_option autoImplicit false

namespace ThreadSched

open Wheel (TimerManager)

theorem ok_bind {α β : Type} (a : α) (f : α → Except Fault β) : (Except.ok a >>= f) = f a := rfl

theorem assertThat_bind {c : Prop} [Decidable c] (h : c) {α : Type} (f : Unit → Except Fault α) :
    (assertThat c >>= f) = f () := by
  unfold assertThat
  rw [if_pos h]
  rfl

theorem returns_assertThat {c : Prop} [Decidable c] {α : Type} {f : Unit → Except Fault α}
    {Q : α → Prop} (h : c → Returns (f ()) Q) : Returns (assertThat c >>= f) Q := by
  unfold assertThat
  by_cases hc : c
  · rw [if_pos hc]; exact h hc
  · rw [if_neg hc]; exact Returns.error

/-- A statement about a lock of user code or of an ioqueue. -/
def Stmt.Plain : Stmt → Prop
  | .lockAcquire l | .semaDown l | .lockAcquired l | .lockRelease l => l ≠ .tid ∧ l ≠ .timer
  | _ => True

/-- The locks of the tid pool and of the timer manager are free outside the calls that take them. -/
structure Tame (s : Sched) : Prop where
  tid : s.locks .tid = lockInit
  timer : s.locks .timer = lockInit
  conts : ∀ t, ∀ st ∈ s.conts t, st.Plain

theorem Tame.of {s s' : Sched} (h : Tame s) (htid : s'.locks .tid = s.locks .tid)
    (htimer : s'.locks .timer = s.locks .timer)
    (hconts : ∀ t, ∀ st ∈ s'.conts t, st ∈ s.conts t ∨ st.Plain) : Tame s' :=
  ⟨htid.trans h.tid, htimer.trans h.timer, fun t st hst => (hconts t st hst).elim (h.conts t st) id⟩

theorem Tame.push {s : Sched} (h : Tame s) (t : TaskId) {ss : List Stmt}
    (hss : ∀ st ∈ ss, st.Plain) : Tame (s.push t ss) := by
  refine h.of rfl rfl fun u st hst => ?_
  by_cases hu : u = t
  · subst hu
    simp only [Sched.push, Function.update_self, List.mem_append] at hst
    exact hst.symm.imp_right (hss st)
  · simp only [Sched.push, Function.update_of_ne hu] at hst
    exact Or.inl hst

theorem Tame.modLock {s : Sched} (h : Tame s) {l : LockId} (hl : l ≠ .tid ∧ l ≠ .timer)
    (f : Lock → Lock) : Tame (s.modLock l f) :=
  h.of (by simp [Sched.modLock, Function.update_of_ne hl.1.symm])
    (by simp [Sched.modLock, Function.update_of_ne hl.2.symm]) fun _ _ => Or.inl

variable {s : Sched}

/-! ## Locks taken inside one call -/

/-- A lock held once by the current task, with no waiters. -/
def heldBy (t : TaskId) : Lock := ⟨some t, ⟨0, []⟩, 1⟩

theorem Sched.modLock_modLock (s : Sched) (l : LockId) (f g : Lock → Lock) :
    (s.modLock l f).modLock l g = s.modLock l fun lock => g (f lock) := by
  simp [Sched.modLock]

theorem Sched.modLock_self (s : Sched) {l : LockId} {f : Lock → Lock} {lock : Lock}
    (hf : f (s.locks l) = lock) : s.modLock l f = s.modLock l fun _ => lock := by
  unfold Sched.modLock
  rw [hf]

theorem lockAcquireNow_eq {l : LockId} (h : s.locks l = lockInit) :
    lockAcquireNow l s = .ok (s.modLock l fun _ => heldBy s.currentTask) := by
  unfold lockAcquireNow
  rw [if_pos (by rw [h]; nofun), if_neg (by rw [h]; exact Nat.one_ne_zero)]
  unfold semaTake
  rw [assertThat_bind (by simp [Sched.modLock, Lock.setValue, h, lockInit, u8])]
  show lockAcquired l _ = _
  unfold lockAcquired
  rw [assertThat_bind (by simp [Sched.modLock, Lock.setValue, h, lockInit])]
  rw [Sched.modLock_modLock, Sched.modLock_modLock]
  refine congrArg Except.ok (Sched.modLock_self s ?_)
  rw [h]
  rfl

theorem lockRelease_eq {l : LockId} (h : s.locks l = heldBy s.currentTask) :
    lockRelease l s = .ok (s.modLock l fun _ => lockInit) := by
  unfold lockRelease
  rw [assertThat_bind (by rw [h]; rfl), if_neg (by rw [h]; exact Nat.lt_irrefl 1),
    assertThat_bind (by rw [h]; rfl)]
  unfold semaUp
  rw [assertThat_bind (by simp [Sched.modLock, h, heldBy])]
  unfold semaWake
  rw [if_neg (by simp [Sched.modLock, h, heldBy])]
  show (assertThat _ >>= _) = _
  rw [assertThat_bind (by simp [Sched.modLock, Lock.setValue, h, heldBy, u8]),
    Sched.modLock_modLock]
  refine congrArg Except.ok (Sched.modLock_self s ?_)
  rw [h]
  rfl

/-- A call that takes a free lock, works on what is not a lock and releases the lock. -/
theorem withLock_eq {l : LockId} (h : s.locks l = lockInit) (s' : Sched)
    (hl : s'.locks = (s.modLock l fun _ => heldBy s.currentTask).locks)
    (hc : s'.currentTask = s.currentTask) :
    lockRelease l s' = .ok { s' with locks := s.locks } := by
  rw [lockRelease_eq (by rw [hl, hc]; simp [Sched.modLock])]
  have : Function.update (Function.update s.locks l (heldBy s.currentTask)) l lockInit = s.locks := by
    rw [Function.update_idem, ← h, Function.update_eq_self]
  unfold Sched.modLock
  rw [hl]
  unfold Sched.modLock
  rw [this]

theorem allocateTid_eq (h : s.locks .tid = lockInit) : allocateTid s =
    match bitmapScan s.tidPool.tidBitmap 1 with
    | none => .error .assertion
    | some bitIdx => .ok (i16 (bitIdx + s.tidPool.tidStart), s.setTidBit bitIdx true) := by
  unfold allocateTid
  rw [lockAcquireNow_eq h]
  show (match bitmapScan s.tidPool.tidBitmap 1 with | none => _ | some bitIdx => _) = _
  cases bitmapScan s.tidPool.tidBitmap 1 with
  | none => rfl
  | some bitIdx =>
      have := withLock_eq h ((s.modLock .tid fun _ => heldBy s.currentTask).setTidBit bitIdx true)
        rfl rfl
      show (lockRelease .tid _ >>= _) = _
      rw [this]
      rfl

theorem releaseTid_eq (h : s.locks .tid = lockInit) (tid : Int) :
    releaseTid tid s = .ok (s.setTidBit (tid - s.tidPool.tidStart) false) := by
  unfold releaseTid
  rw [lockAcquireNow_eq h]
  exact withLock_eq h _ rfl rfl

/-- The struct `init_task` leaves. -/
def initedTask (main : Bool) (tid : Int) (stack : Nat) (prio : Int) : TaskStruct :=
  initFields tid stack prio { TaskStruct.zero with
    status := if main then .RUNNING else .READY
    first := !main }

/-- What `init_task` writes: the struct, the tid bitmap, the record of stacks, and `current_task` for
the main task. -/
def inited (ptask stack : Nat) (prio : Int) (bitIdx : Int) (s : Sched) : Sched :=
  { s with
    tasks := Function.update s.tasks ptask
      (initedTask (ptask = s.mainTask) (i16 (bitIdx + s.tidPool.tidStart)) stack prio)
    currentTask := if ptask = s.mainTask then ptask else s.currentTask
    tidPool := (s.setTidBit bitIdx true).tidPool
    stackAllocated := Function.update s.stackAllocated stack true }

theorem initTask_eq (h : s.locks .tid = lockInit) (ptask stack : Nat) (prio : Int) :
    initTask ptask stack prio s = match bitmapScan s.tidPool.tidBitmap 1 with
      | none => .error .assertion
      | some bitIdx => .ok (inited ptask stack prio bitIdx s) := by
  unfold initTask initStatus
  by_cases hmain : ptask = s.mainTask
  · rw [if_pos hmain, allocateTid_eq (s := { s.modTask ptask _ with currentTask := ptask }) h]
    simp only [Sched.modTask]
    cases bitmapScan s.tidPool.tidBitmap 1 with
    | none => rfl
    | some bitIdx =>
        refine congrArg Except.ok ?_
        simp only [inited, initedTask, if_pos hmain, decide_eq_true hmain, Sched.setTidBit,
          Function.update_idem, Function.update_self]
        rfl
  · rw [if_neg hmain, allocateTid_eq (s := s.modTask ptask _) h]
    simp only [Sched.modTask]
    cases bitmapScan s.tidPool.tidBitmap 1 with
    | none => rfl
    | some bitIdx =>
        refine congrArg Except.ok ?_
        simp only [inited, initedTask, if_neg hmain, decide_eq_false hmain, Sched.setTidBit,
          Function.update_idem, Function.update_self]
        rfl

/-! ## Calls -/

namespace Tame

theorem getNextTask (h : Tame s) : Returns (ThreadSched.getNextTask s) Tame := by
  unfold ThreadSched.getNextTask
  cases s.taskReadyList with
  | nil => exact Returns.error
  | cons t rest => exact Returns.pure (h.of rfl rfl fun _ _ => Or.inl)

theorem schedule (h : Tame s) : Returns (ThreadSched.schedule s) Tame :=
  returns_assertThat fun _ => Returns.ite (fun _ => Returns.error) fun _ =>
    getNextTask (h.of rfl rfl fun _ _ => Or.inl)

theorem collaborativeSchedule (h : Tame s) : Returns (ThreadSched.collaborativeSchedule s) Tame :=
  Returns.ite (fun _ => Returns.error) fun _ => h.getNextTask

theorem diedTaskSchedule (h : Tame s) : Returns (ThreadSched.diedTaskSchedule s) Tame :=
  Returns.ite (fun _ => Returns.ok (h.push _ (by simp [Stmt.Plain]))) fun _ => h.getNextTask

theorem taskBlock (h : Tame s) (status : TaskStatus) :
    Returns (ThreadSched.taskBlock status s) Tame := by
  have hmod : Tame (s.modTask s.currentTask fun task => { task with status := status }) :=
    h.of rfl rfl fun _ _ => Or.inl
  exact returns_assertThat fun _ => Returns.ite
    (fun _ => Returns.ok (hmod.push _ (by simp [Stmt.Plain])))
    fun _ => returns_assertThat fun _ => hmod.getNextTask

theorem taskUnblock (h : Tame s) (t : TaskId) : Returns (ThreadSched.taskUnblock t s) Tame :=
  returns_assertThat fun _ => Returns.ite
    (fun _ => returns_assertThat fun _ => Returns.pure (h.of rfl rfl fun _ _ => Or.inl))
    fun _ => Returns.pure h

variable {l : LockId}

theorem semaDown (h : Tame s) (hl : l ≠ .tid ∧ l ≠ .timer) :
    Returns (ThreadSched.semaDown l s) Tame := by
  refine Returns.ite (fun _ => returns_assertThat fun _ => ?_) fun _ =>
    returns_assertThat fun _ => Returns.pure (h.modLock hl _)
  exact ((h.modLock hl _).push _ (by simpa [Stmt.Plain] using hl)).taskBlock _

theorem semaUp (h : Tame s) (hl : l ≠ .tid ∧ l ≠ .timer) :
    Returns (ThreadSched.semaUp l s) Tame := by
  refine returns_assertThat fun _ => Returns.bind (P := Tame) ?_ fun s' hs' =>
    returns_assertThat fun _ => Returns.pure (hs'.modLock hl _)
  refine Returns.ite (fun _ => ?_) fun _ => Returns.pure h
  cases (s.locks l).semaphore.waiters with
  | nil => exact Returns.error
  | cons t ws => exact (h.modLock hl _).taskUnblock t

theorem lockAcquire (h : Tame s) (hl : l ≠ .tid ∧ l ≠ .timer) :
    Tame (ThreadSched.lockAcquire l s) := by
  unfold ThreadSched.lockAcquire
  split
  · exact h.push _ (by simpa [Stmt.Plain] using hl)
  · exact h.modLock hl _

theorem lockRelease (h : Tame s) (hl : l ≠ .tid ∧ l ≠ .timer) :
    Returns (ThreadSched.lockRelease l s) Tame :=
  returns_assertThat fun _ => Returns.ite (fun _ => Returns.pure (h.modLock hl _))
    fun _ => returns_assertThat fun _ => (h.modLock hl _).semaUp hl

theorem wakeupWaiter (h : Tame s) (q : IoqId) (w : Waiter) :
    Returns (ThreadSched.wakeupWaiter q w s) Tame := by
  unfold ThreadSched.wakeupWaiter
  cases (s.ioqs q).waiter w with
  | none => exact Returns.pure h
  | some t =>
      exact (h.taskUnblock t).bind fun s' hs' => Returns.pure (hs'.of rfl rfl fun _ _ => Or.inl)

/-- A statement of a call. -/
theorem execStmt (h : Tame s) {st : Stmt} (hst : st.Plain) :
    Returns (ThreadSched.execStmt st s) Tame := by
  have hioq : ∀ q f, Tame (s.modIoq q f) := fun q f => h.of rfl rfl fun _ _ => Or.inl
  cases st with
  | lockAcquire l => exact Returns.pure (h.lockAcquire hst)
  | semaDown l => exact h.semaDown hst
  | lockAcquired l =>
      exact returns_assertThat fun _ => Returns.pure ((h.modLock hst _).modLock hst _)
  | lockRelease l => exact h.lockRelease hst
  | ioqGetchar q =>
      refine Returns.ite (fun _ => Returns.pure (h.push _ (by simp [Stmt.Plain]))) fun _ => ?_
      exact ((hioq q _).wakeupWaiter q .producer).bind fun s' hs' =>
        Returns.pure (hs'.of rfl rfl fun _ _ => Or.inl)
  | ioqPutchar q byte =>
      exact Returns.ite (fun _ => Returns.pure (h.push _ (by simp [Stmt.Plain]))) fun _ =>
        (hioq q _).wakeupWaiter q .consumer
  | ioqWait q w => exact returns_assertThat fun _ => (hioq q _).taskBlock _
  | sleepSpin =>
      exact Returns.ite (fun _ => Returns.pure (h.push _ (by simp [Stmt.Plain]))) fun _ =>
        Returns.pure h
  | loop => exact Returns.pure (h.push _ (by simp [Stmt.Plain]))

theorem runStmt (h : Tame s) : Returns ((ThreadSched.runStmt s).getD (pure s)) Tame := by
  unfold ThreadSched.runStmt
  cases hc : s.conts s.currentTask with
  | nil => exact Returns.pure h
  | cons st rest =>
      have hmem : ∀ st' ∈ st :: rest, st'.Plain := fun st' hst' =>
        h.conts s.currentTask st' (by rw [hc]; exact hst')
      have hpop : Tame { s with conts := Function.update s.conts s.currentTask rest } := by
        refine h.of rfl rfl fun t st' hst' => ?_
        by_cases htc : t = s.currentTask
        · subst htc
          simp only [Function.update_self] at hst'
          exact Or.inr (hmem st' (List.mem_cons_of_mem _ hst'))
        · simp only [Function.update_of_ne htc] at hst'
          exact Or.inl hst'
      exact hpop.execStmt (hmem st List.mem_cons_self)

theorem initTask (h : Tame s) (ptask stack : Nat) (prio : Int) :
    Returns (ThreadSched.initTask ptask stack prio s) Tame := by
  rw [initTask_eq h.tid]
  cases bitmapScan s.tidPool.tidBitmap 1 with
  | none => exact Returns.error
  | some bitIdx => exact Returns.ok (h.of rfl rfl fun _ _ => Or.inl)

theorem taskStart (h : Tame s) (addr stack : Nat) (prio : Int) :
    Returns (ThreadSched.taskStart addr stack prio s) Tame := by
  unfold ThreadSched.taskStart
  refine Returns.bind (P := fun r => Tame r.2) ?_ ?_
  · refine Returns.ite (fun _ => ?_) fun _ => Returns.pure (h.of rfl rfl fun _ _ => Or.inl)
    cases s.taskPoolList with
    | nil => exact Returns.error
    | cons t rest =>
        exact returns_assertThat fun _ => Returns.pure (h.of rfl rfl fun _ _ => Or.inl)
  · rintro ⟨t, s₁⟩ h₁
    refine (initTask h₁ t stack prio).bind fun s' hs' => ?_
    refine returns_assertThat fun _ => returns_assertThat fun _ => Returns.pure ?_
    refine hs'.of rfl rfl fun u st hst => ?_
    by_cases hut : u = t
    · subst hut
      simp [Sched.emit] at hst
    · simp only [Sched.emit, Function.update_of_ne hut] at hst
      exact Or.inl hst

theorem exitLists (h : Tame s) (t : TaskId) : Tame (ThreadSched.exitLists t s) :=
  h.of rfl rfl fun _ _ => Or.inl

theorem taskExit (h : Tame s) (t : TaskId) : Returns (ThreadSched.taskExit t s) Tame := by
  unfold ThreadSched.taskExit
  show Returns (releaseTid _ (ThreadSched.exitLists t s) >>= _) _
  rw [releaseTid_eq (h.exitLists t).tid, ok_bind]
  exact diedTaskSchedule ((h.exitLists t).of rfl rfl fun _ _ => Or.inl)

end Tame

/-! ## The handler -/

/-- What the callbacks leave alone. -/
structure Undisturbed (s s' : Sched) : Prop where
  locks : s'.locks = s.locks
  conts : s'.conts = s.conts
  current : s'.currentTask = s.currentTask

theorem Undisturbed.trans {s s' s'' : Sched} (h : Undisturbed s s') (h' : Undisturbed s' s'') :
    Undisturbed s s'' :=
  ⟨h'.locks.trans h.locks, h'.conts.trans h.conts, h'.current.trans h.current⟩

/-- Tasks of the pool and stacks were freed, and nothing else changed. -/
def Freed (s s' : Sched) : Prop :=
  ∃ pool stackMem structMem, s' = { s with
    taskPoolList := pool
    stackAllocated := stackMem
    allocated := structMem }

theorem cleanLoop_freed (s : Sched) (fuel : Nat) (cleanCnt : Int) :
    Returns (cleanLoop fuel cleanCnt s) (Freed s) := by
  induction fuel generalizing s cleanCnt with
  | zero => exact Returns.error
  | succ fuel ih =>
      refine Returns.ite (fun _ => ?_) fun _ => Returns.ok ⟨_, _, _, rfl⟩
      cases s.taskPoolList with
      | nil => exact Returns.error
      | cons t rest =>
          refine (ih _ _).imp ?_
          rintro s' ⟨pool, stackMem, structMem, rfl⟩
          exact ⟨pool, stackMem, structMem, rfl⟩

/-- **`clean_dead_task`** frees, and that is all. -/
theorem cleanDeadTask_freed (s : Sched) : Returns (cleanDeadTask s) (Freed s) :=
  Returns.ite (fun _ => Returns.ok ⟨_, _, _, rfl⟩) fun _ => cleanLoop_freed s _ _

theorem timerCall_undisturbed (n : Wheel.TimerNode TimerFn) (j : Nat) (s : Sched) :
    Returns (timerCall n j s) (Undisturbed s) := by
  unfold timerCall
  cases n.timer with
  | collaborativeScheduleHelper t =>
      exact returns_assertThat fun _ => Returns.pure ⟨rfl, rfl, rfl⟩
  | cleanDeadTask =>
      refine (cleanDeadTask_freed s).imp ?_
      rintro s' ⟨pool, stackMem, structMem, rfl⟩
      exact ⟨rfl, rfl, rfl⟩

/-- What holds of the scheduler through a walk of callbacks holds through `run_timer`'s loop. -/
theorem runTimerLoop_invariant {I : Sched → Prop}
    (hI : ∀ n j s, I s → Returns (timerCall n j s) I) (r fuel : Nat)
    {w : TimerManager TimerFn × Sched} (h : I w.2) :
    Returns (Wheel.runTimerLoop timerCall .hang r fuel w) fun w' => I w'.2 := by
  induction fuel generalizing w with
  | zero => exact Returns.error
  | succ fuel ih =>
      refine Returns.ite (fun _ => ?_) fun _ => Returns.ok h
      refine Returns.bind (P := fun w' => I w'.2) ?_ fun w' hw' => ih hw'
      rw [show w = (w.1, w.2) from rfl, Wheel.runTick_eq]
      intro w' hw'
      cases hf : (Wheel.tickNodes w.1).foldlM (fun s n => timerCall n w.1.uJiffies s) w.2 with
      | error e => rw [hf] at hw'; cases hw'
      | ok s' =>
          rw [hf] at hw'
          cases hw'
          exact Returns.foldlM (I := fun _ s => I s) (fun n _ s hs => hI n _ s hs) _ w.2 h s' hf

/-- The loop leaves the lock to its holder. -/
theorem runTimerLoop_undisturbed (r fuel : Nat) (w : TimerManager TimerFn × Sched) :
    Returns (Wheel.runTimerLoop timerCall .hang r fuel w) fun w' => Undisturbed w.2 w'.2 :=
  runTimerLoop_invariant (I := Undisturbed w.2)
    (fun n j s hs => (timerCall_undisturbed n j s).imp fun _ => hs.trans) r fuel ⟨rfl, rfl, rfl⟩

theorem createTimer_eq {w : World} (hlive : w.freed = false) (h : w.sched.locks .timer = lockInit)
    (timer : TimerFn) (d p : Nat) : w.createTimer timer d p = .ok { w with
      tm := Wheel.createTimer w.tm w.nodes timer d p
      nodes := w.nodes + 1 } := by
  unfold World.createTimer
  rw [if_neg (by simp [hlive]), lockAcquireNow_eq h]
  have := withLock_eq h (w.sched.modLock .timer fun _ => heldBy w.sched.currentTask) rfl rfl
  show (lockRelease .timer _ >>= _) = _
  rw [this]
  rfl

/-- `create_timer`, and what comes after it. -/
theorem returns_createTimer {β : Type} {w : World} {f : World → Except Fault β} {Q : β → Prop}
    (h : w.sched.locks .timer = lockInit) {timer : TimerFn} {d p : Nat}
    (hf : Returns (f { w with
      tm := Wheel.createTimer w.tm w.nodes timer d p
      nodes := w.nodes + 1 }) Q) : Returns (w.createTimer timer d p >>= f) Q := by
  cases hfreed : w.freed with
  | true =>
      unfold World.createTimer
      rw [if_pos hfreed]
      exact Returns.error
  | false =>
      rw [createTimer_eq hfreed h]
      exact hf

/-- What the callbacks keep and no lock matters to, the handler keeps up to its switch. -/
theorem World.advance_invariant {I : Sched → Prop}
    (hI : ∀ n j s, I s → Returns (timerCall n j s) I)
    (hlocks : ∀ s locks, I s → I { s with locks := locks }) (r : Nat) {w : World}
    (ht : Tame w.sched) (h : I w.sched) : Returns (w.advance r) fun v => I v.sched := by
  refine Returns.ite (fun _ => Returns.error) fun _ => Returns.ite (fun _ => ?_)
    fun _ => Returns.ok h
  unfold World.runTimer
  rw [lockAcquireNow_eq ht.timer, ok_bind]
  refine ((runTimerLoop_invariant hI r _ (w := (w.tm, _)) (hlocks _ _ h)).and
    (runTimerLoop_undisturbed r _ _)).bind ?_
  rintro ⟨tm, s⟩ ⟨hs, hu⟩
  show Returns (ThreadSched.lockRelease .timer s >>= _) _
  rw [withLock_eq ht.timer s hu.locks hu.current]
  exact Returns.pure (hlocks _ _ hs)

theorem Tame.advance (r : Nat) {w : World} (h : Tame w.sched) :
    Returns (w.advance r) fun v => Tame v.sched := by
  refine Returns.ite (fun _ => Returns.error) fun _ => Returns.ite (fun _ => ?_)
    fun _ => Returns.ok h
  unfold World.runTimer
  rw [lockAcquireNow_eq h.timer, ok_bind]
  refine (runTimerLoop_undisturbed r _ _).bind ?_
  rintro ⟨tm, s⟩ hu
  show Returns (ThreadSched.lockRelease .timer s >>= _) _
  rw [withLock_eq h.timer s hu.locks hu.current]
  refine Returns.pure ⟨h.tid, h.timer, fun t st hst => h.conts t st ?_⟩
  rw [← show s.conts = w.sched.conts from hu.conts]
  exact hst

theorem Tame.handler (r : Nat) {w : World} (h : Tame w.sched) :
    Returns (interruptTimerHandler r w) fun w' => Tame w'.sched := by
  refine returns_assertThat fun _ => (h.advance r).bind fun v hv => ?_
  refine Returns.ite (fun _ => ?_) fun _ => Returns.ite (fun _ => Returns.pure ?_) fun _ => ?_
  · exact hv.schedule.bind fun s hs => Returns.pure hs
  · exact hv.of rfl rfl fun _ _ => Or.inl
  · refine returns_createTimer hv.timer ?_
    exact hv.collaborativeSchedule.bind fun s hs => Returns.pure hs

/-- **Every action** leaves the internal locks free. -/
theorem Tame.act {w : World} (h : Tame w.sched) (a : Action) :
    Returns (w.act a) fun w' => Tame w'.sched := by
  have hplain : ∀ st : Stmt, st.Plain → Tame (w.sched.push w.sched.currentTask [st]) :=
    fun st hst => h.push _ (by simpa using hst)
  have hsched : Returns (schedAction w.sched a >>= fun s => pure { w with sched := s })
      fun w' : World => Tame w'.sched := by
    refine Returns.bind (P := Tame) ?_ fun s hs => Returns.pure hs
    cases a with
    | taskStart addr stack prio => exact h.taskStart addr stack prio
    | taskExit => exact h.taskExit _
    | lockAcquire l => exact Returns.pure (hplain _ ⟨nofun, nofun⟩)
    | lockRelease l => exact Returns.pure (hplain _ ⟨nofun, nofun⟩)
    | ioqGetchar q => exact Returns.pure (hplain _ trivial)
    | ioqPutchar q byte => exact Returns.pure (hplain _ trivial)
    | sleep milliseconds =>
        have hmod : ∀ f, Tame (w.sched.modTask w.sched.currentTask f) := fun f =>
          h.of rfl rfl fun _ _ => Or.inl
        exact Returns.pure ((hmod _).push _ (by simp [Stmt.Plain]))
    | resume => exact h.runStmt
    | tick r => exact Returns.pure h
  cases a with
  | tick r => exact h.handler r
  | _ => exact hsched

end ThreadSched

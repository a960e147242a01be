import ThreadSched.Task.Recycle

/-!
# What leaves a queue alone

An action that does not touch the ioqueue `q` leaves `q`, its lock and the calls of the other tasks as
they are.

* `Touches` — the statements that work on `q` or its lock.
* `Apart` — what such an action does to the state.
* `schedAction_apart` — every action whose statement does not touch `q`.
-/

set_option autoImplicit false

namespace ThreadSched

/-- The statement works on the queue `q` or on its lock. -/
def Touches (q : IoqId) : Stmt → Prop
  | .lockAcquire l | .semaDown l | .lockAcquired l | .lockRelease l => l = .ioq q
  | .ioqGetchar q' | .ioqPutchar q' _ | .ioqWait q' _ => q' = q
  | .sleepSpin | .loop => False

/-- From `s` to `s'` the task `c` has not touched the queue `q`.  A task whose call it changes is a new
one. -/
structure Apart (q : IoqId) (c : TaskId) (s s' : Sched) : Prop where
  ioq : s'.ioqs q = s.ioqs q
  lock : s'.locks (.ioq q) = s.locks (.ioq q)
  allocated : ∀ t, s.allocated t = true → s'.allocated t = true
  conts : ∀ t, t ≠ c → s'.conts t = s.conts t ∨ s.allocated t = false ∧ s'.conts t = []
  own : ∀ st ∈ s'.conts c, st ∈ s.conts c ∨ ¬ Touches q st

namespace Apart

variable {q : IoqId} {c : TaskId} {s s' s'' : Sched}

theorem of_eq (hioqs : s'.ioqs = s.ioqs) (hlocks : s'.locks = s.locks)
    (halloc : s'.allocated = s.allocated) (hconts : s'.conts = s.conts) : Apart q c s s' := by
  constructor
  · rw [hioqs]
  · rw [hlocks]
  · intro t ht
    rw [halloc]
    exact ht
  · intro t _
    rw [hconts]
    exact Or.inl rfl
  · intro st hst
    rw [hconts] at hst
    exact Or.inl hst

theorem refl (q : IoqId) (c : TaskId) (s : Sched) : Apart q c s s := of_eq rfl rfl rfl rfl

theorem trans (h : Apart q c s s') (h' : Apart q c s' s'') : Apart q c s s'' := by
  constructor
  · exact h'.ioq.trans h.ioq
  · exact h'.lock.trans h.lock
  · intro t ht
    exact h'.allocated t (h.allocated t ht)
  · intro t ht
    rcases h'.conts t ht with heq' | ⟨hnew', hnil⟩
    · rw [heq']
      exact h.conts t ht
    · right
      constructor
      · by_contra hold
        rw [Bool.not_eq_false] at hold
        rw [h.allocated t hold] at hnew'
        cases hnew'
      · exact hnil
  · intro st hst
    rcases h'.own st hst with hst | hst
    · exact h.own st hst
    · exact Or.inr hst

theorem modTask (h : Apart q c s s') (t : TaskId) (f : TaskStruct → TaskStruct) :
    Apart q c s (s'.modTask t f) := h.trans (of_eq rfl rfl rfl rfl)

theorem emit (h : Apart q c s s') (e : Event) : Apart q c s (s'.emit e) :=
  h.trans (of_eq rfl rfl rfl rfl)

theorem push (h : Apart q c s s') {ss : List Stmt} (hss : ∀ st ∈ ss, ¬ Touches q st) :
    Apart q c s (s'.push c ss) := by
  refine h.trans ⟨rfl, rfl, fun _ => id, ?_, ?_⟩
  · intro t ht
    exact Or.inl (Function.update_of_ne ht _ _)
  · intro st hst
    simp only [Sched.push, Function.update_self, List.mem_append] at hst
    exact hst.symm.imp_right (hss st)

theorem modLock (h : Apart q c s s') {l : LockId} (hl : l ≠ .ioq q) (f : Lock → Lock) :
    Apart q c s (s'.modLock l f) :=
  h.trans ⟨rfl, Function.update_of_ne hl.symm _ _, fun _ => id, fun _ _ => Or.inl rfl,
    fun _ => Or.inl⟩

theorem modIoq (h : Apart q c s s') {q' : IoqId} (hq : q' ≠ q) (f : Ioqueue → Ioqueue) :
    Apart q c s (s'.modIoq q' f) :=
  h.trans ⟨Function.update_of_ne hq.symm _ _, rfl, fun _ => id, fun _ _ => Or.inl rfl,
    fun _ => Or.inl⟩

end Apart

section calls

variable {q : IoqId} {c : TaskId} {s : Sched}

/-! ## Switching -/

theorem getNextTask_apart (s : Sched) : Returns (getNextTask s) (Apart q c s) := by
  unfold getNextTask
  cases s.taskReadyList with
  | nil => exact Returns.error
  | cons t rest => exact Returns.pure (.of_eq rfl rfl rfl rfl)

theorem taskBlock_apart (hc : s.currentTask = c) (status : TaskStatus) :
    Returns (taskBlock status s) (Apart q c s) := by
  have hstatus : Apart q c s (s.modTask s.currentTask fun task => { task with status := status }) :=
    (Apart.refl q c s).modTask _ _
  refine returns_assertThat fun _ => Returns.ite (fun _ => Returns.ok ?_)
    fun _ => returns_assertThat fun _ => ?_
  · have hloop : Apart q c s (Sched.push _ c [.loop]) := hstatus.push (by simp [Touches])
    rw [← hc] at hloop ⊢
    exact hloop
  · exact (getNextTask_apart _).imp fun _ => hstatus.trans

theorem taskUnblock_apart (t : TaskId) (s : Sched) : Returns (taskUnblock t s) (Apart q c s) := by
  refine (Filed.taskUnblock_eq t s).imp ?_
  rintro s' ⟨rfl, _⟩
  exact .of_eq rfl rfl rfl rfl

/-! ## Semaphores, locks and other queues -/

theorem semaTake_apart {l : LockId} (hl : l ≠ .ioq q) (s : Sched) :
    Returns (semaTake l s) (Apart q c s) :=
  returns_assertThat fun _ => Returns.pure ((Apart.refl q c s).modLock hl _)

theorem semaDown_apart {l : LockId} (hl : l ≠ .ioq q) (hc : s.currentTask = c) :
    Returns (semaDown l s) (Apart q c s) := by
  refine Returns.ite (fun _ => returns_assertThat fun _ => ?_) fun _ => semaTake_apart hl s
  have hwait : Apart q c s (Sched.push _ c [.semaDown l]) := ((Apart.refl q c s).modLock hl fun lock =>
    lock.setWaiters (listAppend lock.semaphore.waiters s.currentTask)).push
    (by simpa [Touches] using hl)
  rw [← hc] at hwait ⊢
  exact (taskBlock_apart rfl _).imp fun _ => hwait.trans

theorem semaUp_apart {l : LockId} (hl : l ≠ .ioq q) (s : Sched) :
    Returns (semaUp l s) (Apart q c s) := by
  refine returns_assertThat fun _ => Returns.bind (P := Apart q c s) ?_ fun s' hs' =>
    returns_assertThat fun _ => Returns.pure (hs'.modLock hl _)
  refine Returns.ite (fun _ => ?_) fun _ => Returns.pure (Apart.refl q c s)
  cases (s.locks l).semaphore.waiters with
  | nil => exact Returns.error
  | cons t ws =>
      have hpop := (Apart.refl q c s).modLock hl fun lock => lock.setWaiters ws
      exact (taskUnblock_apart t _).imp fun _ => hpop.trans

theorem lockAcquire_apart {l : LockId} (hl : l ≠ .ioq q) (hc : s.currentTask = c) :
    Apart q c s (lockAcquire l s) := by
  unfold lockAcquire
  split
  · rw [hc]
    exact (Apart.refl q c s).push (by simpa [Touches] using hl)
  · exact (Apart.refl q c s).modLock hl _

theorem lockAcquired_apart {l : LockId} (hl : l ≠ .ioq q) (s : Sched) :
    Returns (lockAcquired l s) (Apart q c s) :=
  returns_assertThat fun _ => Returns.pure (((Apart.refl q c s).modLock hl _).modLock hl _)

theorem lockRelease_apart {l : LockId} (hl : l ≠ .ioq q) (s : Sched) :
    Returns (lockRelease l s) (Apart q c s) := by
  refine returns_assertThat fun _ => Returns.ite
    (fun _ => Returns.pure ((Apart.refl q c s).modLock hl _)) fun _ => returns_assertThat fun _ => ?_
  have hfree := (Apart.refl q c s).modLock hl fun lock =>
    { lock with holder := none, holderRepeatNr := 0 }
  exact (semaUp_apart hl _).imp fun _ => hfree.trans

theorem wakeupWaiter_apart {q' : IoqId} (hq : q' ≠ q) (w : Waiter) (s : Sched) :
    Returns (wakeupWaiter q' w s) (Apart q c s) := by
  unfold wakeupWaiter
  cases (s.ioqs q').waiter w with
  | none => exact Returns.pure (Apart.refl q c s)
  | some t => exact (taskUnblock_apart t s).bind fun _ hs' => Returns.pure (hs'.modIoq hq _)

theorem ioqGetchar_apart {q' : IoqId} (hq : q' ≠ q) (hc : s.currentTask = c) :
    Returns (ioqGetchar q' s) (Apart q c s) := by
  refine Returns.ite (fun _ => Returns.pure ?_) fun _ => ?_
  · rw [hc]
    exact (Apart.refl q c s).push (by simpa [Touches] using hq)
  · have htaken := (Apart.refl q c s).modIoq hq fun ioq => { ioq with tail := nextPos ioq.tail }
    exact (wakeupWaiter_apart hq .producer _).bind fun _ hs' =>
      Returns.pure ((htaken.trans hs').emit _)

theorem ioqPutchar_apart {q' : IoqId} (hq : q' ≠ q) (hc : s.currentTask = c) (byte : BitVec 8) :
    Returns (ioqPutchar q' byte s) (Apart q c s) := by
  refine Returns.ite (fun _ => Returns.pure ?_) fun _ => ?_
  · rw [hc]
    exact (Apart.refl q c s).push (by simpa [Touches] using hq)
  · have hput := (Apart.refl q c s).modIoq hq fun ioq =>
      { ioq with buf := Function.update ioq.buf ioq.head byte, head := nextPos ioq.head }
    exact (wakeupWaiter_apart hq .consumer _).imp fun _ => hput.trans

/-- A statement that does not touch the queue. -/
theorem execStmt_apart {st : Stmt} (hst : ¬ Touches q st) (hc : s.currentTask = c) :
    Returns (execStmt st s) (Apart q c s) := by
  cases st with
  | lockAcquire l => exact Returns.pure (lockAcquire_apart hst hc)
  | semaDown l => exact semaDown_apart hst hc
  | lockAcquired l => exact lockAcquired_apart hst s
  | lockRelease l => exact lockRelease_apart hst s
  | ioqGetchar q' => exact ioqGetchar_apart hst hc
  | ioqPutchar q' byte => exact ioqPutchar_apart hst hc byte
  | ioqWait q' w =>
      refine returns_assertThat fun _ => ?_
      have hwait := (Apart.refl q c s).modIoq hst fun ioq => ioq.setWaiter w (some s.currentTask)
      exact (taskBlock_apart (s := s.modIoq q' _) hc _).imp fun _ => hwait.trans
  | sleepSpin =>
      refine Returns.ite (fun _ => Returns.pure ?_) fun _ => Returns.pure (Apart.refl q c s)
      rw [hc]
      exact (Apart.refl q c s).push (by simp [Touches])
  | loop =>
      refine Returns.pure ?_
      rw [hc]
      exact (Apart.refl q c s).push (by simp [Touches])

/-- The next statement of a call, when it does not touch the queue. -/
theorem runStmt_apart (h : ∀ st, (s.conts s.currentTask).head? = some st → ¬ Touches q st) :
    Returns ((runStmt s).getD (pure s)) (Apart q s.currentTask s) := by
  unfold runStmt
  cases hc : s.conts s.currentTask with
  | nil => exact Returns.pure (Apart.refl q _ s)
  | cons st rest =>
      have hst : ¬ Touches q st := h st (by rw [hc]; rfl)
      have hpop : Apart q s.currentTask s
          { s with conts := Function.update s.conts s.currentTask rest } := by
        refine ⟨rfl, rfl, fun _ => id, ?_, ?_⟩
        · intro t ht
          exact Or.inl (Function.update_of_ne ht _ _)
        · intro st' hst'
          simp only [Function.update_self] at hst'
          rw [hc]
          exact Or.inl (List.mem_cons_of_mem _ hst')
      exact (execStmt_apart hst rfl).imp fun _ => hpop.trans

/-! ## Creation and exit -/

/-- The new struct is a fresh one: a struct from the pool fails the assertion. -/
theorem taskStart_apart (htame : Tame s) (hpool : PoolDied s) {addr : TaskId}
    (hfresh : s.allocated addr = false) (stack : Nat) (prio : Int) :
    Returns (taskStart addr stack prio s) (Apart q c s) := by
  by_cases hempty : s.taskPoolList = []
  · unfold taskStart takeTask
    rw [if_neg (not_not.2 hempty)]
    show Returns (initTask addr stack prio { s with
      allocated := Function.update s.allocated addr true } >>= _) _
    have hinit := initTask_eq (s := { s with
      allocated := Function.update s.allocated addr true }) htame.tid addr stack prio
    rw [hinit]
    cases bitmapScan s.tidPool.tidBitmap 1 with
    | none => exact Returns.error
    | some bitIdx =>
        refine returns_assertThat fun _ => returns_assertThat fun _ => Returns.pure ?_
        refine ⟨rfl, rfl, ?_, ?_, ?_⟩
        · intro t ht
          by_cases hta : t = addr
          · rw [hta]
            exact Function.update_self _ _ _
          · exact (Function.update_of_ne hta _ _).trans ht
        · intro t _
          by_cases hta : t = addr
          · subst hta
            exact Or.inr ⟨hfresh, Function.update_self _ _ _⟩
          · exact Or.inl (Function.update_of_ne hta _ _)
        · intro st hst
          change st ∈ Function.update s.conts addr [] c at hst
          by_cases hca : c = addr
          · rw [hca, Function.update_self] at hst
            cases hst
          · rw [Function.update_of_ne hca] at hst
            exact Or.inl hst
  · rw [hpool.taskStart_fails hempty]
    exact Returns.error

theorem taskExit_apart (htame : Tame s) (hc : s.currentTask = c) (t : TaskId) :
    Returns (taskExit t s) (Apart q c s) := by
  unfold taskExit
  show Returns (releaseTid _ (exitLists t s) >>= _) _
  rw [releaseTid_eq (htame.exitLists t).tid, ok_bind]
  have hdied : Apart q c s (((exitLists t s).setTidBit
      (((exitLists t s).tasks t).tid - (exitLists t s).tidPool.tidStart) false).emit (.exit t)) :=
    .of_eq rfl rfl rfl rfl
  refine Returns.ite (fun _ => Returns.ok ?_) fun _ => ?_
  · have hloop : Apart q c s (Sched.push _ c [.loop]) := hdied.push (by simp [Touches])
    rw [← hc] at hloop ⊢
    exact hloop
  · exact (getNextTask_apart _).imp fun _ => hdied.trans

/-- **An action that does not touch the queue**: it starts no call of it, and the next statement of the
call that goes on is none of its. -/
theorem schedAction_apart (htame : Tame s) (hpool : PoolDied s) {a : Action}
    (hfresh : ∀ addr stack prio, a = .taskStart addr stack prio → s.allocated addr = false)
    (hget : a ≠ .ioqGetchar q) (hput : ∀ byte, a ≠ .ioqPutchar q byte)
    (hresume : a = .resume → ∀ st, (s.conts s.currentTask).head? = some st → ¬ Touches q st) :
    Returns (schedAction s a) (Apart q s.currentTask s) := by
  have hcall : ∀ st : Stmt, ¬ Touches q st →
      Apart q s.currentTask s (s.push s.currentTask [st]) := by
    intro st hst
    exact (Apart.refl q _ s).push (by simpa using hst)
  cases a with
  | taskStart addr stack prio => exact taskStart_apart htame hpool (hfresh _ _ _ rfl) stack prio
  | taskExit => exact taskExit_apart htame rfl _
  | lockAcquire l => exact Returns.pure (hcall _ nofun)
  | lockRelease l => exact Returns.pure (hcall _ nofun)
  | ioqGetchar q' =>
      refine Returns.pure (hcall _ ?_)
      rintro rfl
      exact hget rfl
  | ioqPutchar q' byte =>
      refine Returns.pure (hcall _ ?_)
      rintro rfl
      exact hput byte rfl
  | sleep milliseconds =>
      refine Returns.pure ?_
      have hmark : Apart q s.currentTask s (s.modTask s.currentTask fun task => { task with
        isCollaborativeSchedule := true, sleepMillisecond := milliseconds }) :=
        (Apart.refl q _ s).modTask _ _
      exact hmark.push (by simp [Touches])
  | resume => exact runStmt_apart (hresume rfl)
  | tick r => exact Returns.pure (Apart.refl q _ s)

end calls

end ThreadSched

import ThreadSched.Task.Places

/-!
# What each operation moves

One lemma for each operation of the scheduler: from `Filed`, and the place of the task it is about,
to `Filed` with that task moved.
-/

set_option autoImplicit false

namespace ThreadSched

/-! ## What one write changes -/

namespace Sched

variable (s : Sched) (t u : TaskId)

theorem obs_push (ss : List Stmt) : (s.push t ss).obs u = s.obs u := rfl

theorem obs_emit (e : Event) : (s.emit e).obs u = s.obs u := rfl

theorem obs_setTidBit (i : Int) (b : Bool) : (s.setTidBit i b).obs u = s.obs u := rfl

theorem obs_modTask_ne (f : TaskStruct → TaskStruct) (h : u ≠ t) :
    (s.modTask t f).obs u = s.obs u := by
  simp [obs, modTask, Function.update_of_ne h]

theorem obs_modTask_self (f : TaskStruct → TaskStruct) : (s.modTask t f).obs t =
    { s.obs t with
      status := (f (s.tasks t)).status
      collaborative := (f (s.tasks t)).isCollaborativeSchedule } := by
  simp [obs, modTask]

theorem obs_modTask (f : TaskStruct → TaskStruct) (hs : (f (s.tasks t)).status = (s.tasks t).status)
    (hc : (f (s.tasks t)).isCollaborativeSchedule = (s.tasks t).isCollaborativeSchedule) :
    (s.modTask t f).obs u = s.obs u := by
  by_cases h : u = t
  · subst h; rw [obs_modTask_self, hs, hc]; rfl
  · exact obs_modTask_ne s t u f h

theorem obs_modLock (l : LockId) (f : Lock → Lock)
    (hf : (f (s.locks l)).semaphore.waiters.count u = (s.locks l).semaphore.waiters.count u) :
    (s.modLock l f).obs u = s.obs u := by
  have hw : ∀ l', ((s.modLock l f).locks l').semaphore.waiters.count u =
      (s.locks l').semaphore.waiters.count u := fun l' => by
    by_cases hl : l' = l
    · subst hl; simp [modLock, hf]
    · simp [modLock, Function.update_of_ne hl]
  simp only [obs, hw]
  rfl

theorem obs_modIoq (q : IoqId) (f : Ioqueue → Ioqueue)
    (hf : (f (s.ioqs q)).waiter = (s.ioqs q).waiter) : (s.modIoq q f).obs u = s.obs u := by
  have hw : ∀ q', ((s.modIoq q f).ioqs q').waiter = (s.ioqs q').waiter := fun q' => by
    by_cases hq : q' = q
    · subst hq; simp [modIoq, hf]
    · simp [modIoq, Function.update_of_ne hq]
  simp only [obs, hw]
  rfl

end Sched

/-- The scheduler with a current task that fits its place. -/
def Running (p : TaskId → Nat) (s : Sched) : Prop :=
  ∃ pl, Filed p pl s ∧ pl s.currentTask = some .current

/-- What an operation of the current task leaves: a task that runs, or loops. -/
def Safe (p : TaskId → Nat) (s : Sched) : Prop := s.Looping ∨ Running p s

namespace Filed

variable {p : TaskId → Nat} {pl : TaskId → Option Place} {s : Sched}

/-! ## Switching -/

/-- `get_next_task` makes a ready task the current one; the old one has to have left before. -/
theorem getNextTask_running (h : Filed p pl s) (hc : ∀ t, pl t ≠ some .current) :
    Returns (ThreadSched.getNextTask s) (Running p) := by
  unfold ThreadSched.getNextTask
  cases hr : s.taskReadyList with
  | nil => exact Returns.error
  | cons t rest =>
      have ht := h.place_of_ready (t := t) (by rw [hr]; exact List.mem_cons_self)
      have hf := h.fits t
      rw [ht] at hf
      refine Returns.pure ⟨Function.update pl t (some .current), ?_, Function.update_self _ _ _⟩
      refine h.move t _ (fun u hu => ?_) (fun u _ => rfl) rfl h.nums ?_
        (fun u _ hu => absurd hu (hc u)) (fun _ => rfl) (by simp)
      · simp [Sched.obs, Sched.modTask, Sched.emit, Function.update_of_ne hu, hr,
          List.count_cons_of_ne (Ne.symm hu)]
      · have hcount := hf.ready
        simp only [Sched.obs, hr, List.count_cons_self] at hcount
        refine ⟨hf.allocated, ?_, by simp, ?_, hf.waiters, hf.io, hf.all, hf.pool, hf.pending⟩
        · rintro y ⟨⟩
          simp [Sched.obs, Sched.modTask, Sched.emit, Place.status]
        · simpa [Sched.obs, Sched.modTask, Sched.emit] using hcount

theorem getNextTask (h : Filed p pl s) (hc : ∀ t, pl t ≠ some .current) :
    Returns (ThreadSched.getNextTask s) (Safe p) :=
  (h.getNextTask_running hc).imp fun _ => Or.inr

theorem looping_push (s : Sched) : (s.push s.currentTask [.loop]).Looping := by
  simp [Sched.Looping, Sched.push]

theorem collaborativeSchedule (h : Filed p pl s) (hc : ∀ t, pl t ≠ some .current) :
    Returns (ThreadSched.collaborativeSchedule s) (Safe p) :=
  Returns.ite (fun _ => Returns.error) fun _ => h.getNextTask hc

theorem diedTaskSchedule (h : Filed p pl s) (hc : ∀ t, pl t ≠ some .current) :
    Returns (ThreadSched.diedTaskSchedule s) (Safe p) :=
  Returns.ite (fun _ => Returns.ok (Or.inl (looping_push s))) fun _ => h.getNextTask hc

theorem blockTaskSchedule (h : Filed p pl s) (hc : ∀ t, pl t ≠ some .current) :
    Returns (ThreadSched.blockTaskSchedule s) (Safe p) :=
  Returns.ite (fun _ => Returns.ok (Or.inl (looping_push s))) fun _ =>
    returns_assertThat fun _ => h.getNextTask hc

/-- Moving the current task away leaves none in the place `current`. -/
theorem no_current (h : Filed p pl s) {x : Option Place} (hx : x ≠ some .current) (t : TaskId) :
    Function.update pl s.currentTask x t ≠ some .current := by
  by_cases ht : t = s.currentTask
  · rw [ht, Function.update_self]; exact hx
  · rw [Function.update_of_ne ht]
    exact fun hc => ht (h.cur t hc)

/-- `schedule` puts the current task at the end of the ready list and runs the first one. -/
theorem schedule (h : Filed p pl s) (hcur : pl s.currentTask = some .current) :
    Returns (ThreadSched.schedule s) (Safe p) := by
  unfold ThreadSched.schedule
  refine returns_assertThat fun _ => ?_
  refine Returns.ite (fun _ => Returns.error) fun _ => ?_
  have hf := h.fits s.currentTask
  rw [hcur] at hf
  refine @getNextTask p (Function.update pl s.currentTask (some .ready)) _ ?_ (h.no_current (by simp))
  refine h.move s.currentTask _ (fun u hu => ?_) (fun u _ => rfl) rfl h.nums ?_
    (fun u hu hc => absurd (h.cur u hc) hu) (by simp) (by simp)
  · simp [Sched.obs, Sched.modTask, Sched.emit, Function.update_of_ne hu, Ne.symm hu]
  · have hcount := hf.ready
    simp only [Sched.obs, reduceCtorEq, Option.some.injEq, if_false] at hcount
    refine ⟨hf.allocated, ?_, by simp, ?_, hf.waiters, hf.io, hf.all, hf.pool, hf.pending⟩
    · rintro y ⟨⟩
      simp [Sched.obs, Sched.modTask, Sched.emit, Place.status]
    · simp [Sched.obs, Sched.modTask, Sched.emit, hcount]

/-! ## Blocking and unblocking -/

/-- The current task blocks in `s₁`, where it has just been put into the list or the field it will
wait in. -/
theorem block (h : Filed p pl s) (hcur : pl s.currentTask = some .current) {x : Place}
    (hx : x.status = .BLOCKED) {s₁ : Sched}
    (hother : ∀ u, u ≠ s.currentTask → s₁.obs u = s.obs u)
    (hself : s₁.obs s.currentTask = { s.obs s.currentTask with
      waiters := fun l => if x = .waiting l then 1 else 0
      io := fun q w => decide (x = .ioWaiting q w) })
    (hmain : s₁.mainTask = s.mainTask) (hcur₁ : s₁.currentTask = s.currentTask)
    (hnums : s₁.taskAllNums = s₁.taskAllList.length) :
    Returns (taskBlock .BLOCKED s₁) (Safe p) := by
  refine returns_assertThat fun _ => ?_
  have hf := h.fits s.currentTask
  rw [hcur] at hf
  have hne : x ≠ .ready ∧ x ≠ .asleep ∧ x ≠ .exited ∧ x ≠ .current := by
    refine ⟨?_, ?_, ?_, ?_⟩ <;> · rintro rfl; cases hx
  refine @blockTaskSchedule p (Function.update pl s.currentTask (some x)) _ ?_
    (h.no_current (by simpa using hne.2.2.2))
  refine h.move s.currentTask _ (fun u hu => ?_) (fun u _ => rfl) hmain hnums ?_
    (fun u hu hc => absurd (h.cur u hc) hu) (by simpa using fun hc => absurd hc hne.2.2.2) nofun
  · rw [hcur₁]
    exact (Sched.obs_modTask_ne _ _ _ _ hu).trans (hother u hu)
  · rw [hcur₁, Sched.obs_modTask_self, hself]
    have hready := hf.ready
    have hall := hf.all
    have hpool := hf.pool
    have hpending := hf.pending
    simp only [reduceCtorEq, Option.some.injEq, if_false, ne_eq, not_false_eq_true, and_self,
      if_true, false_and] at hready hall hpool hpending
    refine ⟨hf.allocated, ?_, ?_, ?_, ?_, ?_, ?_, ?_, ?_⟩ <;>
      simp [hx, hne.1, hne.2.1, hne.2.2.1, hready, hall, hpool, hpending]

/-- `sema_down`: the task goes on, or waits. -/
theorem semaDown (h : Filed p pl s) (hcur : pl s.currentTask = some .current) (l : LockId) :
    Returns (ThreadSched.semaDown l s) (Safe p) := by
  have hf := h.fits s.currentTask
  rw [hcur] at hf
  refine Returns.ite (fun _ => ?_) fun _ => ?_
  · refine returns_assertThat fun _ => ?_
    refine h.block hcur (x := .waiting l) rfl (fun u hu => ?_) ?_ rfl rfl h.nums
    · refine (Sched.obs_push _ _ _ _).trans (Sched.obs_modLock _ _ _ _ ?_)
      simp [Lock.setWaiters, Ne.symm hu]
    · have hwait : ∀ l', ((s.modLock l fun lock => lock.setWaiters
          (listAppend lock.semaphore.waiters s.currentTask)).locks l').semaphore.waiters.count
            s.currentTask = if Place.waiting l = .waiting l' then 1 else 0 := fun l' => by
        have hcount := hf.waiters l'
        simp only [Sched.obs, reduceCtorEq, Option.some.injEq, if_false] at hcount
        by_cases hl' : l' = l
        · subst hl'
          simp [Sched.modLock, Lock.setWaiters, hcount]
        · simp [Sched.modLock, Function.update_of_ne hl', hcount, Ne.symm hl']
      have hio : ∀ q w, ((s.ioqs q).waiter w == some s.currentTask) = false := fun q w => by
        simpa [Sched.obs] using hf.io q w
      refine (Sched.obs_push _ _ _ _).trans ?_
      simp only [Sched.obs, hwait]
      simp [Sched.modLock, hio]
  · refine returns_assertThat fun _ => Returns.pure (Or.inr ⟨pl, ?_, hcur⟩)
    exact h.congr (fun t => Sched.obs_modLock _ _ _ _ rfl) rfl rfl rfl rfl

/-- What `task_unblock` does when its assertions hold. -/
def unblocked (t : TaskId) (s : Sched) : Sched :=
  ({ s with taskReadyList := t :: s.taskReadyList }.modTask t
    fun task => { task with status := .READY }).emit (.ready t .taskUnblock)

theorem taskUnblock_eq (t : TaskId) (s : Sched) :
    Returns (taskUnblock t s) fun s' => s' = unblocked t s ∧ t ∉ s.taskReadyList := by
  refine returns_assertThat fun hst => ?_
  refine Returns.ite (fun _ => ?_) fun hne => ?_
  · exact returns_assertThat fun hn => Returns.pure ⟨rfl, hn⟩
  · exfalso
    push Not at hne
    rw [hne] at hst
    simp at hst

theorem obs_unblocked_ne {t u : TaskId} (s : Sched) (hu : u ≠ t) :
    (unblocked t s).obs u = s.obs u := by
  simp [unblocked, Sched.obs, Sched.modTask, Sched.emit, Function.update_of_ne hu, Ne.symm hu]

theorem obs_unblocked_self (t : TaskId) (s : Sched) : (unblocked t s).obs t =
    { s.obs t with status := .READY, ready := (s.obs t).ready + 1 } := by
  simp [unblocked, Sched.obs, Sched.modTask, Sched.emit]

/-- A blocked task `t` is unblocked in `s₁`, where it has just been taken out of the list or the
field it waited in. -/
theorem unblock (h : Filed p pl s) {t : TaskId} {x : Place} (ht : pl t = some x)
    (hx : x.status = .BLOCKED) {s₁ : Sched} (hother : ∀ u, u ≠ t → s₁.obs u = s.obs u)
    (hself : s₁.obs t = { s.obs t with waiters := fun _ => 0, io := fun _ _ => false })
    (hmain : s₁.mainTask = s.mainTask) (hcur : s₁.currentTask = s.currentTask)
    (hnums : s₁.taskAllNums = s₁.taskAllList.length) :
    Filed p (Function.update pl t (some .ready)) (unblocked t s₁) := by
  have hf := h.fits t
  rw [ht] at hf
  have hne : x ≠ .ready ∧ x ≠ .asleep ∧ x ≠ .exited := by
    refine ⟨?_, ?_, ?_⟩ <;> · rintro rfl; cases hx
  refine h.move t _ (fun u hu => (obs_unblocked_ne _ hu).trans (hother u hu)) (fun _ _ => rfl) hmain
    hnums ?_ (fun u _ hu => ?_) nofun nofun
  · rw [obs_unblocked_self, hself]
    have hready := hf.ready
    have hall := hf.all
    have hpool := hf.pool
    have hpending := hf.pending
    simp only [Option.some.injEq, hne.1, hne.2.1, hne.2.2, if_false, ne_eq, reduceCtorEq,
      not_false_eq_true, and_self, if_true, false_and] at hready hall hpool hpending
    exact ⟨hf.allocated, by rintro y ⟨⟩; rfl, nofun, by simp [hready], by simp, by simp,
      by simp [hall], by simp [hpool], by simp [hpending]⟩
  · exact (h.cur u hu).trans hcur.symm

/-- `sema_up` moves the first waiter to the ready list. -/
theorem semaWake (h : Filed p pl s) (hcur : pl s.currentTask = some .current) (l : LockId) :
    Returns (ThreadSched.semaWake l s) (Running p) := by
  refine Returns.ite (fun _ => ?_) fun _ => Returns.pure ⟨pl, h, hcur⟩
  cases hw : (s.locks l).semaphore.waiters with
  | nil => exact Returns.error
  | cons t ws =>
      have htp := h.place_of_waiters (t := t) (l := l) (by rw [hw]; exact List.mem_cons_self)
      have hne : s.currentTask ≠ t := by rintro rfl; rw [hcur] at htp; cases htp
      have hf := h.fits t
      rw [htp] at hf
      refine (taskUnblock_eq t _).imp ?_
      rintro s' ⟨rfl, _⟩
      refine ⟨Function.update pl t (some .ready), ?_, ?_⟩
      · refine h.unblock htp rfl (fun u hu => ?_) ?_ rfl rfl h.nums
        · exact Sched.obs_modLock _ _ _ _ (by simp [Lock.setWaiters, hw, Ne.symm hu])
        · have hwait : ∀ l', ((s.modLock l fun lock => lock.setWaiters ws).locks
              l').semaphore.waiters.count t = 0 := fun l' => by
            have hcount := hf.waiters l'
            simp only [Sched.obs, Option.some.injEq, Place.waiting.injEq] at hcount
            by_cases hl : l' = l
            · subst hl
              rw [hw] at hcount
              simpa [Sched.modLock, Lock.setWaiters] using hcount
            · simpa [Sched.modLock, Function.update_of_ne hl, Ne.symm hl] using hcount
          have hio : ∀ q w, ((s.ioqs q).waiter w == some t) = false := fun q w => by
            simpa [Sched.obs] using hf.io q w
          simp only [Sched.obs, hwait]
          simp [Sched.modLock, hio]
      · exact (Function.update_of_ne hne _ _).trans hcur

theorem semaUp (h : Filed p pl s) (hcur : pl s.currentTask = some .current) (l : LockId) :
    Returns (ThreadSched.semaUp l s) (Running p) := by
  refine returns_assertThat fun _ => (h.semaWake hcur l).bind ?_
  rintro s' ⟨pl', h', hcur'⟩
  refine returns_assertThat fun _ => Returns.pure ⟨pl', ?_, hcur'⟩
  exact h'.congr (fun t => Sched.obs_modLock _ _ _ _ rfl) rfl rfl rfl rfl

/-! ## Locks and ioqueues -/

/-- Changing a lock without touching its waiters. -/
theorem running_modLock (h : Filed p pl s) (hcur : pl s.currentTask = some .current) (l : LockId)
    (f : Lock → Lock) (hf : (f (s.locks l)).semaphore.waiters = (s.locks l).semaphore.waiters) :
    Filed p pl (s.modLock l f) ∧ pl (s.modLock l f).currentTask = some .current :=
  ⟨h.congr (fun t => Sched.obs_modLock _ _ _ _ (by rw [hf])) rfl rfl rfl rfl, hcur⟩

theorem lockAcquire (h : Filed p pl s) (hcur : pl s.currentTask = some .current) (l : LockId) : Safe p (ThreadSched.lockAcquire l s) := by
  unfold ThreadSched.lockAcquire
  split
  · exact Or.inr ⟨pl, h.congr (fun _ => rfl) rfl rfl rfl rfl, hcur⟩
  · exact Or.inr ⟨pl, running_modLock h hcur l _ rfl⟩

theorem lockAcquired (h : Filed p pl s) (hcur : pl s.currentTask = some .current) (l : LockId) :
    Returns (ThreadSched.lockAcquired l s) (Safe p) := by
  have h₁ := running_modLock h hcur l (fun lock => { lock with holder := some s.currentTask }) rfl
  refine returns_assertThat fun _ => Returns.pure (Or.inr ⟨pl, ?_⟩)
  exact running_modLock h₁.1 h₁.2 l _ rfl

theorem lockRelease (h : Filed p pl s) (hcur : pl s.currentTask = some .current) (l : LockId) :
    Returns (ThreadSched.lockRelease l s) (Safe p) := by
  refine returns_assertThat fun _ => Returns.ite (fun _ => ?_) fun _ => returns_assertThat fun _ => ?_
  · exact Returns.pure (Or.inr ⟨pl, running_modLock h hcur l _ rfl⟩)
  · have h₁ := running_modLock h hcur l
      (fun lock => { lock with holder := none, holderRepeatNr := 0 }) rfl
    exact (semaUp h₁.1 h₁.2 l).imp fun _ => Or.inr

theorem waiter_setWaiter (s : Sched) (q q' : IoqId) (w w' : Waiter) (x : Option TaskId)
    (u : TaskId) : (((s.modIoq q fun ioq => ioq.setWaiter w x).ioqs q').waiter w' == some u) =
      if q' = q ∧ w' = w then x == some u else (s.ioqs q').waiter w' == some u := by
  by_cases hq : q' = q
  · subst hq
    by_cases hw : w' = w
    · subst hw; simp [Sched.modIoq, Ioqueue.setWaiter]
    · simp [Sched.modIoq, Ioqueue.setWaiter, hw]
  · simp [Sched.modIoq, hq]

/-- `ioq_wait` leaves the current task in the waiter field. -/
theorem ioqWait (h : Filed p pl s) (hcur : pl s.currentTask = some .current)
    (q : IoqId) (w : Waiter) : Returns (ThreadSched.ioqWait q w s) (Safe p) := by
  have hf := h.fits s.currentTask
  rw [hcur] at hf
  refine returns_assertThat fun hnone => ?_
  refine h.block hcur (x := .ioWaiting q w) rfl (fun u hu => ?_) ?_ rfl rfl h.nums
  · ext q' w'
    all_goals try rfl
    simp only [Sched.obs, waiter_setWaiter]
    split
    · rename_i heq
      simp [heq.1, heq.2, hnone, Ne.symm hu]
    · rfl
  · ext q' w'
    all_goals try rfl
    · simpa [Sched.obs, Sched.modIoq] using hf.waiters q'
    · have hio := hf.io q' w'
      simp only [Sched.obs, reduceCtorEq, Option.some.injEq, decide_false] at hio
      simp only [Sched.obs, waiter_setWaiter, hio, Place.ioWaiting.injEq]
      by_cases heq : q' = q ∧ w' = w
      · simp [heq.1, heq.2]
      · have hne' : ¬ (q = q' ∧ w = w') := fun hc => heq ⟨hc.1.symm, hc.2.symm⟩
        simp [heq, hne']

/-- `wakeup` moves the task in the waiter field to the ready list. -/
theorem wakeupWaiter (h : Filed p pl s) (hcur : pl s.currentTask = some .current)
    (q : IoqId) (w : Waiter) :
    Returns (ThreadSched.wakeupWaiter q w s) (Running p) := by
  unfold ThreadSched.wakeupWaiter
  cases hw : (s.ioqs q).waiter w with
  | none => exact Returns.pure ⟨pl, h, hcur⟩
  | some t =>
      have htp := h.place_of_io hw
      have hne : s.currentTask ≠ t := by rintro rfl; rw [hcur] at htp; cases htp
      have hf := h.fits t
      rw [htp] at hf
      refine Returns.bind (taskUnblock_eq t s) ?_
      rintro s' ⟨rfl, _⟩
      -- the field is cleared after the unblocking; the order does not matter for the outcome
      have hswap : (unblocked t s).modIoq q (fun ioq => ioq.setWaiter w none) =
          unblocked t (s.modIoq q fun ioq => ioq.setWaiter w none) := rfl
      refine Returns.pure ?_
      rw [hswap]
      refine ⟨Function.update pl t (some .ready), ?_, ?_⟩
      · refine h.unblock htp rfl (fun u hu => ?_) ?_ rfl rfl h.nums
        · ext q' w'
          all_goals try rfl
          simp only [Sched.obs, waiter_setWaiter]
          split
          · rename_i heq
            simp [heq.1, heq.2, hw, Ne.symm hu]
          · rfl
        · ext q' w'
          all_goals try rfl
          · simpa [Sched.obs, Sched.modIoq] using hf.waiters q'
          · have hio := hf.io q' w'
            simp only [Sched.obs, Option.some.injEq, Place.ioWaiting.injEq] at hio
            simp only [Sched.obs, waiter_setWaiter, hio]
            by_cases heq : q' = q ∧ w' = w
            · simp [heq]
            · have hne' : ¬ (q = q' ∧ w = w') := fun hc => heq ⟨hc.1.symm, hc.2.symm⟩
              simp [heq, hne']
      · exact (Function.update_of_ne hne _ _).trans hcur

end Filed

end ThreadSched

import ThreadSched.Task.Lifecycle

/-!
# What the operations leave alone

Every operation only adds to the log, and only `collaborative_schedule_helper` adds the event of a
sleeper that is made ready.  No operation marks a task asleep, and none changes what another task has
left to run.

* `Quiet who s s'` — from `s` to `s'` the log has grown by no event of a sleeper, no task was marked
  asleep, and at most the task `who` has something else to run.
* `schedAction_quiet` — the actions of a task other than `sleep` are quiet.
-/

set_option autoImplicit false

namespace ThreadSched

/-- The task is marked asleep. -/
abbrev Sched.marked (s : Sched) (t : TaskId) : Bool := (s.tasks t).isCollaborativeSchedule

/-- What every operation but a sleeper's wakeup leaves alone; only `who` may have new statements. -/
structure Quiet (who : Option TaskId) (s s' : Sched) : Prop where
  log : ∃ es, s'.log = s.log ++ es ∧ ∀ t node j, Event.ready t (.helper node j) ∉ es
  marks : ∀ t, s'.marked t = true → s.marked t = true
  conts : ∀ t, who ≠ some t → s'.marked t = true → s'.conts t = s.conts t

namespace Quiet

variable {who : Option TaskId} {s s' s'' : Sched}

theorem of_eq (hlog : s'.log = s.log) (htasks : s'.tasks = s.tasks) (hconts : s'.conts = s.conts) :
    Quiet who s s' :=
  ⟨⟨[], by rw [hlog, List.append_nil], fun _ _ _ => List.not_mem_nil⟩,
    fun t => by rw [Sched.marked, htasks]; exact id, fun t _ _ => by rw [hconts]⟩

theorem refl (who : Option TaskId) (s : Sched) : Quiet who s s := of_eq rfl rfl rfl

theorem trans (h : Quiet who s s') (h' : Quiet who s' s'') : Quiet who s s'' := by
  obtain ⟨es, he, hn⟩ := h.log
  obtain ⟨es', he', hn'⟩ := h'.log
  refine ⟨⟨es ++ es', by rw [he', he, List.append_assoc], fun t node j hm => ?_⟩,
    fun t ht => h.marks t (h'.marks t ht), fun t hw ht => ?_⟩
  · exact (List.mem_append.1 hm).elim (hn t node j) (hn' t node j)
  · exact (h'.conts t hw ht).trans (h.conts t hw (h'.marks t ht))

theorem weaken (h : Quiet none s s') (who : Option TaskId) : Quiet who s s' :=
  ⟨h.log, h.marks, fun t _ => h.conts t nofun⟩

theorem mem (h : Quiet who s s') {t node j : Nat}
    (hm : Event.ready t (.helper node j) ∈ s'.log) : Event.ready t (.helper node j) ∈ s.log := by
  obtain ⟨es, he, hn⟩ := h.log
  rw [he] at hm
  exact (List.mem_append.1 hm).resolve_right (hn t node j)

/-- What no field of `Quiet` mentions may change afterwards. -/
theorem congr (h : Quiet who s s') (hlog : s''.log = s'.log) (htasks : s''.tasks = s'.tasks)
    (hconts : s''.conts = s'.conts) : Quiet who s s'' :=
  h.trans (of_eq hlog htasks hconts)

theorem emit (h : Quiet who s s') (e : Event) (he : ∀ t node j, e = .ready t (.helper node j) → False) :
    Quiet who s (s'.emit e) :=
  h.trans ⟨⟨[e], rfl, fun t node j hm => he t node j (List.mem_singleton.1 hm).symm⟩, fun _ => id,
    fun _ _ _ => rfl⟩

theorem modTask (h : Quiet who s s') (t : TaskId) (f : TaskStruct → TaskStruct)
    (hf : (f (s'.tasks t)).isCollaborativeSchedule = true → s'.marked t = true) :
    Quiet who s (s'.modTask t f) := by
  refine h.trans ⟨⟨[], (List.append_nil _).symm, fun _ _ _ => List.not_mem_nil⟩, fun u hu => ?_,
    fun _ _ _ => rfl⟩
  by_cases hut : u = t
  · subst hut
    exact hf (by simpa [Sched.modTask, Sched.marked] using hu)
  · simpa [Sched.modTask, Sched.marked, Function.update_of_ne hut] using hu

theorem push {c : TaskId} (h : Quiet (some c) s s') (ss : List Stmt) :
    Quiet (some c) s (s'.push c ss) := by
  refine h.trans ⟨⟨[], (List.append_nil _).symm, fun _ _ _ => List.not_mem_nil⟩, fun _ => id,
    fun t hne _ => ?_⟩
  have : t ≠ c := fun heq => hne (by rw [heq])
  simp [Sched.push, Function.update_of_ne this]

end Quiet

/-! ## Switching -/

variable (s : Sched)

theorem getNextTask_quiet : Returns (getNextTask s) (Quiet none s) := by
  unfold getNextTask
  cases s.taskReadyList with
  | nil => exact Returns.error
  | cons t rest =>
      have hpop : Quiet none s { s with taskReadyList := rest } := .of_eq rfl rfl rfl
      refine Returns.pure (Quiet.emit ?_ _ nofun)
      exact (hpop.modTask t (fun task => { task with status := .RUNNING }) id).congr rfl rfl rfl

theorem schedule_quiet : Returns (schedule s) (Quiet none s) := by
  have happ : Quiet none s
      { s with taskReadyList := listAppend s.taskReadyList s.currentTask } := .of_eq rfl rfl rfl
  refine returns_assertThat fun _ => Returns.ite (fun _ => Returns.error) fun _ => ?_
  refine (getNextTask_quiet _).imp fun s' hs' => Quiet.trans
    (Quiet.emit ?_ (.ready s.currentTask .schedule) nofun) hs'
  exact happ.modTask s.currentTask
    (fun task => { task with ticks := task.priority, status := .READY }) id

theorem collaborativeSchedule_quiet : Returns (collaborativeSchedule s) (Quiet none s) :=
  Returns.ite (fun _ => Returns.error) fun _ => getNextTask_quiet s

theorem diedTaskSchedule_quiet : Returns (diedTaskSchedule s) (Quiet (some s.currentTask) s) :=
  Returns.ite (fun _ => Returns.ok ((Quiet.refl _ s).push _)) fun _ =>
    (getNextTask_quiet s).imp fun _ hs' => hs'.weaken _

theorem taskBlock_quiet (status : TaskStatus) :
    Returns (taskBlock status s) (Quiet (some s.currentTask) s) := by
  have hmod : Quiet (some s.currentTask) s (s.modTask s.currentTask fun task =>
      { task with status := status }) := (Quiet.refl _ s).modTask _ _ id
  refine returns_assertThat fun _ => Returns.ite (fun _ => Returns.ok (hmod.push _))
    fun _ => returns_assertThat fun _ => ?_
  exact (getNextTask_quiet _).imp fun s' hs' => hmod.trans (hs'.weaken _)

theorem taskUnblock_quiet (t : TaskId) : Returns (taskUnblock t s) (Quiet none s) := by
  have hpush : Quiet none s { s with taskReadyList := t :: s.taskReadyList } := .of_eq rfl rfl rfl
  refine (Filed.taskUnblock_eq t s).imp ?_
  rintro s' ⟨rfl, _⟩
  exact (hpush.modTask t (fun task => { task with status := .READY }) id).emit _ nofun

/-! ## Calls -/

theorem modLock_quiet (l : LockId) (f : Lock → Lock) (who : Option TaskId) :
    Quiet who s (s.modLock l f) := .of_eq rfl rfl rfl

theorem modIoq_quiet (q : IoqId) (f : Ioqueue → Ioqueue) (who : Option TaskId) :
    Quiet who s (s.modIoq q f) := .of_eq rfl rfl rfl

theorem semaTake_quiet (l : LockId) : Returns (semaTake l s) (Quiet none s) :=
  returns_assertThat fun _ => Returns.pure (modLock_quiet s l _ none)

theorem semaDown_quiet (l : LockId) : Returns (semaDown l s) (Quiet (some s.currentTask) s) := by
  refine Returns.ite (fun _ => returns_assertThat fun _ => ?_) fun _ =>
    (semaTake_quiet s l).imp fun _ hs' => hs'.weaken _
  exact (taskBlock_quiet _ _).imp fun s' hs' => ((modLock_quiet s l _ _).push _).trans hs'

theorem semaUp_quiet (l : LockId) : Returns (semaUp l s) (Quiet none s) := by
  refine returns_assertThat fun _ => Returns.bind (P := Quiet none s) ?_ fun s' hs' =>
    returns_assertThat fun _ => Returns.pure (hs'.trans (modLock_quiet s' l _ none))
  refine Returns.ite (fun _ => ?_) fun _ => Returns.pure (Quiet.refl _ s)
  cases (s.locks l).semaphore.waiters with
  | nil => exact Returns.error
  | cons t ws =>
      exact (taskUnblock_quiet _ t).imp fun s' hs' => (modLock_quiet s l _ none).trans hs'

theorem lockAcquire_quiet (l : LockId) : Quiet (some s.currentTask) s (lockAcquire l s) := by
  unfold lockAcquire
  split
  · exact (Quiet.refl _ s).push _
  · exact modLock_quiet s l _ _

theorem lockAcquired_quiet (l : LockId) : Returns (lockAcquired l s) (Quiet none s) :=
  returns_assertThat fun _ => Returns.pure ((modLock_quiet s l _ none).trans (modLock_quiet _ l _ none))

theorem lockRelease_quiet (l : LockId) : Returns (lockRelease l s) (Quiet none s) := by
  refine returns_assertThat fun _ => Returns.ite (fun _ => Returns.pure (modLock_quiet s l _ none))
    fun _ => returns_assertThat fun _ => ?_
  exact (semaUp_quiet _ l).imp fun s' hs' => (modLock_quiet s l _ none).trans hs'

theorem lockAcquireNow_quiet (l : LockId) : Returns (lockAcquireNow l s) (Quiet none s) := by
  refine Returns.ite (fun _ => Returns.ite (fun _ => Returns.error) fun _ => ?_)
    fun _ => Returns.ok (modLock_quiet s l _ none)
  exact (semaTake_quiet s l).bind fun s' hs' => (lockAcquired_quiet s' l).imp fun _ => hs'.trans

theorem wakeupWaiter_quiet (q : IoqId) (w : Waiter) : Returns (wakeupWaiter q w s) (Quiet none s) := by
  unfold wakeupWaiter
  cases (s.ioqs q).waiter w with
  | none => exact Returns.pure (Quiet.refl _ s)
  | some t =>
      exact (taskUnblock_quiet s t).bind fun s' hs' =>
        Returns.pure (hs'.trans (modIoq_quiet s' q _ none))

/-- The same task is current and no time slice has changed. -/
structure KeepsSlice (s s' : Sched) : Prop where
  current : s'.currentTask = s.currentTask
  ticks : ∀ t, (s'.tasks t).ticks = (s.tasks t).ticks

theorem lockRelease_slice (l : LockId) : Returns (lockRelease l s) (KeepsSlice s) := by
  have hrefl : ∀ l' f, KeepsSlice s (s.modLock l' f) := fun _ _ => ⟨rfl, fun _ => rfl⟩
  refine returns_assertThat fun _ => Returns.ite (fun _ => Returns.pure (hrefl _ _))
    fun _ => returns_assertThat fun _ => returns_assertThat fun _ => ?_
  refine Returns.bind (P := KeepsSlice s) ?_ fun s' hs' =>
    returns_assertThat fun _ => Returns.pure ⟨hs'.current, hs'.ticks⟩
  refine Returns.ite (fun _ => ?_) fun _ => Returns.pure (hrefl _ _)
  cases ((s.modLock l _).locks l).semaphore.waiters with
  | nil => exact Returns.error
  | cons t ws =>
      refine (Filed.taskUnblock_eq t _).imp ?_
      rintro s' ⟨rfl, _⟩
      refine ⟨rfl, fun u => ?_⟩
      by_cases hu : u = t
      · subst hu; simp [Filed.unblocked, Sched.emit, Sched.modTask, Sched.modLock]
      · simp [Filed.unblocked, Sched.emit, Sched.modTask, Sched.modLock, Function.update_of_ne hu]

theorem lockAcquireNow_slice (l : LockId) : Returns (lockAcquireNow l s) (KeepsSlice s) :=
  Returns.ite (fun _ => Returns.ite (fun _ => Returns.error) fun _ =>
    Returns.bind (P := KeepsSlice s)
      (returns_assertThat fun _ => Returns.pure ⟨rfl, fun _ => rfl⟩)
      fun _ hs' => returns_assertThat fun _ => Returns.pure ⟨hs'.current, hs'.ticks⟩)
    fun _ => Returns.ok ⟨rfl, fun _ => rfl⟩

theorem ioqGetchar_quiet (q : IoqId) : Returns (ioqGetchar q s) (Quiet (some s.currentTask) s) := by
  refine Returns.ite (fun _ => Returns.pure ((Quiet.refl _ s).push _)) fun _ => ?_
  refine (wakeupWaiter_quiet _ q .producer).bind fun s' hs' => Returns.pure ?_
  exact (((modIoq_quiet s q _ none).trans hs').emit (.getchar s'.currentTask q _) nofun).weaken _

theorem ioqPutchar_quiet (q : IoqId) (byte : BitVec 8) :
    Returns (ioqPutchar q byte s) (Quiet (some s.currentTask) s) :=
  Returns.ite (fun _ => Returns.pure ((Quiet.refl _ s).push _)) fun _ =>
    (wakeupWaiter_quiet _ q .consumer).imp fun _ hs' =>
      ((modIoq_quiet s q _ none).trans hs').weaken _

theorem execStmt_quiet (st : Stmt) : Returns (execStmt st s) (Quiet (some s.currentTask) s) := by
  cases st with
  | lockAcquire l => exact Returns.pure (lockAcquire_quiet s l)
  | semaDown l => exact semaDown_quiet s l
  | lockAcquired l => exact (lockAcquired_quiet s l).imp fun _ hs' => hs'.weaken _
  | lockRelease l => exact (lockRelease_quiet s l).imp fun _ hs' => hs'.weaken _
  | ioqGetchar q => exact ioqGetchar_quiet s q
  | ioqPutchar q byte => exact ioqPutchar_quiet s q byte
  | ioqWait q w =>
      exact returns_assertThat fun _ => (taskBlock_quiet _ _).imp fun _ hs' =>
        (modIoq_quiet s q _ _).trans hs'
  | sleepSpin =>
      exact Returns.ite (fun _ => Returns.pure ((Quiet.refl _ s).push _))
        fun _ => Returns.pure (Quiet.refl _ s)
  | loop => exact Returns.pure ((Quiet.refl _ s).push _)

theorem runStmt_quiet :
    Returns ((runStmt s).getD (pure s)) (Quiet (some s.currentTask) s) := by
  unfold runStmt
  cases s.conts s.currentTask with
  | nil => exact Returns.pure (Quiet.refl _ s)
  | cons st rest =>
      have hpop : Quiet (some s.currentTask) s
          { s with conts := Function.update s.conts s.currentTask rest } := by
        refine ⟨⟨[], (List.append_nil _).symm, fun _ _ _ => List.not_mem_nil⟩, fun _ => id,
          fun t hne _ => ?_⟩
        have : t ≠ s.currentTask := fun heq => hne (by rw [heq])
        simp [Function.update_of_ne this]
      exact (execStmt_quiet _ st).imp fun s' hs' => hpop.trans hs'

/-! ## Creation and exit -/

theorem setTidBit_quiet (i : Int) (b : Bool) (who : Option TaskId) :
    Quiet who s (s.setTidBit i b) := .of_eq rfl rfl rfl

theorem allocateTid_quiet : Returns (allocateTid s) fun r => Quiet none s r.2 := by
  refine (lockAcquireNow_quiet s .tid).bind fun s' hs' => ?_
  cases bitmapScan s'.tidPool.tidBitmap 1 with
  | none => exact Returns.error
  | some bitIdx =>
      exact (lockRelease_quiet _ .tid).bind fun s'' hs'' => Returns.pure
        (hs'.trans ((setTidBit_quiet s' bitIdx true none).trans hs''))

theorem initTask_quiet (ptask stack : Nat) (prio : Int) :
    Returns (initTask ptask stack prio s) fun s' => Quiet none s s' ∧ s'.marked ptask = false := by
  have hst : Quiet none s (initStatus ptask s) := by
    unfold initStatus
    split
    · exact ((Quiet.refl _ s).modTask ptask (fun _ => { TaskStruct.zero with
        status := .RUNNING, first := false }) nofun).congr rfl rfl rfl
    · exact (Quiet.refl _ s).modTask ptask (fun _ => { TaskStruct.zero with
        status := .READY, first := true }) nofun
  refine (allocateTid_quiet _).bind fun r hr => Returns.pure ⟨?_, ?_⟩
  · have hstack : Quiet none s { r.2 with
        stackAllocated := Function.update r.2.stackAllocated stack true } :=
      (hst.trans hr).congr rfl rfl rfl
    exact hstack.modTask ptask _ nofun
  · simp [Sched.marked, Sched.modTask, initFields]

theorem taskStart_quiet (addr stack : Nat) (prio : Int) :
    Returns (taskStart addr stack prio s) (Quiet none s) := by
  unfold taskStart
  refine Returns.bind (P := fun r => Quiet none s r.2) ?_ ?_
  · refine Returns.ite (fun _ => ?_) fun _ => Returns.pure (Quiet.of_eq rfl rfl rfl)
    cases s.taskPoolList with
    | nil => exact Returns.error
    | cons t rest => exact returns_assertThat fun _ => Returns.pure (Quiet.of_eq rfl rfl rfl)
  · rintro ⟨t, s₁⟩ hq
    refine (initTask_quiet s₁ t stack prio).bind ?_
    rintro s' ⟨hs', hmark⟩
    refine returns_assertThat fun _ => returns_assertThat fun _ => Returns.pure ?_
    have hconts : Quiet none s' { s' with conts := Function.update s'.conts t [] } := by
      refine ⟨⟨[], (List.append_nil _).symm, fun _ _ _ => List.not_mem_nil⟩, fun _ => id,
        fun u _ hu => ?_⟩
      have : u ≠ t := by rintro rfl; exact absurd (hmark.symm.trans hu) nofun
      simp [Function.update_of_ne this]
    have hready : Quiet none s { s' with
        conts := Function.update s'.conts t []
        taskReadyList := listAppend s'.taskReadyList t } :=
      (hq.trans (hs'.trans hconts)).congr rfl rfl rfl
    exact (hready.emit (.ready t .taskStart) nofun).congr rfl rfl rfl

theorem taskExit_quiet (t : TaskId) : Returns (taskExit t s) (Quiet (some s.currentTask) s) := by
  have hlists : Quiet none s (exitLists t s) :=
    ((Quiet.refl _ s).modTask t (fun ptask => { ptask with status := .DIED }) id).congr rfl rfl rfl
  unfold taskExit
  refine Returns.bind (P := fun s' => Quiet none s s' ∧ s'.currentTask = s.currentTask) ?_ ?_
  · refine ((lockAcquireNow_quiet _ .tid).and (lockAcquireNow_slice _ .tid)).bind ?_
    rintro s₁ ⟨hq, hc⟩
    refine ((lockRelease_quiet _ .tid).and (lockRelease_slice _ .tid)).imp ?_
    rintro s₂ ⟨hq', hc'⟩
    exact ⟨hlists.trans (hq.trans ((setTidBit_quiet s₁ _ false none).trans hq')), hc'.current.trans hc.current⟩
  · rintro s' ⟨hs', hc⟩
    refine (diedTaskSchedule_quiet _).imp fun s'' hs'' => ?_
    have hc' : (s'.emit (.exit t)).currentTask = s.currentTask := hc
    rw [hc'] at hs''
    exact ((hs'.emit (.exit t) nofun).weaken _).trans hs''

/-! ## Actions and callbacks -/

/-- **An action of the current task** other than `sleep` is quiet. -/
theorem schedAction_quiet {a : Action} (ha : ∀ milliseconds, a ≠ .sleep milliseconds) :
    Returns (schedAction s a) (Quiet (some s.currentTask) s) := by
  cases a with
  | taskStart addr stack prio => exact (taskStart_quiet s addr stack prio).imp fun _ h => h.weaken _
  | taskExit => exact taskExit_quiet s _
  | resume => exact runStmt_quiet s
  | sleep milliseconds => exact absurd rfl (ha milliseconds)
  | tick r => exact Returns.pure (Quiet.refl _ s)
  | _ => exact Returns.pure ((Quiet.refl _ s).push _)

theorem countDown_quiet : Quiet none s s.countDown := (Quiet.refl _ s).modTask _ _ id

/-- What a callback does: it logs at most the event of its own sleeper. -/
structure Called (node j : Nat) (s s' : Sched) : Prop where
  log : ∃ es, s'.log = s.log ++ es ∧ ∀ e ∈ es, ∃ t, e = .ready t (.helper node j)
  marks : ∀ t, s'.marked t = true → s.marked t = true
  undisturbed : Undisturbed s s'

theorem timerCall_called (n : Wheel.TimerNode TimerFn) (j : Nat) :
    Returns (timerCall n j s) (Called n.node j s) := by
  unfold timerCall
  cases n.timer with
  | collaborativeScheduleHelper t =>
      refine returns_assertThat fun _ => Returns.pure ⟨⟨[_], rfl, fun e he => ⟨t, ?_⟩⟩, fun u hu => ?_,
        rfl, rfl, rfl⟩
      · exact List.mem_singleton.1 he
      · by_cases hut : u = t
        · subst hut
          simp [Sched.marked, Sched.modTask] at hu
        · simpa [Sched.marked, Sched.modTask, Sched.emit, Function.update_of_ne hut] using hu
  | cleanDeadTask =>
      refine (cleanDeadTask_freed s).imp ?_
      rintro s' ⟨pool, stackMem, structMem, rfl⟩
      exact ⟨⟨[], (List.append_nil _).symm, by simp⟩, fun _ => id, rfl, rfl, rfl⟩

end ThreadSched

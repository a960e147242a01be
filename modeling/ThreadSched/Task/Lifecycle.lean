import ThreadSched.Task.Moves

/-!
# Calls, creation, exit and cleaning

The operations that are more than one move: the ioqueue calls and the statements of a call,
`task_start`, `task_exit`, and the timer callbacks.

`task_start` and `task_exit` find `tid_lock` free (`Tame`).
-/

set_option autoImplicit false

namespace ThreadSched

variable {p : TaskId → Nat} {pl : TaskId → Option Place} {s : Sched}

/-! ## The statements of a call -/

theorem Filed.ioqGetchar (h : Filed p pl s) (hcur : pl s.currentTask = some .current) (q : IoqId) : Returns (ThreadSched.ioqGetchar q s) (Safe p) := by
  refine Returns.ite (fun _ => Returns.pure ?_) fun _ => ?_
  · exact Or.inr ⟨pl, h.congr (fun _ => rfl) rfl rfl rfl rfl, hcur⟩
  · have h₁ : Filed p pl (s.modIoq q fun ioq => { ioq with tail := nextPos ioq.tail }) :=
      h.congr (fun t => Sched.obs_modIoq _ _ _ _ rfl) rfl rfl rfl rfl
    refine (h₁.wakeupWaiter hcur q .producer).bind ?_
    rintro s' ⟨pl', h', hcur'⟩
    exact Returns.pure (Or.inr ⟨pl', h'.congr (fun _ => rfl) rfl rfl rfl rfl, hcur'⟩)

theorem Filed.ioqPutchar (h : Filed p pl s) (hcur : pl s.currentTask = some .current) (q : IoqId) (byte : BitVec 8) : Returns (ThreadSched.ioqPutchar q byte s) (Safe p) := by
  refine Returns.ite (fun _ => Returns.pure ?_) fun _ => ?_
  · exact Or.inr ⟨pl, h.congr (fun _ => rfl) rfl rfl rfl rfl, hcur⟩
  · have h₁ : Filed p pl (s.modIoq q fun ioq =>
        { ioq with buf := Function.update ioq.buf ioq.head byte, head := nextPos ioq.head }) :=
      h.congr (fun t => Sched.obs_modIoq _ _ _ _ rfl) rfl rfl rfl rfl
    exact (h₁.wakeupWaiter hcur q .consumer).imp fun _ => Or.inr

/-- One statement of a call, by its kind. -/
theorem Filed.execStmt (h : Filed p pl s) (hcur : pl s.currentTask = some .current)
    (st : Stmt) : Returns (ThreadSched.execStmt st s) (Safe p) := by
  cases st with
  | lockAcquire l => exact Returns.pure (h.lockAcquire hcur l)
  | semaDown l => exact h.semaDown hcur l
  | lockAcquired l => exact h.lockAcquired hcur l
  | lockRelease l => exact h.lockRelease hcur l
  | ioqGetchar q => exact h.ioqGetchar hcur q
  | ioqPutchar q byte => exact h.ioqPutchar hcur q byte
  | ioqWait q w => exact h.ioqWait hcur q w
  | sleepSpin =>
      refine Returns.ite (fun _ => Returns.pure (Or.inr ⟨pl, ?_, hcur⟩))
        fun _ => Returns.pure (Or.inr ⟨pl, h, hcur⟩)
      exact h.congr (fun _ => rfl) rfl rfl rfl rfl
  | loop => exact Returns.pure (Or.inl (looping_push s))

theorem Filed.runStmt (h : Filed p pl s) (hcur : pl s.currentTask = some .current) :
    Returns ((ThreadSched.runStmt s).getD (pure s)) (Safe p) := by
  unfold ThreadSched.runStmt
  cases s.conts s.currentTask with
  | nil => exact Returns.pure (Or.inr ⟨pl, h, hcur⟩)
  | cons st rest =>
      have hpop : Filed p pl { s with conts := Function.update s.conts s.currentTask rest } :=
        h.congr (fun _ => rfl) rfl rfl rfl rfl
      exact hpop.execStmt hcur st

/-! ## Creation -/

/-- A struct that is not in use fits no place but `none`. -/
theorem Filed.fits_none (h : Filed p pl s) {t : TaskId} (ht : s.allocated t = false) :
    pl t = none := by
  have := (h.fits t).allocated
  have hal : (s.obs t).allocated = s.allocated t := rfl
  rw [hal, ht] at this
  cases hp : pl t with
  | none => rfl
  | some x => rw [hp] at this; cases this

/-- `task_start` with an empty pool puts the new task at the end of the ready list; with a pool its
assertion on the recycled struct fails. -/
theorem Filed.taskStart (h : Filed p pl s) (hcur : pl s.currentTask = some .current) (ht : Tame s)
    {addr stack : Nat} (prio : Int) (ha : s.allocated addr = false) :
    Returns (ThreadSched.taskStart addr stack prio s) (Running p) := by
  have hnone := h.fits_none ha
  have hf := h.fits addr
  rw [hnone] at hf
  have hmain : addr ≠ s.mainTask := fun hc => h.main (hc ▸ hnone)
  have hne : s.currentTask ≠ addr := fun hc => by rw [hc, hnone] at hcur; cases hcur
  unfold ThreadSched.taskStart
  refine Returns.bind (P := fun r =>
    r = (addr, { s with allocated := Function.update s.allocated addr true })) ?_ ?_
  · refine Returns.ite (fun hpool => ?_) fun _ => Returns.pure rfl
    cases hp : s.taskPoolList with
    | nil => exact absurd hp hpool
    | cons t rest =>
        -- what is in the pool has died
        have := (h.place_of_pool (t := t) (by rw [hp]; exact List.mem_cons_self)).1
        have hdied := (h.fits t).status _ this
        refine returns_assertThat fun hst => absurd ?_ hst
        exact hdied.symm
  · rintro r rfl
    show Returns (initTask addr stack prio _ >>= _) _
    rw [initTask_eq (s := { s with allocated := Function.update s.allocated addr true }) ht.tid]
    cases bitmapScan s.tidPool.tidBitmap 1 with
    | none => exact Returns.error
    | some bitIdx =>
    refine returns_assertThat fun hr => returns_assertThat fun hall => Returns.pure
      ⟨Function.update pl addr (some .ready), ?_, ?_⟩
    · refine h.move addr _ (fun u hu => ?_) (fun u _ => rfl) rfl ?_ ?_
        (fun u _ hc => (h.cur u hc).trans (by simp [Sched.emit, inited, hmain])) (by simp) (by simp)
      · simp [Sched.obs, Sched.emit, inited, Function.update_of_ne hu, Ne.symm hu]
      · have hnums := h.nums
        simp only [Sched.emit, inited, List.length_append, List.length_singleton, hnums]
        push_cast
        rfl
      · have hready' := hf.ready
        have hall' := hf.all
        simp only [Sched.obs, reduceCtorEq, if_false, ne_eq, not_true_eq_false, false_and]
          at hready' hall'
        refine ⟨?_, ?_, by simp, ?_, hf.waiters, hf.io, ?_, hf.pool, hf.pending⟩
        · simp [Sched.obs, Sched.emit, inited]
        · rintro y ⟨⟩
          simp [Sched.obs, Sched.emit, inited, hmain, initedTask, initFields, Place.status]
        · simpa [Sched.obs, Sched.emit, inited] using hready'
        · simpa [Sched.obs, Sched.emit, inited] using hall'
    · exact (Function.update_of_ne (by simpa [Sched.emit, inited, hmain] using hne) _ _).trans
        (by simpa [Sched.emit, inited, hmain] using hcur)

/-! ## Exit -/

theorem Filed.exitLists (h : Filed p pl s) (hcur : pl s.currentTask = some .current) :
    Filed p (Function.update pl s.currentTask (some .exited))
      (ThreadSched.exitLists s.currentTask s) := by
  have hf := h.fits s.currentTask
  rw [hcur] at hf
  have hready := hf.ready
  have hall := hf.all
  have hpool := hf.pool
  simp only [Sched.obs, reduceCtorEq, Option.some.injEq, if_false, ne_eq, not_false_eq_true,
    and_self, if_true, false_and] at hready hall hpool
  have hmem : s.currentTask ∉ s.taskReadyList := List.count_eq_zero.1 hready
  have hmem' : s.currentTask ∈ s.taskAllList := List.count_pos_iff.1 (by omega)
  refine h.move s.currentTask _ (fun u hu => ?_) (fun u _ => rfl) rfl ?_ ?_
    (fun u hu hc => absurd (h.cur u hc) hu) (by simp) (by simp)
  · have hpool' : (if s.currentTask ≠ s.mainTask then listAppend s.taskPoolList s.currentTask
        else s.taskPoolList).count u = s.taskPoolList.count u := by
      split <;> simp [Ne.symm hu]
    simp only [Sched.obs, ThreadSched.exitLists, elemFind, if_neg hmem, hpool']
    simp [Sched.modTask, hu, List.count_erase_of_ne hu]
  · simp only [ThreadSched.exitLists, listRemove, h.nums, List.length_erase_of_mem hmem']
    have := List.length_pos_of_mem hmem'
    omega
  · refine ⟨hf.allocated, ?_, by simp, ?_, hf.waiters, hf.io, ?_, ?_, hf.pending⟩
    · rintro y ⟨⟩; simp [Sched.obs, ThreadSched.exitLists, Sched.modTask, Place.status]
    · simp [Sched.obs, ThreadSched.exitLists, hmem, hready]
    · simp [Sched.obs, ThreadSched.exitLists, hall]
    · by_cases hm : s.currentTask = s.mainTask
      · simpa [Sched.obs, ThreadSched.exitLists, hm] using hm ▸ hpool
      · simp [Sched.obs, ThreadSched.exitLists, hm, hpool]

/-- `task_exit` of the current task: out of every list, into the pool unless it is the main task. -/
theorem Filed.taskExit (h : Filed p pl s) (hcur : pl s.currentTask = some .current) (ht : Tame s) :
    Returns (ThreadSched.taskExit s.currentTask s) (Safe p) := by
  have hex := h.exitLists hcur
  unfold ThreadSched.taskExit
  show Returns (releaseTid _ (ThreadSched.exitLists s.currentTask s) >>= _) _
  rw [releaseTid_eq (ht.exitLists _).tid]
  refine @Filed.diedTaskSchedule p (Function.update pl s.currentTask (some .exited)) _ ?_
    (h.no_current nofun)
  exact hex.congr (fun _ => rfl) rfl rfl rfl rfl

/-! ## The timer callbacks -/

/-- `collaborative_schedule_helper` moves a sleeper to the end of the ready list, and its timer is
gone. -/
theorem Filed.collaborativeScheduleHelper (h : Filed p pl s)
    (hcur : pl s.currentTask = some .current) {t : TaskId} (hp : p t ≠ 0) (node j : Nat) :
    Returns (ThreadSched.collaborativeScheduleHelper t node j s)
      (Running (Function.update p t (p t - 1))) := by
  have hf := h.fits t
  have hpl : pl t = some .asleep := by
    by_contra hne
    exact hp (by simpa [hne] using hf.pending)
  rw [hpl] at hf
  have hne : s.currentTask ≠ t := by rintro rfl; rw [hcur] at hpl; cases hpl
  have hready := hf.ready
  simp only [Sched.obs, reduceCtorEq, Option.some.injEq, if_false] at hready
  refine returns_assertThat fun _ => Returns.pure ⟨Function.update pl t (some .ready), ?_,
    (Function.update_of_ne hne _ _).trans hcur⟩
  refine h.move t _ (fun u hu => ?_) (fun u hu => Function.update_of_ne hu _ _) rfl h.nums ?_
    (fun u _ => h.cur u) (by simp) (by simp)
  · simp [Sched.obs, Sched.modTask, Sched.emit, hu, Ne.symm hu]
  · refine ⟨hf.allocated, ?_, by simp, ?_, hf.waiters, hf.io, hf.all, hf.pool, ?_⟩
    · rintro y ⟨⟩; simp [Sched.obs, Sched.modTask, Sched.emit, Place.status]
    · simp [Sched.obs, Sched.modTask, Sched.emit, hready]
    · have hpending := hf.pending
      simp only [if_true] at hpending
      simp [hpending]

/-- Each struct `clean_dead_task` frees is one that has exited. -/
theorem Filed.cleanLoop (h : Filed p pl s) (hcur : pl s.currentTask = some .current)
    (fuel : Nat) (cleanCnt : Int) :
    Returns (ThreadSched.cleanLoop fuel cleanCnt s) (Running p) := by
  induction fuel generalizing s pl cleanCnt with
  | zero => exact Returns.error
  | succ fuel ih =>
      refine Returns.ite (fun _ => ?_) fun _ => Returns.ok ⟨pl, h, hcur⟩
      cases hpool : s.taskPoolList with
      | nil => exact Returns.error
      | cons t rest =>
          obtain ⟨hpl, hmain⟩ := h.place_of_pool (t := t) (by rw [hpool]; exact List.mem_cons_self)
          have hne : s.currentTask ≠ t := by rintro rfl; rw [hcur] at hpl; cases hpl
          have hf := h.fits t
          rw [hpl] at hf
          have hcount := hf.pool
          simp only [Sched.obs, hpool, List.count_cons_self, hmain, decide_false, and_self,
            if_true] at hcount
          have h₁ : Filed p (Function.update pl t none) { s with
              taskPoolList := rest
              stackAllocated := Function.update s.stackAllocated (s.tasks t).stackMinAddr false
              allocated := Function.update s.allocated t false } := by
            refine h.move t _ (fun u hu => ?_) (fun u _ => rfl) rfl h.nums ?_
              (fun u _ => h.cur u) (by simp) fun _ => hmain
            · simp [Sched.obs, hu, hpool, Ne.symm hu]
            · refine ⟨?_, by simp, by simp, hf.ready, hf.waiters, hf.io, hf.all, ?_, hf.pending⟩
              · simp [Sched.obs]
              · simpa [Sched.obs] using hcount
          exact ih h₁ ((Function.update_of_ne hne _ _).trans hcur) (cleanCnt - 1)

theorem Filed.cleanDeadTask (h : Filed p pl s) (hcur : pl s.currentTask = some .current) :
    Returns (ThreadSched.cleanDeadTask s) (Running p) :=
  Returns.ite (fun _ => Returns.ok ⟨pl, h, hcur⟩) fun _ => h.cleanLoop hcur _ _

end ThreadSched

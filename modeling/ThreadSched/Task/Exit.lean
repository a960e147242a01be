import ThreadSched.Task.Waiting

/-!
# Ending an arbitrary task (`task_exit`)

`task_exit` takes any task, and in the end always switches away from its caller.

* `Gone` — a task is linked nowhere, and nothing will make it ready.
* `CanRun` — a task runs, is ready, sleeps with a pending timer, or is blocked where a task that lives
  can wake it.
* `ExitOk` — `task_exit` ends the task for good, and every other task that could run still can.
* `task_exit_ok_iff` — this holds exactly when a task ends itself while no task waits for one of its locks.
-/

set_option autoImplicit false

namespace ThreadSched

/-- The task has been created and has not exited. -/
def Live (s : Sched) (t : TaskId) : Prop := s.allocated t = true ∧ (s.tasks t).status ≠ .DIED

/-- The task is linked in no list but the pool, and nothing later makes it ready. -/
structure Gone (w : World) (t : TaskId) : Prop where
  notCurrent : t ≠ w.sched.currentTask
  notReady : t ∉ w.sched.taskReadyList
  notWaiting : ∀ l, t ∉ (w.sched.locks l).semaphore.waiters
  notRegistered : ∀ q x, (w.sched.ioqs q).waiter x ≠ some t
  notListed : t ∉ w.sched.taskAllList
  noTimer : pendingHelpers w.tm t = 0

/-- The task waits for a lock whose holder, if there is one, can release it. -/
def Wakeable (s : Sched) (t : TaskId) : Prop :=
  ∃ l, t ∈ (s.locks l).semaphore.waiters ∧ ∀ h, (s.locks l).holder = some h → Live s h

/-- The situations from which a task can still run. -/
def CanRun (w : World) (t : TaskId) : Prop :=
  (t = w.sched.currentTask ∧ ¬ w.sched.Looping) ∨ t ∈ w.sched.taskReadyList ∨ Wakeable w.sched t ∨
    (∃ q x, (w.sched.ioqs q).waiter x = some t) ∨ pendingHelpers w.tm t ≠ 0

/-- **What `task_exit(t)` is to do.** -/
def ExitOk (w : World) (t : TaskId) : Prop :=
  ∃ s, taskExit t w.sched = .ok s ∧ Gone { w with sched := s } t ∧
    ∀ u, Live w.sched u → u ≠ t → CanRun w u → CanRun { w with sched := s } u

/-- No task waits for a lock that `t` holds. -/
def HoldsNothingWanted (s : Sched) (t : TaskId) : Prop :=
  ∀ l, (s.locks l).holder = some t → (s.locks l).semaphore.waiters = []

/-! ## What `task_exit` leaves -/

/-- The state in which `task_exit` calls `died_task_schedule`. -/
def exited (t : TaskId) (s : Sched) : Sched :=
  ((exitLists t s).setTidBit (((exitLists t s).tasks t).tid - (exitLists t s).tidPool.tidStart)
    false).emit (.exit t)

/-- The state after a switch to `next`, the first of the ready list. -/
def dispatched (next : TaskId) (rest : List TaskId) (s : Sched) : Sched :=
  { { s with taskReadyList := rest }.modTask next (fun task => { task with status := .RUNNING }) with
    currentTask := next }.emit (.dispatch next)

section

variable {s : Sched} {t next : TaskId} {rest : List TaskId}

theorem taskExit_eq (ht : Tame s) (t : TaskId) :
    taskExit t s = diedTaskSchedule (exited t s) := by
  unfold taskExit
  show (releaseTid _ (exitLists t s) >>= _) = _
  rw [releaseTid_eq (ht.exitLists t).tid, ok_bind]
  rfl

theorem diedTaskSchedule_nil (h : s.taskReadyList = []) :
    diedTaskSchedule s = .ok (s.push s.currentTask [.loop]) := if_pos h

theorem diedTaskSchedule_cons (h : s.taskReadyList = next :: rest) :
    diedTaskSchedule s = .ok (dispatched next rest s) := by
  unfold diedTaskSchedule
  rw [if_neg (by rw [h]; exact List.cons_ne_nil _ _)]
  unfold getNextTask
  rw [h]
  rfl

theorem exited_ready (t : TaskId) (s : Sched) : (exited t s).taskReadyList = s.taskReadyList.erase t := by
  show (if t ∈ s.taskReadyList then s.taskReadyList.erase t else s.taskReadyList) = _
  split
  · rfl
  · rename_i hnot
    rw [List.erase_of_not_mem hnot]

theorem exited_status (t : TaskId) (s : Sched) : ((exited t s).tasks t).status = .DIED := by
  simp [exited, exitLists, Sched.emit, Sched.setTidBit, Sched.modTask]

theorem exited_tasks {u : TaskId} (hu : u ≠ t) (s : Sched) :
    (exited t s).tasks u = s.tasks u := by
  simp [exited, exitLists, Sched.emit, Sched.setTidBit, Sched.modTask, Function.update_of_ne hu]

theorem dispatched_status {u : TaskId} (hu : u ≠ next) :
    ((dispatched next rest s).tasks u).status = (s.tasks u).status := by
  simp [dispatched, Sched.emit, Sched.modTask, Function.update_of_ne hu]

theorem dispatched_status_self : ((dispatched next rest s).tasks next).status = .RUNNING := by
  simp [dispatched, Sched.emit, Sched.modTask]

/-- Everybody else lives on. -/
theorem Live.exit {u : TaskId} (h : Live s u) (hu : u ≠ t) :
    Live (dispatched next rest (exited t s)) u := by
  constructor
  · exact h.1
  · by_cases hn : u = next
    · rw [hn, dispatched_status_self]
      exact nofun
    · rw [dispatched_status hn, exited_tasks hu]
      exact h.2

end

/-! ## The exit of the current task -/

section

variable {w : World} {pl : TaskId → Option Place} {t u : TaskId}

/-- After a switch, what a task that can run is: the new current task, or one whose old place lets it. -/
theorem Filed.place_of_canRun (h : Filed (pendingHelpers w.tm) pl w.sched) {s : Sched}
    (hready : ∀ v ∈ s.taskReadyList, v ∈ w.sched.taskReadyList)
    (hlocks : s.locks = w.sched.locks) (hioqs : s.ioqs = w.sched.ioqs)
    (hu : CanRun { w with sched := s } u) :
    (u = s.currentTask ∧ ¬ s.Looping) ∨ pl u = some .ready ∨
      (∃ l, pl u = some (.waiting l) ∧ ∀ h, (w.sched.locks l).holder = some h → Live s h) ∨
      (∃ q x, pl u = some (.ioWaiting q x)) ∨ pl u = some .asleep := by
  rcases hu with hc | hr | ⟨l, hl, hholder⟩ | ⟨q, x, hq⟩ | hp
  · exact Or.inl hc
  · exact Or.inr (Or.inl (h.place_of_ready (hready u hr)))
  · change u ∈ (s.locks l).semaphore.waiters at hl
    change ∀ h, (s.locks l).holder = some h → Live s h at hholder
    rw [hlocks] at hl hholder
    exact Or.inr (Or.inr (Or.inl ⟨l, h.place_of_waiters hl, hholder⟩))
  · change (s.ioqs q).waiter x = some u at hq
    rw [hioqs] at hq
    exact Or.inr (Or.inr (Or.inr (Or.inl ⟨q, x, h.place_of_io hq⟩)))
  · refine Or.inr (Or.inr (Or.inr (Or.inr ?_)))
    by_contra hne
    apply hp
    have hpending := (h.fits u).pending
    rwa [if_neg hne] at hpending

theorem Filed.live_current (h : Filed (pendingHelpers w.tm) pl w.sched)
    (hcur : pl w.sched.currentTask = some .current) : Live w.sched w.sched.currentTask := by
  have hfits := h.fits w.sched.currentTask
  rw [hcur] at hfits
  have hst : (w.sched.tasks w.sched.currentTask).status = .RUNNING := hfits.status _ rfl
  exact ⟨hfits.allocated, by rw [hst]; exact nofun⟩

theorem Filed.live_of_waiters (h : Filed (pendingHelpers w.tm) pl w.sched) {l : LockId}
    (hl : u ∈ (w.sched.locks l).semaphore.waiters) : Live w.sched u := by
  have hf := h.fits u
  rw [h.place_of_waiters hl] at hf
  constructor
  · exact hf.allocated
  · have hst : (w.sched.tasks u).status = .BLOCKED := hf.status _ rfl
    rw [hst]
    exact nofun

/-- A task that ends itself, while no task waits for one of its locks. -/
theorem exitOk_of_current (h : busyRuns.Reach w) (hready : w.sched.taskReadyList ≠ [])
    (hfree : HoldsNothingWanted w.sched w.sched.currentTask) :
    ExitOk w w.sched.currentTask := by
  obtain ⟨⟨pl, hf, hcur⟩, htame, -, -⟩ := busyRuns_inv h
  have hnot : w.sched.currentTask ∉ w.sched.taskReadyList :=
    hf.not_mem_ready (by rw [hcur]; nofun)
  cases hlist : w.sched.taskReadyList with
  | nil => exact absurd hlist hready
  | cons next rest =>
      have hexit : (exited w.sched.currentTask w.sched).taskReadyList = next :: rest := by
        rw [exited_ready, List.erase_of_not_mem hnot, hlist]
      have hne : w.sched.currentTask ≠ next := by
        intro heq
        apply hnot
        rw [hlist, ← heq]
        exact List.mem_cons_self
      have hnoloop : NoLoop w.sched := busyRuns_noLoop h
      refine ⟨_, (taskExit_eq htame _).trans (diedTaskSchedule_cons hexit), ?_, ?_⟩
      · refine ⟨hne, ?_, ?_, ?_, ?_, ?_⟩
        · intro hmem
          apply hnot
          rw [hlist]
          exact List.mem_cons_of_mem _ hmem
        · intro l
          exact hf.not_mem_waiters (by rw [hcur]; nofun)
        · intro q x hq
          exact absurd (hcur.symm.trans (hf.place_of_io hq)) nofun
        · show w.sched.currentTask ∉ w.sched.taskAllList.erase w.sched.currentTask
          have hall : w.sched.taskAllList.count w.sched.currentTask = _ := (hf.fits _).all
          rw [hcur] at hall
          apply List.count_eq_zero.1
          rw [List.count_erase_self, hall]
          rfl
        · have hpending := (hf.fits w.sched.currentTask).pending
          rwa [hcur] at hpending
      · rintro u hlive hu (⟨hc, -⟩ | hr | ⟨l, hl, hholder⟩ | hq | hp)
        · exact absurd hc hu
        · rw [hlist] at hr
          rcases List.mem_cons.1 hr with rfl | hr
          · refine Or.inl ⟨rfl, ?_⟩
            intro hloop
            exact hnoloop u (List.mem_of_mem_head? hloop)
          · exact Or.inr (Or.inl hr)
        · refine Or.inr (Or.inr (Or.inl ⟨l, hl, ?_⟩))
          intro holder hh
          apply (hholder holder hh).exit
          rintro rfl
          rw [hfree l hh] at hl
          cases hl
        · exact Or.inr (Or.inr (Or.inr (Or.inl hq)))
        · exact Or.inr (Or.inr (Or.inr (Or.inr hp)))

theorem looping_push (s : Sched) : (s.push s.currentTask [.loop]).Looping := by
  simp [Sched.Looping, Sched.push]

/-- What `task_exit` leaves of the ready list is part of it. -/
theorem ready_of_exited {next : TaskId} {rest : List TaskId} {s : Sched}
    (h : (exited t s).taskReadyList = next :: rest) : ∀ v ∈ next :: rest, v ∈ s.taskReadyList := by
  intro v hv
  rw [← h, exited_ready] at hv
  exact List.mem_of_mem_erase hv

/-- The caller of `task_exit(t)` for another task is switched away from and linked nowhere. -/
theorem current_of_exitOk (h : busyRuns.Reach w) (hok : ExitOk w t) : t = w.sched.currentTask := by
  obtain ⟨⟨pl, hf, hcur⟩, htame, -, -⟩ := busyRuns_inv h
  obtain ⟨s, hexit, -, hothers⟩ := hok
  by_contra hne
  have hcan : CanRun w w.sched.currentTask := Or.inl ⟨rfl, (busyRuns_noLoop h).not_looping⟩
  have hafter := hothers w.sched.currentTask (hf.live_current hcur) (Ne.symm hne) hcan
  rw [taskExit_eq htame] at hexit
  cases hlist : (exited t w.sched).taskReadyList with
  | nil =>
      rw [diedTaskSchedule_nil hlist] at hexit
      obtain rfl := Except.ok.inj hexit
      have hloop := looping_push (exited t w.sched)
      have hready : ∀ v ∈ ((exited t w.sched).push (exited t w.sched).currentTask
          [.loop]).taskReadyList, v ∈ w.sched.taskReadyList := by
        intro v hv
        rw [show ((exited t w.sched).push (exited t w.sched).currentTask [.loop]).taskReadyList =
          [] from hlist] at hv
        cases hv
      rcases hf.place_of_canRun hready rfl rfl hafter with
        ⟨-, hnot⟩ | hp | ⟨l, hp, -⟩ | ⟨q, x, hp⟩ | hp
      · exact hnot hloop
      all_goals
        rw [hcur] at hp
        cases hp
  | cons next rest =>
      rw [diedTaskSchedule_cons hlist] at hexit
      obtain rfl := Except.ok.inj hexit
      have hsub := ready_of_exited hlist
      rcases hf.place_of_canRun (s := dispatched next rest (exited t w.sched))
        (fun v hv => hsub v (List.mem_cons_of_mem _ hv)) rfl rfl hafter with
        ⟨heq, -⟩ | hp | ⟨l, hp, -⟩ | ⟨q, x, hp⟩ | hp
      · have hplace := hf.place_of_ready (hsub next List.mem_cons_self)
        rw [← show w.sched.currentTask = next from heq, hcur] at hplace
        cases hplace
      all_goals
        rw [hcur] at hp
        cases hp

/-- A task that waits for a lock of the dead one cannot be woken. -/
theorem holdsNothingWanted_of_exitOk (h : busyRuns.Reach w)
    (hok : ExitOk w w.sched.currentTask) : HoldsNothingWanted w.sched w.sched.currentTask := by
  obtain ⟨⟨pl, hf, hcur⟩, htame, -, -⟩ := busyRuns_inv h
  obtain ⟨s, hexit, hgone, hothers⟩ := hok
  intro l hholder
  cases hwaiters : (w.sched.locks l).semaphore.waiters with
  | nil => rfl
  | cons u others =>
      exfalso
      have hmem : u ∈ (w.sched.locks l).semaphore.waiters := by
        rw [hwaiters]
        exact List.mem_cons_self
      have hplace := hf.place_of_waiters hmem
      have hne : u ≠ w.sched.currentTask := by
        rintro rfl
        rw [hcur] at hplace
        cases hplace
      have hcan : CanRun w u := by
        refine Or.inr (Or.inr (Or.inl ⟨l, hmem, ?_⟩))
        intro holder hh
        rw [hholder] at hh
        cases hh
        exact hf.live_current hcur
      have hafter := hothers u (hf.live_of_waiters hmem) hne hcan
      rw [taskExit_eq htame] at hexit
      cases hlist : (exited w.sched.currentTask w.sched).taskReadyList with
      | nil =>
          rw [diedTaskSchedule_nil hlist] at hexit
          obtain rfl := Except.ok.inj hexit
          exact hgone.notCurrent rfl
      | cons next rest =>
          rw [diedTaskSchedule_cons hlist] at hexit
          obtain rfl := Except.ok.inj hexit
          have hsub := ready_of_exited hlist
          rcases hf.place_of_canRun (s := dispatched next rest (exited w.sched.currentTask w.sched))
            (fun v hv => hsub v (List.mem_cons_of_mem _ hv)) rfl rfl hafter with ⟨heq, -⟩ | hp | ⟨l', hp, hlive⟩ | ⟨q, x, hp⟩ | hp
          · have hready := hf.place_of_ready (hsub next List.mem_cons_self)
            rw [← show u = next from heq, hplace] at hready
            cases hready
          · rw [hplace] at hp
            cases hp
          · rw [hplace] at hp
            cases hp
            have hnext : w.sched.currentTask ≠ next := by
              rintro heq
              exact hgone.notCurrent heq
            have hdied := (hlive _ hholder).2
            rw [dispatched_status hnext, exited_status] at hdied
            exact hdied rfl
          · rw [hplace] at hp
            cases hp
          · rw [hplace] at hp
            cases hp

end

/-- **Ending a task.**  In every state of every run in which the operations that switch away find a ready
task, `task_exit(t)` does what it is to do exactly when `t` is the current task and no task waits for a
lock that `t` holds. -/
theorem task_exit_ok_iff {w : World} (h : busyRuns.Reach w) (hready : w.sched.taskReadyList ≠ [])
    {t : TaskId} (hlive : Live w.sched t) :
    ExitOk w t ↔ t = w.sched.currentTask ∧ HoldsNothingWanted w.sched t := by
  constructor
  · intro hok
    obtain rfl := current_of_exitOk h hok
    exact ⟨rfl, holdsNothingWanted_of_exitOk h hok⟩
  · rintro ⟨rfl, hfree⟩
    exact exitOk_of_current h hready hfree

/-- `main` has started task `3`. -/
theorem reach_two : ∃ w, busyRuns.Reach w ∧ w.sched.taskReadyList = [3] ∧
    w.sched.currentTask = 1 ∧ Live w.sched 1 ∧ Live w.sched 3 := by
  obtain ⟨w, hact, -, hfacts⟩ := exists_next (start_eq 1 2 0) (a := .taskStart 3 4 5)
    (f := fun w => (w.sched.taskReadyList, w.sched.currentTask,
      (w.sched.conts w.sched.currentTask).head?, w.sched.allocated 1, (w.sched.tasks 1).status,
      w.sched.allocated 3, (w.sched.tasks 3).status))
    (b := ([3], 1, none, true, .RUNNING, true, .READY)) rfl
  simp only [Prod.mk.injEq] at hfacts
  obtain ⟨hready, hcur, hconts, halloc, hst, halloc', hst'⟩ := hfacts
  refine ⟨w, ?_, hready, hcur, ⟨halloc, by rw [hst]; nofun⟩, ⟨halloc', by rw [hst']; nofun⟩⟩
  refine .step (.init ⟨1, 2, 0, by norm_num, start_eq 1 2 0⟩) ⟨⟨.taskStart 3 4 5, ?_, hact⟩, ?_⟩
  · exact ⟨rfl, rfl, rfl⟩
  · unfold Sched.Looping
    rw [hconts]
    exact nofun

theorem task_exit_ok_iff_main : ∃ w, busyRuns.Reach w ∧
    (ExitOk w 1 ↔ 1 = w.sched.currentTask ∧ HoldsNothingWanted w.sched 1) := by
  obtain ⟨w, hreach, hready, -, hmain, -⟩ := reach_two
  exact ⟨w, hreach, task_exit_ok_iff hreach (by rw [hready]; nofun) hmain⟩

/-- When `main` ends the ready task `3`, `main` is lost. -/
theorem exit_of_ready_task_fails : ¬ ∀ w t, busyRuns.Reach w → w.sched.taskReadyList ≠ [] →
    Live w.sched t → ExitOk w t := by
  intro hall
  obtain ⟨w, hreach, hready, hcur, -, hlive⟩ := reach_two
  have heq := current_of_exitOk hreach (hall w 3 hreach (by rw [hready]; nofun) hlive)
  rw [hcur] at heq
  cases heq

end ThreadSched

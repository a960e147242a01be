import ThreadSched.Task.Waiting

/-!
# Waiting for all tasks (`all_tasks_finished`, `task_wait_all`)

`all_tasks_finished` looks for a task in `task_all_list` that has not died.  `task_exit` unlinks a task
from that list, so the dead ones are not there; and `main`, which asks, is there and has not died.

* `allTasksFinished`, `AllExited` — what the function computes, and what it is to tell.
* `waitAll` — `main` in the loop of `task_wait_all`, while everything else goes on.
* `JoinOk` — the function tells whether all tasks have exited, and the loop ends when they have.
* `MainListed` — until it exits, `main` is linked in `task_all_list` and is not dead.
* `join_ok_iff` — this holds exactly as long as some task does not exit, because the loop never ends.
-/

set_option autoImplicit false

namespace ThreadSched

open Wheel (TimerNode)

/-- The loop of `all_tasks_finished`. -/
def finishedFrom (tasks : TaskId → TaskStruct) : List TaskId → Bool
  | [] => true
  | elem :: rest => if (tasks elem).status ≠ .DIED then false else finishedFrom tasks rest

/-- `all_tasks_finished`. -/
def allTasksFinished (s : Sched) : Bool := finishedFrom s.tasks s.taskAllList

/-- Every task that `task_start` created has exited since. -/
def AllExited (s : Sched) : Prop :=
  ∀ before t after, s.log = before ++ .ready t .taskStart :: after → Event.exit t ∈ after

/-- `main` is the current task, and has not exited. -/
def MainRuns (s : Sched) : Prop := s.currentTask = s.mainTask ∧ Event.exit s.mainTask ∉ s.log

/-! ## The loop -/

/-- Where `main` stands in `task_wait_all`. -/
inductive WaitPc
  /-- `while (!all_tasks_finished())` -/
  | test
  /-- `usleep(1000)` -/
  | usleep
  | returned
  deriving DecidableEq, Repr

structure Joining where
  world : World
  pc : WaitPc

/-- `main` is the current task, and not inside `usleep`. -/
def AtLoop (s : Sched) : Prop := s.currentTask = s.mainTask ∧ s.conts s.currentTask = []

/-- One step: a statement of the loop, or of everything else. -/
inductive Joining.Step (x : Joining) : Joining → Prop
  | test : x.pc = .test → AtLoop x.world.sched →
      Joining.Step x ⟨x.world, if allTasksFinished x.world.sched then .returned else .usleep⟩
  /-- `usleep` marks a hooked task asleep for `1000 / 1000` milliseconds. -/
  | usleepHooked (w' : World) : x.pc = .usleep → AtLoop x.world.sched →
      x.world.act (.sleep 1) = .ok w' → Joining.Step x ⟨w', .test⟩
  /-- For another task it is the C library's. -/
  | usleepLibrary : x.pc = .usleep → AtLoop x.world.sched → Joining.Step x ⟨x.world, .test⟩
  /-- Another task acts, the clock interrupts, or `main` spins in `usleep`. -/
  | other (a : Action) (w' : World) : a.enabled x.world →
      (x.world.sched.currentTask = x.world.sched.mainTask → a = .resume ∨ ∃ r, a = .tick r) →
      x.world.act a = .ok w' → Joining.Step x ⟨w', x.pc⟩

/-- `main` has called `task_wait_all`. -/
def waitAll : Trans.Sys Joining where
  init x := allRuns.Reach x.world ∧ MainRuns x.world.sched ∧ x.pc = .test
  step := Joining.Step

/-- `all_tasks_finished`, called by `main`, tells whether all tasks have exited; and once they have,
`task_wait_all`, called then, can still return. -/
structure JoinOk (w : World) : Prop where
  finished : allTasksFinished w.sched = true ↔ AllExited w.sched
  waits : ∀ x, waitAll.Steps ⟨w, .test⟩ x → AllExited x.world.sched →
    ∃ y, waitAll.Steps x y ∧ y.pc = .returned

theorem finishedFrom_eq_false {tasks : TaskId → TaskStruct} {l : List TaskId} {t : TaskId}
    (ht : t ∈ l) (hst : (tasks t).status ≠ .DIED) : finishedFrom tasks l = false := by
  induction l with
  | nil => cases ht
  | cons elem rest ih =>
      rw [finishedFrom]
      split
      · rfl
      · rename_i hdied
        rcases List.mem_cons.1 ht with rfl | ht
        · exact absurd hst hdied
        · exact ih ht

/-! ## `main` stays listed -/

/-- A property of logs that a log has only if its prefixes have it. -/
structure PrefixClosed where
  holds : List Event → Prop
  anti : ∀ l e, holds (l ++ [e]) → holds l

/-- As long as `G` holds of the log, the main task `m` is in `task_all_list` and is not dead. -/
def MainListed (G : PrefixClosed) (m : TaskId) (s : Sched) : Prop :=
  s.mainTask = m ∧ (G.holds s.log → m ∈ s.taskAllList ∧ (s.tasks m).status ≠ .DIED)

section

variable {G : PrefixClosed} {m : TaskId} {s s' : Sched}

/-- Nothing that matters is taken away. -/
theorem MainListed.of (h : MainListed G m s) (hmain : s'.mainTask = s.mainTask)
    (hlog : G.holds s'.log → G.holds s.log) (hall : ∀ t ∈ s.taskAllList, t ∈ s'.taskAllList)
    (hst : (s.tasks m).status ≠ .DIED → (s'.tasks m).status ≠ .DIED) : MainListed G m s' := by
  refine ⟨hmain.trans h.1, fun hG => ?_⟩
  obtain ⟨hmem, halive⟩ := h.2 (hlog hG)
  exact ⟨hall _ hmem, hst halive⟩

theorem modTask_alive (s : Sched) (t : TaskId) (f : TaskStruct → TaskStruct)
    (hf : (s.tasks t).status ≠ .DIED → (f (s.tasks t)).status ≠ .DIED) (u : TaskId)
    (hu : (s.tasks u).status ≠ .DIED) : ((s.modTask t f).tasks u).status ≠ .DIED := by
  by_cases hut : u = t
  · subst hut
    simpa [Sched.modTask] using hf hu
  · simpa [Sched.modTask, Function.update_of_ne hut] using hu

theorem MainListed.prim (h : MainListed G m s) (hp : Prim s s') : MainListed G m s' := by
  cases hp with
  | wake t _ ht =>
      exact h.of rfl (G.anti _ _) (fun _ ht => ht)
        (modTask_alive s t (fun task => { task with status := .READY }) (fun _ => nofun) m)
  | getchar q byte =>
      exact h.of rfl (G.anti _ _) (fun _ ht => ht) id
  | _ => exact h

theorem MainListed.setStatus (h : MainListed G m s) {status : TaskStatus} (hst : Blocking status) :
    MainListed G m (s.setStatus status) := by
  have halive : status ≠ .DIED := by
    rintro rfl
    simp [Blocking] at hst
  exact h.of rfl id (fun _ ht => ht)
    (modTask_alive s s.currentTask _ (fun _ => halive) m)

theorem MainListed.getNextTask (h : MainListed G m s) : Returns (getNextTask s) (MainListed G m) := by
  unfold ThreadSched.getNextTask
  cases s.taskReadyList with
  | nil => exact Returns.error
  | cons t rest =>
      exact Returns.pure (h.of rfl (G.anti _ _) (fun _ ht => ht)
        (modTask_alive s t (fun task => { task with status := .RUNNING }) (fun _ => nofun) m))

theorem MainListed.taskStart (h : MainListed G m s) (ht : Tame s) (addr stack : Nat) (prio : Int) :
    Returns (taskStart addr stack prio s) (MainListed G m) := by
  unfold ThreadSched.taskStart
  refine Returns.bind (P := fun r => MainListed G m r.2 ∧ Tame r.2) ?_ ?_
  · refine Returns.ite (fun _ => ?_) fun _ => Returns.pure ⟨h, ht.of rfl rfl fun _ _ => Or.inl⟩
    cases s.taskPoolList with
    | nil => exact Returns.error
    | cons t rest =>
        exact returns_assertThat fun _ => Returns.pure ⟨h, ht.of rfl rfl fun _ _ => Or.inl⟩
  · rintro ⟨t, s₁⟩ ⟨h₁, ht₁⟩
    show Returns (initTask t stack prio s₁ >>= _) _
    rw [initTask_eq ht₁.tid]
    cases bitmapScan s₁.tidPool.tidBitmap 1 with
    | none => exact Returns.error
    | some bitIdx =>
        refine returns_assertThat fun _ => returns_assertThat fun _ => Returns.pure ?_
        refine h₁.of rfl (G.anti _ _) (fun u hu => List.mem_append_left _ hu) ?_
        intro halive
        obtain rfl : s₁.mainTask = m := h₁.1
        by_cases hu : s₁.mainTask = t
        · simp [Sched.emit, inited, initedTask, initFields, hu]
        · simpa [Sched.emit, inited, Function.update_of_ne hu] using halive

/-- The exit of another task leaves `main` where it is. -/
theorem MainListed.taskExit (h : MainListed G m s) (ht : Tame s) {t : TaskId}
    (hexit : G.holds (s.log ++ [.exit t]) → m ≠ t) : Returns (taskExit t s) (MainListed G m) := by
  have hlisted : MainListed G m (((exitLists t s).setTidBit
      (((exitLists t s).tasks t).tid - (exitLists t s).tidPool.tidStart) false).emit (.exit t)) := by
    refine ⟨h.1, fun hG => ?_⟩
    have hne : m ≠ t := hexit hG
    obtain ⟨hmem, halive⟩ := h.2 (G.anti _ _ hG)
    constructor
    · exact (List.mem_erase_of_ne hne).2 hmem
    · show ((Function.update s.tasks t { s.tasks t with status := .DIED }) m).status ≠ .DIED
      rw [Function.update_of_ne hne]
      exact halive
  unfold ThreadSched.taskExit
  show Returns (releaseTid _ (exitLists t s) >>= _) _
  rw [releaseTid_eq (ht.exitLists t).tid, ok_bind]
  exact Returns.ite (fun _ => Returns.ok hlisted) fun _ => hlisted.getNextTask

theorem MainListed.timerCall (h : MainListed G m s) (n : TimerNode TimerFn) (j : Nat) :
    Returns (timerCall n j s) (MainListed G m) := by
  unfold ThreadSched.timerCall
  cases n.timer with
  | collaborativeScheduleHelper u =>
      refine returns_assertThat fun _ => Returns.pure ?_
      have hput : MainListed G m ({ s with taskReadyList := listAppend s.taskReadyList u }.emit
          (.ready u (.helper n.node j))) :=
        h.of rfl (G.anti _ _) (fun _ ht => ht) id
      exact hput.of rfl id (fun _ ht => ht)
        (modTask_alive ({ s with taskReadyList := listAppend s.taskReadyList u }.emit
          (.ready u (.helper n.node j))) u (fun ptask => { ptask with
            ticks := ptask.priority
            status := .READY
            isCollaborativeSchedule := false
            sleepMillisecond := 0 }) (fun _ => nofun) m)
  | cleanDeadTask =>
      refine (cleanDeadTask_freed s).imp ?_
      rintro s' ⟨pool, stackMem, structMem, rfl⟩
      exact h

theorem MainListed.schedule (h : MainListed G m s) : Returns (schedule s) (MainListed G m) := by
  refine returns_assertThat fun _ => Returns.ite (fun _ => Returns.error) fun _ => ?_
  apply MainListed.getNextTask
  exact h.of rfl (G.anti _ _) (fun _ ht => ht)
    (modTask_alive s s.currentTask
      (fun task => { task with ticks := task.priority, status := .READY }) (fun _ => nofun) m)

theorem mainListed_kept : KeptByActions (MainListed G m) where
  locks _ _ h := h
  call n j _ h := h.timerCall n j
  next _ h := h.getNextTask
  schedule _ h := h.schedule
  countDown s h _ := h.of rfl id (fun _ ht => ht) (modTask_alive s s.currentTask _ id m)
  prim _ _ h := h.prim
  status _ _ h := h.setStatus
  loop _ h := h
  start addr stack prio _ h ht := h.taskStart ht addr stack prio

/-- **Every action** but its exit keeps `main` listed. -/
theorem MainListed.act {w : World} (h : MainListed G m w.sched) (ht : Tame w.sched) (a : Action)
    (hexit : a = .taskExit → G.holds (w.sched.log ++ [.exit w.sched.currentTask]) →
      m ≠ w.sched.currentTask) :
    Returns (w.act a) fun w' => MainListed G m w'.sched := by
  refine mainListed_kept.act h ht a (fun milliseconds _ => ?_) fun heq => h.taskExit ht (hexit heq)
  exact h.of rfl id (fun _ ht => ht) (modTask_alive w.sched w.sched.currentTask (fun task => { task with
    isCollaborativeSchedule := true
    sleepMillisecond := milliseconds }) id m)

/-- The main task has not exited. -/
def notExited (m : TaskId) : PrefixClosed :=
  ⟨fun l => Event.exit m ∉ l, fun _ _ h hm => h (List.mem_append_left _ hm)⟩

def always : PrefixClosed := ⟨fun _ => True, fun _ _ => id⟩

/-- **In every run** `main` is listed until it exits. -/
theorem allRuns_mainListed {w : World} (h : allRuns.Reach w) :
    MainListed (notExited w.sched.mainTask) w.sched.mainTask w.sched ∧ Tame w.sched := by
  have hinv : (∃ m, MainListed (notExited m) m w.sched) ∧ Tame w.sched := by
    refine allRuns.invariant (I := fun w => (∃ m, MainListed (notExited m) m w.sched) ∧ Tame w.sched) ?_ ?_ h
    · intro w hinit
      refine ⟨?_, (WorldInv.init hinit).tame⟩
      obtain ⟨addr, stack, j, _, hw⟩ := hinit
      rw [start_eq] at hw
      cases hw
      refine ⟨addr, by simp [mainOnly, inited], fun _ => ?_⟩
      simp [mainOnly, inited, initedTask, initFields]
    · rintro w w' ⟨⟨m, hs⟩, ht⟩ ⟨a, _, hact⟩
      refine ⟨⟨m, hs.act ht a ?_ w' hact⟩, ht.act a w' hact⟩
      rintro - hlog rfl
      exact hlog (List.mem_append_right _ List.mem_cons_self)
  obtain ⟨⟨m, hs⟩, ht⟩ := hinv
  obtain rfl := hs.1
  exact ⟨hs, ht⟩

theorem MainRuns.listed {w : World} (h : allRuns.Reach w) (hmain : MainRuns w.sched) :
    MainListed always w.sched.mainTask w.sched :=
  ⟨rfl, fun _ => (allRuns_mainListed h).1.2 hmain.2⟩

theorem allTasksFinished_eq_false (h : MainListed always m s) :
    allTasksFinished s = false :=
  finishedFrom_eq_false (h.2 trivial).1 (h.2 trivial).2

/-- **The loop never ends**: while `main` is in it, it does not exit, so it stays listed. -/
theorem waitAll_never_returns {w : World} (h : allRuns.Reach w) (hmain : MainRuns w.sched) {x : Joining}
    (hx : waitAll.Steps ⟨w, .test⟩ x) : x.pc ≠ .returned := by
  refine (Trans.Sys.steps_invariant (I := fun x : Joining =>
    (MainListed always w.sched.mainTask x.world.sched ∧ Tame x.world.sched) ∧
      x.pc ≠ .returned) ?_ ⟨⟨hmain.listed h, (allRuns_mainListed h).2⟩, by simp⟩ hx).2
  rintro x x' ⟨⟨hlisted, htame⟩, hpc⟩ hstep
  cases hstep with
  | test _ _ =>
      refine ⟨⟨hlisted, htame⟩, ?_⟩
      rw [allTasksFinished_eq_false hlisted]
      nofun
  | usleepHooked w' _ _ hact =>
      exact ⟨⟨hlisted.act htame (.sleep 1) nofun w' hact, htame.act (.sleep 1) w' hact⟩, nofun⟩
  | usleepLibrary _ _ => exact ⟨⟨hlisted, htame⟩, nofun⟩
  | other a w' _ hother hact =>
      refine ⟨⟨hlisted.act htame a ?_ w' hact, htame.act a w' hact⟩, hpc⟩
      rintro rfl - hcur
      rcases hother (hcur.symm.trans hlisted.1.symm) with hresume | ⟨r, htick⟩
      · cases hresume
      · cases htick

end

/-- **Joining**, by `main`, works exactly as long as some task does not exit: `task_wait_all` never
returns. -/
theorem join_ok_iff {w : World} (h : allRuns.Reach w) (hmain : MainRuns w.sched) :
    (JoinOk w ↔ ∀ x, waitAll.Steps ⟨w, .test⟩ x → ¬ AllExited x.world.sched) ∧
      ∀ x, waitAll.Steps ⟨w, .test⟩ x → x.pc ≠ .returned := by
  have hnever := fun x hx => waitAll_never_returns h hmain (x := x) hx
  refine ⟨⟨fun hok x hx hexited => ?_, fun hnot => ⟨?_, fun x hx hexited => ?_⟩⟩, hnever⟩
  · obtain ⟨y, hy, hreturned⟩ := hok.waits x hx hexited
    exact hnever y (hx.trans hy) hreturned
  · rw [allTasksFinished_eq_false (hmain.listed h)]
    exact ⟨nofun, fun hexited => absurd hexited (hnot _ (Trans.Sys.Steps.refl _ _))⟩
  · exact absurd hexited (hnot x hx)

/-- `main` starts task `3`, which exits when it gets to run. -/
theorem reach_joined : ∃ w, allRuns.Reach w ∧ MainRuns w.sched ∧ w.sched.conts w.sched.currentTask = [] ∧
    w.sched.log = [.ready 3 .taskStart, .ready 1 .schedule, .dispatch 3, .exit 3, .dispatch 1] := by
  have hrun : ((start 1 2 0).toOption.bind fun w => List.foldlM World.nextBusy w
      [.taskStart 3 4 31, .tick 0, .tick 0, .tick 0, .tick 0, .taskExit]).map
        (fun w => (w.sched.currentTask, w.sched.mainTask, w.sched.conts w.sched.currentTask, w.sched.log)) =
      some (1, 1, [], [.ready 3 .taskStart, .ready 1 .schedule, .dispatch 3, .exit 3, .dispatch 1]) := by
    decide +kernel
  obtain ⟨w, hw, hf⟩ := exists_reach (M := allRuns) (fun _ h => h)
    (fun w a w' h => (busyRuns_nextBusy w a w' h).1) (by norm_num) hrun
  simp only [Prod.mk.injEq] at hf
  obtain ⟨hcur, hmain, hconts, hlog⟩ := hf
  refine ⟨w, hw, ⟨hcur.trans hmain.symm, ?_⟩, hconts, hlog⟩
  rw [hmain, hlog]
  decide

/-- In that state the one task that was started has exited. -/
theorem allExited_of_log {s : Sched}
    (hlog : s.log =
      [.ready 3 .taskStart, .ready 1 .schedule, .dispatch 3, .exit 3, .dispatch 1]) :
    AllExited s := by
  intro before t after hsplit
  rw [hlog] at hsplit
  match before with
  | [] =>
      cases hsplit
      decide
  | [_] => cases hsplit
  | [_, _] => cases hsplit
  | [_, _, _] => cases hsplit
  | [_, _, _, _] => cases hsplit
  | _ :: _ :: _ :: _ :: _ :: rest =>
      have hlen := congrArg List.length hsplit
      simp at hlen

/-- There all tasks have exited, `main` goes on to `usleep`, and `task_wait_all` never returns. -/
theorem join_ok_iff_exited : ∃ w, allRuns.Reach w ∧ MainRuns w.sched ∧ AllExited w.sched ∧ ¬ JoinOk w ∧
    waitAll.Steps ⟨w, .test⟩ ⟨w, .usleep⟩ ∧ ∀ x, waitAll.Steps ⟨w, .test⟩ x → x.pc ≠ .returned := by
  obtain ⟨w, hreach, hmain, hconts, hlog⟩ := reach_joined
  obtain ⟨hiff, hnever⟩ := join_ok_iff hreach hmain
  have hexited := allExited_of_log hlog
  have hstep : waitAll.step ⟨w, .test⟩ ⟨w, .usleep⟩ := by
    have htest : Joining.Step ⟨w, .test⟩ _ := .test rfl ⟨hmain.1, hconts⟩
    rw [allTasksFinished_eq_false (hmain.listed hreach)] at htest
    exact htest
  refine ⟨w, hreach, hmain, hexited, fun hok => ?_, (Trans.Sys.Steps.refl _ _).tail hstep, hnever⟩
  exact hiff.1 hok _ (Trans.Sys.Steps.refl _ _) hexited

/-- The one task has exited, and `all_tasks_finished` says no. -/
theorem join_misses_last_exit :
    ¬ ∀ w, allRuns.Reach w → MainRuns w.sched → JoinOk w := by
  intro hall
  obtain ⟨w, hreach, hmain, -, hlog⟩ := reach_joined
  have hok := (hall w hreach hmain).finished.2 (allExited_of_log hlog)
  rw [allTasksFinished_eq_false (hmain.listed hreach)] at hok
  cases hok

end ThreadSched

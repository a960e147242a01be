import ThreadSched.Task.Progress
import ThreadSched.Timer.CallTick

/-!
# Who is marked asleep, and the timers of the wheel

A task marks itself asleep while it runs, and the handler puts it to sleep or its helper takes the mark off
before it is ready again.

* `MarkedRun` — a marked task has the status of a running one; `busyRuns_markedRun` — in every run.
* `Delays` — every delay is an `unsigned int`.
* `busyRuns_sound` — the wheel is sound in every run.
-/

set_option autoImplicit false

namespace ThreadSched

open Wheel (TimerManager TimerNode Sound)

/-- A task that is marked asleep has the status of a running task. -/
def MarkedRun (s : Sched) : Prop := ∀ t, s.marked t = true → (s.tasks t).status = .RUNNING

section

variable {s s' : Sched} {w w' : World}

theorem MarkedRun.modTask (h : MarkedRun s) (t : TaskId) {f : TaskStruct → TaskStruct}
    (hf : (f (s.tasks t)).isCollaborativeSchedule = true → (f (s.tasks t)).status = .RUNNING) :
    MarkedRun (s.modTask t f) := by
  intro u hu
  by_cases hut : u = t
  · subst hut
    simp only [Sched.marked, Sched.modTask, Function.update_self] at hu ⊢
    exact hf hu
  · simp only [Sched.marked, Sched.modTask, Function.update_of_ne hut] at hu ⊢
    exact h u hu

/-- A task that is not marked may get any status. -/
theorem MarkedRun.unmarked (h : MarkedRun s) {t : TaskId} {f : TaskStruct → TaskStruct}
    (hf : (f (s.tasks t)).isCollaborativeSchedule = (s.tasks t).isCollaborativeSchedule)
    (ht : s.marked t = false) : MarkedRun (s.modTask t f) := by
  refine h.modTask t fun hmark => ?_
  rw [hf] at hmark
  exact absurd hmark (by simp [ht])

theorem MarkedRun.getNextTask (h : MarkedRun s) : Returns (getNextTask s) MarkedRun := by
  unfold ThreadSched.getNextTask
  cases s.taskReadyList with
  | nil => exact Returns.error
  | cons t rest =>
      have hlist : MarkedRun { s with taskReadyList := rest } := h
      exact Returns.pure (hlist.modTask t (f := fun task => { task with status := .RUNNING }) fun _ => rfl)

/-- The writes of a call, while the current task is not marked. -/
theorem MarkedRun.prim (h : MarkedRun s ∧ s.marked s.currentTask = false) (hp : Prim s s') :
    MarkedRun s' ∧ s'.marked s'.currentTask = false := by
  cases hp with
  | wake t ht _ =>
      have hunmarked : s.marked t = false := by
        by_contra hmark
        have hrun := h.1 t (by simpa using hmark)
        rw [hrun] at ht
        rcases ht with hst | hst | hst <;> cases hst
      have hlist : MarkedRun { s with taskReadyList := t :: s.taskReadyList } := h.1
      refine ⟨hlist.unmarked (f := fun task => { task with status := .READY }) rfl hunmarked, ?_⟩
      show (Function.update s.tasks t _ s.currentTask).isCollaborativeSchedule = false
      by_cases hc : s.currentTask = t
      · subst hc
        rw [Function.update_self]
        exact h.2
      · rw [Function.update_of_ne hc]
        exact h.2
  | _ => exact h

theorem MarkedRun.acts (h : MarkedRun s) (hcur : s.marked s.currentTask = false) (ha : Acts s s') :
    MarkedRun s' := by
  cases ha with
  | stay hp => exact (hp.invariant (fun _ _ => MarkedRun.prim) ⟨h, hcur⟩).1
  | switch m status hp _ hs =>
      obtain ⟨hm, hmc⟩ := hp.invariant (fun _ _ => MarkedRun.prim) ⟨h, hcur⟩
      exact (hm.unmarked (f := fun task => { task with status := status }) rfl hmc).getNextTask s' hs
  | idle m status hp _ _ hs =>
      obtain ⟨hm, hmc⟩ := hp.invariant (fun _ _ => MarkedRun.prim) ⟨h, hcur⟩
      rw [hs]
      exact hm.unmarked (f := fun task => { task with status := status }) rfl hmc

/-- A marked task only spins. -/
theorem MarkedRun.resume (h : MarkedRun s) (hspin : MarksSpin s) (ht : Tame s) :
    Returns ((runStmt s).getD (pure s)) MarkedRun := by
  cases hmark : s.marked s.currentTask with
  | false => exact (runStmt_acts ht).imp fun _ ha => h.acts hmark ha
  | true =>
      have hhead := hspin s.currentTask hmark
      unfold runStmt
      cases hc : s.conts s.currentTask with
      | nil =>
          rw [hc] at hhead
          cases hhead
      | cons st rest =>
          rw [hc] at hhead
          cases hhead
          exact Returns.ite (fun _ => Returns.pure h) fun _ => Returns.pure h

theorem MarkedRun.taskStart (h : MarkedRun s) (ht : Tame s) (addr stack : Nat) (prio : Int) :
    Returns (taskStart addr stack prio s) MarkedRun := by
  unfold ThreadSched.taskStart
  refine Returns.bind (P := fun r => MarkedRun r.2 ∧ Tame r.2) ?_ ?_
  · refine Returns.ite (fun _ => ?_) fun _ => Returns.pure ⟨h, ht.of rfl rfl fun _ _ => Or.inl⟩
    cases s.taskPoolList with
    | nil => exact Returns.error
    | cons t rest => exact returns_assertThat fun _ => Returns.pure ⟨h, ht.of rfl rfl fun _ _ => Or.inl⟩
  · rintro ⟨t, s₁⟩ ⟨h₁, ht₁⟩
    show Returns (initTask t stack prio s₁ >>= _) _
    rw [initTask_eq ht₁.tid]
    cases bitmapScan s₁.tidPool.tidBitmap 1 with
    | none => exact Returns.error
    | some bitIdx =>
        refine returns_assertThat fun _ => returns_assertThat fun _ => Returns.pure fun u hu => ?_
        by_cases hut : u = t
        · subst hut
          simp [Sched.marked, Sched.emit, inited, initedTask, initFields] at hu
        · simp only [Sched.marked, Sched.emit, inited, Function.update_of_ne hut] at hu ⊢
          exact h₁ u hu

theorem MarkedRun.taskExit (h : MarkedRun s) (ht : Tame s) (hcur : s.marked s.currentTask = false) :
    Returns (taskExit s.currentTask s) MarkedRun := by
  have hex : MarkedRun (exitLists s.currentTask s) :=
    h.unmarked (f := fun ptask => { ptask with status := .DIED }) rfl hcur
  unfold ThreadSched.taskExit
  show Returns (releaseTid _ (exitLists s.currentTask s) >>= _) _
  rw [releaseTid_eq (ht.exitLists _).tid, ok_bind]
  exact Returns.ite (fun _ => Returns.ok hex) fun _ => MarkedRun.getNextTask (by exact hex)

theorem MarkedRun.timerCall (h : MarkedRun s) (n : TimerNode TimerFn) (j : Nat) :
    Returns (timerCall n j s) MarkedRun := by
  unfold ThreadSched.timerCall
  cases n.timer with
  | collaborativeScheduleHelper u =>
      refine returns_assertThat fun _ => Returns.pure ?_
      have hput : MarkedRun ({ s with taskReadyList := listAppend s.taskReadyList u }.emit
          (.ready u (.helper n.node j))) := h
      exact hput.modTask u (f := fun ptask => { ptask with
        ticks := ptask.priority
        status := .READY
        isCollaborativeSchedule := false
        sleepMillisecond := 0 }) nofun
  | cleanDeadTask =>
      refine (cleanDeadTask_freed s).imp ?_
      rintro s' ⟨pool, stackMem, structMem, rfl⟩
      exact h

/-- **The handler** switches away from a task that is not marked, or leaves it its status. -/
theorem MarkedRun.handler (h : MarkedRun w.sched) (ht : Tame w.sched) (r : Nat) :
    Returns (interruptTimerHandler r w) fun w' => MarkedRun w'.sched := by
  have hadvance := World.advance_invariant (I := MarkedRun) (fun n j _ hs => hs.timerCall n j) (fun _ _ hs => hs)
    r ht h
  refine returns_assertThat fun _ => (hadvance.and (ht.advance r)).bind ?_
  rintro v ⟨hv, htv⟩
  refine Returns.ite (fun hz => ?_) fun _ => Returns.ite (fun _ => Returns.pure ?_) fun _ => ?_
  · refine Returns.bind (P := MarkedRun) ?_ fun s hs => Returns.pure hs
    refine returns_assertThat fun _ => Returns.ite (fun _ => Returns.error) fun _ => ?_
    have hlist : MarkedRun { v.sched with
        taskReadyList := listAppend v.sched.taskReadyList v.sched.currentTask } := hv
    exact MarkedRun.getNextTask (by
      exact hlist.unmarked (t := v.sched.currentTask)
        (f := fun task => { task with ticks := task.priority, status := .READY }) rfl hz.1)
  · exact hv.modTask v.sched.currentTask
      (f := fun task => { task with ticks := u8 ((task.ticks : Int) - 1) }) (hv _)
  · refine returns_createTimer htv.timer ?_
    refine Returns.bind (P := MarkedRun) ?_ fun s hs => Returns.pure hs
    exact Returns.ite (fun _ => Returns.error) fun _ => hv.getNextTask

/-- **Any action** of a run in which the current task runs. -/
theorem MarkedRun.act (h : MarkedRun w.sched) (hinv : WorldInv w) (hspin : MarksSpin w.sched) {a : Action}
    (ha : a.enabled w) : Returns (w.act a) fun w' => MarkedRun w'.sched := by
  have hsched : Returns (schedAction w.sched a >>= fun s => pure { w with sched := s })
      fun w' : World => MarkedRun w'.sched := by
    refine Returns.bind (P := MarkedRun) ?_ fun s hs => Returns.pure hs
    cases a with
    | taskStart addr stack prio => exact h.taskStart hinv.tame addr stack prio
    | taskExit =>
        refine h.taskExit hinv.tame ?_
        by_contra hmark
        have hhead := hspin w.sched.currentTask (by simpa using hmark)
        have hnil : w.sched.conts w.sched.currentTask = [] := ha
        rw [hnil] at hhead
        cases hhead
    | resume => exact h.resume hspin hinv.tame
    | sleep milliseconds =>
        obtain ⟨pl, hf, hcur⟩ := hinv.running
        have hrun : (w.sched.tasks w.sched.currentTask).status = .RUNNING :=
          (hf.fits w.sched.currentTask).status .current hcur
        refine Returns.pure (h.modTask w.sched.currentTask (f := fun task => { task with
          isCollaborativeSchedule := true
          sleepMillisecond := milliseconds }) fun _ => hrun)
    | tick r => exact Returns.pure h
    | _ => exact Returns.pure h
  cases a with
  | tick r => exact h.handler hinv.tame r
  | _ => exact hsched

/-- **In every run** a marked task has the status of a running one. -/
theorem busyRuns_markedRun (h : busyRuns.Reach w) : MarkedRun w.sched := by
  refine busyRuns.invariant_of (J := fun w => WorldInv w ∧ MarksSpin w.sched) (I := fun w => MarkedRun w.sched)
    (fun w hw => ⟨busyRuns_inv hw, (allRuns_tame_marksSpin (busyRuns_all hw)).2⟩) ?_ ?_ h
  · rintro w ⟨addr, stack, j, _, hw⟩ t ht
    rw [start_eq] at hw
    cases hw
    exfalso
    by_cases hta : t = addr
    · subst hta
      simp [Sched.marked, mainOnly, inited, initedTask, initFields] at ht
    · simp [Sched.marked, mainOnly, inited, hta, tidPoolInit, boot, TaskStruct.zero] at ht
  · rintro w w' ⟨hinv, hspin⟩ hm ⟨⟨a, ha, hact⟩, -⟩
    exact hm.act hinv hspin ha w' hact

/-! ## The wheel -/

/-- Every delay is an `unsigned int`. -/
abbrev Delays : Sched → Prop := Stamped fun task => task.sleepMillisecond < 2 ^ 32

theorem delays_writable : Writable fun task => task.sleepMillisecond < 2 ^ 32 where
  status _ _ := id
  ticks _ _ := id
  helper _ _ := by norm_num

theorem allRuns_delays (h : allRuns.Reach w) : Delays w.sched :=
  allRuns_stamped delays_writable (fun _ _ _ _ => by norm_num [initedTask, initFields])
    (fun _ _ hlt _ => hlt) h

/-- **The handler** keeps the wheel sound: it only returns while the clock is not at its end. -/
theorem sound_handler (hsound : Sound w.tm) (hinv : WorldInv w) (hmanaged : Managed w) (hdelays : Delays w.sched)
    (r : Nat) : Returns (interruptTimerHandler r w) fun w' => Sound w'.tm := by
  intro w' hw'
  obtain ⟨v, hv⟩ := exists_advance hw'
  obtain ⟨hend, hlt⟩ := hmanaged.ends hsound.jiffies v hv
  refine (returns_handler_tm (P := Sound) (fun tm htm hle => htm.tick (by omega)) (fun u hu htm => ?_)
    hmanaged.exitFlag hsound w' hw').1
  have halloc : u.sched.allocated u.sched.currentTask = true := by
    obtain ⟨pl, hf, hcur⟩ := (hinv.advance r u hu).running
    have halloc := (hf.fits u.sched.currentTask).allocated
    rw [hcur] at halloc
    exact halloc
  have hdelays' : Delays u.sched := (stamped_handler delays_writable).advance hdelays hinv.tame r u hu
  exact htm.createTimer u.nodes _ (hdelays' _ halloc) (by norm_num)

/-- **In every run** the wheel is sound. -/
theorem busyRuns_sound (h : busyRuns.Reach w) : Sound w.tm := by
  refine busyRuns.invariant_of (J := fun w => WorldInv w ∧ Managed w ∧ Delays w.sched) (I := fun w => Sound w.tm)
    (fun w hw => ⟨busyRuns_inv hw, allRuns_managed (busyRuns_all hw), allRuns_delays (busyRuns_all hw)⟩) ?_ ?_ h
  · rintro w ⟨addr, stack, j, hj, hw⟩
    rw [start_eq] at hw
    cases hw
    have hempty : Sound (TimerManager.empty j : TimerManager TimerFn) :=
      ⟨rfl, hj, fun _ _ hn => absurd hn List.not_mem_nil, fun _ _ hn => absurd hn List.not_mem_nil,
        fun _ _ hn => absurd hn List.not_mem_nil⟩
    exact hempty.createTimer 0 .cleanDeadTask (by norm_num) (by norm_num)
  · rintro w w' ⟨hinv, hmanaged, hdelays⟩ hsound ⟨⟨a, ha, hact⟩, -⟩
    have hsched : Returns (schedAction w.sched a >>= fun s => pure { w with sched := s })
        fun w' : World => Sound w'.tm := returns_bind_any fun _ => Returns.pure hsound
    cases a with
    | tick r => exact sound_handler hsound hinv hmanaged hdelays r w' hact
    | _ => exact hsched w' hact

end

end ThreadSched

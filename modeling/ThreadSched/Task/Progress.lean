import ThreadSched.Task.Idle
import ThreadSched.Task.Primitive

/-!
# A handler call returns when `run_timer` does

Once `run_timer` has returned, nothing stops the handler: the magic number is the one `init_task` wrote,
the timer lock is free, and a task that is to sleep finds another one ready.

* `Stamped` — what holds of every allocated struct; `allRuns_stamped` — in every run.
* `Managed` — the timer manager is there, and is not asked to go.
* `Serves` — what the call does for the task it interrupts; `handler_serves` — it returns and does so.
* `TimersReturn` — `run_timer` returns in each call of a sequence.
-/

set_option autoImplicit false

namespace ThreadSched

open Wheel (TimerManager TimerNode tickNodes tickWheel)

/-! ## What the handler keeps of the wheel -/

section

variable {α σ ε : Type}

/-- What ticks keep, the loop keeps. -/
theorem Wheel.returns_runTimerLoop {P : TimerManager α → Prop} {call : TimerNode α → Nat → σ → Except ε σ}
    {hang : ε} {r : Nat} (hP : ∀ tm, P tm → tm.uJiffies ≤ r → P (tickWheel tm)) (fuel : Nat)
    {w : TimerManager α × σ} (hw : P w.1) :
    Returns (Wheel.runTimerLoop call hang r fuel w) fun w' => P w'.1 := by
  induction fuel generalizing w with
  | zero => exact Returns.error
  | succ fuel ih =>
      refine Returns.ite (fun hle => ?_) fun _ => Returns.ok hw
      have hle' : w.1.uJiffies ≤ r := by
        unfold Wheel.TIME_AFTER_EQ at hle
        omega
      have htick : Returns (Wheel.runTick call w) fun w' => P w'.1 := by
        intro w' hw'
        rw [Wheel.runTick_eq] at hw'
        cases hf : (tickNodes w.1).foldlM (fun s n => call n w.1.uJiffies s) w.2 with
        | error e =>
            rw [hf] at hw'
            cases hw'
        | ok s =>
            rw [hf] at hw'
            cases hw'
            exact hP w.1 hw hle'
      exact htick.bind fun w' hw' => ih hw'

/-- The loop of `run_timer` ends behind the reading. -/
theorem Wheel.runTimerLoop_ends {call : TimerNode α → Nat → σ → Except ε σ} {hang : ε} {r fuel : Nat}
    {w w' : TimerManager α × σ} (h : Wheel.runTimerLoop call hang r fuel w = .ok w') (hj : w.1.uJiffies < 2 ^ 32) :
    w'.1.uJiffies = max w.1.uJiffies (r + 1) ∧ w'.1.uJiffies < 2 ^ 32 := by
  induction fuel generalizing w with
  | zero => cases h
  | succ fuel ih =>
      rw [Wheel.runTimerLoop] at h
      split at h
      · next hle =>
          have hle' : w.1.uJiffies ≤ r := by
            unfold Wheel.TIME_AFTER_EQ at hle
            omega
          cases ht : Wheel.runTick call w with
          | error e =>
              rw [ht] at h
              cases h
          | ok v =>
              rw [ht] at h
              have hv : v.1 = tickWheel w.1 := by
                rw [show w = (w.1, w.2) from rfl, Wheel.runTick_eq] at ht
                cases hf : (tickNodes w.1).foldlM (fun s n => call n w.1.uJiffies s) w.2 with
                | error e =>
                    rw [hf] at ht
                    cases ht
                | ok s =>
                    rw [hf] at ht
                    cases ht
                    rfl
              have hj' : v.1.uJiffies = u32 (w.1.uJiffies + 1) := by rw [hv, Wheel.tickWheel_uJiffies]
              obtain ⟨hend, hlt⟩ := ih h (hj' ▸ Wheel.u32_lt _)
              refine ⟨?_, hlt⟩
              -- the clock cannot wrap: the loop would then not end
              by_cases hwrap : w.1.uJiffies = 2 ^ 32 - 1
              · omega
              · rw [Wheel.u32_of_lt (by omega)] at hj'
                omega
      · next hlt =>
          cases h
          unfold Wheel.TIME_AFTER_EQ at hlt
          exact ⟨by omega, hj⟩

/-- What does not depend on an intermediate result. -/
theorem returns_bind_any {β γ : Type} {m : Except ε β} {f : β → Except ε γ} {R : γ → Prop}
    (hf : ∀ b, Returns (f b) R) : Returns (m >>= f) R :=
  Returns.bind (P := fun _ => True) (fun _ _ => trivial) fun b _ => hf b

end

variable {s s' : Sched} {w m : World} {r : Nat}

/-- `run_timer` does not touch the record that the manager is allocated. -/
theorem runTimer_tm {P : TimerManager TimerFn → Prop} (htick : ∀ tm, P tm → tm.uJiffies ≤ r → P (tickWheel tm))
    (hw : P w.tm) : Returns (w.runTimer r) fun v => P v.tm ∧ v.freed = w.freed := by
  refine returns_bind_any fun s => ?_
  refine (Wheel.returns_runTimerLoop htick _ (w := (w.tm, s)) hw).bind ?_
  rintro ⟨tm, s'⟩ htm
  exact returns_bind_any fun _ => Returns.pure ⟨htm, rfl⟩

/-- The manager is allocated, and `uExitFlag` is not set. -/
structure Managed (w : World) : Prop where
  freed : w.freed = false
  exitFlag : w.tm.uExitFlag = 0

theorem Managed.advance (h : Managed w) (r : Nat) : w.advance r = w.runTimer r := by
  unfold World.advance
  rw [if_neg (by simp [h.freed]), if_pos h.exitFlag]

/-- The clock after the handler's `run_timer`. -/
theorem Managed.ends (h : Managed w) (hj : w.tm.uJiffies < 2 ^ 32) :
    Returns (w.advance r) fun v => v.tm.uJiffies = max w.tm.uJiffies (r + 1) ∧ v.tm.uJiffies < 2 ^ 32 := by
  rw [h.advance r]
  refine returns_bind_any fun s => ?_
  refine Returns.bind (P := fun x : TimerManager TimerFn × Sched => x.1.uJiffies = max w.tm.uJiffies (r + 1) ∧
    x.1.uJiffies < 2 ^ 32) (fun x hx => Wheel.runTimerLoop_ends hx hj) ?_
  rintro ⟨tm, s'⟩ htm
  exact returns_bind_any fun _ => Returns.pure htm

/-- What ticks and the new helper timer keep of the wheel, the handler keeps. -/
theorem returns_handler_tm {P : TimerManager TimerFn → Prop}
    (htick : ∀ tm, P tm → tm.uJiffies ≤ r → P (tickWheel tm))
    (hcreate : ∀ v, w.advance r = .ok v → P v.tm → P (Wheel.createTimer v.tm v.nodes
      (.collaborativeScheduleHelper v.sched.currentTask) v.sched.current.sleepMillisecond 0))
    (hexit : w.tm.uExitFlag = 0) (hw : P w.tm) :
    Returns (interruptTimerHandler r w) fun w' => P w'.tm ∧ w'.freed = w.freed := by
  have hadvance : Returns (w.advance r) fun v => P v.tm ∧ v.freed = w.freed :=
    Returns.ite (fun _ => Returns.error) fun _ =>
      Returns.ite (fun _ => runTimer_tm htick hw) fun hne => absurd hexit hne
  have hreached : Returns (w.advance r) fun v => w.advance r = .ok v := fun _ hv => hv
  refine returns_assertThat fun _ => (hreached.and hadvance).bind ?_
  rintro v ⟨hreached, hv⟩
  refine Returns.ite (fun _ => ?_) fun _ => Returns.ite (fun _ => Returns.pure hv) fun _ => ?_
  · exact returns_bind_any fun _ => Returns.pure hv
  · have hcreated : Returns (v.createTimer (.collaborativeScheduleHelper v.sched.currentTask)
        v.sched.current.sleepMillisecond 0) fun u => P u.tm ∧ u.freed = w.freed := by
      refine Returns.ite (fun _ => Returns.error) fun _ => ?_
      exact returns_bind_any fun s => returns_bind_any fun _ => Returns.pure ⟨hcreate v hreached hv.1, hv.2⟩
    exact hcreated.bind fun u hu => returns_bind_any fun _ => Returns.pure hu

theorem Managed.act (h : Managed w) (a : Action) : Returns (w.act a) Managed := by
  have hsched : Returns (schedAction w.sched a >>= fun s => pure { w with sched := s }) Managed :=
    returns_bind_any fun _ => Returns.pure ⟨h.freed, h.exitFlag⟩
  cases a with
  | tick r =>
      refine (returns_handler_tm (P := fun tm => tm.uExitFlag = 0)
        (fun tm htm _ => (Wheel.tickWheel_uExitFlag tm).trans htm) (fun v _ htm => ?_)
        h.exitFlag h.exitFlag).imp fun w' hw' => ⟨hw'.2.trans h.freed, hw'.1⟩
      unfold Wheel.createTimer
      rw [Wheel.addTimer_uExitFlag]
      exact htm
  | _ => exact hsched

/-! ## What the structs keep -/

/-- `F` holds of every allocated struct. -/
def Stamped (F : TaskStruct → Prop) (s : Sched) : Prop := ∀ t, s.allocated t = true → F (s.tasks t)

/-- The writes of the scheduler to a struct in use keep `F`. -/
structure Writable (F : TaskStruct → Prop) : Prop where
  status : ∀ task status, F task → F { task with status := status }
  ticks : ∀ task ticks, F task → F { task with ticks := ticks }
  helper : ∀ task : TaskStruct, F task → F { task with
    ticks := task.priority
    status := .READY
    isCollaborativeSchedule := false
    sleepMillisecond := 0 }

variable {F : TaskStruct → Prop}

theorem Stamped.modTask (h : Stamped F s) (t : TaskId) {f : TaskStruct → TaskStruct}
    (hf : ∀ task, F task → F (f task)) : Stamped F (s.modTask t f) := by
  intro u hu
  by_cases hut : u = t
  · subst hut
    have hself : (s.modTask u f).tasks u = f (s.tasks u) := by simp [Sched.modTask]
    rw [hself]
    exact hf _ (h u hu)
  · have hother : (s.modTask t f).tasks u = s.tasks u := by simp [Sched.modTask, Function.update_of_ne hut]
    rw [hother]
    exact h u hu

theorem Stamped.getNextTask (hF : Writable F) (h : Stamped F s) : Returns (getNextTask s) (Stamped F) := by
  unfold ThreadSched.getNextTask
  cases s.taskReadyList with
  | nil => exact Returns.error
  | cons t rest =>
      have hlist : Stamped F { s with taskReadyList := rest } := h
      exact Returns.pure (hlist.modTask t fun task => hF.status task .RUNNING)

/-- The cleaning frees structs, and touches no other. -/
theorem Stamped.cleanLoop (h : Stamped F s) (fuel : Nat) (cleanCnt : Int) :
    Returns (cleanLoop fuel cleanCnt s) (Stamped F) := by
  induction fuel generalizing s cleanCnt with
  | zero => exact Returns.error
  | succ fuel ih =>
      refine Returns.ite (fun _ => ?_) fun _ => Returns.ok h
      cases s.taskPoolList with
      | nil => exact Returns.error
      | cons t rest =>
          have hfreed : Stamped F { s with
              taskPoolList := rest
              stackAllocated := Function.update s.stackAllocated (s.tasks t).stackMinAddr false
              allocated := Function.update s.allocated t false } := by
            intro u hu
            refine h u ?_
            by_cases hut : u = t
            · subst hut
              simp at hu
            · simpa [Function.update_of_ne hut] using hu
          exact ih hfreed _

theorem Stamped.timerCall (hF : Writable F) (h : Stamped F s) (n : TimerNode TimerFn) (j : Nat) :
    Returns (timerCall n j s) (Stamped F) := by
  unfold ThreadSched.timerCall
  cases n.timer with
  | collaborativeScheduleHelper u =>
      refine returns_assertThat fun _ => Returns.pure ?_
      have hput : Stamped F ({ s with taskReadyList := listAppend s.taskReadyList u }.emit
          (.ready u (.helper n.node j))) := h
      exact hput.modTask u hF.helper
  | cleanDeadTask => exact Returns.ite (fun _ => Returns.ok h) fun _ => h.cleanLoop _ _

theorem stamped_handler (hF : Writable F) : KeptByHandler (Stamped F) where
  locks _ _ h := h
  call n j _ h := h.timerCall hF n j
  next _ h := h.getNextTask hF
  schedule s h := by
    refine returns_assertThat fun _ => Returns.ite (fun _ => Returns.error) fun _ => ?_
    have hlist : Stamped F { s with taskReadyList := listAppend s.taskReadyList s.currentTask } := h
    exact Stamped.getNextTask hF (hlist.modTask s.currentTask fun task htask =>
      hF.status _ .READY (hF.ticks task task.priority htask))
  countDown s h _ := h.modTask s.currentTask fun task => hF.ticks task _

/-- What `init_task` writes is a hypothesis. -/
theorem Stamped.taskStart (hF : ∀ main tid stack prio, F (initedTask main tid stack prio)) (h : Stamped F s)
    (ht : Tame s) (addr stack : Nat) (prio : Int) : Returns (taskStart addr stack prio s) (Stamped F) := by
  unfold ThreadSched.taskStart
  refine Returns.bind (P := fun r => (∀ u, u ≠ r.1 → r.2.allocated u = true → F (r.2.tasks u)) ∧ Tame r.2) ?_ ?_
  · refine Returns.ite (fun _ => ?_) fun _ => Returns.pure ⟨fun u hu halloc => h u ?_,
      ht.of rfl rfl fun _ _ => Or.inl⟩
    · cases s.taskPoolList with
      | nil => exact Returns.error
      | cons t rest =>
          exact returns_assertThat fun _ => Returns.pure ⟨fun u _ => h u, ht.of rfl rfl fun _ _ => Or.inl⟩
    · simpa [Function.update_of_ne hu] using halloc
  · rintro ⟨t, s₁⟩ ⟨h₁, ht₁⟩
    show Returns (initTask t stack prio s₁ >>= _) _
    rw [initTask_eq ht₁.tid]
    cases bitmapScan s₁.tidPool.tidBitmap 1 with
    | none => exact Returns.error
    | some bitIdx =>
        refine returns_assertThat fun _ => returns_assertThat fun _ => Returns.pure fun u hu => ?_
        by_cases hut : u = t
        · subst hut
          simpa [Sched.emit, inited] using hF _ _ _ _
        · simpa [Sched.emit, inited, Function.update_of_ne hut] using h₁ u hut hu

theorem stamped_kept (hF : Writable F) (hinit : ∀ main tid stack prio, F (initedTask main tid stack prio)) :
    KeptByActions (Stamped F) where
  toKeptByHandler := stamped_handler hF
  prim s s' h hp := by
    cases hp with
    | wake t _ _ =>
        have hlist : Stamped F { s with taskReadyList := t :: s.taskReadyList } := h
        exact hlist.modTask t fun task => hF.status task .READY
    | _ => exact h
  status s status h _ := h.modTask s.currentTask fun task => hF.status task status
  loop _ h := h
  start addr stack prio _ h ht := h.taskStart hinit ht addr stack prio

theorem Stamped.taskExit (hF : Writable F) (h : Stamped F s) (ht : Tame s) (t : TaskId) :
    Returns (taskExit t s) (Stamped F) := by
  have hex : Stamped F (exitLists t s) := h.modTask t fun task => hF.status task .DIED
  unfold ThreadSched.taskExit
  show Returns (releaseTid _ (exitLists t s) >>= _) _
  rw [releaseTid_eq (ht.exitLists t).tid, ok_bind]
  exact Returns.ite (fun _ => Returns.ok hex) fun _ => Stamped.getNextTask hF hex

/-- What `init_task` writes and marking a task asleep keeps, holds in every run. -/
theorem allRuns_stamped (hF : Writable F) (hinit : ∀ main tid stack prio, F (initedTask main tid stack prio))
    (hmark : ∀ task milliseconds, milliseconds < 2 ^ 32 → F task →
      F { task with isCollaborativeSchedule := true, sleepMillisecond := milliseconds })
    (h : allRuns.Reach w) : Stamped F w.sched := by
  refine (allRuns.invariant (I := fun w => Stamped F w.sched ∧ Tame w.sched) ?_ ?_ h).1
  · intro w hw
    refine ⟨?_, (WorldInv.init hw).tame⟩
    obtain ⟨addr, stack, j, _, hstart⟩ := hw
    rw [start_eq] at hstart
    cases hstart
    intro t ht
    by_cases hta : t = addr
    · subst hta
      simpa [mainOnly, inited] using hinit _ _ _ _
    · simp [mainOnly, inited, Function.update_of_ne hta, tidPoolInit, boot] at ht
  · rintro w w' ⟨hs, ht⟩ ⟨a, ha, hact⟩
    refine ⟨(stamped_kept hF hinit).act hs ht a (fun milliseconds heq => ?_) (fun _ => hs.taskExit hF ht _)
      w' hact, ht.act a w' hact⟩
    subst heq
    exact hs.modTask w.sched.currentTask fun task => hmark task milliseconds ha.2

/-- Every allocated struct has the magic number. -/
abbrev Magic : Sched → Prop := Stamped fun task => task.stackMagic = stackMagic

theorem allRuns_managed (h : allRuns.Reach w) : Managed w := by
  refine allRuns.invariant (I := Managed) ?_ (fun w w' hw hstep => ?_) h
  · intro w hinit
    refine ⟨?_, (WorldInv.init hinit).exitFlag⟩
    obtain ⟨addr, stack, j, _, hstart⟩ := hinit
    rw [start_eq] at hstart
    cases hstart
    rfl
  · obtain ⟨a, _, hact⟩ := hstep
    exact hw.act a w' hact

/-- **In every run** the magic numbers are right and the timer manager is there. -/
theorem allRuns_magic (h : allRuns.Reach w) : Magic w.sched ∧ Managed w :=
  ⟨allRuns_stamped ⟨fun _ _ => id, fun _ _ => id, fun _ => id⟩ (fun _ _ _ _ => rfl) (fun _ _ _ => id) h,
    allRuns_managed h⟩

/-! ## The handler returns -/

/-- What the handler does when `run_timer` has left the scheduler as `m`: a task that has ticks left and
does not sleep loses one of them, any other gives way to the head of the ready list. -/
def Serves (m s' : Sched) : Prop :=
  if m.current.isCollaborativeSchedule = false ∧ m.current.ticks ≠ 0 then s' = m.countDown
  else ∃ u rest, (if m.current.isCollaborativeSchedule then m.taskReadyList
      else m.taskReadyList ++ [m.currentTask]) = u :: rest ∧
    s'.currentTask = u ∧ s'.taskReadyList = rest ∧ ∃ es, s'.log = m.log ++ es ++ [.dispatch u]

theorem schedule_serves (h : s.currentTask ∉ s.taskReadyList)
    (hflag : s.current.isCollaborativeSchedule = false) (hticks : s.current.ticks = 0) :
    ∃ s', schedule s = .ok s' ∧ Serves s s' := by
  obtain ⟨u, rest, hready⟩ := List.exists_cons_of_ne_nil
    (show s.taskReadyList ++ [s.currentTask] ≠ [] by simp)
  unfold schedule
  rw [assertThat_bind (by simpa [elemFind] using h)]
  simp only [listAppend, Sched.modTask, Sched.emit, hready, getNextTask, listPop]
  refine ⟨_, rfl, ?_⟩
  unfold Serves
  rw [if_neg (by simp [hticks])]
  exact ⟨u, rest, by simpa [hflag] using hready, rfl, rfl, [.ready s.currentTask .schedule], rfl⟩

theorem collaborativeSchedule_serves (h : s.taskReadyList ≠ [])
    (hflag : s.current.isCollaborativeSchedule = true) :
    ∃ s', collaborativeSchedule s = .ok s' ∧ Serves s s' := by
  obtain ⟨u, rest, hready⟩ := List.exists_cons_of_ne_nil h
  unfold collaborativeSchedule
  rw [if_neg h]
  unfold getNextTask
  simp only [hready, listPop]
  refine ⟨_, rfl, ?_⟩
  unfold Serves
  rw [if_neg (by simp [hflag])]
  exact ⟨u, rest, by simpa [hflag] using hready, rfl, rfl, [], by simp [Sched.emit, Sched.modTask]⟩

/-- **A call of the handler** in a run: once `run_timer` has returned, so does the call. -/
theorem handler_serves (hinv : WorldInv w) (hmagic : Magic w.sched) (hmanaged : Managed w)
    (hm : w.runTimer r = .ok m)
    (hready : m.sched.current.isCollaborativeSchedule = true → m.sched.taskReadyList ≠ []) :
    ∃ w', interruptTimerHandler r w = .ok w' ∧ Serves m.sched w'.sched := by
  have hadvance : w.advance r = .ok m := (hmanaged.advance r).trans hm
  have hminv : WorldInv m := hinv.advance r m hadvance
  have hmlive : m.freed = false :=
    (runTimer_tm (P := fun _ => True) (fun _ _ _ => trivial) trivial m hm).2.trans hmanaged.freed
  have hnumber : w.sched.current.stackMagic = stackMagic := by
    obtain ⟨pl, hf, hcur⟩ := hinv.running
    have halloc := (hf.fits w.sched.currentTask).allocated
    rw [hcur] at halloc
    exact hmagic _ halloc
  unfold interruptTimerHandler
  rw [assertThat_bind hnumber, hadvance, ok_bind]
  cases hflag : m.sched.current.isCollaborativeSchedule with
  | false =>
      by_cases hticks : m.sched.current.ticks = 0
      · obtain ⟨pl, hf, hcur⟩ := hminv.running
        obtain ⟨s', hs', hserves⟩ := schedule_serves (hf.current_not_ready hcur) hflag hticks
        rw [if_pos ⟨rfl, hticks⟩, hs']
        exact ⟨_, rfl, hserves⟩
      · rw [if_neg fun h => hticks h.2, if_pos rfl]
        refine ⟨_, rfl, ?_⟩
        unfold Serves
        rw [if_pos ⟨hflag, hticks⟩]
  | true =>
      rw [if_neg (by simp), if_neg (by simp), createTimer_eq hmlive hminv.tame.timer, ok_bind]
      obtain ⟨s', hs', hserves⟩ := collaborativeSchedule_serves (hready hflag) hflag
      show ∃ w', (collaborativeSchedule m.sched >>= _) = .ok w' ∧ _
      rw [hs']
      exact ⟨_, rfl, hserves⟩

/-- `run_timer` returns in each of the calls that are reached. -/
def TimersReturn : List Nat → World → Prop
  | [], _ => True
  | r :: rs, w => (∃ m, w.runTimer r = .ok m) ∧
    ∀ w', interruptTimerHandler r w = .ok w' → TimersReturn rs w'

/-- A call that returns has run the timers. -/
theorem exists_advance {w' : World} (h : interruptTimerHandler r w = .ok w') : ∃ v, w.advance r = .ok v := by
  unfold interruptTimerHandler assertThat at h
  cases hm : w.advance r with
  | ok m => exact ⟨m, rfl⟩
  | error e =>
      rw [hm] at h
      split at h <;> cases h

/-- A sequence of calls that returns has run the timers in each. -/
theorem timersReturn_of_run {u : World} {rs : List Nat} (h : Managed w) (hu : handlerRun rs w = .ok u) :
    TimersReturn rs w := by
  induction rs generalizing w with
  | nil => trivial
  | cons r rs ih =>
      unfold handlerRun at hu
      rw [List.foldlM_cons] at hu
      cases hv : interruptTimerHandler r w with
      | error e =>
          rw [hv] at hu
          cases hu
      | ok v =>
          rw [hv] at hu
          refine ⟨?_, fun v' hv' => ?_⟩
          · obtain ⟨m, hm⟩ := exists_advance hv
            exact ⟨m, (h.advance r).symm.trans hm⟩
          · cases hv.symm.trans hv'
            exact ih (h.act (.tick r) v hv) hu

end ThreadSched

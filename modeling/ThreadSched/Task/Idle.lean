import ThreadSched.Task.Events
import ThreadSched.Task.Partition

/-!
# When no task is ready

A task that exits or blocks with an empty ready list stays `current_task` in a `while(1)` loop, and
the clock interrupt treats it as a running task: it counts its time slice down and then puts it at
the end of the ready list.  A task that is to sleep with an empty ready list loops inside the
handler.

* `IdlePoint` — the current task has just exited or blocked and none was ready.
* `IdleOk` — what should hold for the handler calls that follow.
* `idle_never_ok` — it never does.
-/

set_option autoImplicit false

namespace ThreadSched

open Wheel (TimerManager)

/-! ## What should hold -/

/-- Handler calls with these clock readings. -/
def handlerRun (rs : List Nat) (w : World) : Except Fault World :=
  rs.foldlM (fun w r => interruptTimerHandler r w) w

/-- The event happened between `w` and `w'`. -/
def Happened (e : Event) (w w' : World) : Prop :=
  ∃ es, w'.sched.log = w.sched.log ++ es ∧ e ∈ es

/-- For the handler calls `rs` that follow `w`: each returns; `t` is put on the ready list only in the
ways that are allowed; and a task made ready by a callback while no other is ready is dispatched
within 256 further calls. -/
structure IdleOk (t : TaskId) (allowed : Via → Prop) (w : World) (rs : List Nat) : Prop where
  returns : ∃ w', handlerRun rs w = .ok w'
  stays : ∀ w', handlerRun rs w = .ok w' → ∀ via, Happened (.ready t via) w w' → allowed via
  dispatched : ∀ ps r qs, rs = ps ++ r :: qs → 256 ≤ qs.length → ∀ w₁ v w₂ u,
    handlerRun ps w = .ok w₁ → w₁.sched.taskReadyList = [] → w₁.advance r = .ok v →
    v.sched.taskReadyList = [u] → handlerRun (r :: qs.take 256) w₁ = .ok w₂ →
    Happened (.dispatch u) w₁ w₂

/-- The current task `t` of `w` exits, or blocks in `sema_down` or `ioq_wait`, while no task is
ready; `w'` is the state after that.  An exited task must not become ready again, a blocked one only
through `task_unblock`. -/
inductive IdlePoint (w w' : World) : TaskId → (Via → Prop) → Prop
  | exit : w.sched.conts w.sched.currentTask = [] → w.sched.taskReadyList = [] →
      w.act .taskExit = .ok w' → IdlePoint w w' w.sched.currentTask fun _ => False
  | semaDown (l : LockId) (rest : List Stmt) :
      w.sched.conts w.sched.currentTask = .semaDown l :: rest →
      (w.sched.locks l).semaphore.value = 0 → w.sched.taskReadyList = [] →
      w.act .resume = .ok w' → IdlePoint w w' w.sched.currentTask (· = .taskUnblock)
  | ioqWait (q : IoqId) (x : Waiter) (rest : List Stmt) :
      w.sched.conts w.sched.currentTask = .ioqWait q x :: rest → w.sched.taskReadyList = [] →
      w.act .resume = .ok w' → IdlePoint w w' w.sched.currentTask (· = .taskUnblock)

/-- The handler call at reading `r` is to put the current task of `w` to sleep while no task is
ready. -/
def IdleSleep (r : Nat) (w : World) : Prop :=
  ∃ v, w.advance r = .ok v ∧ v.sched.current.isCollaborativeSchedule = true ∧
    v.sched.taskReadyList = []

/-! ## A task that is marked spins -/

/-- A task that is marked asleep is in the loop of `sleep`. -/
def MarksSpin (s : Sched) : Prop :=
  ∀ t, s.marked t = true → (s.conts t).head? = some .sleepSpin

variable {s s' : Sched}

theorem MarksSpin.quiet {who : Option TaskId} (h : MarksSpin s) (hq : Quiet who s s')
    (hwho : ∀ c, who = some c → s.marked c = false) : MarksSpin s' := by
  intro t ht
  have hm := hq.marks t ht
  have hne : who ≠ some t := fun heq => by rw [hwho t heq] at hm; cases hm
  rw [hq.conts t hne ht]
  exact h t hm

theorem MarksSpin.called {node j : Nat} (h : MarksSpin s) (hc : Called node j s s') :
    MarksSpin s' := by
  intro t ht
  rw [hc.undisturbed.conts]
  exact h t (hc.marks t ht)

/-- The same for the handler before its switch; the lock operations are quiet. -/
theorem advance_invariant {I : Sched → Prop} (hI : ∀ n j s, I s → Returns (timerCall n j s) I)
    (hacq : ∀ s, I s → Returns (lockAcquireNow .timer s) I)
    (hrel : ∀ s, I s → Returns (lockRelease .timer s) I) (r : Nat) {w : World} (h : I w.sched) :
    Returns (w.advance r) fun v => I v.sched := by
  refine Returns.ite (fun _ => Returns.error) fun _ => Returns.ite (fun _ => ?_)
    fun _ => Returns.ok h
  refine (hacq _ h).bind fun s hs => ?_
  refine Returns.bind (runTimerLoop_invariant hI r _ (w := (w.tm, s)) hs) fun w' hw' => ?_
  exact (hrel _ hw').bind fun s' hs' => Returns.pure hs'

/-- What a callback and every quiet step keep, the whole handler keeps. -/
theorem handler_invariant {I : Sched → Prop} (hI : ∀ n j s, I s → Returns (timerCall n j s) I)
    (hq : ∀ s s', I s → Quiet none s s' → I s') (r : Nat) {w : World} (h : I w.sched) :
    Returns (interruptTimerHandler r w) fun w' => I w'.sched := by
  have hadvance := advance_invariant hI
    (fun s hs => (lockAcquireNow_quiet s .timer).imp fun _ => hq _ _ hs)
    (fun s hs => (lockRelease_quiet s .timer).imp fun _ => hq _ _ hs) r h
  refine returns_assertThat fun _ => hadvance.bind fun v hv => ?_
  refine Returns.ite (fun _ => ?_) fun _ => Returns.ite (fun _ => Returns.pure ?_) fun _ => ?_
  · exact (schedule_quiet v.sched).bind fun s hs => Returns.pure (hq _ _ hv hs)
  · exact hq _ _ hv (countDown_quiet v.sched)
  · refine Returns.bind (P := fun w' : World => I w'.sched) ?_ fun v' hv' =>
      (collaborativeSchedule_quiet v'.sched).bind fun s hs => Returns.pure (hq _ _ hv' hs)
    refine Returns.ite (fun _ => Returns.error) fun _ => ?_
    refine (lockAcquireNow_quiet v.sched .timer).bind fun s hs => ?_
    exact (lockRelease_quiet s .timer).bind fun s' hs' =>
      Returns.pure (hq _ _ (hq _ _ hv hs) hs')

theorem MarksSpin.handler (r : Nat) {w : World} (h : MarksSpin w.sched) :
    Returns (interruptTimerHandler r w) fun w' => MarksSpin w'.sched :=
  handler_invariant (fun n j s hs => (timerCall_called s n j).imp fun _ hc => hs.called hc)
    (fun _ _ hs hq => hs.quiet hq nofun) r h

theorem MarksSpin.act {w : World} (h : MarksSpin w.sched) {a : Action} (ha : a.enabled w) :
    Returns (w.act a) fun w' => MarksSpin w'.sched := by
  have hother : w.sched.marked w.sched.currentTask = false → (∀ m, a ≠ .sleep m) →
      Returns (schedAction w.sched a >>= fun s => pure { w with sched := s })
        fun w' : World => MarksSpin w'.sched := fun hm hsleep =>
    (schedAction_quiet w.sched hsleep).bind fun s hs => Returns.pure
      (h.quiet hs fun c hc => by cases hc; exact hm)
  have hidle : w.sched.conts w.sched.currentTask = [] → w.sched.marked w.sched.currentTask = false :=
    fun hc => by
      by_contra hm
      have := h w.sched.currentTask (by simpa using hm)
      rw [hc] at this
      cases this
  cases a with
  | tick r => exact h.handler r
  | sleep m =>
      refine Returns.pure fun t ht => ?_
      by_cases htc : t = w.sched.currentTask
      · subst htc
        simp [markAsleep, Sched.push, Sched.modTask]
      · simp only [markAsleep, Sched.push, Sched.modTask, Function.update_of_ne htc]
        exact h t (by simpa [Sched.marked, markAsleep, Sched.push, Sched.modTask,
          Function.update_of_ne htc] using ht)
  | resume =>
      by_cases hm : w.sched.marked w.sched.currentTask = true
      · have hhead := h _ hm
        obtain ⟨rest, hrest⟩ : ∃ rest, w.sched.conts w.sched.currentTask = .sleepSpin :: rest := by
          cases hc : w.sched.conts w.sched.currentTask with
          | nil => rw [hc] at hhead; cases hhead
          | cons st rest =>
              rw [hc] at hhead
              cases hhead
              exact ⟨rest, rfl⟩
        refine Returns.bind (P := MarksSpin) ?_ fun s hs => Returns.pure hs
        unfold schedAction runStmt
        rw [hrest]
        refine Returns.ite (fun _ => Returns.pure fun t ht => ?_) fun hne => absurd hm hne
        by_cases htc : t = w.sched.currentTask
        · subst htc
          simp [Sched.push]
        · simp only [Sched.push, Function.update_of_ne htc]
          exact h t ht
      · exact hother (by simpa using hm) (by simp)
  | taskStart addr stack prio => exact hother (hidle ha.1) (by simp)
  | taskExit => exact hother (hidle ha) (by simp)
  | lockAcquire l => exact hother (hidle ha) (by simp)
  | lockRelease l => exact hother (hidle ha) (by simp)
  | ioqGetchar q => exact hother (hidle ha) (by simp)
  | ioqPutchar q byte => exact hother (hidle ha) (by simp)

/-- What holds in every run, whatever has gone wrong before. -/
theorem allRuns_tame_marksSpin {w : World} (h : allRuns.Reach w) :
    Tame w.sched ∧ MarksSpin w.sched := by
  refine allRuns.invariant (I := fun w => Tame w.sched ∧ MarksSpin w.sched) ?_ ?_ h
  · intro w hinit
    refine ⟨(WorldInv.init hinit).tame, fun t ht => ?_⟩
    obtain ⟨addr, stack, j, _, hw⟩ := hinit
    rw [start_eq] at hw
    cases hw
    exfalso
    by_cases hta : t = addr
    · subst hta
      simp [Sched.marked, mainOnly, inited, initedTask, initFields] at ht
    · simp [Sched.marked, mainOnly, inited, hta, tidPoolInit, boot, TaskStruct.zero] at ht
  · rintro w w' ⟨htame, hmarks⟩ ⟨a, ha, hact⟩
    exact ⟨htame.act a w' hact, hmarks.act ha w' hact⟩

/-! ## The handler while a task waits in `while(1)` -/

/-- From `s` to `s'` the log has grown. -/
def Grown (s s' : Sched) : Prop := ∃ es, s'.log = s.log ++ es

theorem Grown.trans {s s' s'' : Sched} (h : Grown s s') (h' : Grown s' s'') : Grown s s'' := by
  obtain ⟨es, he⟩ := h
  obtain ⟨es', he'⟩ := h'
  exact ⟨es ++ es', by rw [he', he, List.append_assoc]⟩

theorem Quiet.grown {who : Option TaskId} (h : Quiet who s s') : Grown s s' :=
  h.log.imp fun _ => And.left

theorem Called.grown {node j : Nat} (h : Called node j s s') : Grown s s' :=
  h.log.imp fun _ => And.left

/-- `t` was put on the ready list, not by `task_unblock`. -/
def WronglyReady (t : TaskId) (s s' : Sched) : Prop :=
  ∃ es via, s'.log = s.log ++ es ∧ .ready t via ∈ es ∧ via ≠ .taskUnblock

theorem WronglyReady.grown {t : TaskId} {s s' s'' : Sched} (h : WronglyReady t s s')
    (hg : Grown s' s'') : WronglyReady t s s'' := by
  obtain ⟨es, via, he, hm, hvia⟩ := h
  obtain ⟨es', he'⟩ := hg
  exact ⟨es ++ es', via, by rw [he', he, List.append_assoc], List.mem_append_left _ hm, hvia⟩

theorem Grown.wronglyReady {t : TaskId} {s s' s'' : Sched} (hg : Grown s s')
    (h : WronglyReady t s' s'') : WronglyReady t s s'' := by
  obtain ⟨es', he'⟩ := hg
  obtain ⟨es, via, he, hm, hvia⟩ := h
  exact ⟨es' ++ es, via, by rw [he, he', List.append_assoc], List.mem_append_right _ hm, hvia⟩

/-- The current task `t` waits, not marked asleep, with a time slice of at most `k`. -/
structure Waiting (t : TaskId) (k : Nat) (s : Sched) : Prop where
  current : s.currentTask = t
  unmarked : s.marked t = false
  ticks : (s.tasks t).ticks ≤ k

/-- Since `s₀`, `t` was put on the ready list wrongly, or still waits. -/
def WaitingSince (s₀ : Sched) (t : TaskId) (k : Nat) (s : Sched) : Prop :=
  Grown s₀ s ∧ (WronglyReady t s₀ s ∨ Waiting t k s)

theorem WaitingSince.called {s₀ : Sched} {t : TaskId} {k : Nat} (h : WaitingSince s₀ t k s)
    (n : Wheel.TimerNode TimerFn) (j : Nat) :
    Returns (timerCall n j s) (WaitingSince s₀ t k) := by
  obtain ⟨hg, hw⟩ := h
  have hcalled := timerCall_called s n j
  rcases hw with hw | hw
  · exact hcalled.imp fun s' hc => ⟨hg.trans hc.grown, Or.inl (hw.grown hc.grown)⟩
  · unfold timerCall at hcalled ⊢
    cases hn : n.timer with
    | collaborativeScheduleHelper u =>
        rw [hn] at hcalled
        refine returns_assertThat fun _ => Returns.pure ⟨hg.trans ⟨[_], rfl⟩, ?_⟩
        by_cases hut : u = t
        · subst hut
          refine Or.inl (hg.wronglyReady ⟨[_], _, rfl, List.mem_singleton.2 rfl, nofun⟩)
        · refine Or.inr ⟨hw.current, ?_, ?_⟩
          · have := hw.unmarked
            simpa [Sched.marked, Sched.modTask, Sched.emit, Function.update_of_ne (Ne.symm hut)] using this
          · have := hw.ticks
            simpa [Sched.modTask, Sched.emit, Function.update_of_ne (Ne.symm hut)] using this
    | cleanDeadTask =>
        rw [hn] at hcalled
        refine (cleanDeadTask_freed s).imp ?_
        rintro s' ⟨pool, stackMem, structMem, rfl⟩
        exact ⟨hg, Or.inr ⟨hw.current, hw.unmarked, hw.ticks⟩⟩

theorem WaitingSince.kept {s₀ : Sched} {t : TaskId} {k : Nat} (h : WaitingSince s₀ t k s)
    (hq : Quiet none s s') (hk : KeepsSlice s s') : WaitingSince s₀ t k s' := by
  obtain ⟨hg, hw⟩ := h
  refine ⟨hg.trans hq.grown, hw.imp (fun hw => hw.grown hq.grown) fun hw => ⟨?_, ?_, ?_⟩⟩
  · exact hk.current.trans hw.current
  · cases hm : s'.marked t with
    | false => rfl
    | true => exact (hq.marks t hm).symm.trans hw.unmarked
  · rw [hk.ticks]; exact hw.ticks

/-- What the timers leave of a waiting task. -/
theorem WaitingSince.advance {s₀ : Sched} {t : TaskId} {k : Nat} (r : Nat) {w : World}
    (h : WaitingSince s₀ t k w.sched) :
    Returns (w.advance r) fun v => WaitingSince s₀ t k v.sched :=
  advance_invariant (fun n j _ hs => hs.called n j)
    (fun s hs => ((lockAcquireNow_quiet s .timer).and (lockAcquireNow_slice s .timer)).imp
      fun _ h => hs.kept h.1 h.2)
    (fun s hs => ((lockRelease_quiet s .timer).and (lockRelease_slice s .timer)).imp
      fun _ h => hs.kept h.1 h.2) r h

theorem handler_grown (r : Nat) (w : World) :
    Returns (interruptTimerHandler r w) fun w' => Grown w.sched w'.sched :=
  handler_invariant (I := Grown w.sched)
    (fun n j s hs => (timerCall_called s n j).imp fun _ hc => hs.trans hc.grown)
    (fun _ _ hs hq => hs.trans hq.grown) r ⟨[], (List.append_nil _).symm⟩

theorem WronglyReady.handler {s₀ : Sched} {t : TaskId} (r : Nat) {w : World}
    (h : WronglyReady t s₀ w.sched) :
    Returns (interruptTimerHandler r w) fun w' => WronglyReady t s₀ w'.sched :=
  (handler_grown r w).imp fun _ hg => h.grown hg

/-- A switch puts the current task on the ready list. -/
theorem schedule_wronglyReady (s : Sched) :
    Returns (schedule s) (WronglyReady s.currentTask s) := by
  refine returns_assertThat fun _ => Returns.ite (fun _ => Returns.error) fun _ => ?_
  refine (getNextTask_quiet _).imp fun s' hs' => ?_
  obtain ⟨es, he⟩ := hs'.grown
  exact ⟨.ready s.currentTask .schedule :: es, .schedule,
    by rw [he]; simp [Sched.emit, Sched.modTask], List.mem_cons_self, nofun⟩

/-- **One handler call while `t` waits**: its time slice gets shorter, or it is put on the ready
list. -/
theorem WaitingSince.handler {s₀ : Sched} {t : TaskId} {k : Nat} (r : Nat) {w : World}
    (h : WaitingSince s₀ t k w.sched) : Returns (interruptTimerHandler r w) fun w' =>
      WronglyReady t s₀ w'.sched ∨ 0 < k ∧ WaitingSince s₀ t (k - 1) w'.sched := by
  obtain ⟨hg, hw | hw⟩ := h
  · exact (hw.handler r).imp fun _ => Or.inl
  · have hquiet : ∀ v : World, WronglyReady t s₀ v.sched → ∀ s', Quiet none v.sched s' →
        WronglyReady t s₀ s' := fun v hv s' hs' => hv.grown hs'.grown
    refine returns_assertThat fun _ => (WaitingSince.advance r ⟨hg, Or.inr hw⟩).bind ?_
    rintro v ⟨hgv, hv⟩
    refine Returns.ite (fun hz => ?_) fun hz => Returns.ite (fun hflag => Returns.pure ?_) fun hflag => ?_
    · refine ((schedule_wronglyReady v.sched).and (schedule_quiet v.sched)).bind ?_
      rintro s' ⟨hs', hq⟩
      refine Returns.pure (Or.inl (hv.elim (fun hv => hquiet v hv s' hq) fun hv => ?_))
      rw [hv.current] at hs'
      exact hgv.wronglyReady hs'
    · rcases hv with hv | hv
      · exact Or.inl (hquiet v hv _ (countDown_quiet v.sched))
      · have hpos : (v.sched.tasks t).ticks ≠ 0 := fun h0 => hz ⟨hflag, by
          rw [Sched.current, hv.current]; exact h0⟩
        have hle := hv.ticks
        refine Or.inr ⟨by omega, hgv.trans ⟨[], (List.append_nil _).symm⟩, Or.inr ⟨hv.current, ?_, ?_⟩⟩
        · have := hv.unmarked
          simpa [Sched.marked, Sched.countDown, Sched.modTask, hv.current] using this
        · simp only [Sched.countDown, Sched.modTask, hv.current, Function.update_self, u8]
          omega
    · refine Returns.bind (P := fun w' : World => WronglyReady t s₀ w'.sched) ?_ fun w' hw' =>
        (collaborativeSchedule_quiet w'.sched).bind fun s' hs' =>
          Returns.pure (Or.inl (hquiet w' hw' s' hs'))
      rcases hv with hv | hv
      · refine Returns.ite (fun _ => Returns.error) fun _ => ?_
        refine (lockAcquireNow_quiet v.sched .timer).bind fun s hs => ?_
        exact (lockRelease_quiet s .timer).bind fun s' hs' =>
          Returns.pure ((hv.grown hs.grown).grown hs'.grown)
      · have := hv.unmarked
        rw [← hv.current] at this
        exact absurd this hflag

theorem WronglyReady.run {s₀ : Sched} {t : TaskId} (rs : List Nat) {w : World}
    (h : WronglyReady t s₀ w.sched) :
    Returns (handlerRun rs w) fun w' => WronglyReady t s₀ w'.sched := by
  unfold handlerRun
  exact Returns.foldlM (I := fun (_ : List Nat) (w : World) => WronglyReady t s₀ w.sched)
    (fun r _ _ hw => hw.handler r) rs w h

/-- **More handler calls than the time slice has ticks** put the waiting task on the ready list. -/
theorem WaitingSince.run {s₀ : Sched} {t : TaskId} (rs : List Nat) {k : Nat} {w : World}
    (h : WaitingSince s₀ t k w.sched) (hk : k < rs.length) :
    Returns (handlerRun rs w) fun w' => WronglyReady t s₀ w'.sched := by
  induction rs generalizing k w with
  | nil => exact absurd hk (Nat.not_lt_zero _)
  | cons r rs ih =>
      show Returns (interruptTimerHandler r w >>= handlerRun rs) _
      refine (h.handler r).bind fun w' hw' => ?_
      rcases hw' with hw' | ⟨hpos, hw'⟩
      · exact hw'.run rs
      · refine ih hw' ?_
        rw [List.length_cons] at hk
        omega

/-! ## The four idle branches -/

theorem diedTaskSchedule_idle (h : s.taskReadyList = []) :
    diedTaskSchedule s = .ok (s.push s.currentTask [.loop]) := if_pos h

theorem taskBlock_idle (h : s.taskReadyList = []) (status : TaskStatus) :
    Returns (taskBlock status s) fun s' => s'.currentTask = s.currentTask :=
  returns_assertThat fun _ => Returns.ite (fun _ => Returns.ok rfl) fun hne => absurd h hne

theorem taskExit_idle (ht : Tame s) (h : s.taskReadyList = []) :
    taskExit s.currentTask s = .ok
      (((exitLists s.currentTask s).setTidBit ((s.tasks s.currentTask).tid - s.tidPool.tidStart)
        false).emit (.exit s.currentTask) |>.push s.currentTask [.loop]) := by
  have htid : ((exitLists s.currentTask s).tasks s.currentTask).tid = (s.tasks s.currentTask).tid := by
    simp [exitLists, Sched.modTask]
  have hready : (exitLists s.currentTask s).taskReadyList = [] := by
    simp [exitLists, elemFind, h]
  unfold taskExit
  show (releaseTid ((exitLists s.currentTask s).tasks s.currentTask).tid _ >>= _) = _
  rw [htid, releaseTid_eq (s := exitLists s.currentTask s) ht.tid, ok_bind]
  exact diedTaskSchedule_idle hready

/-- The handler loops when it has nobody to run. -/
theorem idleSleep_hangs {r : Nat} {w : World} (h : Tame w.sched) (hs : IdleSleep r w) (w' : World) :
    interruptTimerHandler r w ≠ .ok w' := by
  obtain ⟨v, hv, hflag, hready⟩ := hs
  have htame : Tame v.sched := h.advance r v hv
  have hne : Returns (interruptTimerHandler r w) fun _ => False := by
    refine returns_assertThat fun _ => ?_
    rw [hv, ok_bind, if_neg (by simp [hflag]), if_neg (by simp [hflag])]
    refine returns_createTimer htame.timer ?_
    refine Returns.bind (P := fun _ => False) ?_ fun _ hf => hf.elim
    unfold collaborativeSchedule
    rw [if_pos hready]
    exact Returns.error
  exact fun heq => hne w' heq

namespace IdlePoint

variable {w w' : World} {t : TaskId} {allowed : Via → Prop}

/-- Only `task_unblock` can be allowed. -/
theorem allowed_eq (h : IdlePoint w w' t allowed) {via : Via} (hvia : allowed via) :
    via = .taskUnblock := by
  cases h with
  | exit _ _ _ => exact hvia.elim
  | semaDown _ _ _ _ _ _ => exact hvia
  | ioqWait _ _ _ _ _ _ => exact hvia

/-- The task is not marked asleep: it is not in the loop of `sleep`. -/
theorem unmarked (h : IdlePoint w w' t allowed) (hm : MarksSpin w.sched) :
    w.sched.marked t = false := by
  cases hmt : w.sched.marked t with
  | false => rfl
  | true =>
      have hhead := hm t hmt
      cases h with
      | exit hc _ _ => rw [hc] at hhead; cases hhead
      | semaDown l rest hc _ _ _ => rw [hc] at hhead; cases hhead
      | ioqWait q x rest hc _ _ => rw [hc] at hhead; cases hhead

/-- The task that has exited or blocked stays the current one. -/
theorem stays_current (h : IdlePoint w w' t allowed) (htame : Tame w.sched) :
    w'.sched.currentTask = t := by
  cases h with
  | exit hc hr hact =>
      have hact' : (taskExit w.sched.currentTask w.sched >>= fun s => pure { w with sched := s }) =
          .ok w' := hact
      rw [taskExit_idle htame hr] at hact'
      cases hact'
      rfl
  | semaDown l rest hc hval hr hact =>
      have hrun : Returns (w.act .resume) fun w' => w'.sched.currentTask = w.sched.currentTask := by
        refine Returns.bind (P := fun s => s.currentTask = w.sched.currentTask) ?_
          fun s hs => Returns.pure hs
        unfold schedAction runStmt
        rw [hc]
        refine Returns.ite (fun _ => returns_assertThat fun _ => ?_) fun hne => absurd hval hne
        exact (taskBlock_idle (by exact hr) .BLOCKED).imp fun _ hs => hs
      exact hrun w' hact
  | ioqWait q x rest hc hr hact =>
      have hrun : Returns (w.act .resume) fun w' => w'.sched.currentTask = w.sched.currentTask := by
        refine Returns.bind (P := fun s => s.currentTask = w.sched.currentTask) ?_
          fun s hs => Returns.pure hs
        unfold schedAction runStmt
        rw [hc]
        refine returns_assertThat fun _ => ?_
        exact (taskBlock_idle (by exact hr) .BLOCKED).imp fun _ hs => hs
      exact hrun w' hact

/-- The task waits, with the time slice it has left. -/
theorem waiting (h : IdlePoint w w' t allowed) (htame : Tame w.sched) (hm : MarksSpin w.sched) :
    Waiting t (w'.sched.tasks t).ticks w'.sched := by
  refine ⟨h.stays_current htame, ?_, Nat.le_refl _⟩
  have hquiet : Quiet (some w.sched.currentTask) w.sched w'.sched := by
    have hact : ∀ a : Action, (∀ m, a ≠ .sleep m) → (∀ r, a ≠ .tick r) → w.act a = .ok w' →
        Quiet (some w.sched.currentTask) w.sched w'.sched := by
      intro a hsleep htick hact
      have hrun : Returns (schedAction w.sched a >>= fun s => pure { w with sched := s })
          fun w' : World => Quiet (some w.sched.currentTask) w.sched w'.sched :=
        (schedAction_quiet w.sched hsleep).bind fun s hs => Returns.pure hs
      cases a with
      | tick r => exact absurd rfl (htick r)
      | _ => exact hrun w' hact
    cases h with
    | exit _ _ h => exact hact .taskExit nofun nofun h
    | semaDown _ _ _ _ _ h => exact hact .resume nofun nofun h
    | ioqWait _ _ _ _ _ h => exact hact .resume nofun nofun h
  cases hmt : w'.sched.marked t with
  | false => rfl
  | true => exact (hquiet.marks t hmt).symm.trans (h.unmarked hm)

/-- **After more handler calls than the time slice has ticks** something has gone wrong. -/
theorem not_ok (h : IdlePoint w w' t allowed) (htame : Tame w.sched) (hm : MarksSpin w.sched)
    (rs : List Nat) (hrs : (w'.sched.tasks t).ticks < rs.length) : ¬ IdleOk t allowed w' rs := by
  intro hok
  obtain ⟨w'', hrun⟩ := hok.returns
  have hsince : WaitingSince w'.sched t (w'.sched.tasks t).ticks w'.sched :=
    ⟨⟨[], (List.append_nil _).symm⟩, Or.inr (h.waiting htame hm)⟩
  obtain ⟨es, via, hes, hmem, hvia⟩ := hsince.run rs hrs w'' hrun
  exact hvia (h.allowed_eq (hok.stays w'' hrun via ⟨es, hes, hmem⟩))

end IdlePoint

/-- **The idle branches never do what they should.**  After the current task has exited or blocked
with no task ready, any sequence of more handler calls than that task's time slice has ticks breaks
what should hold; and a handler call that is to put a task to sleep then does not return. -/
theorem idle_never_ok {w : World} (h : allRuns.Reach w) :
    (∀ w' t allowed, IdlePoint w w' t allowed → ∀ rs, (w'.sched.tasks t).ticks < rs.length →
      ¬ IdleOk t allowed w' rs) ∧
    ∀ r, IdleSleep r w → ∀ w', interruptTimerHandler r w ≠ .ok w' :=
  ⟨fun _ _ _ hidle rs hrs => hidle.not_ok (allRuns_tame_marksSpin h).1
      (allRuns_tame_marksSpin h).2 rs hrs,
    fun _ hs w' => idleSleep_hangs (allRuns_tame_marksSpin h).1 hs w'⟩

/-- The main task exits right after the start. -/
theorem start_exit_idle : ∃ w w', allRuns.Reach w ∧ (w'.sched.tasks 1).ticks = 3 ∧
    IdlePoint w w' 1 fun _ => False := by
  obtain ⟨w, hw, hs⟩ : ∃ w, start 1 2 0 = .ok w ∧ w.sched = mainOnly 1 2 := ⟨_, start_eq 1 2 0, rfl⟩
  have hinit : World.Init w := ⟨1, 2, 0, by norm_num, hw⟩
  have hcur : w.sched.currentTask = 1 := by rw [hs]; exact currentTask_mainOnly 1 2
  have hready : w.sched.taskReadyList = [] := by rw [hs]; rfl
  have hconts : w.sched.conts w.sched.currentTask = [] := by rw [hs]; rfl
  have hexit := taskExit_idle (WorldInv.init hinit).tame hready
  obtain ⟨w', hact, hs'⟩ : ∃ w', w.act .taskExit = .ok w' ∧
      .ok w'.sched = taskExit w.sched.currentTask w.sched := by
    rw [hexit]
    refine ⟨{ w with sched := _ }, ?_, rfl⟩
    show (taskExit w.sched.currentTask w.sched >>= _) = _
    rw [hexit]
    rfl
  have hticks : (w'.sched.tasks 1).ticks = 3 := by
    rw [Except.ok.inj (hs'.trans hexit), hs]
    simp [Sched.push, Sched.emit, Sched.setTidBit, exitLists, Sched.modTask, mainOnly, inited,
      initedTask, initFields, u8]
  have hidle := IdlePoint.exit hconts hready hact
  rw [hcur] at hidle
  exact ⟨w, w', .init hinit, hticks, hidle⟩

/-- Four handler calls after the main task has exited. -/
theorem idle_never_ok_start : ∃ w w', IdlePoint w w' 1 (fun _ => False) ∧
    ¬ IdleOk 1 (fun _ => False) w' [0, 1, 2, 3] := by
  obtain ⟨w, w', hreach, hticks, hidle⟩ := start_exit_idle
  exact ⟨w, w', hidle, (idle_never_ok hreach).1 w' 1 _ hidle [0, 1, 2, 3] (by rw [hticks]; decide)⟩

/-- The claim fails there. -/
theorem idle_start_not_ok : ∃ w w', allRuns.Reach w ∧ IdlePoint w w' 1 (fun _ => False) ∧
    ¬ ∀ rs, IdleOk 1 (fun _ => False) w' rs := by
  obtain ⟨w, w', hreach, hticks, hidle⟩ := start_exit_idle
  obtain ⟨htame, hmarks⟩ := allRuns_tame_marksSpin hreach
  exact ⟨w, w', hreach, hidle, fun hok =>
    hidle.not_ok htame hmarks [0, 1, 2, 3] (by rw [hticks]; decide) (hok _)⟩

end ThreadSched

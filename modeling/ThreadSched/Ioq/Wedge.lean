import ThreadSched.Ioq.Apart
import ThreadSched.Task.Primitive

/-!
# When the ring buffer wedges (`device/ioqueue.c`)

One producer and one consumer use the queue; tasks are switched only where a call blocks.  A task waits
with the lock of the queue held, so the other one must not come to wait meanwhile.

* `QueueOk` — the two are not both blocked, a waiter has a reason to wait, and no assertion fails.
* `queueRuns` — the runs; `freeRuns` — those in which a task that goes to wait finds the lock free.
* `QueueInv` — the invariant of `freeRuns`: where each of the two is in its call.
* `freeRuns_queueOk` — the result.
-/

set_option autoImplicit false

namespace ThreadSched

/-- The other waiter field. -/
def Waiter.other : Waiter → Waiter
  | .producer => .consumer
  | .consumer => .producer

/-- The call that waits in this field. -/
def Waiter.call (q : IoqId) (byte : BitVec 8) : Waiter → Stmt
  | .producer => .ioqPutchar q byte
  | .consumer => .ioqGetchar q

/-- What it waits because of. -/
def Waiter.blocks (ioq : Ioqueue) : Waiter → Prop
  | .producer => ioqFull ioq
  | .consumer => ioqEmpty ioq

/-- `t` is registered in the queue or waits for its lock. -/
def BlockedIn (q : IoqId) (t : TaskId) (s : Sched) : Prop :=
  (∃ w, (s.ioqs q).waiter w = some t) ∨ t ∈ (s.locks (.ioq q)).semaphore.waiters

/-- What the queue promises to its producer and consumer, `task .producer` and `task .consumer`. -/
structure QueueOk (q : IoqId) (task : Waiter → TaskId) (s : Sched) : Prop where
  notBoth : ¬ (BlockedIn q (task .producer) s ∧ BlockedIn q (task .consumer) s)
  waits : ∀ w t, (s.ioqs q).waiter w = some t → w.blocks (s.ioqs q)
  asserts : ∀ st, (s.conts s.currentTask).head? = some st → Touches q st →
    runStmt s ≠ some (.error .assertion)

/-- The runs without clock interrupts in which only the producer calls `ioq_putchar` of `q` and only the
consumer `ioq_getchar`. -/
def queueRuns (q : IoqId) (task : Waiter → TaskId) : Trans.Sys World where
  init := World.Init
  step w w' := ∃ a : Action, a.enabled w ∧ (∀ r, a ≠ .tick r) ∧
    (∀ byte, a = .ioqPutchar q byte → w.sched.currentTask = task .producer) ∧
    (a = .ioqGetchar q → w.sched.currentTask = task .consumer) ∧ w.act a = .ok w'

/-- The next statement does not find the lock of the queue held when it is to take it. -/
def FindsFree (q : IoqId) (s : Sched) : Prop :=
  (s.conts s.currentTask).head? = some (.lockAcquire (.ioq q)) → (s.locks (.ioq q)).holder = none

/-- The runs in which no call that finds the queue full or empty finds its lock held. -/
def freeRuns (q : IoqId) (task : Waiter → TaskId) : Trans.Sys World where
  init := World.Init
  step w w' := (queueRuns q task).step w w' ∧ FindsFree q w.sched

/-! ## Where a task is in its call -/

/-- The stations of a call. -/
inductive Phase
  | out | calling | acquiring | down | acquired | waiting | registered | leaving
  deriving DecidableEq

namespace Phase

/-- What is left of the call. -/
def left (q : IoqId) (w : Waiter) (byte : BitVec 8) : Phase → List Stmt
  | .out => []
  | .calling => [w.call q byte]
  | .acquiring => [.lockAcquire (.ioq q), .ioqWait q w, .lockRelease (.ioq q), w.call q byte]
  | .down => [.semaDown (.ioq q), .lockAcquired (.ioq q), .ioqWait q w, .lockRelease (.ioq q),
      w.call q byte]
  | .acquired => [.lockAcquired (.ioq q), .ioqWait q w, .lockRelease (.ioq q), w.call q byte]
  | .waiting => [.ioqWait q w, .lockRelease (.ioq q), w.call q byte]
  | .registered | .leaving => [.lockRelease (.ioq q), w.call q byte]

/-- The task runs; it is switched away from at no other station than these. -/
def running : Phase → Bool
  | .out | .registered | .leaving => false
  | _ => true

/-- The task has found the queue full or empty and not seen it change. -/
def seesBlocked : Phase → Bool
  | .acquiring | .down | .acquired | .waiting | .registered => true
  | _ => false

/-- The lock, where the station tells. -/
def lock (t : TaskId) : Phase → Option Lock
  | .down => some lockInit
  | .acquired => some ⟨none, ⟨0, []⟩, 0⟩
  | .waiting | .registered | .leaving => some (heldBy t)
  | _ => none

end Phase

/-- The task `t`, which waits in the field `w`, is at station `x`. -/
structure At (q : IoqId) (w : Waiter) (t : TaskId) (s : Sched) (x : Phase) : Prop where
  slot : (s.ioqs q).waiter w = if x = .registered then some t else none
  blocks : x.seesBlocked = true → w.blocks (s.ioqs q)
  lock : ∀ lock, x.lock t = some lock → s.locks (.ioq q) = lock
  current : x.running = true → t = s.currentTask
  out : x = .out → ∀ st ∈ s.conts t, ¬ Touches q st
  conts : x ≠ .out → s.allocated t = true ∧ ∃ byte, s.conts t = x.left q w byte ∨
    x = .registered ∧ t = s.currentTask ∧ s.conts t = .loop :: x.left q w byte

/-- **The invariant**: each of the two is at a station, the lock is free when neither says otherwise,
and nobody else touches the queue. -/
structure QueueInv (q : IoqId) (task : Waiter → TaskId) (s : Sched) : Prop where
  stations : ∃ x : Waiter → Phase, (∀ w, At q w (task w) s (x w)) ∧
    ((∀ w, (x w).lock (task w) = none) → s.locks (.ioq q) = lockInit)
  others : ∀ t, (∀ w, t ≠ task w) → ∀ st ∈ s.conts t, ¬ Touches q st

section invariant

variable {q : IoqId} {task : Waiter → TaskId} {s s' : Sched} {w : Waiter} {t : TaskId} {x y : Phase}

theorem Waiter.eq_or_other (v w : Waiter) : v = w ∨ v = w.other := by
  cases v <;> cases w <;> simp [Waiter.other]

theorem Waiter.other_ne (w : Waiter) : w.other ≠ w := by
  cases w <;> simp [Waiter.other]

/-- The two stations after a step, one for each. -/
theorem QueueInv.of (hself : At q w (task w) s x) (hother : At q w.other (task w.other) s y)
    (hlock : x.lock (task w) = none → y.lock (task w.other) = none → s.locks (.ioq q) = lockInit)
    (hothers : ∀ t, (∀ w, t ≠ task w) → ∀ st ∈ s.conts t, ¬ Touches q st) : QueueInv q task s := by
  refine ⟨⟨fun v => if v = w then x else y, ?_, ?_⟩, hothers⟩
  · intro v
    rcases Waiter.eq_or_other v w with rfl | rfl
    · simpa using hself
    · simpa [Waiter.other_ne] using hother
  · intro hnone
    apply hlock
    · simpa using hnone w
    · simpa [Waiter.other_ne] using hnone w.other

/-- A task that does not run stays where it is, as long as the queue and its lock do. -/
theorem At.frame (h : At q w t s x) (hx : x.running = false) (hne : t ≠ s.currentTask)
    (hslot : (s'.ioqs q).waiter w = (s.ioqs q).waiter w)
    (hblocks : x.seesBlocked = true → w.blocks (s'.ioqs q))
    (hlock : x.lock t = none ∨ s'.locks (.ioq q) = s.locks (.ioq q))
    (hconts : s'.conts t = s.conts t ∨ s.allocated t = false ∧ s'.conts t = [])
    (halloc : s.allocated t = true → s'.allocated t = true) : At q w t s' x := by
  constructor
  · rw [hslot]
    exact h.slot
  · exact hblocks
  · intro lock hl
    rcases hlock with hnone | heq
    · rw [hnone] at hl
      cases hl
    · rw [heq]
      exact h.lock lock hl
  · intro hrun
    rw [hx] at hrun
    cases hrun
  · intro hout st hst
    rcases hconts with heq | ⟨_, hnil⟩
    · rw [heq] at hst
      exact h.out hout st hst
    · rw [hnil] at hst
      cases hst
  · intro hout
    obtain ⟨hall, byte, hleft | ⟨_, hcur, _⟩⟩ := h.conts hout
    · rcases hconts with heq | ⟨hnew, _⟩
      · exact ⟨halloc hall, byte, Or.inl (heq.trans hleft)⟩
      · rw [hnew] at hall
        cases hall
    · exact absurd hcur hne

/-! ## Actions that do not touch the queue -/

/-- The head of what is left of a call touches the queue. -/
theorem Phase.left_touches (hx : x ≠ .out) (byte : BitVec 8) :
    ∃ st rest, x.left q w byte = st :: rest ∧ Touches q st := by
  cases x with
  | out => exact absurd rfl hx
  | calling => cases w <;> exact ⟨_, _, rfl, rfl⟩
  | acquiring => exact ⟨_, _, rfl, rfl⟩
  | down => exact ⟨_, _, rfl, rfl⟩
  | acquired => exact ⟨_, _, rfl, rfl⟩
  | waiting => exact ⟨_, _, rfl, rfl⟩
  | registered => exact ⟨_, _, rfl, rfl⟩
  | leaving => exact ⟨_, _, rfl, rfl⟩

/-- A task whose next statement does not touch the queue is in no call of it. -/
theorem At.out_of_apart (h : At q w t s x) (ht : t = s.currentTask) (hloop : ¬ s.Looping)
    (hnext : ∀ st, (s.conts s.currentTask).head? = some st → ¬ Touches q st) : x = .out := by
  by_contra hx
  obtain ⟨_, byte, hleft | ⟨_, _, hleft⟩⟩ := h.conts hx
  · obtain ⟨st, rest, heq, htouch⟩ := Phase.left_touches (q := q) (w := w) hx byte
    apply hnext st _ htouch
    rw [← ht, hleft, heq]
    rfl
  · apply hloop
    unfold Sched.Looping
    rw [← ht, hleft]
    rfl

/-- **An action that does not touch the queue** keeps the invariant. -/
theorem QueueInv.apart (h : QueueInv q task s) (hloop : ¬ s.Looping)
    (hnext : ∀ st, (s.conts s.currentTask).head? = some st → ¬ Touches q st)
    (ha : Apart q s.currentTask s s') : QueueInv q task s' := by
  obtain ⟨⟨x, hat, hlock⟩, hothers⟩ := h
  refine ⟨⟨x, ?_, ?_⟩, ?_⟩
  · intro w
    by_cases hw : task w = s.currentTask
    · -- the task that runs is in no call of the queue
      have hout := (hat w).out_of_apart hw hloop hnext
      have hself := hat w
      rw [hout] at hself ⊢
      refine ⟨?_, nofun, nofun, nofun, ?_, fun hne => absurd rfl hne⟩
      · rw [ha.ioq]
        exact hself.slot
      · intro _ st hst
        rw [hw] at hst
        rcases ha.own st hst with hst | hst
        · rw [← hw] at hst
          exact hself.out rfl st hst
        · exact hst
    · have hrun : (x w).running = false := by
        cases hx : (x w).running with
        | false => rfl
        | true => exact absurd ((hat w).current hx) hw
      exact (hat w).frame hrun hw (by rw [ha.ioq]) (by rw [ha.ioq]; exact (hat w).blocks)
        (Or.inr ha.lock) (ha.conts _ hw) (ha.allocated _)
  · intro hnone
    rw [ha.lock]
    exact hlock hnone
  · intro t ht st hst
    by_cases hc : t = s.currentTask
    · rw [hc] at hst
      rcases ha.own st hst with hst | hst
      · rw [← hc] at hst
        exact hothers t ht st hst
      · exact hst
    · rcases ha.conts t hc with heq | ⟨_, hnil⟩
      · rw [heq] at hst
        exact hothers t ht st hst
      · rw [hnil] at hst
        cases hst

/-! ## The statements of a call -/

/-- The state in which the next statement is executed. -/
def Sched.pop (s : Sched) (rest : List Stmt) : Sched :=
  { s with conts := Function.update s.conts s.currentTask rest }

@[simp] theorem pop_locks (rest : List Stmt) : (s.pop rest).locks = s.locks := rfl

@[simp] theorem pop_currentTask (rest : List Stmt) : (s.pop rest).currentTask = s.currentTask := rfl

theorem runStmt_cons {st : Stmt} {rest : List Stmt} (h : s.conts s.currentTask = st :: rest) :
    runStmt s = some (execStmt st (s.pop rest)) := by
  unfold runStmt
  rw [h]
  rfl

/-- `ioq_putchar` and `ioq_getchar` when they have to wait. -/
theorem call_blocks {byte : BitVec 8} (h : w.blocks (s.ioqs q)) :
    execStmt (w.call q byte) s =
      .ok (s.push s.currentTask (Phase.acquiring.left q w byte)) := by
  cases w with
  | producer => exact if_pos h
  | consumer => exact if_pos h

/-- Otherwise they change the buffer, wake the other one and at most log. -/
theorem call_passes (byte : BitVec 8) (h : ¬ w.blocks (s.ioqs q)) :
    ∃ (f : Ioqueue → Ioqueue) (es : Sched → List Event), (∀ ioq, (f ioq).waiter = ioq.waiter) ∧
      execStmt (w.call q byte) s = (wakeupWaiter q w.other (s.modIoq q f) >>= fun s' =>
        .ok { s' with log := s'.log ++ es s' }) := by
  cases w with
  | producer =>
      refine ⟨fun ioq => { ioq with buf := Function.update ioq.buf ioq.head byte, head := nextPos ioq.head },
        fun _ => [], fun _ => rfl, ?_⟩
      simp only [List.append_nil]
      exact (if_neg h).trans (bind_pure _).symm
  | consumer =>
      exact ⟨fun ioq => { ioq with tail := nextPos ioq.tail },
        fun s' => [.getchar s'.currentTask q ((s.ioqs q).buf (s.ioqs q).tail)], fun _ => rfl, if_neg h⟩

theorem taskUnblock_ok {t : TaskId} (hstatus : (s.tasks t).status = .BLOCKED)
    (hready : t ∉ s.taskReadyList) : taskUnblock t s = .ok (unblocked t s) := by
  unfold taskUnblock
  rw [assertThat_bind (Or.inl hstatus), if_pos (by rw [hstatus]; decide), assertThat_bind hready]
  rfl

/-- Waking the task that is registered, if one is. -/
theorem wakeupWaiter_ok {v : Waiter} (h : ∀ t, (s.ioqs q).waiter v = some t →
      (s.tasks t).status = .BLOCKED ∧ t ∉ s.taskReadyList) :
    ∃ s', wakeupWaiter q v s = .ok s' ∧ (s'.ioqs q).waiter v = none ∧
      (∀ u, u ≠ v → (s'.ioqs q).waiter u = (s.ioqs q).waiter u) ∧ s'.locks = s.locks ∧
      s'.conts = s.conts ∧ s'.allocated = s.allocated ∧ s'.currentTask = s.currentTask := by
  unfold wakeupWaiter
  cases hv : (s.ioqs q).waiter v with
  | none => exact ⟨s, rfl, hv, fun _ _ => rfl, rfl, rfl, rfl, rfl⟩
  | some t =>
      obtain ⟨hstatus, hready⟩ := h t hv
      refine ⟨(unblocked t s).modIoq q fun ioq => ioq.setWaiter v none, ?_, ?_, ?_, rfl, rfl, rfl, rfl⟩
      · show wakeup q v t s = _
        unfold wakeup
        rw [taskUnblock_ok hstatus hready]
        rfl
      · simp [Sched.modIoq, Ioqueue.setWaiter]
      · intro u hu
        simp [Sched.modIoq, Ioqueue.setWaiter, Function.update_of_ne hu, unblocked, Sched.emit,
          Sched.modTask]

/-- Switching away from a task that blocks.  Without a ready task it is left in a loop. -/
theorem blockTaskSchedule_ok (s : Sched) : ∃ s', blockTaskSchedule s = .ok s' ∧
    s'.ioqs = s.ioqs ∧ s'.locks = s.locks ∧ s'.allocated = s.allocated ∧
    (∀ t, t ≠ s.currentTask → s'.conts t = s.conts t) ∧
    (s'.conts s.currentTask = s.conts s.currentTask ∨
      s'.conts s.currentTask = .loop :: s.conts s.currentTask ∧ s.currentTask = s'.currentTask) := by
  unfold blockTaskSchedule
  cases hready : s.taskReadyList with
  | nil =>
      rw [if_pos rfl]
      refine ⟨_, rfl, rfl, rfl, rfl, ?_, Or.inr ⟨?_, rfl⟩⟩
      · intro t ht
        exact Function.update_of_ne ht _ _
      · exact Function.update_self _ _ _
  | cons t rest =>
      rw [if_neg (List.cons_ne_nil t rest), assertThat_bind (List.cons_ne_nil t rest)]
      unfold getNextTask
      rw [hready]
      exact ⟨_, rfl, rfl, rfl, rfl, fun _ _ => rfl, Or.inl rfl⟩

/-- The task that runs is at station `x` of a call, the other one at `y`. -/
structure Active (q : IoqId) (task : Waiter → TaskId) (s : Sched) (w : Waiter) (x y : Phase)
    (byte : BitVec 8) : Prop where
  self : At q w (task w) s x
  other : At q w.other (task w.other) s y
  lock : x.lock (task w) = none → y.lock (task w.other) = none → s.locks (.ioq q) = lockInit
  others : ∀ t, (∀ w, t ≠ task w) → ∀ st ∈ s.conts t, ¬ Touches q st
  cur : task w = s.currentTask
  ne : task w.other ≠ s.currentTask
  allocated : s.allocated (task w) = true
  conts : s.conts s.currentTask = x.left q w byte

namespace Active

variable {byte : BitVec 8}

theorem other_running (h : Active q task s w x y byte) : y.running = false := by
  cases hy : y.running with
  | false => rfl
  | true => exact absurd (h.other.current hy) h.ne

/-- The other task is in no call when the lock is not held by it. -/
theorem other_out (h : Active q task s w x y byte)
    (hlock : s.locks (.ioq q) ≠ heldBy (task w.other)) : y = .out := by
  have hrun := h.other_running
  have hheld := h.other.lock
  cases y with
  | out => rfl
  | registered => exact absurd (hheld _ rfl) hlock
  | leaving => exact absurd (hheld _ rfl) hlock
  | calling => cases hrun
  | acquiring => cases hrun
  | down => cases hrun
  | acquired => cases hrun
  | waiting => cases hrun

theorem task_ne (h : Active q task s w x y byte) : task w ≠ task w.other := by
  rw [h.cur]
  exact h.ne.symm

/-- A step that changes the call of the running task only. -/
theorem next (h : Active q task s w x y byte) {x' y' : Phase}
    (hself : At q w (task w) s' x') (hother : At q w.other (task w.other) s' y')
    (hlock : x'.lock (task w) = none → y'.lock (task w.other) = none →
      s'.locks (.ioq q) = lockInit)
    (hconts : ∀ t, t ≠ s.currentTask → s'.conts t = s.conts t) : QueueInv q task s' := by
  refine QueueInv.of hself hother hlock ?_
  intro t ht st hst
  have hne : t ≠ s.currentTask := by
    rw [← h.cur]
    exact ht w
  rw [hconts t hne] at hst
  exact h.others t ht st hst

/-- The call finds that it has to wait. -/
theorem call_blocks (h : Active q task s w .calling y byte) (hb : w.blocks (s.ioqs q)) :
    ∃ s', runStmt s = some (.ok s') ∧ QueueInv q task s' := by
  have hb' : w.blocks ((s.pop []).ioqs q) := hb
  refine ⟨_, (runStmt_cons h.conts).trans (congrArg some (ThreadSched.call_blocks hb')), ?_⟩
  have hconts : ∀ t, t ≠ s.currentTask →
      ((s.pop []).push s.currentTask (Phase.acquiring.left q w byte)).conts t = s.conts t := by
    intro t ht
    simp [Sched.push, Sched.pop, Function.update_of_ne ht]
  have hself : At q w (task w)
      ((s.pop []).push s.currentTask (Phase.acquiring.left q w byte)) .acquiring := by
    refine ⟨h.self.slot, fun _ => hb, by rintro _ ⟨⟩, fun _ => h.cur, by rintro ⟨⟩,
      fun _ => ⟨h.allocated, byte, ?_⟩⟩
    left
    rw [h.cur]
    simp [Sched.push, Sched.pop]
  have hother : At q w.other (task w.other)
      ((s.pop []).push s.currentTask (Phase.acquiring.left q w byte)) y := h.other.frame
    h.other_running h.ne rfl h.other.blocks (Or.inr rfl) (Or.inl (hconts _ h.ne)) id
  exact h.next hself hother (fun _ hy => h.lock rfl hy) hconts

/-- The call gets through, and wakes the other task if that is registered. -/
theorem call_passes (h : Active q task s w .calling y byte) (hb : ¬ w.blocks (s.ioqs q))
    (hwake : ∀ t, (s.ioqs q).waiter w.other = some t →
      (s.tasks t).status = .BLOCKED ∧ t ∉ s.taskReadyList) :
    ∃ s', runStmt s = some (.ok s') ∧ QueueInv q task s' := by
  have hb' : ¬ w.blocks ((s.pop []).ioqs q) := hb
  obtain ⟨f, es, hf, hexec⟩ := ThreadSched.call_passes byte hb'
  have hslot : ∀ v, (((s.pop []).modIoq q f).ioqs q).waiter v = (s.ioqs q).waiter v := by
    intro v
    simp [Sched.modIoq, Sched.pop, hf]
  obtain ⟨m, hm, hnone, hkeep, hlocks, hconts, halloc, hcur⟩ :=
    wakeupWaiter_ok (q := q) (s := (s.pop []).modIoq q f) (v := w.other) (by
      intro t ht
      rw [hslot] at ht
      exact hwake t ht)
  refine ⟨{ m with log := m.log ++ es m }, ?_, ?_⟩
  · rw [runStmt_cons h.conts]
    refine congrArg some ?_
    show execStmt (w.call q byte) (s.pop []) = _
    rw [hexec, hm]
    rfl
  have hconts' : ∀ t, t ≠ s.currentTask → m.conts t = s.conts t := by
    intro t ht
    rw [hconts]
    exact Function.update_of_ne ht _ _
  have hself : At q w (task w) { m with log := m.log ++ es m } .out := by
    refine ⟨?_, by rintro ⟨⟩, by rintro _ ⟨⟩, by rintro ⟨⟩, ?_, fun hne => absurd rfl hne⟩
    · show (m.ioqs q).waiter w = none
      rw [hkeep w (Waiter.other_ne w).symm, hslot]
      exact h.self.slot
    · intro _ st hst
      change st ∈ m.conts (task w) at hst
      rw [hconts, h.cur, show ((s.pop []).modIoq q f).conts s.currentTask = [] from
        Function.update_self _ _ _] at hst
      cases hst
  have hlock : (m.locks (.ioq q)) = s.locks (.ioq q) := by
    rw [hlocks]
    rfl
  have halloc' : s.allocated (task w.other) = true → m.allocated (task w.other) = true := by
    rw [halloc]
    exact id
  by_cases hy : y = .registered
  · -- the other one was registered: it has the lock still
    subst hy
    have hother : At q w.other (task w.other) { m with log := m.log ++ es m } .leaving := by
      refine ⟨hnone, by rintro ⟨⟩, ?_, by rintro ⟨⟩, by rintro ⟨⟩, ?_⟩
      · rintro lock ⟨⟩
        exact hlock.trans (h.other.lock _ rfl)
      · intro _
        obtain ⟨hall, byte', hleft | ⟨_, hcurrent, _⟩⟩ := h.other.conts (by rintro ⟨⟩)
        · exact ⟨halloc' hall, byte', Or.inl ((hconts' _ h.ne).trans hleft)⟩
        · exact absurd hcurrent h.ne
    exact h.next hself hother (by rintro _ ⟨⟩) hconts'
  · have hslot' : ((s.ioqs q).waiter w.other) = none := by
      rw [h.other.slot, if_neg hy]
    have hsees : y.seesBlocked = false := by
      have hrun := h.other_running
      cases y with
      | registered => exact absurd rfl hy
      | out => rfl
      | leaving => rfl
      | calling => cases hrun
      | acquiring => cases hrun
      | down => cases hrun
      | acquired => cases hrun
      | waiting => cases hrun
    have hother : At q w.other (task w.other) { m with log := m.log ++ es m } y :=
      h.other.frame h.other_running h.ne
      (hnone.trans hslot'.symm) (by rw [hsees]; rintro ⟨⟩) (Or.inr hlock) (Or.inl (hconts' _ h.ne)) halloc'
    exact h.next hself hother (fun _ hy => hlock.trans (h.lock rfl hy)) hconts'

/-- A step while the other task is in no call. -/
theorem alone (h : Active q task s w x .out byte) (x' : Phase) (hself : At q w (task w) s' x')
    (hslot : (s'.ioqs q).waiter w.other = (s.ioqs q).waiter w.other)
    (hfree : x'.lock (task w) = none → s'.locks (.ioq q) = lockInit)
    (hconts : ∀ t, t ≠ s.currentTask → s'.conts t = s.conts t) : QueueInv q task s' := by
  have hother : At q w.other (task w.other) s' .out := by
    refine ⟨hslot.trans h.other.slot, nofun, nofun, nofun, ?_, fun hne => absurd rfl hne⟩
    intro _ st hst
    rw [hconts _ h.ne] at hst
    exact h.other.out rfl st hst
  exact h.next hself hother (fun hx _ => hfree hx) hconts

/-- `lock_acquire` finds the lock free. -/
theorem acquiring (h : Active q task s w .acquiring y byte)
    (hfree : (s.locks (.ioq q)).holder = none) :
    ∃ s', runStmt s = some (.ok s') ∧ QueueInv q task s' := by
  have hy : y = .out := by
    apply h.other_out
    intro heq
    rw [heq] at hfree
    cases hfree
  subst hy
  refine ⟨(s.pop [.ioqWait q w, .lockRelease (.ioq q), w.call q byte]).push s.currentTask
    [.semaDown (.ioq q), .lockAcquired (.ioq q)], ?_, ?_⟩
  · rw [runStmt_cons h.conts]
    refine congrArg (fun s' => some (Except.ok s')) (if_pos ?_)
    show (s.locks (.ioq q)).holder ≠ _
    rw [hfree]
    nofun
  · refine h.alone .down ?_ rfl nofun ?_
    · refine ⟨h.self.slot, fun _ => h.self.blocks rfl, ?_, fun _ => h.cur, nofun,
        fun _ => ⟨h.allocated, byte, Or.inl ?_⟩⟩
      · rintro lock ⟨⟩
        exact h.lock rfl rfl
      · rw [h.cur]
        simp [Sched.push, Sched.pop, Phase.left]
    · intro t ht
      simp [Sched.push, Sched.pop, Function.update_of_ne ht]

/-- `sema_down` takes it. -/
theorem down (h : Active q task s w .down y byte) :
    ∃ s', runStmt s = some (.ok s') ∧ QueueInv q task s' := by
  have hlock : s.locks (.ioq q) = lockInit := h.self.lock _ rfl
  have hy : y = .out := h.other_out (by rw [hlock]; rintro ⟨⟩)
  subst hy
  refine ⟨(s.pop (Phase.acquired.left q w byte)).modLock (.ioq q) fun _ => ⟨none, ⟨0, []⟩, 0⟩,
    ?_, ?_⟩
  · rw [runStmt_cons h.conts]
    refine congrArg some ?_
    show semaDown (.ioq q) (s.pop (Phase.acquired.left q w byte)) = _
    unfold semaDown
    rw [pop_locks, if_neg (by rw [hlock]; decide)]
    unfold semaTake
    rw [assertThat_bind (by simp [Sched.modLock, Lock.setValue, hlock, lockInit, u8])]
    refine congrArg Except.ok (Sched.modLock_self _ ?_)
    rw [pop_locks, hlock]
    rfl
  · refine h.alone .acquired ?_ rfl (by rintro ⟨⟩) ?_
    · refine ⟨h.self.slot, fun _ => h.self.blocks rfl, ?_, fun _ => h.cur, by rintro ⟨⟩,
        fun _ => ⟨h.allocated, byte, Or.inl ?_⟩⟩
      · rintro lock ⟨⟩
        simp [Sched.modLock]
      · rw [h.cur]
        simp [Sched.modLock, Sched.pop]
    · intro t ht
      simp [Sched.modLock, Sched.pop, Function.update_of_ne ht]

/-- The rest of `lock_acquire`. -/
theorem acquired (h : Active q task s w .acquired y byte) :
    ∃ s', runStmt s = some (.ok s') ∧ QueueInv q task s' := by
  have hlock : s.locks (.ioq q) = ⟨none, ⟨0, []⟩, 0⟩ := h.self.lock _ rfl
  have hy : y = .out := h.other_out (by rw [hlock]; rintro ⟨⟩)
  subst hy
  refine ⟨(s.pop (Phase.waiting.left q w byte)).modLock (.ioq q) fun _ => heldBy s.currentTask,
    ?_, ?_⟩
  · rw [runStmt_cons h.conts]
    refine congrArg some ?_
    show lockAcquired (.ioq q) (s.pop (Phase.waiting.left q w byte)) = _
    unfold lockAcquired
    rw [assertThat_bind (by simp [Sched.modLock, hlock]), Sched.modLock_modLock]
    refine congrArg Except.ok (Sched.modLock_self _ ?_)
    rw [pop_locks, hlock]
    rfl
  · refine h.alone .waiting ?_ rfl (by rintro ⟨⟩) ?_
    · refine ⟨h.self.slot, fun _ => h.self.blocks rfl, ?_, fun _ => h.cur, by rintro ⟨⟩,
        fun _ => ⟨h.allocated, byte, Or.inl ?_⟩⟩
      · rintro lock ⟨⟩
        rw [h.cur]
        simp [Sched.modLock]
      · rw [h.cur]
        simp [Sched.modLock, Sched.pop]
    · intro t ht
      simp [Sched.modLock, Sched.pop, Function.update_of_ne ht]

/-- `lock_release` after the task has been woken. -/
theorem leaving (h : Active q task s w .leaving y byte) :
    ∃ s', runStmt s = some (.ok s') ∧ QueueInv q task s' := by
  have hlock : s.locks (.ioq q) = heldBy (task w) := h.self.lock _ rfl
  have hy : y = .out := by
    apply h.other_out
    rw [hlock]
    intro heq
    have hholder := congrArg Lock.holder heq
    exact h.task_ne (Option.some.inj hholder)
  subst hy
  refine ⟨(s.pop (Phase.calling.left q w byte)).modLock (.ioq q) fun _ => lockInit, ?_, ?_⟩
  · rw [runStmt_cons h.conts]
    refine congrArg some (lockRelease_eq ?_)
    show s.locks (.ioq q) = heldBy s.currentTask
    rw [hlock, h.cur]
  · refine h.alone .calling ?_ rfl ?_ ?_
    · refine ⟨h.self.slot, nofun, nofun, fun _ => h.cur, nofun,
        fun _ => ⟨h.allocated, byte, Or.inl ?_⟩⟩
      rw [h.cur]
      simp [Sched.modLock, Sched.pop]
    · intro _
      simp [Sched.modLock]
    · intro t ht
      simp [Sched.modLock, Sched.pop, Function.update_of_ne ht]

/-- `ioq_wait` registers the task and switches away. -/
theorem waiting (h : Active q task s w .waiting y byte) :
    ∃ s', runStmt s = some (.ok s') ∧ QueueInv q task s' := by
  have hlock : s.locks (.ioq q) = heldBy (task w) := h.self.lock _ rfl
  have hy : y = .out := by
    apply h.other_out
    rw [hlock]
    intro heq
    exact h.task_ne (Option.some.inj (congrArg Lock.holder heq))
  subst hy
  obtain ⟨m, hm, hioqs, hlocks, halloc, hconts, hown⟩ := blockTaskSchedule_ok
    (((s.pop (Phase.registered.left q w byte)).modIoq q fun ioq =>
      ioq.setWaiter w (some s.currentTask)).modTask s.currentTask fun task =>
        { task with status := .BLOCKED })
  refine ⟨m, ?_, ?_⟩
  · rw [runStmt_cons h.conts]
    refine congrArg some ?_
    show ioqWait q w (s.pop (Phase.registered.left q w byte)) = _
    unfold ioqWait
    have hslot : ((s.pop (Phase.registered.left q w byte)).ioqs q).waiter w = none := h.self.slot
    rw [assertThat_bind hslot]
    unfold taskBlock
    rw [assertThat_bind (Or.inl rfl)]
    exact hm
  · refine h.alone .registered ?_ ?_ (by rintro ⟨⟩) ?_
    · refine ⟨?_, ?_, ?_, by rintro ⟨⟩, by rintro ⟨⟩, fun _ => ⟨?_, byte, ?_⟩⟩
      · rw [hioqs, h.cur]
        simp [Sched.modTask, Sched.modIoq, Ioqueue.setWaiter]
      · intro _
        rw [hioqs]
        have hb := h.self.blocks rfl
        cases w with
        | producer => simpa [Sched.modTask, Sched.modIoq, Sched.pop, Ioqueue.setWaiter, Waiter.blocks, ioqFull] using hb
        | consumer => simpa [Sched.modTask, Sched.modIoq, Sched.pop, Ioqueue.setWaiter, Waiter.blocks, ioqEmpty] using hb
      · rintro lock ⟨⟩
        rw [hlocks]
        exact hlock
      · rw [halloc]
        exact h.allocated
      · rw [h.cur]
        refine hown.imp (fun heq => ?_) (fun hreg => ⟨rfl, hreg.2, ?_⟩)
        · refine heq.trans ?_
          simp [Sched.modTask, Sched.modIoq, Sched.pop]
        · refine hreg.1.trans ?_
          simp [Sched.modTask, Sched.modIoq, Sched.pop]
    · rw [hioqs]
      simp [Sched.modTask, Sched.modIoq, Sched.pop, Ioqueue.setWaiter, Function.update_of_ne (Waiter.other_ne w)]
    · intro t ht
      rw [hconts t ht]
      simp [Sched.modTask, Sched.modIoq, Sched.pop, Function.update_of_ne ht]

/-- **A statement of a call.** -/
theorem statement (h : Active q task s w x y byte) (hx : x ≠ .out) (hreg : x ≠ .registered)
    (hfree : FindsFree q s) (hwake : ∀ t, (s.ioqs q).waiter w.other = some t →
      (s.tasks t).status = .BLOCKED ∧ t ∉ s.taskReadyList) :
    ∃ s', runStmt s = some (.ok s') ∧ QueueInv q task s' := by
  cases x with
  | out => exact absurd rfl hx
  | calling =>
      by_cases hb : w.blocks (s.ioqs q)
      · exact h.call_blocks hb
      · exact h.call_passes hb hwake
  | acquiring =>
      apply h.acquiring
      apply hfree
      rw [h.conts]
      rfl
  | down => exact h.down
  | acquired => exact h.acquired
  | waiting => exact h.waiting
  | registered => exact absurd rfl hreg
  | leaving => exact h.leaving

/-- It fails no assertion, even when the lock is held. -/
theorem asserts (h : Active q task s w x y byte) (hx : x ≠ .out) (hreg : x ≠ .registered)
    (hwake : ∀ t, (s.ioqs q).waiter w.other = some t →
      (s.tasks t).status = .BLOCKED ∧ t ∉ s.taskReadyList) :
    runStmt s ≠ some (.error .assertion) := by
  by_cases hacq : x = .acquiring
  · subst hacq
    rw [runStmt_cons h.conts]
    nofun
  · obtain ⟨s', hs', -⟩ := h.statement hx hreg (by
      intro hhead
      rw [h.conts] at hhead
      cases x with
      | acquiring => exact absurd rfl hacq
      | out => cases hhead
      | calling => cases w <;> cases hhead
      | down => cases hhead
      | acquired => cases hhead
      | waiting => cases hhead
      | registered => cases hhead
      | leaving => cases hhead) hwake
    rw [hs']
    nofun

end Active

/-- The task whose next statement touches the queue is one of the two, and in a call. -/
theorem QueueInv.active (h : QueueInv q task s) (hne : task .producer ≠ task .consumer)
    (hreg : ∀ w, (s.ioqs q).waiter w ≠ some s.currentTask) {st : Stmt}
    (hst : (s.conts s.currentTask).head? = some st) (htouch : Touches q st) :
    ∃ w x y byte, Active q task s w x y byte ∧ x ≠ .out ∧ x ≠ .registered := by
  have hmem : st ∈ s.conts s.currentTask := List.mem_of_head? hst
  obtain ⟨⟨x, hat, hlock⟩, hothers⟩ := h
  obtain ⟨w, hw⟩ : ∃ w, s.currentTask = task w := by
    by_contra hnone
    exact hothers s.currentTask (fun w hw => hnone ⟨w, hw⟩) st hmem htouch
  have hother : task w.other ≠ s.currentTask := by
    rw [hw]
    cases w with
    | producer => exact hne.symm
    | consumer => exact hne
  have hout : x w ≠ .out := by
    intro hx
    apply (hat w).out hx st _ htouch
    rw [← hw]
    exact hmem
  have hregistered : x w ≠ .registered := by
    intro hx
    apply hreg w
    rw [(hat w).slot, if_pos hx, hw]
  obtain ⟨halloc, byte, hleft | ⟨hx, -⟩⟩ := (hat w).conts hout
  · refine ⟨w, x w, x w.other, byte, ⟨hat w, hat w.other, ?_, hothers, hw.symm, hother, halloc, ?_⟩,
      hout, hregistered⟩
    · intro hself hoth
      apply hlock
      intro v
      rcases Waiter.eq_or_other v w with rfl | rfl
      · exact hself
      · exact hoth
    · rw [hw]
      exact hleft
  · exact absurd hx hregistered

/-- A task begins a call of the queue. -/
theorem QueueInv.call (h : QueueInv q task s) (hne : task .producer ≠ task .consumer)
    (hcur : s.currentTask = task w) (hconts : s.conts s.currentTask = [])
    (halloc : s.allocated s.currentTask = true) (byte : BitVec 8) :
    QueueInv q task (s.push s.currentTask [w.call q byte]) := by
  obtain ⟨⟨x, hat, hlock⟩, hothers⟩ := h
  have hother : task w.other ≠ s.currentTask := by
    rw [hcur]
    cases w with
    | producer => exact hne.symm
    | consumer => exact hne
  have hout : x w = .out := by
    by_contra hx
    obtain ⟨-, byte, hleft | ⟨-, -, hleft⟩⟩ := (hat w).conts hx
    · obtain ⟨st, rest, heq, -⟩ := Phase.left_touches (q := q) (w := w) hx byte
      rw [← hcur, hconts, heq] at hleft
      cases hleft
    · rw [← hcur, hconts] at hleft
      cases hleft
  have hrest : ∀ t, t ≠ s.currentTask →
      (s.push s.currentTask [w.call q byte]).conts t = s.conts t :=
    fun t ht => Function.update_of_ne ht _ _
  have hself := hat w
  rw [hout] at hself
  refine QueueInv.of (w := w) (x := .calling) (y := x w.other) ?_ ?_ ?_ ?_
  · refine ⟨hself.slot, nofun, nofun, fun _ => hcur.symm, nofun, fun _ => ⟨?_, byte, Or.inl ?_⟩⟩
    · rw [← hcur]
      exact halloc
    · rw [← hcur]
      show Function.update s.conts s.currentTask _ s.currentTask = _
      rw [Function.update_self, hconts]
      rfl
  · have hrun : (x w.other).running = false := by
      cases hx : (x w.other).running with
      | false => rfl
      | true => exact absurd ((hat w.other).current hx) hother
    exact (hat w.other).frame hrun hother rfl (hat w.other).blocks (Or.inr rfl)
      (Or.inl (hrest _ hother)) id
  · intro _ hy
    apply hlock
    intro v
    rcases Waiter.eq_or_other v w with rfl | rfl
    · rw [hout]
      rfl
    · exact hy
  · intro t ht st hst
    have htc : t ≠ s.currentTask := by
      rw [hcur]
      exact ht w
    rw [hrest t htc] at hst
    exact hothers t ht st hst

end invariant

/-! ## Runs -/

section

variable {q : IoqId} {task : Waiter → TaskId} {w w' : World}

/-- What holds in every state: the invariant, and that the lists are in order unless the task that runs
has found no task to switch to. -/
structure QueueState (q : IoqId) (task : Waiter → TaskId) (w : World) : Prop where
  queue : QueueInv q task w.sched
  lists : WorldInv w ∨ w.sched.Looping

/-- A task that is registered is blocked, not ready and not the one that runs. -/
theorem WorldInv.registered (h : WorldInv w) {v : Waiter} {t : TaskId}
    (ht : (w.sched.ioqs q).waiter v = some t) :
    (w.sched.tasks t).status = .BLOCKED ∧ t ∉ w.sched.taskReadyList ∧ t ≠ w.sched.currentTask := by
  obtain ⟨pl, hf, hcur⟩ := h.running
  have hplace := hf.place_of_io ht
  refine ⟨(hf.fits t).status _ hplace, hf.not_mem_ready (by rw [hplace]; nofun), ?_⟩
  rintro rfl
  rw [hcur] at hplace
  cases hplace

theorem WorldInv.current_allocated (h : WorldInv w) :
    w.sched.allocated w.sched.currentTask = true := by
  obtain ⟨pl, hf, hcur⟩ := h.running
  have halloc := (hf.fits w.sched.currentTask).allocated
  rw [hcur] at halloc
  exact halloc

theorem not_looping_of_nil (h : w.sched.conts w.sched.currentTask = []) : ¬ w.sched.Looping := by
  unfold Sched.Looping
  rw [h]
  nofun

/-- An action that works on the queue, or none that does. -/
theorem QueueState.act (h : QueueState q task w) (hne : task .producer ≠ task .consumer)
    (hwi : WorldInv w) (hloop : ¬ w.sched.Looping) {a : Action} (ha : a.enabled w)
    (htick : ∀ r, a ≠ .tick r)
    (hput : ∀ byte, a = .ioqPutchar q byte → w.sched.currentTask = task .producer)
    (hget : a = .ioqGetchar q → w.sched.currentTask = task .consumer) (hfree : FindsFree q w.sched) :
    Returns (schedAction w.sched a) (QueueInv q task) := by
  by_cases hputs : ∃ byte, a = .ioqPutchar q byte
  · obtain ⟨byte, rfl⟩ := hputs
    exact Returns.pure (h.queue.call hne (hput byte rfl) ha hwi.current_allocated byte)
  by_cases hgets : a = .ioqGetchar q
  · subst hgets
    exact Returns.pure (h.queue.call (w := .consumer) hne (hget rfl) ha hwi.current_allocated 0)
  by_cases htouch : a = .resume ∧ ∃ st, (w.sched.conts w.sched.currentTask).head? = some st ∧ Touches q st
  · obtain ⟨rfl, st, hst, htouch⟩ := htouch
    obtain ⟨v, x, y, byte, hactive, hout, hreg⟩ := h.queue.active hne
      (fun v hv => (hwi.registered hv).2.2 rfl) hst htouch
    obtain ⟨s', hs', hinv⟩ := hactive.statement hout hreg hfree
      fun t ht => ⟨(hwi.registered ht).1, (hwi.registered ht).2.1⟩
    show Returns ((runStmt w.sched).getD (pure w.sched)) _
    rw [hs']
    exact Returns.ok hinv
  · obtain ⟨pl, hf, -⟩ := hwi.running
    have hnext : a = .resume → ∀ st, (w.sched.conts w.sched.currentTask).head? = some st →
        ¬ Touches q st := by
      intro hres st hst hto
      exact htouch ⟨hres, st, hst, hto⟩
    have hapart := schedAction_apart (q := q) hwi.tame hf.poolDied (a := a) (by
        rintro addr stack prio rfl
        exact ha.2.1) hgets (fun byte hb => hputs ⟨byte, hb⟩) hnext
    refine hapart.imp fun s' hs' => h.queue.apart hloop ?_ hs'
    intro st hst
    by_cases hres : a = .resume
    · exact hnext hres st hst
    · have hnil : w.sched.conts w.sched.currentTask = [] := by
        cases a with
        | taskStart addr stack prio => exact ha.1
        | sleep milliseconds => exact ha.1
        | resume => exact absurd rfl hres
        | tick r => exact absurd rfl (htick r)
        | taskExit => exact ha
        | lockAcquire l => exact ha
        | lockRelease l => exact ha
        | ioqGetchar q' => exact ha
        | ioqPutchar q' byte => exact ha
      rw [hnil] at hst
      cases hst

/-- **The step lemma.** -/
theorem QueueState.step (h : QueueState q task w) (hne : task .producer ≠ task .consumer)
    (hstep : (freeRuns q task).step w w') : QueueState q task w' := by
  obtain ⟨⟨a, ha, htick, hput, hget, hact⟩, hfree⟩ := hstep
  have hact' : (schedAction w.sched a >>= fun s => pure { w with sched := s }) = .ok w' := by
    cases a with
    | tick r => exact absurd rfl (htick r)
    | _ => exact hact
  by_cases hloop : w.sched.Looping
  · -- a task in `while(1)` only goes on with it
    have hres : a = .resume := by
      cases a with
      | resume => rfl
      | taskStart addr stack prio => exact absurd hloop (not_looping_of_nil ha.1)
      | sleep milliseconds => exact absurd hloop (not_looping_of_nil ha.1)
      | tick r => exact absurd rfl (htick r)
      | taskExit => exact absurd hloop (not_looping_of_nil ha)
      | lockAcquire l => exact absurd hloop (not_looping_of_nil ha)
      | lockRelease l => exact absurd hloop (not_looping_of_nil ha)
      | ioqGetchar q' => exact absurd hloop (not_looping_of_nil ha)
      | ioqPutchar q' byte => exact absurd hloop (not_looping_of_nil ha)
    subst hres
    have hsame : schedAction w.sched .resume = .ok w.sched := runStmt_loop hloop
    rw [hsame] at hact'
    cases hact'
    exact ⟨h.queue, Or.inr hloop⟩
  · have hwi : WorldInv w := h.lists.resolve_right hloop
    constructor
    · have hqueue := (h.act hne hwi hloop ha htick hput hget hfree).bind
        (R := fun v : World => QueueInv q task v.sched)
        fun s' hs' => (Returns.pure hs' : Returns (pure { w with sched := s' } : Except Fault World) _)
      exact hqueue w' hact'
    · exact (hwi.act ha w' hact).symm

/-- Nobody is in a call of the queue at the start. -/
theorem queueInv_mainOnly (q : IoqId) (task : Waiter → TaskId) (addr stack : Nat) :
    QueueInv q task (mainOnly addr stack) := by
  have hlocks : (mainOnly addr stack).locks = (tidPoolInit boot).locks := rfl
  refine ⟨⟨fun _ => .out, ?_, fun _ => by rw [hlocks]; exact locks_boot _⟩, ?_⟩
  · intro v
    exact ⟨rfl, nofun, nofun, nofun, fun _ st hst => absurd hst List.not_mem_nil,
      fun hne => absurd rfl hne⟩
  · intro t _ st hst
    exact absurd hst List.not_mem_nil

theorem freeRuns_state (hne : task .producer ≠ task .consumer) (h : (freeRuns q task).Reach w) :
    QueueState q task w := by
  refine (freeRuns q task).invariant ?_ (fun w w' hw hstep => hw.step hne hstep) h
  intro w hinit
  refine ⟨?_, Or.inl (WorldInv.init hinit)⟩
  obtain ⟨addr, stack, j, _, hw⟩ := hinit
  rw [start_eq] at hw
  cases hw
  exact queueInv_mainOnly q task addr stack

/-- Nobody waits for the lock. -/
theorem QueueInv.no_waiters {s : Sched} (h : QueueInv q task s) :
    (s.locks (.ioq q)).semaphore.waiters = [] := by
  obtain ⟨⟨x, hat, hfree⟩, -⟩ := h
  by_cases hall : ∀ v, (x v).lock (task v) = none
  · rw [hfree hall]
    rfl
  · obtain ⟨v, hv⟩ := not_forall.1 hall
    obtain ⟨lock, hlock⟩ := Option.ne_none_iff_exists'.1 hv
    rw [(hat v).lock lock hlock]
    cases hx : x v with
    | out => rw [hx] at hlock; cases hlock
    | calling => rw [hx] at hlock; cases hlock
    | acquiring => rw [hx] at hlock; cases hlock
    | down => rw [hx] at hlock; cases hlock; rfl
    | acquired => rw [hx] at hlock; cases hlock; rfl
    | waiting => rw [hx] at hlock; cases hlock; rfl
    | registered => rw [hx] at hlock; cases hlock; rfl
    | leaving => rw [hx] at hlock; cases hlock; rfl

/-- A task that is blocked in the queue is registered in it, and has its lock. -/
theorem QueueInv.blockedIn {s : Sched} (h : QueueInv q task s) {v : Waiter}
    (hblocked : BlockedIn q (task v) s) :
    s.locks (.ioq q) = heldBy (task v) := by
  rcases hblocked with ⟨u, hu⟩ | hwaits
  · obtain ⟨⟨x, hat, -⟩, -⟩ := h
    have hslot := (hat u).slot
    rw [hu] at hslot
    by_cases hx : x u = .registered
    · rw [if_pos hx] at hslot
      rw [Option.some.inj hslot]
      apply (hat u).lock
      rw [hx]
      rfl
    · rw [if_neg hx] at hslot
      cases hslot
  · rw [h.no_waiters] at hwaits
    cases hwaits

/-- **The queue works** in every run whose calls find the lock free when they go to wait. -/
theorem freeRuns_queueOk (hne : task .producer ≠ task .consumer) (h : (freeRuns q task).Reach w) :
    QueueOk q task w.sched := by
  have hstate := freeRuns_state hne h
  constructor
  · rintro ⟨hp, hc⟩
    have heq := (hstate.queue.blockedIn hp).symm.trans (hstate.queue.blockedIn hc)
    exact hne (Option.some.inj (congrArg Lock.holder heq))
  · intro v t ht
    obtain ⟨⟨x, hat, -⟩, -⟩ := hstate.queue
    have hslot := (hat v).slot
    rw [ht] at hslot
    by_cases hx : x v = .registered
    · apply (hat v).blocks
      rw [hx]
      rfl
    · rw [if_neg hx] at hslot
      cases hslot
  · intro st hst htouch
    have hloop : ¬ w.sched.Looping := by
      intro hl
      rw [Sched.Looping, hst] at hl
      cases hl
      exact htouch
    have hwi := hstate.lists.resolve_right hloop
    obtain ⟨v, x, y, byte, hactive, hout, hreg⟩ := hstate.queue.active hne
      (fun v hv => (hwi.registered hv).2.2 rfl) hst htouch
    exact hactive.asserts hout hreg
      fun t ht => ⟨(hwi.registered ht).1, (hwi.registered ht).2.1⟩

end

/-! ## Runs that are evaluated -/

/-- `main` is the consumer, task `3` the producer. -/
def mainAndThree : Waiter → TaskId
  | .producer => 3
  | .consumer => 1

/-- An action of `queueRuns`. -/
def Action.ofQueue (q : IoqId) (task : Waiter → TaskId) (w : World) : Action → Prop
  | .tick _ => False
  | .ioqPutchar ioq _ => ioq = q → w.sched.currentTask = task .producer
  | .ioqGetchar ioq => ioq = q → w.sched.currentTask = task .consumer
  | _ => True

instance (q : IoqId) (task : Waiter → TaskId) (w : World) : (a : Action) → Decidable (a.ofQueue q task w)
  | .tick _ => inferInstanceAs (Decidable False)
  | .ioqPutchar _ _ => inferInstanceAs (Decidable (_ → _))
  | .ioqGetchar _ => inferInstanceAs (Decidable (_ → _))
  | .taskStart _ _ _ => .isTrue trivial
  | .taskExit => .isTrue trivial
  | .lockAcquire _ => .isTrue trivial
  | .lockRelease _ => .isTrue trivial
  | .sleep _ => .isTrue trivial
  | .resume => .isTrue trivial

instance (q : IoqId) (s : Sched) : Decidable (FindsFree q s) := inferInstanceAs (Decidable (_ → _))

theorem queueRuns_step {q : IoqId} {task : Waiter → TaskId} {w w' : World} {a : Action}
    (henabled : a.enabled w) (ha : a.ofQueue q task w) (hact : w.act a = .ok w') :
    (queueRuns q task).step w w' := by
  refine ⟨a, henabled, ?_, ?_, ?_, hact⟩
  · rintro r rfl
    exact ha
  · rintro byte rfl
    exact ha rfl
  · rintro rfl
    exact ha rfl

/-- An action of `freeRuns`. -/
abbrev World.nextFree (q : IoqId) (task : Waiter → TaskId) : World → Action → Option World :=
  World.next fun w a _ => a.ofQueue q task w ∧ FindsFree q w.sched

theorem freeRuns_nextFree {q : IoqId} {task : Waiter → TaskId} (w : World) (a : Action) (w' : World)
    (h : w.nextFree q task a = some w') : (freeRuns q task).step w w' := by
  obtain ⟨hact, henabled, ha, hfree⟩ := World.next_eq_some h
  exact ⟨queueRuns_step henabled ha hact, hfree⟩

/-- What the two do next when they do nothing but call the queue. -/
def callQueue (w : World) : Action :=
  if w.sched.conts w.sched.currentTask = [] then
    if w.sched.currentTask = 1 then .ioqGetchar 0 else .ioqPutchar 0 0
  else .resume

/-- `n` of these actions, as long as one of the two runs. -/
def callQueues : Nat → World → Except Fault World
  | 0, w => pure w
  | n + 1, w =>
    if w.sched.currentTask = 1 ∨ w.sched.currentTask = 3 then do
      let w ← w.act (callQueue w)
      callQueues n w
    else .error .hang

theorem callQueue_step {w w' : World} (hcur : w.sched.currentTask = 1 ∨ w.sched.currentTask = 3)
    (hact : w.act (callQueue w) = .ok w') : (queueRuns 0 mainAndThree).step w w' := by
  refine queueRuns_step ?_ ?_ hact
  · unfold callQueue
    split
    · split
      · assumption
      · assumption
    · assumption
  · unfold callQueue
    split
    · split
      · intro _
        assumption
      · intro _
        exact hcur.resolve_left ‹_›
    · trivial

theorem callQueues_reach (n : Nat) {w : World} (h : (queueRuns 0 mainAndThree).Reach w) :
    Returns (callQueues n w) (queueRuns 0 mainAndThree).Reach := by
  induction n generalizing w with
  | zero => exact Returns.pure h
  | succ n ih =>
      refine Returns.ite (fun hcur => ?_) fun _ => Returns.error
      refine Returns.bind (P := (queueRuns 0 mainAndThree).Reach) ?_ fun w' hw' => ih hw'
      exact fun w' hact => h.step (callQueue_step hcur hact)

/-- `main` finds the queue empty, takes its lock and waits; the producer wakes it with a byte and blocks
at a lock of its own; `main` returns the byte, finds the queue empty again and waits with the lock a second
time. -/
def waitTwice : List Action :=
  [.taskStart 3 4 31, .taskStart 5 6 31, .lockAcquire 0, .resume, .resume, .resume,
    .ioqGetchar 0, .resume, .resume, .resume, .resume, .resume,
    .ioqPutchar 0 7, .resume, .lockAcquire 0, .resume, .resume,
    .resume, .resume, .ioqGetchar 0, .resume, .resume, .resume, .resume, .resume]

/-- After that run task `5` is the current one, the byte has gone in and come out, and `main` is
registered and holds the lock. -/
theorem freeRuns_queueOk_twice : ∃ w, (freeRuns 0 mainAndThree).Reach w ∧ w.sched.currentTask = 5 ∧
    (w.sched.ioqs 0).head = 1 ∧ (w.sched.ioqs 0).tail = 1 ∧
    (w.sched.ioqs 0).waiter .consumer = some 1 ∧ (w.sched.locks (.ioq 0)).holder = some 1 ∧
    QueueOk 0 mainAndThree w.sched := by
  have hrun : ((start 1 2 0).toOption.bind fun w => waitTwice.foldlM (World.nextFree 0 mainAndThree) w).map
      (fun w => (w.sched.currentTask, (w.sched.ioqs 0).head, (w.sched.ioqs 0).tail,
        (w.sched.ioqs 0).waiter .consumer, (w.sched.locks (.ioq 0)).holder)) =
      some (5, 1, 1, some 1, some 1) := by
    decide +kernel
  obtain ⟨w, hw, hf⟩ := exists_reach (M := freeRuns 0 mainAndThree) (fun _ h => h) freeRuns_nextFree
    (by norm_num) hrun
  simp only [Prod.mk.injEq] at hf
  obtain ⟨hcur, hhead, htail, hwaiter, hholder⟩ := hf
  exact ⟨w, hw, hcur, hhead, htail, hwaiter, hholder, freeRuns_queueOk nofun hw⟩

/-- `main` has started the producer and task `5`. -/
theorem reach_started : ∃ w, (queueRuns 0 mainAndThree).Reach w ∧
    ((start 1 2 0 >>= fun w => w.act (.taskStart 3 4 31)) >>= fun w =>
      w.act (.taskStart 5 6 31)) = .ok w := by
  obtain ⟨w₁, h₁, hx₁, he₁⟩ := exists_next (start_eq 1 2 0) (a := .taskStart 3 4 31)
    (f := fun w => (w.sched.conts w.sched.currentTask, w.sched.allocated 5, w.sched.stackAllocated 6))
    (b := ([], false, false)) rfl
  obtain ⟨w₂, h₂, hx₂, -⟩ := exists_next hx₁ (a := .taskStart 5 6 31)
    (f := fun w => w.sched.currentTask) (b := 1) rfl
  simp only [Prod.mk.injEq] at he₁
  have hinit : (queueRuns 0 mainAndThree).Reach _ := .init ⟨1, 2, 0, by norm_num, start_eq 1 2 0⟩
  have hstep₁ := hinit.step (queueRuns_step (a := .taskStart 3 4 31) ⟨rfl, rfl, rfl⟩ trivial h₁)
  exact ⟨w₂, hstep₁.step (queueRuns_step (a := .taskStart 5 6 31) he₁ trivial h₂), hx₂⟩

/-- The queue wedges: `main` finds it empty and waits with its lock, the producer fills it and comes to
wait for the lock, `main` empties it, takes the lock again and waits for the producer. -/
theorem queue_wedges : ¬ ∀ w, (queueRuns 0 mainAndThree).Reach w → QueueOk 0 mainAndThree w.sched := by
  intro hall
  obtain ⟨w, hreach, heq⟩ := reach_started
  have hrun : (((start 1 2 0 >>= fun w => w.act (.taskStart 3 4 31)) >>= fun w =>
      w.act (.taskStart 5 6 31)) >>= callQueues 269).map (fun w =>
        ((w.sched.ioqs 0).waiter .consumer, (w.sched.locks (.ioq 0)).semaphore.waiters)) =
      .ok (some 1, [3]) := by decide +kernel
  rw [heq] at hrun
  change (callQueues 269 w).map _ = _ at hrun
  cases hw : callQueues 269 w with
  | error e =>
      rw [hw] at hrun
      cases hrun
  | ok w' =>
      rw [hw] at hrun
      have hfacts := Except.ok.inj hrun
      simp only [Prod.mk.injEq] at hfacts
      apply (hall w' (callQueues_reach 269 hreach w' hw)).notBoth
      constructor
      · right
        rw [hfacts.2]
        exact List.mem_singleton_self 3
      · exact Or.inl ⟨.consumer, hfacts.1⟩

end ThreadSched

import Mathlib.Data.List.Induction
import Mathlib.Logic.Function.Basic
import Mathlib.Tactic.NormNum

/-!
# The tick budgets of the kernel module (`kernel/signal.c`)

The module keeps one target pid and its ticks.  A Netlink message sets both, every switch to the target
takes a tick off, and a delayed work item blocks `SIGUSR1` for the target when the ticks are used up.

* `Module` — the globals, whether the work item is queued, and whose `SIGUSR1` is blocked.
* `block_usedUp` — only a budget that is used up gets its pid blocked.
* `tickBudget_ok_iff` — no expiry is lost exactly when no other message comes between an expiry and the
  work item.
-/

set_option autoImplicit false

namespace ThreadSched.Signal

/-- `target_pid`, `ticks`, whether `delayed_work` is queued, and the pids whose `SIGUSR1` is blocked. -/
structure Module where
  targetPid : Int
  ticks : Int
  delayedWork : Bool
  blocked : Int → Bool

/-- `queue_delayed_work`.  A work item that is queued stays queued. -/
def Module.queueDelayedWork (m : Module) : Module := { m with delayedWork := true }

/-- `netlink_init`. -/
def netlinkInit (blocked : Int → Bool) : Module :=
  Module.queueDelayedWork ⟨-1, 0, false, blocked⟩

/-- `netlink_recv_msg` for the data `pid`, `priority`. -/
def netlinkRecvMsg (pid priority : Int) (m : Module) : Module :=
  { m with targetPid := pid, ticks := priority }

/-- `sched_switch_tracepoint_callback`. -/
def schedSwitchTracepointCallback (next : Int) (m : Module) : Module :=
  if next ≠ m.targetPid then m
  else if m.ticks > 0 then
    let m := { m with ticks := m.ticks - 1 }
    if m.ticks = 0 then m.queueDelayedWork else m
  else m

/-- The end of `block_sigusr1_for_pid`. -/
def Module.requeue (m : Module) : Module :=
  if m.ticks > 0 then m.queueDelayedWork else m

/-- `block_sigusr1_for_pid`, where `pidTask` gives the pid of the task that `pid_task(find_vpid(..))`
finds.  Also the pid that it blocks. -/
def blockSigusr1ForPid (pidTask : Int → Option Int) (m : Module) : Option Int × Module :=
  let m := { m with delayedWork := false }
  match pidTask m.targetPid with
  | some pid =>
    if pid ≠ m.targetPid then (none, m)
    else if m.ticks = 0 then
      (some pid, ({ m with blocked := Function.update m.blocked pid true }).requeue)
    else (none, m.requeue)
  | none => (none, m.requeue)

inductive Event
  | message (pid priority : Int)
  | schedSwitch (next : Int)
  | work
  deriving DecidableEq

def Event.isMessage : Event → Bool
  | .message _ _ => true
  | _ => false

section runs

variable (pidTask : Int → Option Int) (blocked : Int → Bool)

def Module.step (m : Module) : Event → Module
  | .message pid priority => netlinkRecvMsg pid priority m
  | .schedSwitch next => schedSwitchTracepointCallback next m
  | .work => (blockSigusr1ForPid pidTask m).2

def Module.run (m : Module) (es : List Event) : Module := es.foldl (Module.step pidTask) m

/-- The state after the events. -/
def after (es : List Event) : Module := (netlinkInit blocked).run pidTask es

/-- The pid that the work item would block after the events. -/
def blocks (es : List Event) : Option Int := (blockSigusr1ForPid pidTask (after pidTask blocked es)).1

/-- The work item runs only when it is queued. -/
def IsRun (es : List Event) : Prop :=
  ∀ pre post, es = pre ++ .work :: post → (after pidTask blocked pre).delayedWork = true

/-- The last budget received for `p` is used up by switches to `p`. -/
def UsedUp (es : List Event) (p : Int) : Prop :=
  ∃ a n b, es = a ++ .message p n :: b ∧ (∀ k, Event.message p k ∉ b) ∧
    n ≤ (b.count (.schedSwitch p) : Int)

/-- After the events the budget `n > 0` of `p` has been counted down to 0 by switches to `p`, and since
then there was neither a run of the work item nor another budget for `p`: only `c`. -/
def Expired (es : List Event) (p : Int) (c : List Event) : Prop :=
  ∃ a n b, es = a ++ (.message p n :: b) ++ (.schedSwitch p :: c) ∧ 0 < n ∧
    (∀ e ∈ b, e.isMessage = false) ∧ (b.count (.schedSwitch p) : Int) + 1 = n ∧
    Event.work ∉ c ∧ ∀ k, Event.message p k ∉ c

/-- What the module promises of a run. -/
structure BudgetsOk (es : List Event) : Prop where
  usedUp : ∀ pre post, es = pre ++ .work :: post → ∀ p, blocks pidTask blocked pre = some p → UsedUp pre p
  queued : ∀ pre post, es = pre ++ post → ∀ p c, Expired pre p c →
    (after pidTask blocked pre).delayedWork = true
  noneLost : ∀ pre post, es = pre ++ .work :: post → ∀ p c, Expired pre p c →
    blocks pidTask blocked pre = some p

/-- No message for another pid comes between an expiry and the next run of the work item. -/
def Undisturbed (es : List Event) : Prop :=
  ∀ pre post, es = pre ++ .work :: post → ∀ p c, Expired pre p c → ∀ e ∈ c, e.isMessage = false

end runs

/-! ## Between two messages -/

section quiet

variable {pidTask : Int → Option Int} {m : Module} {e : Event} {es : List Event}

@[simp] theorem requeue_targetPid : m.requeue.targetPid = m.targetPid := by
  unfold Module.requeue
  split <;> rfl

@[simp] theorem requeue_ticks : m.requeue.ticks = m.ticks := by
  unfold Module.requeue
  split <;> rfl

/-- The work item only reads the two globals. -/
theorem work_globals : (m.step pidTask .work).targetPid = m.targetPid ∧
    (m.step pidTask .work).ticks = m.ticks := by
  simp only [Module.step, blockSigusr1ForPid]
  split
  · split
    · exact ⟨rfl, rfl⟩
    · split <;> simp
  · simp

theorem step_targetPid (he : e.isMessage = false) : (m.step pidTask e).targetPid = m.targetPid := by
  cases e with
  | message pid priority => cases he
  | work => exact work_globals.1
  | schedSwitch next =>
      simp only [Module.step, schedSwitchTracepointCallback]
      split
      · rfl
      · split
        · split <;> rfl
        · rfl

theorem step_ticks (he : e.isMessage = false) : (m.step pidTask e).ticks =
    if e = .schedSwitch m.targetPid ∧ 0 < m.ticks then m.ticks - 1 else m.ticks := by
  cases e with
  | message pid priority => cases he
  | work =>
      rw [work_globals.2, if_neg]
      rintro ⟨heq, _⟩
      cases heq
  | schedSwitch next =>
      simp only [Module.step, schedSwitchTracepointCallback, Event.schedSwitch.injEq]
      by_cases hnext : next = m.targetPid
      · by_cases hticks : 0 < m.ticks
        · rw [if_neg (not_not.2 hnext), if_pos hticks, if_pos (And.intro hnext hticks)]
          split <;> rfl
        · rw [if_neg (not_not.2 hnext), if_neg hticks, if_neg (fun h => hticks h.2)]
      · rw [if_pos hnext, if_neg (fun h => hnext h.1)]

theorem run_targetPid (hes : ∀ e ∈ es, e.isMessage = false) :
    (m.run pidTask es).targetPid = m.targetPid := by
  induction es generalizing m with
  | nil => rfl
  | cons e es ih =>
      have hrest := ih (m := m.step pidTask e) fun e' he' => hes e' (List.mem_cons_of_mem _ he')
      exact hrest.trans (step_targetPid (hes e List.mem_cons_self))

/-- Without a message, every switch to the target takes a tick off, down to 0. -/
theorem run_ticks (hes : ∀ e ∈ es, e.isMessage = false) : (m.run pidTask es).ticks =
    max (m.ticks - es.count (.schedSwitch m.targetPid)) (min m.ticks 0) := by
  induction es generalizing m with
  | nil =>
      show m.ticks = _
      simp only [List.count_nil, Nat.cast_zero]
      omega
  | cons e es ih =>
      have he := hes e List.mem_cons_self
      have hrest := ih (m := m.step pidTask e) fun e' he' => hes e' (List.mem_cons_of_mem _ he')
      show ((m.step pidTask e).run pidTask es).ticks = _
      rw [hrest, step_targetPid he, step_ticks he, List.count_cons]
      by_cases heq : e = .schedSwitch m.targetPid
      · by_cases hticks : 0 < m.ticks
        · simp only [heq, hticks, and_self, if_true, beq_self_eq_true, Nat.cast_add, Nat.cast_one]
          omega
        · simp only [heq, hticks, and_false, if_true, if_false, beq_self_eq_true, Nat.cast_add,
            Nat.cast_one]
          omega
      · have hbeq : (e == Event.schedSwitch m.targetPid) = false := by simpa using heq
        simp only [heq, hbeq, false_and, if_false]
        rw [if_neg (by simp)]
        simp

/-- The switch that takes the last tick queues the work item. -/
theorem switch_last {p : Int} (htarget : m.targetPid = p) (hticks : m.ticks = 1) :
    m.step pidTask (.schedSwitch p) = { m with ticks := 0, delayedWork := true } := by
  show schedSwitchTracepointCallback p m = _
  unfold schedSwitchTracepointCallback
  rw [if_neg (not_not.2 htarget.symm), if_pos (by omega)]
  simp only [hticks]
  rfl

/-- The work item stays queued until it runs. -/
theorem run_queued (hes : Event.work ∉ es) (hm : m.delayedWork = true) :
    (m.run pidTask es).delayedWork = true := by
  induction es generalizing m with
  | nil => exact hm
  | cons e es ih =>
      apply ih (m := m.step pidTask e) (fun h => hes (List.mem_cons_of_mem _ h))
      cases e with
      | message pid priority => exact hm
      | work => exact absurd List.mem_cons_self hes
      | schedSwitch next =>
          simp only [Module.step, schedSwitchTracepointCallback]
          split
          · exact hm
          · split
            · split
              · rfl
              · exact hm
            · exact hm

end quiet

/-! ## Histories -/

/-- Either there is no message, or there is a last one. -/
theorem last_message (es : List Event) : (∀ e ∈ es, e.isMessage = false) ∨
    ∃ a p n b, es = a ++ .message p n :: b ∧ ∀ e ∈ b, e.isMessage = false := by
  induction es using List.reverseRecOn with
  | nil => exact Or.inl nofun
  | append_singleton es e ih =>
      cases he : e.isMessage with
      | true =>
          right
          cases e with
          | message p n => exact ⟨es, p, n, [], rfl, nofun⟩
          | schedSwitch next => cases he
          | work => cases he
      | false =>
          rcases ih with hnone | ⟨a, p, n, b, rfl, hb⟩
          · left
            intro e' he'
            rcases List.mem_append.1 he' with he' | he'
            · exact hnone e' he'
            · rw [List.mem_singleton.1 he']
              exact he
          · refine Or.inr ⟨a, p, n, b ++ [e], by simp, ?_⟩
            intro e' he'
            rcases List.mem_append.1 he' with he' | he'
            · exact hb e' he'
            · rw [List.mem_singleton.1 he']
              exact he

theorem not_message_of_quiet {es : List Event} (hes : ∀ e ∈ es, e.isMessage = false) (p n : Int) :
    Event.message p n ∉ es := by
  intro hmem
  cases hes _ hmem

section histories

variable {pidTask : Int → Option Int} {blocked : Int → Bool} {es b : List Event} {p n : Int}

theorem after_append (es es' : List Event) : after pidTask blocked (es ++ es') =
    (after pidTask blocked es).run pidTask es' := by
  unfold after Module.run
  exact List.foldl_append

/-- The globals after a message and what follows it. -/
theorem after_message (pidTask : Int → Option Int) (blocked : Int → Bool) (a : List Event)
    (hb : ∀ e ∈ b, e.isMessage = false) :
    (after pidTask blocked (a ++ .message p n :: b)).targetPid = p ∧
    (after pidTask blocked (a ++ .message p n :: b)).ticks =
      max (n - b.count (.schedSwitch p)) (min n 0) := by
  rw [after_append]
  exact ⟨run_targetPid (m := netlinkRecvMsg p n (after pidTask blocked a)) hb,
    run_ticks (m := netlinkRecvMsg p n (after pidTask blocked a)) hb⟩

/-- The work item blocks the target when the ticks are 0. -/
theorem blocks_eq_some : blocks pidTask blocked es = some p ↔
    pidTask (after pidTask blocked es).targetPid = some p ∧
      p = (after pidTask blocked es).targetPid ∧ (after pidTask blocked es).ticks = 0 := by
  simp only [blocks, blockSigusr1ForPid]
  cases hfind : pidTask (after pidTask blocked es).targetPid with
  | none =>
      constructor
      · nofun
      · rintro ⟨h, _⟩
        cases h
  | some pid =>
      by_cases hpid : pid = (after pidTask blocked es).targetPid
      · by_cases hticks : (after pidTask blocked es).ticks = 0
        · simp only [hpid, hticks, ne_eq, not_true_eq_false, if_false, if_true, Option.some.injEq,
            and_true]
          constructor
          · exact fun h => ⟨h, h.symm⟩
          · exact fun h => h.1
        · simp [hpid, hticks]
      · simp only [hpid, ne_eq, not_false_eq_true, if_true, Option.some.injEq]
        constructor
        · nofun
        · rintro ⟨rfl, h, _⟩
          exact absurd h hpid

/-- **A pid is blocked only when its last budget is used up.** -/
theorem block_usedUp (hinit : pidTask (-1) = none) (hblock : blocks pidTask blocked es = some p) :
    UsedUp es p := by
  obtain ⟨hfind, htarget, hticks⟩ := blocks_eq_some.1 hblock
  rcases last_message es with hnone | ⟨a, q, n, b, rfl, hb⟩
  · -- before the first message the target does not exist
    have hstart : (after pidTask blocked es).targetPid = -1 := run_targetPid hnone
    rw [hstart, hinit] at hfind
    cases hfind
  · obtain ⟨hq, hleft⟩ := after_message pidTask blocked (p := q) (n := n) a hb
    obtain rfl : p = q := htarget.trans hq
    rw [hleft] at hticks
    exact ⟨a, n, b, rfl, not_message_of_quiet hb p, by omega⟩

/-- At an expiry the ticks are 0 and the work item is queued. -/
theorem after_expiry (pidTask : Int → Option Int) (blocked : Int → Bool) (a : List Event)
    (hn : 0 < n) (hb : ∀ e ∈ b, e.isMessage = false)
    (hcount : (b.count (.schedSwitch p) : Int) + 1 = n) :
    let m := after pidTask blocked (a ++ (.message p n :: b) ++ [.schedSwitch p])
    m.targetPid = p ∧ m.ticks = 0 ∧ m.delayedWork = true := by
  obtain ⟨htarget, hticks⟩ := after_message pidTask blocked (p := p) (n := n) a hb
  have hone : (after pidTask blocked (a ++ .message p n :: b)).ticks = 1 := by omega
  have hlast : (after pidTask blocked (a ++ .message p n :: b)).step pidTask (.schedSwitch p) = _ :=
    switch_last htarget hone
  intro m
  have hm : m = { after pidTask blocked (a ++ .message p n :: b) with
      ticks := 0
      delayedWork := true } := by
    rw [← hlast]
    exact after_append _ _
  rw [hm]
  exact ⟨htarget, rfl, rfl⟩

theorem Expired.received {c : List Event} (h : Expired es p c) : ∃ n, Event.message p n ∈ es := by
  obtain ⟨a, n, b, rfl, _⟩ := h
  exact ⟨n, by simp⟩

theorem Expired.queued {c : List Event} (h : Expired es p c) :
    (after pidTask blocked es).delayedWork = true := by
  obtain ⟨a, n, b, rfl, hn, hb, hcount, hwork, _⟩ := h
  have hexpiry := after_expiry pidTask blocked a hn hb hcount
  rw [show a ++ (.message p n :: b) ++ (.schedSwitch p :: c) =
    a ++ (.message p n :: b) ++ [.schedSwitch p] ++ c by simp, after_append]
  exact run_queued hwork hexpiry.2.2

/-- Without another message the work item finds the expiry. -/
theorem Expired.blocks {c : List Event} (h : Expired es p c) (hp : pidTask p = some p)
    (hc : ∀ e ∈ c, e.isMessage = false) : blocks pidTask blocked es = some p := by
  obtain ⟨a, n, b, rfl, hn, hb, hcount, _⟩ := h
  obtain ⟨htarget, hticks, _⟩ :=
    after_expiry pidTask blocked a hn hb hcount
  rw [show a ++ (.message p n :: b) ++ (.schedSwitch p :: c) =
    a ++ (.message p n :: b) ++ [.schedSwitch p] ++ c by simp, blocks_eq_some, after_append]
  rw [run_targetPid hc, run_ticks hc, htarget, hticks]
  exact ⟨hp, rfl, by omega⟩

/-- After one it does not. -/
theorem Expired.not_blocks {c : List Event} (h : Expired es p c)
    (hblock : ThreadSched.Signal.blocks pidTask blocked es = some p) :
    ∀ e ∈ c, e.isMessage = false := by
  obtain ⟨a, n, b, rfl, _, _, _, _, hother⟩ := h
  rcases last_message c with hnone | ⟨c₁, q, k, c₂, rfl, hc₂⟩
  · exact hnone
  · exfalso
    obtain ⟨_, htarget, _⟩ := blocks_eq_some.1 hblock
    have hlast := (after_message pidTask blocked (p := q) (n := k)
      (a ++ (.message p n :: b) ++ (.schedSwitch p :: c₁)) hc₂).1
    rw [show a ++ (.message p n :: b) ++ (.schedSwitch p :: (c₁ ++ .message q k :: c₂)) =
      a ++ (.message p n :: b) ++ (.schedSwitch p :: c₁) ++ .message q k :: c₂ by simp, hlast] at htarget
    subst htarget
    exact hother k (by simp)

end histories

/-- **No expiry is lost, exactly when no message comes between an expiry and the work item.**  The
pids of the messages exist, `-1` does not. -/
theorem tickBudget_ok_iff {pidTask : Int → Option Int} (hinit : pidTask (-1) = none)
    {blocked : Int → Bool} {es : List Event}
    (hpids : ∀ p n, Event.message p n ∈ es → pidTask p = some p) :
    BudgetsOk pidTask blocked es ↔ Undisturbed es := by
  constructor
  · intro hok pre post hes p c hexpired
    exact hexpired.not_blocks (hok.noneLost pre post hes p c hexpired)
  · intro hquiet
    constructor
    · intro pre post _ p hblock
      exact block_usedUp hinit hblock
    · intro pre post _ p c hexpired
      exact hexpired.queued
    · intro pre post hes p c hexpired
      obtain ⟨n, hn⟩ := hexpired.received
      have hmem : Event.message p n ∈ es := by
        rw [hes]
        exact List.mem_append_left _ hn
      exact hexpired.blocks (hpids p n hmem) (hquiet pre post hes p c hexpired)

/-! ## An expiry that is lost -/

/-- The positive pids exist. -/
def pidOf (p : Int) : Option Int := if 0 < p then some p else none

/-- Process `7` uses up its budget of one tick, and the work item runs. -/
theorem tickBudget_ok_seven : BudgetsOk pidOf (fun _ => false) [.message 7 1, .schedSwitch 7, .work] ↔
    Undisturbed [.message 7 1, .schedSwitch 7, .work] := by
  apply tickBudget_ok_iff rfl
  intro p n hmem
  simp only [List.mem_cons, Event.message.injEq, reduceCtorEq, List.not_mem_nil, or_false] at hmem
  rw [hmem.1]
  rfl

/-- Process `8` sends its budget before the work item runs. -/
def lateMessage : List Event := [.message 7 1, .schedSwitch 7, .message 8 5, .work]

theorem lateMessage_isRun : IsRun pidOf (fun _ => false) lateMessage := by
  intro pre post hes
  have hwork : Event.work ∉ pre := by
    have hcount := congrArg (List.count .work) hes
    rw [List.count_append, List.count_cons_self] at hcount
    have hone : List.count .work lateMessage = 1 := by decide
    rw [← List.count_eq_zero]
    omega
  exact run_queued hwork rfl

/-- The expiry of process `7` is lost. -/
theorem lateMessage_loses_expiry : ¬ ∀ es, IsRun pidOf (fun _ => false) es →
    (∀ p n, Event.message p n ∈ es → pidOf p = some p) → BudgetsOk pidOf (fun _ => false) es := by
  intro hclaim
  have hpids : ∀ p n, Event.message p n ∈ lateMessage → pidOf p = some p := by
    intro p n hmem
    simp only [lateMessage, List.mem_cons, Event.message.injEq, reduceCtorEq, List.not_mem_nil,
      or_false, false_or] at hmem
    rcases hmem with ⟨rfl, _⟩ | ⟨rfl, _⟩
    · rfl
    · rfl
  have hexpired : Expired [.message 7 1, .schedSwitch 7, .message 8 5] 7 [.message 8 5] :=
    ⟨[], 1, [], rfl, by decide, nofun, by decide, by decide, by simp⟩
  have hblock := (hclaim lateMessage lateMessage_isRun hpids).noneLost _ [] rfl 7 _ hexpired
  revert hblock
  decide

end ThreadSched.Signal

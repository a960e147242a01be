import ThreadSched.Lib.Trans
import ThreadSched.Task.Sync

/-!
# The ring buffer is a queue (`device/ioqueue.c`)

One producer and one consumer execute `ioq_putchar` and `ioq_getchar` statement by statement, in any
order.  Nothing here depends on when `lock_acquire`, `lock_release` and the switch in `ioq_wait` come to
an end, so each of them may end at any time.

* `PutPc`, `GetPc`, `Feed` — the statements, and the queue with what has gone in and come out.
* `feeds` — the runs.
* `FeedInv` — the invariant: the wrapped indices against counters that do not wrap.
* `feeds_fifo` — what went in is what has come out, what lies in the buffer and the bytes in hand.
-/

set_option autoImplicit false

namespace ThreadSched

/-- The statements of `ioq_putchar(byte)`. -/
inductive PutPc
  | idle
  /-- `while(ioq_full(ioq))`, with the three statements of its body. -/
  | test (byte : BitVec 8)
  | acquire (byte : BitVec 8)
  | wait (byte : BitVec 8)
  | release (byte : BitVec 8)
  /-- `ioq->buf[ioq->head] = byte` -/
  | write (byte : BitVec 8)
  /-- `ioq->head = next_pos(ioq->head)` -/
  | advance (byte : BitVec 8)
  /-- `if(ioq->consumer != NULL)` -/
  | wakeTest
  | wakeup
  deriving DecidableEq, Repr

/-- The statements of `ioq_getchar`; `byte` is its local variable. -/
inductive GetPc
  | idle
  /-- `while(ioq_empty(ioq))`, with the three statements of its body. -/
  | test
  | acquire
  | wait
  | release
  /-- `char byte = ioq->buf[ioq->tail]` -/
  | read
  /-- `ioq->tail = next_pos(ioq->tail)` -/
  | advance (byte : BitVec 8)
  /-- `if(ioq->producer != NULL)` -/
  | wakeTest (byte : BitVec 8)
  | wakeup (byte : BitVec 8)
  deriving DecidableEq, Repr

/-- The queue and its two tasks.  Ghost: the bytes passed to `ioq_putchar` and returned by `ioq_getchar`,
and how often `head` and `tail` were updated. -/
structure Feed where
  ioq : Ioqueue
  put : PutPc
  get : GetPc
  passed : List (BitVec 8)
  returned : List (BitVec 8)
  heads : Nat
  tails : Nat

/-- `ioq_length`. -/
def ioqLength (ioq : Ioqueue) : Nat :=
  if ioq.tail ≤ ioq.head then ioq.head - ioq.tail else bufsize - (ioq.tail - ioq.head)

namespace Feed

/-- The next statement of the producer. -/
def putNext (producer : TaskId) (x : Feed) : Feed :=
  match x.put with
  | .idle => x
  | .test byte => { x with put := if ioqFull x.ioq then .acquire byte else .write byte }
  | .acquire byte => { x with put := .wait byte }
  | .wait byte => { x with ioq := x.ioq.setWaiter .producer (some producer), put := .release byte }
  | .release byte => { x with put := .test byte }
  | .write byte =>
    { x with
      ioq := { x.ioq with buf := Function.update x.ioq.buf x.ioq.head byte }
      put := .advance byte }
  | .advance _ =>
    { x with
      ioq := { x.ioq with head := nextPos x.ioq.head }
      put := .wakeTest
      heads := x.heads + 1 }
  | .wakeTest => { x with put := if x.ioq.waiter .consumer = none then .idle else .wakeup }
  | .wakeup => { x with ioq := x.ioq.setWaiter .consumer none, put := .idle }

/-- The next statement of the consumer. -/
def getNext (consumer : TaskId) (x : Feed) : Feed :=
  match x.get with
  | .idle => x
  | .test => { x with get := if ioqEmpty x.ioq then .acquire else .read }
  | .acquire => { x with get := .wait }
  | .wait => { x with ioq := x.ioq.setWaiter .consumer (some consumer), get := .release }
  | .release => { x with get := .test }
  | .read => { x with get := .advance (x.ioq.buf x.ioq.tail) }
  | .advance byte =>
    { x with
      ioq := { x.ioq with tail := nextPos x.ioq.tail }
      get := .wakeTest byte
      tails := x.tails + 1 }
  | .wakeTest byte =>
    if x.ioq.waiter .producer = none then
      { x with get := .idle, returned := x.returned ++ [byte] }
    else { x with get := .wakeup byte }
  | .wakeup byte =>
    { x with
      ioq := x.ioq.setWaiter .producer none
      get := .idle
      returned := x.returned ++ [byte] }

/-- One step of either task. -/
inductive Step (producer consumer : TaskId) (x : Feed) : Feed → Prop
  | putCall (byte : BitVec 8) : x.put = .idle →
      Step producer consumer x { x with put := .test byte, passed := x.passed ++ [byte] }
  | put : Step producer consumer x (x.putNext producer)
  | getCall : x.get = .idle → Step producer consumer x { x with get := .test }
  | get : Step producer consumer x (x.getNext consumer)

end Feed

/-- The runs, from an initialised queue. -/
def feeds (producer consumer : TaskId) : Trans.Sys Feed where
  init x := x = ⟨ioqueueInit, .idle, .idle, [], [], 0, 0⟩
  step := Feed.Step producer consumer

/-- The byte that `ioq_putchar` was passed and that is not yet counted in `head`. -/
def PutPc.inHand : PutPc → List (BitVec 8)
  | .idle | .wakeTest | .wakeup => []
  | .test byte | .acquire byte | .wait byte | .release byte | .write byte | .advance byte => [byte]

/-- The byte that `ioq_getchar` has taken out and not yet returned. -/
def GetPc.inHand : GetPc → List (BitVec 8)
  | .wakeTest byte | .wakeup byte => [byte]
  | _ => []

/-- What lies in the buffer, from `tail` on. -/
def buffered (ioq : Ioqueue) : List (BitVec 8) :=
  (List.range (ioqLength ioq)).map fun i => ioq.buf ((ioq.tail + i) % bufsize)

/-- What comes out is a prefix of what went in, and nothing is lost: each update of `tail` takes out the
next byte, which is returned or in hand, and the rest lies in the buffer in order; `ioq_length` counts
it. -/
structure FifoOk (x : Feed) : Prop where
  returned : x.returned <+: x.passed
  taken : x.returned ++ x.get.inHand = x.passed.take x.tails
  entered : x.heads ≤ x.passed.length ∧ x.passed.drop x.heads = x.put.inHand
  conserved : x.passed = x.returned ++ x.get.inHand ++ buffered x.ioq ++ x.put.inHand
  between : ∀ i, x.tails ≤ i → i < x.heads → x.passed[i]? = some (x.ioq.buf (i % bufsize))
  head : x.ioq.head < bufsize
  tail : x.ioq.tail < bufsize
  length : x.tails ≤ x.heads ∧ ioqLength x.ioq = x.heads - x.tails
  room : ioqLength x.ioq ≤ bufsize - 1

/-! ## The invariant -/

/-- Where the producer is; `byte` is the next byte to enter the queue. -/
def PutOk (heads tails : Nat) (passed : List (BitVec 8)) (buf : Nat → BitVec 8) : PutPc → Prop
  | .idle | .wakeTest | .wakeup => passed.length = heads
  | .test byte | .acquire byte | .wait byte | .release byte =>
    passed.length = heads + 1 ∧ passed[heads]? = some byte
  | .write byte =>
    (passed.length = heads + 1 ∧ passed[heads]? = some byte) ∧ heads < tails + (bufsize - 1)
  | .advance byte =>
    (passed.length = heads + 1 ∧ passed[heads]? = some byte) ∧ heads < tails + (bufsize - 1) ∧
      buf (heads % bufsize) = byte

/-- Where the consumer is. -/
def GetOk (heads tails : Nat) (passed returned : List (BitVec 8)) : GetPc → Prop
  | .idle | .test | .acquire | .wait | .release => returned = passed.take tails
  | .read => returned = passed.take tails ∧ tails < heads
  | .advance byte => returned = passed.take tails ∧ tails < heads ∧ passed[tails]? = some byte
  | .wakeTest byte | .wakeup byte => returned ++ [byte] = passed.take tails

/-- **The invariant.** -/
structure FeedInv (x : Feed) : Prop where
  head : x.ioq.head = x.heads % bufsize
  tail : x.ioq.tail = x.tails % bufsize
  le : x.tails ≤ x.heads
  room : x.heads ≤ x.tails + (bufsize - 1)
  stored : ∀ i, x.tails ≤ i → i < x.heads → x.passed[i]? = some (x.ioq.buf (i % bufsize))
  put : PutOk x.heads x.tails x.passed x.ioq.buf x.put
  get : GetOk x.heads x.tails x.passed x.returned x.get

section

variable {x : Feed} {heads tails : Nat} {passed returned : List (BitVec 8)} {buf : Nat → BitVec 8}
  {producer consumer : TaskId}

/-- The length formula on wrapped indices. -/
theorem ioqLength_eq {ioq : Ioqueue} (hhead : ioq.head = heads % bufsize)
    (htail : ioq.tail = tails % bufsize) (hle : tails ≤ heads)
    (hroom : heads ≤ tails + (bufsize - 1)) : ioqLength ioq = heads - tails := by
  unfold ioqLength
  rw [hhead, htail]
  unfold bufsize at *
  split
  · omega
  · omega

theorem nextPos_mod {pos : Nat} (h : pos = heads % bufsize) : nextPos pos = (heads + 1) % bufsize := by
  unfold nextPos
  rw [h, Nat.mod_add_mod]

/-- The queue is full when `bufsize - 1` bytes are in it. -/
theorem not_full_iff {ioq : Ioqueue} (hhead : ioq.head = heads % bufsize)
    (htail : ioq.tail = tails % bufsize) (hle : tails ≤ heads)
    (hroom : heads ≤ tails + (bufsize - 1)) : ¬ ioqFull ioq ↔ heads < tails + (bufsize - 1) := by
  unfold ioqFull
  rw [nextPos_mod hhead, htail]
  unfold bufsize at *
  constructor
  · intro hne
    by_contra hfull
    apply hne
    omega
  · intro hlt heq
    omega

theorem not_empty_iff {ioq : Ioqueue} (hhead : ioq.head = heads % bufsize)
    (htail : ioq.tail = tails % bufsize) (hle : tails ≤ heads)
    (hroom : heads ≤ tails + (bufsize - 1)) : ¬ ioqEmpty ioq ↔ tails < heads := by
  unfold ioqEmpty
  rw [hhead, htail]
  unfold bufsize at *
  constructor
  · intro hne
    by_contra hempty
    apply hne
    omega
  · intro hlt heq
    omega

/-- The slot at `heads` is none of those in use. -/
theorem mod_ne_of_room {i : Nat} (hi : tails ≤ i) (hlt : i < heads)
    (hroom : heads < tails + (bufsize - 1)) : i % bufsize ≠ heads % bufsize := by
  unfold bufsize at *
  omega

/-- The consumer makes room. -/
theorem PutOk.tails_succ {pc : PutPc} (h : PutOk heads tails passed buf pc) :
    PutOk heads (tails + 1) passed buf pc := by
  cases pc with
  | write byte =>
      have hlt := h.2
      exact ⟨h.1, by omega⟩
  | advance byte =>
      have hlt := h.2.1
      exact ⟨h.1, by omega, h.2.2⟩
  | _ => exact h

/-- The producer adds bytes. -/
theorem GetOk.append {pc : GetPc} (h : GetOk heads tails passed returned pc) (l : List (BitVec 8))
    (hle : tails ≤ passed.length) : GetOk heads tails (passed ++ l) returned pc := by
  have htake : (passed ++ l).take tails = passed.take tails := List.take_append_of_le_length hle
  cases pc with
  | read => exact ⟨h.1.trans htake.symm, h.2⟩
  | advance byte =>
      have hlt : tails < passed.length := (List.getElem?_eq_some_iff.1 h.2.2).1
      exact ⟨h.1.trans htake.symm, h.2.1, (List.getElem?_append_left hlt).trans h.2.2⟩
  | idle => exact Eq.trans h htake.symm
  | test => exact Eq.trans h htake.symm
  | acquire => exact Eq.trans h htake.symm
  | wait => exact Eq.trans h htake.symm
  | release => exact Eq.trans h htake.symm
  | wakeTest byte => exact Eq.trans h htake.symm
  | wakeup byte => exact Eq.trans h htake.symm

theorem GetOk.heads_succ {pc : GetPc} (h : GetOk heads tails passed returned pc) :
    GetOk (heads + 1) tails passed returned pc := by
  cases pc with
  | read => exact ⟨h.1, Nat.lt_succ_of_lt h.2⟩
  | advance byte => exact ⟨h.1, Nat.lt_succ_of_lt h.2.1, h.2.2⟩
  | _ => exact h

/-- `ioq_putchar` is called. -/
theorem FeedInv.putCall (h : FeedInv x) (hput : x.put = .idle) (byte : BitVec 8) :
    FeedInv { x with put := .test byte, passed := x.passed ++ [byte] } := by
  have hlength : x.passed.length = x.heads := by
    have hp := h.put
    rw [hput] at hp
    exact hp
  refine ⟨h.head, h.tail, h.le, h.room, ?_, ⟨?_, ?_⟩, h.get.append [byte] (hlength ▸ h.le)⟩
  · intro i hi hlt
    have hmem : i < x.passed.length := hlength ▸ hlt
    rw [List.getElem?_append_left hmem]
    exact h.stored i hi hlt
  · rw [List.length_append, hlength]
    rfl
  · rw [← hlength]
    exact List.getElem?_concat_length

/-- **A statement of the producer.** -/
theorem FeedInv.putNext (h : FeedInv x) : FeedInv (x.putNext producer) := by
  have hp := h.put
  unfold Feed.putNext
  cases hput : x.put with
  | idle => exact h
  | test byte =>
      rw [hput] at hp
      refine ⟨h.head, h.tail, h.le, h.room, h.stored, ?_, h.get⟩
      by_cases hfull : ioqFull x.ioq
      · show PutOk _ _ _ _ (if ioqFull x.ioq then _ else _)
        rw [if_pos hfull]
        exact hp
      · show PutOk _ _ _ _ (if ioqFull x.ioq then _ else _)
        rw [if_neg hfull]
        exact ⟨hp, (not_full_iff h.head h.tail h.le h.room).1 hfull⟩
  | acquire byte =>
      rw [hput] at hp
      exact ⟨h.head, h.tail, h.le, h.room, h.stored, hp, h.get⟩
  | wait byte =>
      rw [hput] at hp
      exact ⟨h.head, h.tail, h.le, h.room, h.stored, hp, h.get⟩
  | release byte =>
      rw [hput] at hp
      exact ⟨h.head, h.tail, h.le, h.room, h.stored, hp, h.get⟩
  | write byte =>
      rw [hput] at hp
      refine ⟨h.head, h.tail, h.le, h.room, ?_, ⟨hp.1, hp.2, ?_⟩, h.get⟩
      · -- the slot written is none of those in use
        intro i hi hlt
        have hne : i % bufsize ≠ x.ioq.head := by
          rw [h.head]
          exact mod_ne_of_room hi hlt hp.2
        show _ = some (Function.update x.ioq.buf x.ioq.head byte (i % bufsize))
        rw [Function.update_of_ne hne]
        exact h.stored i hi hlt
      · show Function.update x.ioq.buf x.ioq.head byte (x.heads % bufsize) = byte
        rw [← h.head, Function.update_self]
  | advance byte =>
      rw [hput] at hp
      obtain ⟨⟨hlength, hbyte⟩, hroom, hbuf⟩ := hp
      refine ⟨nextPos_mod h.head, h.tail, Nat.le_succ_of_le h.le, hroom, ?_, hlength, h.get.heads_succ⟩
      intro i hi hlt
      by_cases hlast : i = x.heads
      · rw [hlast, hbyte]
        exact congrArg some hbuf.symm
      · have hlt : i < x.heads + 1 := hlt
        exact h.stored i hi (by omega)
  | wakeTest =>
      rw [hput] at hp
      refine ⟨h.head, h.tail, h.le, h.room, h.stored, ?_, h.get⟩
      by_cases hnone : x.ioq.waiter .consumer = none
      · show PutOk _ _ _ _ (if x.ioq.waiter .consumer = none then _ else _)
        rw [if_pos hnone]
        exact hp
      · show PutOk _ _ _ _ (if x.ioq.waiter .consumer = none then _ else _)
        rw [if_neg hnone]
        exact hp
  | wakeup =>
      rw [hput] at hp
      exact ⟨h.head, h.tail, h.le, h.room, h.stored, hp, h.get⟩

/-- **A statement of the consumer.** -/
theorem FeedInv.getNext (h : FeedInv x) : FeedInv (x.getNext consumer) := by
  have hg := h.get
  unfold Feed.getNext
  cases hget : x.get with
  | idle => exact h
  | test =>
      rw [hget] at hg
      refine ⟨h.head, h.tail, h.le, h.room, h.stored, h.put, ?_⟩
      by_cases hempty : ioqEmpty x.ioq
      · show GetOk _ _ _ _ (if ioqEmpty x.ioq then _ else _)
        rw [if_pos hempty]
        exact hg
      · show GetOk _ _ _ _ (if ioqEmpty x.ioq then _ else _)
        rw [if_neg hempty]
        exact ⟨hg, (not_empty_iff h.head h.tail h.le h.room).1 hempty⟩
  | acquire =>
      rw [hget] at hg
      exact ⟨h.head, h.tail, h.le, h.room, h.stored, h.put, hg⟩
  | wait =>
      rw [hget] at hg
      exact ⟨h.head, h.tail, h.le, h.room, h.stored, h.put, hg⟩
  | release =>
      rw [hget] at hg
      exact ⟨h.head, h.tail, h.le, h.room, h.stored, h.put, hg⟩
  | read =>
      rw [hget] at hg
      refine ⟨h.head, h.tail, h.le, h.room, h.stored, h.put, hg.1, hg.2, ?_⟩
      rw [h.tail]
      exact h.stored x.tails (le_refl _) hg.2
  | advance byte =>
      rw [hget] at hg
      obtain ⟨hreturned, hlt, hbyte⟩ := hg
      refine ⟨h.head, nextPos_mod h.tail, hlt, ?_, ?_, h.put.tails_succ, ?_⟩
      · show x.heads ≤ x.tails + 1 + (bufsize - 1)
        have hroom := h.room
        omega
      · intro i hi hlt'
        exact h.stored i (Nat.le_of_succ_le hi) hlt'
      · show x.returned ++ [byte] = x.passed.take (x.tails + 1)
        rw [hreturned, List.take_add_one, hbyte]
        rfl
  | wakeTest byte =>
      rw [hget] at hg
      by_cases hnone : x.ioq.waiter .producer = none
      · simp only [if_pos hnone]
        exact ⟨h.head, h.tail, h.le, h.room, h.stored, h.put, hg⟩
      · simp only [if_neg hnone]
        exact ⟨h.head, h.tail, h.le, h.room, h.stored, h.put, hg⟩
  | wakeup byte =>
      rw [hget] at hg
      exact ⟨h.head, h.tail, h.le, h.room, h.stored, h.put, hg⟩

/-- **The step lemma.** -/
theorem FeedInv.step {x' : Feed} (h : FeedInv x) (hs : Feed.Step producer consumer x x') :
    FeedInv x' := by
  cases hs with
  | putCall byte hput => exact h.putCall hput byte
  | put => exact h.putNext
  | getCall hget =>
      have hg := h.get
      rw [hget] at hg
      exact ⟨h.head, h.tail, h.le, h.room, h.stored, h.put, hg⟩
  | get => exact h.getNext

/-- The bytes taken out are those that the updates of `tail` count. -/
theorem GetOk.taken {pc : GetPc} (h : GetOk heads tails passed returned pc) :
    returned ++ pc.inHand = passed.take tails := by
  cases pc with
  | wakeTest byte => exact h
  | wakeup byte => exact h
  | read => exact (List.append_nil _).trans h.1
  | advance byte => exact (List.append_nil _).trans h.1
  | idle => exact (List.append_nil _).trans h
  | test => exact (List.append_nil _).trans h
  | acquire => exact (List.append_nil _).trans h
  | wait => exact (List.append_nil _).trans h
  | release => exact (List.append_nil _).trans h

theorem drop_eq_singleton {byte : BitVec 8} (hlength : passed.length = heads + 1)
    (hbyte : passed[heads]? = some byte) : passed.drop heads = [byte] := by
  obtain ⟨hlt, hget⟩ := List.getElem?_eq_some_iff.1 hbyte
  rw [List.drop_eq_getElem_cons hlt, hget, List.drop_eq_nil_of_le hlength.le]

/-- The bytes not yet in the queue are the one in hand. -/
theorem PutOk.entered {pc : PutPc} (h : PutOk heads tails passed buf pc) :
    heads ≤ passed.length ∧ passed.drop heads = pc.inHand := by
  have hall : passed.length = heads → heads ≤ passed.length ∧ passed.drop heads = [] :=
    fun hl => ⟨hl.ge, List.drop_eq_nil_of_le hl.le⟩
  have hlast : ∀ byte, passed.length = heads + 1 ∧ passed[heads]? = some byte →
      heads ≤ passed.length ∧ passed.drop heads = [byte] :=
    fun byte hl => ⟨by omega, drop_eq_singleton hl.1 hl.2⟩
  cases pc with
  | idle => exact hall h
  | wakeTest => exact hall h
  | wakeup => exact hall h
  | test byte => exact hlast byte h
  | acquire byte => exact hlast byte h
  | wait byte => exact hlast byte h
  | release byte => exact hlast byte h
  | write byte => exact hlast byte h.1
  | advance byte => exact hlast byte h.1

/-- The buffer holds the bytes between the two counters. -/
theorem FeedInv.buffered_eq (h : FeedInv x) :
    buffered x.ioq = (x.passed.take x.heads).drop x.tails := by
  unfold buffered
  rw [ioqLength_eq h.head h.tail h.le h.room, h.tail, List.drop_take]
  apply List.ext_getElem?
  intro i
  by_cases hi : i < x.heads - x.tails
  · have hbyte := h.stored (x.tails + i) (by omega) (by omega)
    rw [List.getElem?_map, List.getElem?_range hi, List.getElem?_take_of_lt hi, List.getElem?_drop,
      hbyte, Option.map_some, Nat.mod_add_mod]
  · rw [List.getElem?_eq_none (by simpa using hi),
      List.getElem?_eq_none ((List.length_take_le _ _).trans (not_lt.1 hi))]

theorem FeedInv.fifoOk (h : FeedInv x) : FifoOk x := by
  have hlength := ioqLength_eq h.head h.tail h.le h.room
  have htaken := h.get.taken
  have hentered := h.put.entered
  refine ⟨?_, htaken, hentered, ?_, h.stored, ?_, ?_, ⟨h.le, hlength⟩, ?_⟩
  · exact (List.prefix_append _ _).trans (htaken ▸ List.take_prefix _ _)
  · -- the passed bytes, cut at `tails` and at `heads`
    have hcut : (x.passed.take x.heads).take x.tails = x.passed.take x.tails := by
      rw [List.take_take, min_eq_left h.le]
    calc x.passed
        = x.passed.take x.heads ++ x.passed.drop x.heads := (List.take_append_drop _ _).symm
      _ = (x.passed.take x.heads).take x.tails ++ (x.passed.take x.heads).drop x.tails ++
            x.passed.drop x.heads := by rw [List.take_append_drop x.tails]
      _ = x.returned ++ x.get.inHand ++ buffered x.ioq ++ x.put.inHand := by
          rw [hcut, ← htaken, ← h.buffered_eq, hentered.2]
  · rw [h.head]
    exact Nat.mod_lt _ (by decide)
  · rw [h.tail]
    exact Nat.mod_lt _ (by decide)
  · rw [hlength]
    have hroom := h.room
    omega

/-- **The ring buffer is a queue** in every run. -/
theorem feeds_fifo (h : (feeds producer consumer).Reach x) : FifoOk x := by
  have hinv : FeedInv x := by
    refine (feeds producer consumer).invariant ?_ (fun _ _ hx hs => hx.step hs) h
    rintro _ rfl
    exact ⟨rfl, rfl, le_refl 0, Nat.zero_le _, fun i _ hi => absurd hi (Nat.not_lt_zero i), rfl, rfl⟩
  exact hinv.fifoOk

theorem reach_puts (h : (feeds producer consumer).Reach x) (n : Nat) :
    (feeds producer consumer).Reach ((Feed.putNext producer)^[n] x) := by
  induction n with
  | zero => exact h
  | succ n ih =>
      rw [Function.iterate_succ_apply']
      exact ih.step .put

theorem reach_gets (h : (feeds producer consumer).Reach x) (n : Nat) :
    (feeds producer consumer).Reach ((Feed.getNext consumer)^[n] x) := by
  induction n with
  | zero => exact h
  | succ n ih =>
      rw [Function.iterate_succ_apply']
      exact ih.step .get

/-- The consumer finds the queue empty and registers.  7 wakes it and is returned, 8 is in hand, and 9
is still to enter the queue. -/
theorem feeds_fifo_returned : ∃ x, (feeds 1 2).Reach x ∧ x.passed = [7, 8, 9] ∧ x.returned = [7] ∧
    x.get.inHand = [8] ∧ x.put.inHand = [9] ∧ x.tails = 2 ∧ x.heads = 2 ∧ FifoOk x := by
  have h₀ : (feeds 1 2).Reach ⟨ioqueueInit, .idle, .idle, [], [], 0, 0⟩ := .init rfl
  have hwait := reach_gets (h₀.step (Feed.Step.getCall rfl)) 3
  have hseven := reach_puts (hwait.step (Feed.Step.putCall 7 rfl)) 5
  have height := reach_puts (hseven.step (Feed.Step.putCall 8 rfl)) 4
  have hreturn := reach_gets height 5
  have hnine := reach_puts (hreturn.step (Feed.Step.putCall 9 rfl)) 2
  have hhand := reach_gets (hnine.step (Feed.Step.getCall rfl)) 3
  exact ⟨_, hhand, rfl, rfl, rfl, rfl, rfl, rfl, feeds_fifo hhand⟩

end

end ThreadSched

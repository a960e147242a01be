import Mathlib.Logic.Function.Basic
import Mathlib.Tactic.NormNum

/-!
# The interposed `fcntl` and `socket` (`hook.c`)

The program's calls go through functions of the same name that call the kernel's.  Those keep a table of
attributes for the descriptors; for a task that is hooked they force `O_NONBLOCK`.

* `Kernel` — the kernel's `fcntl` and `socket`.
* `Kernel.Documented` — what the manual says of them, as far as it is needed.
* `fcntl`, `socket` — the functions of `hook.c`.

An `int` is a `BitVec 32`; the third argument of `fcntl` is a register.
-/

set_option autoImplicit false

namespace ThreadSched.Hook

abbrev CInt := BitVec 32

abbrev Arg := BitVec 64

/-- `va_arg(arg_list, int)`. -/
def vaInt (arg : Arg) : CInt := arg.setWidth 32

/-- An `int` passed as third argument. -/
def intArg (param : CInt) : Arg := param.setWidth 64

def F_DUPFD : CInt := 0#32
def F_GETFD : CInt := 1#32
def F_SETFD : CInt := 2#32
def F_GETFL : CInt := 3#32
def F_SETFL : CInt := 4#32
def F_GETLK : CInt := 5#32
def F_SETLK : CInt := 6#32
def F_SETLKW : CInt := 7#32

/-- `04000`. -/
def O_NONBLOCK : CInt := BitVec.twoPow 32 11

/-- The `O_NONBLOCK` bit of some flags. -/
def nonblock (flags : CInt) : Bool := flags.getLsbD 11

/-- The kernel, for states `κ` of the descriptors.  Each function returns its result first. -/
structure Kernel (κ : Type) where
  fcntl : CInt → CInt → Arg → κ → CInt × κ
  socket : CInt → CInt → CInt → κ → CInt × κ
  /-- The status flags of a descriptor. -/
  statusFlags : κ → CInt → CInt

/-- `struct fd_attributes`. -/
structure FdAttributes where
  domain : CInt
  fdFlag : CInt
  readTimeout : CInt
  wirteTimeout : CInt
  deriving DecidableEq

/-- `attributes_length`, the length of `fd_2_attributes`. -/
def attributesLength : Int := 125100 * 8

/-- The indices of `fd_2_attributes`. -/
def InTable (fd : CInt) : Prop := 0 ≤ fd.toInt ∧ fd.toInt < attributesLength

instance (fd : CInt) : Decidable (InTable fd) := inferInstanceAs (Decidable (_ ∧ _))

inductive Fault
  | outOfBounds
  | nullPointer
  deriving DecidableEq

/-- The kernel's descriptors and the table of attributes. -/
structure Process (κ : Type) where
  kernel : κ
  fd2Attributes : CInt → Option FdAttributes

variable {κ : Type}

def Process.setAttributes (w : Process κ) (fd : CInt) (attributes : FdAttributes) : Process κ :=
  { w with fd2Attributes := Function.update w.fd2Attributes fd (some attributes) }

/-- A call of the kernel. -/
def Process.call (w : Process κ) (f : κ → CInt × κ) : CInt × Process κ :=
  ((f w.kernel).1, { w with kernel := (f w.kernel).2 })

/-- `create_fd_attributes`.  Its first test never succeeds. -/
def createFdAttributes (fd : CInt) (w : Process κ) :
    Except Fault (Option FdAttributes × Process κ) :=
  if fd.toInt < 0 ∧ fd.toInt ≥ attributesLength then .ok (none, w)
  else if ¬ InTable fd then .error .outOfBounds
  else match w.fd2Attributes fd with
    | some temp => .ok (some temp, w)
    | none =>
      let temp : FdAttributes :=
        { domain := 0, fdFlag := 0, readTimeout := 1000, wirteTimeout := 1000 }
      .ok (some temp, w.setAttributes fd temp)

/-- The `switch` of `fcntl`. -/
def fcntlSwitch (K : Kernel κ) (isHook : Bool) (fd cmd : CInt) (arg : Arg)
    (attributes : Option FdAttributes) (w : Process κ) : CInt × Process κ :=
  if cmd = F_GETFD then
    let (ret, w) := w.call (K.fcntl fd cmd 0)
    if attributes.any fun a => a.fdFlag &&& O_NONBLOCK = 0 then (ret &&& ~~~O_NONBLOCK, w)
    else (ret, w)
  else if cmd = F_SETFD then
    let (_, w) := w.call (K.fcntl fd cmd (intArg (vaInt arg)))
    (0, w)
  else if cmd = F_GETFL then w.call (K.fcntl fd cmd 0)
  else if cmd = F_SETFL then
    let param := vaInt arg
    let flag := if isHook ∧ attributes.isSome then param ||| O_NONBLOCK else param
    let (ret, w) := w.call (K.fcntl fd cmd (intArg flag))
    match attributes with
    | some a => if ret = 0 then (ret, w.setAttributes fd { a with fdFlag := param }) else (ret, w)
    | none => (ret, w)
  else if cmd = F_GETLK ∨ cmd = F_SETLK ∨ cmd = F_SETLKW then w.call (K.fcntl fd cmd arg)
  else if cmd = F_DUPFD then w.call (K.fcntl fd cmd (intArg (vaInt arg)))
  else (0, w)

/-- `fcntl`, where `isHook` is `current_is_hook()`. -/
def fcntl (K : Kernel κ) (isHook : Bool) (fd cmd : CInt) (arg : Arg) (w : Process κ) :
    Except Fault (CInt × Process κ) :=
  if fd.toInt < 0 then .ok (123, w)  -- `__LINE__`
  else do
    let (attributes, w) ← createFdAttributes fd w
    pure (fcntlSwitch K isHook fd cmd arg attributes w)

/-- `socket`. -/
def socket (K : Kernel κ) (isHook : Bool) (domain type protocol : CInt) (w : Process κ) :
    Except Fault (CInt × Process κ) :=
  if isHook = false then .ok (w.call (K.socket domain type protocol))
  else do
    let (fd, w) := w.call (K.socket domain type protocol)
    if fd.toInt < 0 then pure (fd, w)
    else do
      let (attributes, w) ← createFdAttributes fd w
      match attributes with
      | none => .error .nullPointer
      | some a => do
        let w := w.setAttributes fd { a with domain := domain }
        let (flags, w) := w.call (K.fcntl fd F_GETFL 0)
        let (_, w) ← fcntl K isHook fd F_SETFL (intArg flags) w
        pure (fd, w)

/-- The manual on `fcntl(2)` and `socket(2)`. -/
structure Kernel.Documented (K : Kernel κ) : Prop where
  /-- These commands take an `int`. -/
  intArg : ∀ fd cmd arg k, cmd = F_SETFD ∨ cmd = F_SETFL ∨ cmd = F_DUPFD →
    K.fcntl fd cmd (Hook.intArg (vaInt arg)) k = K.fcntl fd cmd arg k
  /-- These ignore their argument. -/
  noArg : ∀ fd cmd arg k, cmd = F_GETFD ∨ cmd = F_GETFL → K.fcntl fd cmd 0 k = K.fcntl fd cmd arg k
  badFd : ∀ fd cmd arg k, fd.toInt < 0 → K.fcntl fd cmd arg k = (-1, k)
  getfl : ∀ fd arg k, K.fcntl fd F_GETFL arg k = (-1, k) ∨
    K.fcntl fd F_GETFL arg k = (K.statusFlags k fd, k)
  setfl : ∀ fd arg k, K.fcntl fd F_SETFL arg k = (-1, k) ∨ ∃ k', K.fcntl fd F_SETFL arg k = (0, k') ∧
    nonblock (K.statusFlags k' fd) = nonblock (vaInt arg) ∧
    ∀ fd', fd' ≠ fd → K.statusFlags k' fd' = K.statusFlags k fd'
  /-- These leave the status flags alone. -/
  others : ∀ fd cmd arg k,
    cmd ∈ [F_GETFD, F_SETFD, F_GETFL, F_GETLK, F_SETLK, F_SETLKW] →
    K.statusFlags (K.fcntl fd cmd arg k).2 = K.statusFlags k
  /-- A duplicate has the flags of the original. -/
  dupfd : ∀ fd arg k, K.fcntl fd F_DUPFD arg k = (-1, k) ∨ ∃ fd' k',
    K.fcntl fd F_DUPFD arg k = (fd', k') ∧ 0 ≤ fd'.toInt ∧
    K.statusFlags k' = Function.update (K.statusFlags k) fd' (K.statusFlags k fd)
  /-- A new descriptor does not change the flags of the others. -/
  socket : ∀ domain type protocol k, K.socket domain type protocol k = (-1, k) ∨ ∃ fd k',
    K.socket domain type protocol k = (fd, k') ∧ 0 ≤ fd.toInt ∧
    ∀ fd', fd' ≠ fd → K.statusFlags k' fd' = K.statusFlags k fd'

/-! ## The bit -/

section bit

variable {flags : CInt}

theorem nonblock_or (flags : CInt) : nonblock (flags ||| O_NONBLOCK) = true := by
  simp [nonblock, O_NONBLOCK]

theorem nonblock_and_not (flags : CInt) : nonblock (flags &&& ~~~O_NONBLOCK) = false := by
  simp [nonblock, O_NONBLOCK]

theorem and_eq_zero_iff : flags &&& O_NONBLOCK = 0 ↔ nonblock flags = false := by
  unfold O_NONBLOCK nonblock
  rw [BitVec.and_twoPow]
  cases flags.getLsbD 11 with
  | true => decide
  | false => simp

theorem or_eq_iff : flags ||| O_NONBLOCK = flags ↔ nonblock flags = true := by
  constructor
  · intro h
    rw [← h]
    exact nonblock_or flags
  · intro h
    ext i hi
    simp only [O_NONBLOCK, BitVec.getElem_or, BitVec.getElem_twoPow]
    by_cases hi11 : i = 11
    · subst hi11
      rw [← BitVec.getLsbD_eq_getElem, show flags.getLsbD 11 = true from h]
      rfl
    · simp [hi11]

theorem and_not_eq_iff : flags &&& ~~~O_NONBLOCK = flags ↔ nonblock flags = false := by
  constructor
  · intro h
    rw [← h]
    exact nonblock_and_not flags
  · intro h
    ext i hi
    simp only [O_NONBLOCK, BitVec.getElem_and, BitVec.getElem_not, BitVec.getElem_twoPow]
    by_cases hi11 : i = 11
    · subst hi11
      rw [← BitVec.getLsbD_eq_getElem, show flags.getLsbD 11 = false from h]
      rfl
    · simp [hi11]

theorem vaInt_intArg (param : CInt) : vaInt (intArg param) = param := by
  unfold vaInt intArg
  simp

theorem intArg_or (param param' : CInt) :
    intArg (param ||| param') = intArg param ||| intArg param' := by
  unfold intArg
  rw [BitVec.setWidth_or]

theorem vaInt_or (arg : Arg) :
    vaInt (arg ||| intArg O_NONBLOCK) = vaInt arg ||| O_NONBLOCK := by
  unfold vaInt
  rw [BitVec.setWidth_or]
  congr 1

end bit

end ThreadSched.Hook

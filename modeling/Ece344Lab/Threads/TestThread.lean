import Ece344Lab.Threads.Protected

set_option autoImplicit false

/- The tests of locks and of condition variables in `test_thread.c`. Every read and every write of a
shared variable is an access of its own. The tests do not look here at the values of `thread_create`
and `thread_yield`. -/
namespace Ece344Lab.Threads.TestThread

open Threads.System

/-- `struct timeval`. -/
structure Timeval where
  tvSec : Int
  tvUsec : Int

def timersub (a b : Timeval) : Timeval :=
  if a.tvUsec - b.tvUsec < 0 then ⟨a.tvSec - b.tvSec - 1, a.tvUsec - b.tvUsec + 1000000⟩
  else ⟨a.tvSec - b.tvSec, a.tvUsec - b.tvUsec⟩

/-- The shared variables, what `unintr_printf` has printed (for each thread that passes its round
and its number, and how many microseconds a wait took that was too fast), and the clock, which has
been read some times. -/
structure Memory where
  testval1 : UInt64
  testval2 : UInt64
  testval3 : UInt64
  done : Int
  printed : List (Nat × Nat)
  tooFast : List Int
  clock : Nat → Timeval
  readings : Nat

variable {ℓ : Type}

/-- `assert`. -/
def checked (condition : Bool → Memory → Bool) (next : ℓ) : Instruction Memory ℓ :=
  .access fun enabled m => if condition enabled m then .ok (m, next) else .error .exits

/-- `assert(interrupts_enabled())`. -/
def interruptsEnabled (next : ℓ) : Instruction Memory ℓ := checked (fun enabled _ => enabled) next

def assign (f : Memory → Memory) (next : ℓ) : Instruction Memory ℓ :=
  .access fun _ m => .ok (f m, next)

def fetch {α : Type} (f : Memory → α) (next : α → ℓ) : Instruction Memory ℓ :=
  .access fun _ m => .ok (m, next (f m))

/-- `__sync_fetch_and_add(&done, 1)`. -/
def addDone (next : ℓ) : Instruction Memory ℓ :=
  assign (fun m => { m with done := (m.done + 1).bmod (2 ^ 32) }) next

def gettimeofday (next : Timeval → ℓ) : Instruction Memory ℓ :=
  .access fun _ m => .ok ({ m with readings := m.readings + 1 }, next (m.clock m.readings))

/-- `unintr_printf`, with the timer signal blocked from its beginning to its end. -/
def unintrPrintf (i num : Nat) (next : ℓ) : Instruction Memory ℓ :=
  assign (fun m => { m with printed := m.printed ++ [(i, num)] }) next

section Keeps

variable {lock : Nat} {region : Region Memory ℓ} {f : Memory → Memory}
  {condition : Bool → Memory → Bool} {l next : ℓ}

theorem assign_keeps (same : region.inside l ↔ region.inside next)
    (within : region.inside l → ∀ m, region.holding l m → region.holding next (f m))
    (without : ¬ region.inside l → (∀ m, region.invariant m → region.invariant (f m)) ∧
      (∀ m, region.abandoned m → region.abandoned (f m)) ∧
      ∀ l' m, region.inside l' → region.holding l' m → region.holding l' (f m)) :
    (assign f next).Keeps lock region l := by
  rintro m m' next' ⟨⟩
  exact ⟨same, fun isInside => within isInside m,
    fun outside => ⟨(without outside).1 m, (without outside).2.1 m,
      fun l' => (without outside).2.2 l' m⟩⟩

theorem reads_keeps {run : Bool → Memory → Except Fault (Memory × ℓ)}
    (reads : ∀ m m' next, run true m = .ok (m', next) → m' = m ∧
      (region.inside l ↔ region.inside next) ∧
      (region.inside l → region.holding l m → region.holding next m)) :
    (Instruction.access run).Keeps lock region l := by
  intro m m' next runs
  obtain ⟨rfl, same, within⟩ := reads m m' next runs
  exact ⟨same, within, fun _ => ⟨id, id, fun _ _ => id⟩⟩

theorem checked_keeps (same : region.inside l ↔ region.inside next)
    (within : region.inside l → ∀ m, condition true m = true → region.holding l m →
      region.holding next m) :
    (checked condition next).Keeps lock region l := by
  refine reads_keeps fun m m' next' runs => ?_
  split at runs
  · next holds =>
    cases runs
    exact ⟨rfl, same, fun isInside => within isInside m holds⟩
  · cases runs

theorem fetch_keeps {α : Type} {g : Memory → α} {next : α → ℓ}
    (same : ∀ value, region.inside l ↔ region.inside (next value))
    (within : region.inside l → ∀ m, region.holding l m → region.holding (next (g m)) m) :
    (fetch g next).Keeps lock region l := by
  refine reads_keeps fun m m' next' runs => ?_
  cases runs
  exact ⟨rfl, same _, fun isInside => within isInside m⟩

end Keeps

/-- `NTHREADS`, `LOOPS` and `NLOCKLOOPS`. -/
structure Bounds where
  nthreads : Nat
  loops : Nat
  nlockloops : Nat

/-- `__sync_fetch_and_add(&done, 0) < NTHREADS`. -/
def awaitDone {ℓ : Type} (bounds : Bounds) (yields destroys : ℓ) : Instruction Memory ℓ :=
  fetch Memory.done fun done => if done < bounds.nthreads then yields else destroys

theorem awaitDone_keeps {ℓ : Type} {lock : Nat} {region : Region Memory ℓ} {bounds : Bounds}
    {l yields destroys : ℓ} (outside : ¬ region.inside l) (yes : ¬ region.inside yields)
    (no : ¬ region.inside destroys) : (awaitDone bounds yields destroys).Keeps lock region l := by
  refine fetch_keeps (fun done => ?_) fun isInside => absurd isInside outside
  split
  · exact iff_of_false outside yes
  · exact iff_of_false outside no

namespace LockTest

/-- The shared variables that are compared. -/
inductive Variable
  | testval1
  | testval2
  | testval3

/-- The value of a variable. -/
def Variable.get (m : Memory) : Variable → UInt64
  | .testval1 => m.testval1
  | .testval2 => m.testval2
  | .testval3 => m.testval3

/-- A condition on the values of variables that are read one after the other. -/
inductive Expression
  | value (holds : Bool)
  | read (v : Variable) (next : UInt64 → Expression)

/-- What it comes to while the variables do not change. -/
def Expression.eval (m : Memory) : Expression → Bool
  | .value holds => holds
  | .read v next => (next (v.get m)).eval m

/-- The assertions of `test_lock_thread` about the variables. -/
def assertions (num : UInt64) : List Expression :=
  [.read .testval2 fun a => .read .testval1 fun b => .read .testval1 fun c => .value (a = b * c),
    .read .testval2 fun a => .read .testval3 fun b => .read .testval3 fun c =>
      .value (a % 3 = (b * c) % 3),
    .read .testval3 fun a => .read .testval1 fun b => .value (a = b % 3),
    .read .testval1 fun a => .value (a = num),
    .read .testval2 fun a => .value (a = num * num),
    .read .testval3 fun a => .value (a = num % 3)]

/-- Where a thread is in the body of the inner loop. -/
inductive Point
  | begins
  | acquires
  | sets1
  | enabled1
  | yields1
  | sets2
  | enabled2
  | yields2
  | sets3
  /-- the assertions about the variables that are left -/
  | checks (rest : List Expression)
  | releases

/-- Where a thread is in `test_lock` or `test_lock_thread`, with `i` and `j`. -/
inductive Place (bounds : Bounds)
  | starts
  | creates (i : Nat)
  | waits
  | yields
  | destroys
  | ends
  | halts
  | thread (num : Fin bounds.nthreads) (i j : Nat) (point : Point)
  | returns

variable {bounds : Bounds}

def testLockThread (testlock : Nat) (num : Fin bounds.nthreads) (i j : Nat) :
    Point → Instruction Memory (Place bounds)
  | .begins =>
      if i < bounds.loops then
        if j < bounds.nlockloops then interruptsEnabled (.thread num i j .acquires)
        else unintrPrintf i num (.thread num (i + 1) 0 .begins)
      else addDone .returns
  | .acquires => .call (.lockAcquire testlock) (.thread num i j .sets1)
  | .sets1 => assign (fun m => { m with testval1 := .ofNat num }) (.thread num i j .enabled1)
  | .enabled1 => interruptsEnabled (.thread num i j .yields1)
  | .yields1 => .call (.threadYield threadAny) (.thread num i j .sets2)
  | .sets2 =>
      assign (fun m => { m with testval2 := .ofNat num * .ofNat num }) (.thread num i j .enabled2)
  | .enabled2 => interruptsEnabled (.thread num i j .yields2)
  | .yields2 => .call (.threadYield threadAny) (.thread num i j .sets3)
  | .sets3 =>
      assign (fun m => { m with testval3 := .ofNat num % 3 })
        (.thread num i j (.checks (assertions (.ofNat num))))
  | .checks (.read v next :: rest) =>
      fetch v.get fun value => .thread num i j (.checks (next value :: rest))
  | .checks (.value holds :: rest) => checked (fun _ _ => holds) (.thread num i j (.checks rest))
  | .checks [] => interruptsEnabled (.thread num i j .releases)
  | .releases => .call (.lockRelease testlock) (.thread num i (j + 1) .begins)

/-- `test_lock`, with the threads that it creates. The lock is there from the beginning. -/
def testLock (bounds : Bounds) (testlock : Nat) : Place bounds → Instruction Memory (Place bounds)
  | .starts => assign (fun m => { m with done := 0 }) (.creates 0)
  | .creates i =>
      if h : i < bounds.nthreads then .create (.thread ⟨i, h⟩ 0 0 .begins) (.creates (i + 1))
      else awaitDone bounds .yields .destroys
  | .waits => awaitDone bounds .yields .destroys
  | .yields => .call (.threadYield threadAny) .waits
  | .destroys => interruptsEnabled .ends
  | .ends => interruptsEnabled .halts
  | .halts => .halt
  | .thread num i j point => testLockThread testlock num i j point
  | .returns => .exit

/-- The thread is between `lock_acquire` and `lock_release`. -/
def Inside : Place bounds → Prop
  | .thread _ _ _ .begins | .thread _ _ _ .acquires => False
  | .thread _ _ _ _ => True
  | _ => False

/-- What the thread `num` knows of the variables while it has the lock. -/
def Point.Known (num : UInt64) (m : Memory) : Point → Prop
  | .begins | .acquires | .sets1 => True
  | .enabled1 | .yields1 | .sets2 => m.testval1 = num
  | .enabled2 | .yields2 | .sets3 => m.testval1 = num ∧ m.testval2 = num * num
  | .checks rest => ∀ e ∈ rest, e.eval m = true
  | .releases => True

def Holding : Place bounds → Memory → Prop
  | .thread num _ _ point, m => point.Known (.ofNat num) m
  | _, _ => True

/-- What the lock of the test protects. -/
def region (bounds : Bounds) : Region Memory (Place bounds) :=
  ⟨Inside, fun _ => True, Holding, fun _ => False⟩

theorem Expression.eval_of_same {m m' : Memory} (first : m'.testval1 = m.testval1)
    (second : m'.testval2 = m.testval2) (third : m'.testval3 = m.testval3) (e : Expression) :
    e.eval m' = e.eval m := by
  induction e with
  | value holds => rfl
  | read v next ih =>
      have same : v.get m' = v.get m := by cases v <;> assumption
      unfold Expression.eval
      rw [same]
      exact ih _

/-- Nothing is known of the other variables. -/
theorem Holding.of_same {l : Place bounds} {m m' : Memory} (first : m'.testval1 = m.testval1)
    (second : m'.testval2 = m.testval2) (third : m'.testval3 = m.testval3) (known : Holding l m) :
    Holding l m' := by
  cases l with
  | thread num i j point =>
      unfold Holding at known ⊢
      cases point with
      | checks rest =>
          exact fun e member =>
            (Expression.eval_of_same first second third e).trans (known e member)
      | begins | acquires | sets1 | releases => trivial
      | _ => simpa only [Point.Known, first, second] using known
  | _ => trivial

theorem square_mod_three {n : Nat} (small : n < 2 ^ 32) :
    UInt64.ofNat n * .ofNat n % 3 = (.ofNat n % 3) * (.ofNat n % 3) % 3 := by
  have square : n * n < 2 ^ 64 := by
    calc n * n ≤ (2 ^ 32 - 1) * (2 ^ 32 - 1) := Nat.mul_le_mul (by omega) (by omega)
      _ < 2 ^ 64 := by decide
  have rest : n % 3 * (n % 3) < 2 ^ 64 := by
    have : n % 3 < 3 := Nat.mod_lt _ (by decide)
    calc n % 3 * (n % 3) ≤ 3 * 3 := Nat.mul_le_mul (by omega) (by omega)
      _ < 2 ^ 64 := by decide
  apply UInt64.toNat_inj.mp
  have value : (UInt64.ofNat n).toNat = n :=
    UInt64.toNat_ofNat_of_lt (Nat.lt_trans small (by decide))
  simp only [UInt64.toNat_mod, UInt64.toNat_mul, value]
  rw [show (3 : UInt64).toNat = 3 from rfl, Nat.mod_eq_of_lt square, Nat.mod_eq_of_lt rest,
    Nat.mul_mod]

/-- The assertions hold for the thread that has set the variables. -/
theorem assertions_hold {num : Nat} (small : num < 2 ^ 32) {m : Memory}
    (first : m.testval1 = .ofNat num)
    (second : m.testval2 = .ofNat num * .ofNat num) (third : m.testval3 = .ofNat num % 3) :
    ∀ e ∈ assertions (.ofNat num), e.eval m = true := by
  simp [assertions, Expression.eval, Variable.get, first, second, third, square_mod_three small]

theorem writes_keeps {testlock : Nat} {f : Memory → Memory} {l next : Place bounds}
    (outside : ¬ Inside l) (same : ¬ Inside next) (first : ∀ m, (f m).testval1 = m.testval1)
    (second : ∀ m, (f m).testval2 = m.testval2) (third : ∀ m, (f m).testval3 = m.testval3) :
    (assign f next).Keeps testlock (region bounds) l :=
  assign_keeps (iff_of_false outside same) (fun isInside => absurd isInside outside)
    fun _ => ⟨fun _ => id, fun _ => id, fun _ m _ => .of_same (first m) (second m) (third m)⟩

theorem testLockThread_keeps (testlock : Nat) (small : bounds.nthreads ≤ 2 ^ 32)
    (num : Fin bounds.nthreads) (i j : Nat) (point : Point) :
    (testLockThread testlock num i j point).Keeps testlock (region bounds)
      (.thread num i j point) := by
  cases point with
  | begins =>
      unfold testLockThread
      dsimp only
      split
      · split
        · exact checked_keeps Iff.rfl (fun _ _ _ => id)
        · exact writes_keeps id id (fun _ => rfl) (fun _ => rfl) fun _ => rfl
      · exact writes_keeps id id (fun _ => rfl) (fun _ => rfl) fun _ => rfl
  | acquires => exact Or.inr ⟨rfl, id, trivial, fun _ _ => trivial⟩
  | releases => exact Or.inr ⟨rfl, trivial, id, fun _ _ => trivial⟩
  | yields1 | yields2 => exact ⟨Iff.rfl, fun _ _ => id⟩
  | sets1 => exact assign_keeps Iff.rfl (fun _ _ _ => rfl) (absurd trivial)
  | enabled1 | enabled2 => exact checked_keeps Iff.rfl (fun _ _ _ => id)
  | sets2 => exact assign_keeps Iff.rfl (fun _ _ known => ⟨known, rfl⟩) (absurd trivial)
  | sets3 =>
      refine assign_keeps Iff.rfl (fun _ m known => ?_) (absurd trivial)
      exact assertions_hold (Nat.lt_of_lt_of_le num.isLt small) known.1 known.2 rfl
  | checks rest =>
      match rest with
      | [] => exact checked_keeps Iff.rfl (fun _ _ _ _ => trivial)
      | .value holds :: rest =>
          exact checked_keeps Iff.rfl fun _ _ _ known e member =>
            known e (List.mem_cons_of_mem _ member)
      | .read v next :: rest =>
          have reads : (fetch v.get fun value => Place.thread num i j
              (.checks (next value :: rest))).Keeps testlock (region bounds)
              (.thread num i j (.checks (.read v next :: rest))) := by
            refine fetch_keeps (fun _ => Iff.rfl) fun _ m known e member => ?_
            have known : ∀ e ∈ Expression.read v next :: rest, e.eval m = true := known
            cases List.mem_cons.mp member with
            | inl first =>
                rw [first]
                exact known (.read v next) List.mem_cons_self
            | inr later => exact known e (List.mem_cons_of_mem _ later)
          exact reads

theorem testLock_keeps (testlock : Nat) (small : bounds.nthreads ≤ 2 ^ 32) (l : Place bounds) :
    (testLock bounds testlock l).Keeps testlock (region bounds) l := by
  cases l with
  | starts => exact writes_keeps id id (fun _ => rfl) (fun _ => rfl) fun _ => rfl
  | creates i =>
      unfold testLock
      dsimp only
      split
      · exact ⟨id, Iff.rfl, fun _ _ => id⟩
      · exact awaitDone_keeps id id id
  | waits => exact awaitDone_keeps id id id
  | yields => exact ⟨Iff.rfl, fun _ _ => id⟩
  | destroys | ends => exact checked_keeps Iff.rfl (fun _ _ _ => id)
  | halts => trivial
  | thread num i j point => exact testLockThread_keeps testlock small num i j point
  | returns => exact nofun

theorem testLock_alone (testlock : Nat) (l : Place bounds) (c : Call)
    (next : Place bounds) (k : Nat)
    (instruction : testLock bounds testlock l = .call c next) (uses : c.Gets k ∨ c.Gives k) :
    k = testlock := by
  have yields : ¬ ((Call.threadYield threadAny).Gets k ∨ (Call.threadYield threadAny).Gives k) :=
    fun uses => uses.elim id id
  cases l with
  | creates i =>
      unfold testLock at instruction
      dsimp only at instruction
      split at instruction <;> cases instruction
  | yields =>
      cases instruction
      exact absurd uses yields
  | thread num i j point =>
      cases point with
      | begins =>
          unfold testLock testLockThread at instruction
          dsimp only at instruction
          split at instruction
          · split at instruction <;> cases instruction
          · cases instruction
      | acquires =>
          cases instruction
          exact (uses.resolve_right id).symm
      | releases =>
          cases instruction
          exact (uses.resolve_left id).symm
      | yields1 | yields2 =>
          cases instruction
          exact absurd uses yields
      | checks rest =>
          match rest with
          | [] | .value _ :: _ | .read _ _ :: _ => cases instruction
      | sets1 | sets2 | sets3 | enabled1 | enabled2 => cases instruction
  | starts | waits | destroys | ends | halts | returns => cases instruction

theorem testLock_checks (testlock : Nat) (l : Place bounds) :
    (testLock bounds testlock l).Checks (region bounds) l := by
  have enabled : ∀ next : Place bounds, (interruptsEnabled next).Checks (region bounds) l :=
    fun next m _ => ⟨(m, next), rfl⟩
  cases l with
  | creates i =>
      unfold testLock
      dsimp only
      split
      · trivial
      · exact fun m _ => ⟨_, rfl⟩
  | starts | waits => exact fun m _ => ⟨_, rfl⟩
  | destroys | ends => exact enabled _
  | yields | halts | returns => trivial
  | thread num i j point =>
      cases point with
      | begins =>
          unfold testLock testLockThread
          dsimp only
          split
          · split
            · exact enabled _
            · exact fun m _ => ⟨_, rfl⟩
          · exact fun m _ => ⟨_, rfl⟩
      | checks rest =>
          match rest with
          | [] => exact enabled _
          | .value holds :: rest =>
              exact fun m known => ⟨_, if_pos (known trivial _ List.mem_cons_self)⟩
          | .read v next :: rest => exact fun m _ => ⟨_, rfl⟩
      | sets1 | sets2 | sets3 => exact fun m _ => ⟨_, rfl⟩
      | enabled1 | enabled2 => exact enabled _
      | acquires | releases | yields1 | yields2 => trivial

variable {testlock : Nat} {memory : Memory} {sys : System Memory (Place bounds)}

/-- No assertion of `test_lock` fails, and two threads are never between `lock_acquire` and
`lock_release`, whenever the timer strikes. -/
theorem test_lock_passes (small : bounds.nthreads ≤ 2 ^ 32)
    (run : Run (testLock bounds testlock) .starts memory sys) :
    sys.Succeeds (testLock bounds testlock) ∧
      ∀ t u, Holds testlock t sys.package.log → Holds testlock u sys.package.log → t = u := by
  have guarded :=
    run.guarded_one (testLock_keeps testlock small) (testLock_alone testlock) id trivial
  exact ⟨guarded.succeeds (testLock_checks testlock), fun t u => Guarded.one guarded.run⟩

/-- Variables that no thread has used yet. -/
def atRest : Memory := ⟨0, 0, 0, 7, [], [], fun n => ⟨n, 0⟩, 0⟩

/-- A thread has the lock and yields to one that wants it. -/
theorem test_lock_passes_two : ∃ sys, Run (testLock ⟨2, 1, 1⟩ 0) .starts
    atRest sys ∧ (sys.package.running = 2 ∧ Holds 0 1 sys.package.log) ∧
    sys.Succeeds (testLock ⟨2, 1, 1⟩ 0) := by
  obtain ⟨sys, run, holds⟩ : ∃ sys, Run (testLock ⟨2, 1, 1⟩ 0) .starts
      atRest sys ∧ (sys.package.running = 2 ∧ Holds 0 1 sys.package.log) :=
    exists_run ([some 0, some 1, some 2] ++ List.replicate 9 (some 0)) (by decide +kernel)
  exact ⟨sys, run, holds, (test_lock_passes (by decide) run).1⟩

end LockTest

namespace CvTest

/-- The condition variables of a test, and the call that wakes up the threads that wait. -/
structure Waking where
  testcv : Nat → Nat
  wake : Nat → Nat → Call
  wakes : ∀ cv lock, wake cv lock = .cvSignal cv lock ∨ wake cv lock = .cvBroadcast cv lock

/-- The i-th thread waits for the i-th of the condition variables. -/
def signalling (testcvSignal : Nat → Nat) : Waking :=
  ⟨testcvSignal, .cvSignal, fun _ _ => Or.inl rfl⟩

/-- All threads wait for one condition variable. -/
def broadcasting (testcvBroadcast : Nat) : Waking :=
  ⟨fun _ => testcvBroadcast, .cvBroadcast, fun _ _ => Or.inr rfl⟩

/-- Where a thread is in the body of the loop. -/
inductive Point
  | begins
  | acquires
  | tests
  | starts
  | enabled1 (start : Timeval)
  | waits (start : Timeval)
  | ends (start : Timeval)
  /-- the wait has been too fast -/
  | tooFast (usec : Int)
  | out
  /-- about to return with the lock -/
  | leaves
  | prints
  | reads
  | writes (val : UInt64)
  | spins
  /-- in the loop of `spin` -/
  | spinning (start : Timeval)
  | enabled2
  | picks
  | wakes (val : UInt64)
  | enabled3
  | releases

/-- Where a thread is in the test. -/
inductive Place (bounds : Bounds)
  | creates (i : Nat)
  | awaits
  | yields
  | destroys
  | ends
  | halts
  | thread (num : Fin bounds.nthreads) (i : Nat) (point : Point)
  | returns

variable {bounds : Bounds}

/-- What a thread does after `cv_wait` that began at `start` and has ended at `finish`. -/
def afterWait (start finish : Timeval) : Point :=
  if (timersub finish start).tvSec = 0 ∧ (timersub finish start).tvUsec < 4000 then
    .tooFast (timersub finish start).tvUsec
  else .tests

/-- One round of `spin(5000)`. -/
def afterSpin (start finish : Timeval) : Point :=
  if 5000 ≤ (timersub finish start).tvSec * 1000000 + (timersub finish start).tvUsec then .enabled2
  else .spinning start

/-- The threads of both tests. One that waits too fast goes out with the lock. -/
def cvThread (waking : Waking) (testlock : Nat) (num : Fin bounds.nthreads) (i : Nat) :
    Point → Instruction Memory (Place bounds)
  | .begins =>
      if i < bounds.loops then interruptsEnabled (.thread num i .acquires) else addDone .returns
  | .acquires => .call (.lockAcquire testlock) (.thread num i .tests)
  | .tests =>
      fetch Memory.testval1 fun val =>
        if val ≠ .ofNat num then .thread num i .starts else .thread num i .prints
  | .starts => gettimeofday fun start => .thread num i (.enabled1 start)
  | .enabled1 start => interruptsEnabled (.thread num i (.waits start))
  | .waits start => .call (.cvWait (waking.testcv num) testlock) (.thread num i (.ends start))
  | .ends start => gettimeofday fun finish => .thread num i (afterWait start finish)
  | .tooFast usec =>
      assign (fun m => { m with tooFast := m.tooFast ++ [usec] }) (.thread num i .out)
  | .out => addDone (.thread num i .leaves)
  | .leaves => .exit
  | .prints => unintrPrintf i num (.thread num i .reads)
  | .reads => fetch Memory.testval1 fun val => .thread num i (.writes val)
  | .writes val =>
      assign (fun m => { m with
        testval1 := (val + .ofNat bounds.nthreads - 1) % .ofNat bounds.nthreads })
        (.thread num i .spins)
  | .spins => gettimeofday fun start => .thread num i (.spinning start)
  | .spinning start => gettimeofday fun finish => .thread num i (afterSpin start finish)
  | .enabled2 => interruptsEnabled (.thread num i .picks)
  | .picks => fetch Memory.testval1 fun val => .thread num i (.wakes val)
  | .wakes val =>
      .call (waking.wake (waking.testcv val.toNat) testlock) (.thread num i .enabled3)
  | .enabled3 => interruptsEnabled (.thread num i .releases)
  | .releases => .call (.lockRelease testlock) (.thread num (i + 1) .begins)

/-- `test_cv_signal` and `test_cv_broadcast`, where they create the threads. -/
def testCv (waking : Waking) (bounds : Bounds) (testlock : Nat) :
    Place bounds → Instruction Memory (Place bounds)
  | .creates i =>
      if h : i < bounds.nthreads then .create (.thread ⟨i, h⟩ 0 .begins) (.creates (i + 1))
      else awaitDone bounds .yields .destroys
  | .awaits => awaitDone bounds .yields .destroys
  | .yields => .call (.threadYield threadAny) .awaits
  | .destroys => interruptsEnabled .ends
  | .ends => interruptsEnabled .halts
  | .halts => .halt
  | .thread num i point => cvThread waking testlock num i point
  | .returns => .exit

def testCvSignal (testcvSignal : Nat → Nat) (bounds : Bounds) (testlock : Nat) :
    Place bounds → Instruction Memory (Place bounds) :=
  testCv (signalling testcvSignal) bounds testlock

def testCvBroadcast (testcvBroadcast : Nat) (bounds : Bounds) (testlock : Nat) :
    Place bounds → Instruction Memory (Place bounds) :=
  testCv (broadcasting testcvBroadcast) bounds testlock

/-- The variables as both tests set them before they create the threads. -/
def initial (bounds : Bounds) (testval2 testval3 : UInt64) (clock : Nat → Timeval) : Memory :=
  ⟨.ofNat bounds.nthreads - 1, testval2, testval3, 0, [], [], clock, 0⟩

/-- The thread whose turn it is after `k` others have passed. -/
def turn (n k : Nat) : Nat := n - 1 - k % n

/-- The threads have passed in turn. -/
def InTurn (n : Nat) (m : Memory) : Prop :=
  m.printed.map Prod.snd = (List.range m.printed.length).map (turn n)

/-- It is the turn of the next thread. -/
def Ready (n : Nat) (m : Memory) : Prop :=
  InTurn n m ∧ m.testval1 = .ofNat (turn n m.printed.length)

def Passing (n : Nat) (m : Memory) : Prop :=
  InTurn n m ∧ ∃ k, m.printed.length = k + 1 ∧ m.testval1 = .ofNat (turn n k)

def Inside : Place bounds → Prop
  | .thread _ _ .begins | .thread _ _ .acquires => False
  | .thread _ _ _ => True
  | _ => False

/-- What a thread knows while it has the lock. -/
def Holding : Place bounds → Memory → Prop
  | .thread num _ .prints, m => Ready bounds.nthreads m ∧ m.testval1 = .ofNat num
  | .thread _ _ .reads, m => Passing bounds.nthreads m
  | .thread _ _ (.writes val), m => Passing bounds.nthreads m ∧ val = m.testval1
  | .thread _ _ _, m => Ready bounds.nthreads m
  | _, _ => True

/-- What the lock of the test protects. A thread that goes out with it leaves the same behind. -/
def region (bounds : Bounds) : Region Memory (Place bounds) :=
  ⟨Inside, Ready bounds.nthreads, Holding, Ready bounds.nthreads⟩

theorem turn_lt {n : Nat} (positive : 0 < n) (k : Nat) : turn n k < n := by
  unfold turn
  omega

theorem turn_succ {n : Nat} (positive : 0 < n) (k : Nat) :
    (turn n k + n - 1) % n = turn n (k + 1) := by
  obtain ⟨q, r, below, rfl⟩ : ∃ q r, r < n ∧ k = n * q + r :=
    ⟨k / n, k % n, Nat.mod_lt k positive, (Nat.div_add_mod k n).symm⟩
  unfold turn
  rw [Nat.mul_add_mod, Nat.mod_eq_of_lt below, Nat.add_assoc, Nat.mul_add_mod]
  by_cases last : r + 1 = n
  · rw [last, Nat.mod_self, show n - 1 - r + n - 1 = n - 1 by omega]
    exact Nat.mod_eq_of_lt (by omega)
  · rw [Nat.mod_eq_of_lt (by omega : r + 1 < n),
      show n - 1 - r + n - 1 = n + (n - 1 - (r + 1)) by omega, Nat.add_mod_left]
    exact Nat.mod_eq_of_lt (by omega)

/-- The assignment to `testval1` does not overflow. -/
theorem next_turn {n : Nat} (positive : 0 < n) (small : n ≤ 2 ^ 63) (k : Nat) :
    (UInt64.ofNat (turn n k) + .ofNat n - 1) % .ofNat n = .ofNat (turn n (k + 1)) := by
  have before := turn_lt positive k
  have after := turn_lt positive (k + 1)
  have value : ∀ a, a ≤ 2 ^ 63 → (UInt64.ofNat a).toNat = a := fun a at' =>
    UInt64.toNat_ofNat_of_lt (Nat.lt_of_le_of_lt at' (by decide))
  have sum : (UInt64.ofNat (turn n k) + .ofNat n - 1).toNat = turn n k + n - 1 := by
    rw [UInt64.toNat_sub, UInt64.toNat_add, value _ (by omega), value _ small,
      show (1 : UInt64).toNat = 1 from rfl]
    omega
  apply UInt64.toNat_inj.mp
  rw [UInt64.toNat_mod, sum, value _ small, value _ (by omega), turn_succ positive]

variable {m : Memory} {l : Place bounds}

theorem Ready.of_same {m' : Memory} {n : Nat} (val : m'.testval1 = m.testval1)
    (printed : m'.printed = m.printed) (ready : Ready n m) : Ready n m' := by
  unfold Ready InTurn at ready ⊢
  rw [val, printed]
  exact ready

theorem Holding.of_same {m' : Memory} (val : m'.testval1 = m.testval1)
    (printed : m'.printed = m.printed) (known : Holding l m) : Holding l m' := by
  cases l with
  | thread num i point =>
      cases point <;> simp only [Holding, Passing, Ready, InTurn, val, printed] at known ⊢ <;>
        exact known
  | _ => trivial

/-- The thread that passes is the one whose turn it is. -/
theorem Ready.prints {n i : Nat} (small : n ≤ 2 ^ 63) (num : Fin n) (ready : Ready n m)
    (own : m.testval1 = .ofNat num) :
    InTurn n { m with printed := m.printed ++ [(i, (num : Nat))] } ∧
      num = turn n m.printed.length := by
  have value : ∀ a, a < n → (UInt64.ofNat a).toNat = a := fun a at' =>
    UInt64.toNat_ofNat_of_lt (Nat.lt_of_lt_of_le at' (Nat.le_trans small (by decide)))
  have positive : 0 < n := Nat.lt_of_le_of_lt (Nat.zero_le _) num.isLt
  have same : (num : Nat) = turn n m.printed.length := by
    have equal := congrArg UInt64.toNat (own.symm.trans ready.2)
    rwa [value _ num.isLt, value _ (turn_lt positive _)] at equal
  refine ⟨?_, same⟩
  unfold InTurn
  rw [List.map_append, List.length_append, List.length_singleton, List.range_succ, List.map_append,
    ready.1, same]
  rfl

theorem gettimeofday_keeps {testlock : Nat} {next : Timeval → Place bounds} (here : Inside l)
    (inside : ∀ time, Inside (next time))
    (within : ∀ m time, Holding l m → Holding (next time) m) :
    (gettimeofday next).Keeps testlock (region bounds) l := by
  intro m m' next' runs
  cases runs
  refine ⟨iff_of_true here (inside _), fun _ known => ?_, absurd here⟩
  exact Holding.of_same (m := m) rfl rfl (within m (m.clock m.readings) known)

theorem writes_keeps {testlock : Nat} {f : Memory → Memory} {next : Place bounds}
    (same : Inside l ↔ Inside next) (val : ∀ m, (f m).testval1 = m.testval1)
    (printed : ∀ m, (f m).printed = m.printed)
    (within : Inside l → ∀ m, Holding l m → Holding next m) :
    (assign f next).Keeps testlock (region bounds) l :=
  assign_keeps same (fun here m known => .of_same (val m) (printed m) (within here m known))
    fun _ => ⟨fun m => .of_same (val m) (printed m), fun m => .of_same (val m) (printed m),
      fun _ m _ => .of_same (val m) (printed m)⟩

theorem cvThread_keeps (waking : Waking) (testlock : Nat) (small : bounds.nthreads ≤ 2 ^ 63)
    (num : Fin bounds.nthreads) (i : Nat) (point : Point) :
    (cvThread waking testlock num i point).Keeps testlock (region bounds)
    (.thread num i point) := by
  have positive : 0 < bounds.nthreads := Nat.lt_of_le_of_lt (Nat.zero_le _) num.isLt
  unfold cvThread
  cases point with
  | begins =>
      dsimp only
      split
      · exact checked_keeps Iff.rfl (fun outside => absurd outside id)
      · exact writes_keeps Iff.rfl (fun _ => rfl) (fun _ => rfl) fun outside => absurd outside id
  | acquires => exact Or.inr ⟨rfl, id, trivial, fun _ => id⟩
  | tests =>
      refine fetch_keeps (fun val => ?_) fun _ m known => ?_
      · split <;> exact Iff.rfl
      · split
        · exact known
        · next same => exact ⟨known, not_not.mp same⟩
  | starts => exact gettimeofday_keeps trivial (fun _ => trivial) fun _ _ => id
  | enabled1 | enabled2 | enabled3 => exact checked_keeps Iff.rfl (fun _ _ _ => id)
  | waits start => exact Or.inr ⟨rfl, trivial, trivial, fun _ => id, fun _ => id⟩
  | ends start =>
      refine gettimeofday_keeps trivial (fun finish => ?_) fun m finish known => ?_
      · unfold afterWait
        split <;> trivial
      · unfold afterWait
        split <;> exact known
  | tooFast usec => exact writes_keeps Iff.rfl (fun _ => rfl) (fun _ => rfl) fun _ _ => id
  | out => exact writes_keeps Iff.rfl (fun _ => rfl) (fun _ => rfl) fun _ _ => id
  | leaves => exact fun _ _ => id
  | prints =>
      refine assign_keeps Iff.rfl (fun _ m known => ?_) (absurd trivial)
      obtain ⟨printed, same⟩ := known.1.prints small num known.2
      refine ⟨printed, m.printed.length, List.length_append, ?_⟩
      rw [← same]
      exact known.2
  | reads => exact fetch_keeps (fun _ => Iff.rfl) fun _ _ known => ⟨known, rfl⟩
  | writes val =>
      refine assign_keeps Iff.rfl (fun _ m known => ?_) (absurd trivial)
      obtain ⟨⟨printed, k, length, own⟩, rfl⟩ := known
      refine ⟨printed, ?_⟩
      dsimp only
      rw [own, length, next_turn positive small]
  | spins => exact gettimeofday_keeps trivial (fun _ => trivial) fun _ _ => id
  | spinning start =>
      refine gettimeofday_keeps trivial (fun finish => ?_) fun m finish known => ?_
      · unfold afterSpin
        split <;> trivial
      · unfold afterSpin
        split <;> exact known
  | picks => exact fetch_keeps (fun _ => Iff.rfl) fun _ _ => id
  | wakes val =>
      obtain same | same := waking.wakes (waking.testcv val.toNat) testlock
      · dsimp only
        rw [same]
        exact ⟨Iff.rfl, fun _ _ => id⟩
      · dsimp only
        rw [same]
        exact ⟨Iff.rfl, fun _ _ => id⟩
  | releases => exact Or.inr ⟨rfl, trivial, id, fun _ => id⟩

theorem testCv_keeps (waking : Waking) (testlock : Nat) (small : bounds.nthreads ≤ 2 ^ 63)
    (l : Place bounds) : (testCv waking bounds testlock l).Keeps testlock (region bounds) l := by
  cases l with
  | creates i =>
      unfold testCv
      dsimp only
      split
      · exact ⟨id, Iff.rfl, fun _ _ => id⟩
      · exact awaitDone_keeps id id id
  | awaits => exact awaitDone_keeps id id id
  | yields => exact ⟨Iff.rfl, fun _ _ => id⟩
  | destroys | ends => exact checked_keeps Iff.rfl (fun _ _ _ => id)
  | halts => trivial
  | thread num i point => exact cvThread_keeps waking testlock small num i point
  | returns => exact nofun

theorem testCv_alone (waking : Waking) (testlock : Nat) (l : Place bounds) (c : Call)
    (next : Place bounds) (k : Nat) (instruction : testCv waking bounds testlock l = .call c next)
    (uses : c.Gets k ∨ c.Gives k) : k = testlock := by
  cases l with
  | creates i =>
      unfold testCv at instruction
      dsimp only at instruction
      split at instruction <;> cases instruction
  | yields =>
      cases instruction
      exact (uses.elim id id).elim
  | thread num i point =>
      cases point with
      | begins =>
          unfold testCv cvThread at instruction
          dsimp only at instruction
          split at instruction <;> cases instruction
      | acquires =>
          cases instruction
          exact (uses.resolve_right id).symm
      | waits start =>
          cases instruction
          exact (uses.elim id id).symm
      | wakes val =>
          cases instruction
          obtain same | same := waking.wakes (waking.testcv val.toNat) testlock
          · rw [same] at uses
            exact (uses.elim id id).elim
          · rw [same] at uses
            exact (uses.elim id id).elim
      | releases =>
          cases instruction
          exact (uses.resolve_left id).symm
      | _ => cases instruction
  | _ => cases instruction

theorem testCv_checks (waking : Waking) (testlock : Nat) (l : Place bounds) :
    (testCv waking bounds testlock l).Checks (region bounds) l := by
  have enabled : ∀ next : Place bounds, (interruptsEnabled next).Checks (region bounds) l :=
    fun next m _ => ⟨(m, next), rfl⟩
  cases l with
  | creates i =>
      unfold testCv
      dsimp only
      split
      · trivial
      · exact fun m _ => ⟨_, rfl⟩
  | awaits => exact fun m _ => ⟨_, rfl⟩
  | destroys | ends => exact enabled _
  | yields | halts | returns => trivial
  | thread num i point =>
      cases point with
      | begins =>
          unfold testCv cvThread
          dsimp only
          split
          · exact enabled _
          · exact fun m _ => ⟨_, rfl⟩
      | enabled1 | enabled2 | enabled3 => exact enabled _
      | acquires | waits | leaves | wakes | releases => trivial
      | _ => exact fun m _ => ⟨_, rfl⟩

theorem Holding.inTurn (inside : Inside l) (known : Holding l m) : InTurn bounds.nthreads m := by
  cases l with
  | thread num i point =>
      cases point with
      | begins | acquires => exact inside.elim
      | prints => exact known.1.1
      | writes val => exact known.1.1
      | _ => exact known.1
  | _ => exact inside.elim

theorem initial_ready (some' : 0 < bounds.nthreads) (small : bounds.nthreads ≤ 2 ^ 63)
    (testval2 testval3 : UInt64) (clock : Nat → Timeval) :
    Ready bounds.nthreads (initial bounds testval2 testval3 clock) := by
  refine ⟨rfl, ?_⟩
  have value : ∀ a, a ≤ 2 ^ 63 → (UInt64.ofNat a).toNat = a := fun a at' =>
    UInt64.toNat_ofNat_of_lt (Nat.lt_of_le_of_lt at' (by decide))
  change UInt64.ofNat bounds.nthreads - 1 = .ofNat (turn bounds.nthreads 0)
  apply UInt64.toNat_inj.mp
  unfold turn
  rw [UInt64.toNat_sub, value _ small, show (1 : UInt64).toNat = 1 from rfl, Nat.zero_mod,
    value _ (by omega)]
  omega

/-- In both tests of condition variables the threads pass in reverse order, one round after the
other, and no assertion fails, whenever the timer strikes and whatever the clock says. -/
theorem test_cv_in_turn {waking : Waking} {testlock : Nat} {testval2 testval3 : UInt64}
    {clock : Nat → Timeval} {sys : System Memory (Place bounds)} (some' : 0 < bounds.nthreads)
    (small : bounds.nthreads ≤ 2 ^ 63)
    (run : Run (testCv waking bounds testlock) (.creates 0) (initial bounds testval2 testval3 clock)
      sys) :
    InTurn bounds.nthreads sys.memory ∧ sys.Succeeds (testCv waking bounds testlock) := by
  have guarded :=
    run.guarded_one (testCv_keeps waking testlock small) (testCv_alone waking testlock)
    id (initial_ready some' small testval2 testval3 clock)
  exact ⟨guarded.always (fun _ => And.left) (fun _ => And.left) fun _ _ => Holding.inTurn,
    guarded.succeeds (testCv_checks waking testlock)⟩

/-- Every reading of the clock is a second later than the one before. -/
def slowly (n : Nat) : Timeval := ⟨n, 0⟩

/-- Two threads have passed. -/
theorem test_cv_in_turn_two : ∃ sys, Run (testCvSignal id ⟨2, 2, 0⟩ 0) (.creates 0)
    (initial ⟨2, 2, 0⟩ 0 0 slowly) sys ∧ sys.memory.printed = [(0, 1), (0, 0)] ∧
    InTurn 2 sys.memory := by
  obtain ⟨sys, run, printed⟩ : ∃ sys, Run (testCvSignal id ⟨2, 2, 0⟩ 0) (.creates 0)
      (initial ⟨2, 2, 0⟩ 0 0 slowly) sys ∧ sys.memory.printed = [(0, 1), (0, 0)] :=
    exists_run ([some 1, some 2] ++ List.replicate 44 (some 0)) (by decide +kernel)
  exact ⟨sys, run, printed, (test_cv_in_turn (by decide) (by decide) run).1⟩

end CvTest

end Ece344Lab.Threads.TestThread

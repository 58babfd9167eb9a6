import Ece344Lab.Lib.Monitor

set_option autoImplicit false

/- The bounded pool of connections between `server_request` and the loops of `request_stub` and
`request_stub_nocache`: one producer, `nr_threads` workers, one mutex and two condition variables.
The two loops treat the pool alike; what `do_server_request` does happens in the phase `serving`. -/
namespace Ece344Lab.Webserver

open Monitor

/-- Where the producer is in `server_request`. -/
inductive Producer
  | idle
  /-- about to lock `m_pRequestLock` -/
  | locking (connfd : Int)
  /-- about to compare `m_iSize` with `max_requests` -/
  | testing (connfd : Int)
  | full (connfd : Int)
  /-- blocked in `pthread_cond_wait` on `m_pCVProduce` -/
  | waiting (connfd : Int)
  /-- woken up, about to lock again -/
  | woken (connfd : Int)
  | pushing (connfd : Int)
  /-- about to signal `m_pCVRequest` -/
  | signalling
  | unlocking
  deriving DecidableEq

/-- Where a worker is in `request_stub`. -/
inductive Worker
  | starting
  /-- about to compare `m_iSize` with zero -/
  | testing
  | empty
  /-- blocked in `pthread_cond_wait` on `m_pCVRequest` -/
  | waiting
  /-- woken up, about to lock again -/
  | woken
  | popping
  /-- about to signal `m_pCVProduce` -/
  | popped (connfd : Int)
  | unlocking (connfd : Int)
  | serving (connfd : Int)
  deriving DecidableEq

/-- The phases between `pthread_mutex_lock` and `pthread_mutex_unlock` or `pthread_cond_wait`. -/
def Producer.Inside : Producer → Prop
  | .testing _ | .full _ | .pushing _ | .signalling | .unlocking => True
  | _ => False

def Worker.Inside : Worker → Prop
  | .testing | .empty | .popping | .popped _ | .unlocking _ => True
  | _ => False

/-- The connection that has been submitted and is not in the pool yet. -/
def Producer.pending : Producer → List Int
  | .locking c | .testing c | .full c | .waiting c | .woken c | .pushing c => [c]
  | _ => []

/-- What the test of the producer has told about the pool. -/
def Producer.Fits (maxRequests : Nat) (pool : List Int) : Producer → Prop
  | .full _ | .waiting _ => pool.length = maxRequests
  | .pushing _ => pool.length ≠ maxRequests
  | _ => True

/-- What the test of a worker has told about the pool. -/
def Worker.Fits (pool : List Int) : Worker → Prop
  | .empty | .waiting => pool = []
  | .popping => pool ≠ []
  | _ => True

/-- What a signal on `m_pCVProduce` does to the only thread that can wait for it. -/
def Producer.signalled : Producer → Producer
  | .waiting c => .woken c
  | p => p

/-- The producer or a worker. -/
inductive Thread (n : Nat)
  | producer
  | worker (i : Fin n)

/-- The threads of the server and what they share. `submitted` and `dequeued` record what has been
handed to `server_request` and what has been taken out by whom. -/
structure PoolState (n : Nat) where
  requestPool : List Int
  requestLock : Option (Thread n)
  producer : Producer
  workers : Fin n → Worker
  submitted : List Int
  dequeued : List (Fin n × Int)

namespace PoolState

variable {n : Nat}

def setWorker (s : PoolState n) (i : Fin n) (w : Worker) : PoolState n :=
  { s with workers := Function.update s.workers i w }

def initial (n : Nat) : PoolState n where
  requestPool := []
  requestLock := none
  producer := .idle
  workers _ := .starting
  submitted := []
  dequeued := []

/-- One step of one thread, or a spurious wake-up. -/
inductive Step (maxRequests : Nat) : PoolState n → PoolState n → Prop
  | submit {s} (c : Int) (at' : s.producer = .idle) :
      Step maxRequests s { s with producer := .locking c, submitted := s.submitted ++ [c] }
  | lock {s c} (at' : s.producer = .locking c ∨ s.producer = .woken c)
      (free : s.requestLock = none) :
      Step maxRequests s { s with producer := .testing c, requestLock := some .producer }
  | testFull {s c} (at' : s.producer = .testing c) (size : s.requestPool.length = maxRequests) :
      Step maxRequests s { s with producer := .full c }
  | testRoom {s c} (at' : s.producer = .testing c) (size : s.requestPool.length ≠ maxRequests) :
      Step maxRequests s { s with producer := .pushing c }
  | condWait {s c} (at' : s.producer = .full c) :
      Step maxRequests s { s with producer := .waiting c, requestLock := none }
  | spurious {s c} (at' : s.producer = .waiting c) :
      Step maxRequests s { s with producer := .woken c }
  | push {s c} (at' : s.producer = .pushing c) :
      Step maxRequests s { s with producer := .signalling, requestPool := s.requestPool ++ [c] }
  | signal {s workers} (at' : s.producer = .signalling) (some : 0 < s.requestPool.length)
      (wakes : Signalled (· = .waiting) (fun _ => .woken) s.workers workers) :
      Step maxRequests s { s with producer := .unlocking, workers := workers }
  | noSignal {s} (at' : s.producer = .signalling) (none : ¬ 0 < s.requestPool.length) :
      Step maxRequests s { s with producer := .unlocking }
  | unlock {s} (at' : s.producer = .unlocking) :
      Step maxRequests s { s with producer := .idle, requestLock := none }
  | workerLock {s i} (at' : s.workers i = .starting ∨ s.workers i = .woken)
      (free : s.requestLock = none) :
      Step maxRequests s { s.setWorker i .testing with requestLock := some (.worker i) }
  | testEmpty {s i} (at' : s.workers i = .testing) (size : s.requestPool.length = 0) :
      Step maxRequests s (s.setWorker i .empty)
  | testSome {s i} (at' : s.workers i = .testing) (size : s.requestPool.length ≠ 0) :
      Step maxRequests s (s.setWorker i .popping)
  | workerWait {s i} (at' : s.workers i = .empty) :
      Step maxRequests s { s.setWorker i .waiting with requestLock := none }
  | workerSpurious {s i} (at' : s.workers i = .waiting) :
      Step maxRequests s (s.setWorker i .woken)
  | pop {s i c rest} (at' : s.workers i = .popping) (top : s.requestPool = c :: rest) :
      Step maxRequests s { s.setWorker i (.popped c) with
        requestPool := rest, dequeued := s.dequeued ++ [(i, c)] }
  | workerSignal {s i c} (at' : s.workers i = .popped c) :
      Step maxRequests s { s.setWorker i (.unlocking c) with producer := s.producer.signalled }
  | workerUnlock {s i c} (at' : s.workers i = .unlocking c) :
      Step maxRequests s { s.setWorker i (.serving c) with requestLock := none }
  | served {s i c} (at' : s.workers i = .serving c) :
      Step maxRequests s (s.setWorker i .starting)

/-- The states that the server can get into. -/
inductive Reachable (maxRequests : Nat) : PoolState n → Prop
  | initial : Reachable maxRequests (initial n)
  | step {s s'} (before : Reachable maxRequests s) (step : Step maxRequests s s') :
      Reachable maxRequests s'

/-- The threads that are inside the critical section. -/
def Inside (s : PoolState n) : Thread n → Prop
  | .producer => s.producer.Inside
  | .worker i => (s.workers i).Inside

/-- The invariant of the pool. -/
structure Ok (maxRequests : Nat) (s : PoolState n) : Prop where
  excl : Excl s.Inside s.requestLock
  bound : s.requestPool.length ≤ maxRequests
  full : ∀ c, s.producer = .full c → s.requestPool.length = maxRequests
  room : ∀ c, s.producer = .pushing c → s.requestPool.length ≠ maxRequests
  empty : ∀ i, s.workers i = .empty → s.requestPool = []
  popping : ∀ i, s.workers i = .popping → s.requestPool ≠ []
  fifo : s.submitted = s.dequeued.map Prod.snd ++ s.requestPool ++ s.producer.pending
  request : s.requestPool ≠ [] →
    s.producer = .signalling ∨ ∃ i, s.workers i ≠ .waiting
  produce : ∀ c, s.producer = .waiting c →
    s.requestPool.length = maxRequests ∨ ∃ i c', s.workers i = .popped c'

variable {maxRequests : Nat} {s s' : PoolState n} {i : Fin n} {w : Worker}

theorem setWorker_self (s : PoolState n) (i : Fin n) (w : Worker) :
    (s.setWorker i w).workers i = w := by
  change Function.update s.workers i w i = w
  rw [Function.update_self]

theorem setWorker_of_ne (s : PoolState n) {i j : Fin n} (w : Worker) (other : j ≠ i) :
    (s.setWorker i w).workers j = s.workers j := by
  change Function.update s.workers i w j = s.workers j
  rw [Function.update_of_ne other]

/-- What holds of a worker after a step of worker `i` held of it before, unless it is `i` itself. -/
theorem setWorker_cases {j : Fin n} {w' : Worker} (found : (s.setWorker i w).workers j = w') :
    (j = i ∧ w = w') ∨ s.workers j = w' := by
  by_cases here : j = i
  · subst here
    rw [setWorker_self] at found
    exact Or.inl ⟨rfl, found⟩
  · rw [setWorker_of_ne s w here] at found
    exact Or.inr found

/-- A worker that does not go to sleep is awake. -/
theorem awake_setWorker (other : w ≠ .waiting) : ∃ j, (s.setWorker i w).workers j ≠ .waiting := by
  refine ⟨i, ?_⟩
  rw [setWorker_self]
  exact other

/-- A worker about to signal stays so when another one moves, or when it is the one that moves. -/
theorem popped_setWorker (old : ∀ c, s.workers i ≠ .popped c)
    (some : ∃ j c, s.workers j = .popped c) :
    ∃ j c, (s.setWorker i w).workers j = .popped c := by
  obtain ⟨j, c, found⟩ := some
  have other : j ≠ i := fun same => old c (same ▸ found)
  refine ⟨j, c, ?_⟩
  rw [setWorker_of_ne s w other]
  exact found

section Excl

/-- A worker moves within or outside the critical section. -/
theorem Ok.excl_stay (ok : Ok maxRequests s) (same : w.Inside ↔ (s.workers i).Inside) :
    Excl (s.setWorker i w).Inside s.requestLock := by
  apply ok.excl.stay
  intro t
  cases t with
  | producer => exact Iff.rfl
  | worker j =>
      by_cases here : j = i
      · subst here
        change ((s.setWorker j w).workers j).Inside ↔ _
        rw [setWorker_self]
        exact same
      · change ((s.setWorker i w).workers j).Inside ↔ _
        rw [setWorker_of_ne s w here]
        exact Iff.rfl

theorem Ok.excl_others (s : PoolState n) (i : Fin n) (w : Worker) (t : Thread n)
    (other : t ≠ .worker i) : (s.setWorker i w).Inside t ↔ s.Inside t := by
  cases t with
  | producer => exact Iff.rfl
  | worker j =>
      have here : j ≠ i := fun same => other (congrArg Thread.worker same)
      change ((s.setWorker i w).workers j).Inside ↔ _
      rw [setWorker_of_ne s w here]
      exact Iff.rfl

/-- A worker takes the mutex. -/
theorem Ok.excl_enter (ok : Ok maxRequests s) (free : s.requestLock = none) (enters : w.Inside) :
    Excl (s.setWorker i w).Inside (some (.worker i)) := by
  have excl := ok.excl
  rw [free] at excl
  apply excl.enter
  · change ((s.setWorker i w).workers i).Inside
    rw [setWorker_self]
    exact enters
  · exact fun t other => Ok.excl_others s i w t other

/-- A worker gives the mutex back. -/
theorem Ok.excl_leave (ok : Ok maxRequests s) (held : (s.workers i).Inside) (left : ¬ w.Inside) :
    Excl (s.setWorker i w).Inside none := by
  apply ok.excl.leave (t := .worker i) held
  · change ¬ ((s.setWorker i w).workers i).Inside
    rw [setWorker_self]
    exact left
  · exact fun t other => Ok.excl_others s i w t other

/-- The producer moves; the three ways in which the mutex can change. -/
theorem Ok.excl_producer (ok : Ok maxRequests s) (p : Producer) (pool submitted : List Int)
    (owner : Option (Thread n))
    (change' : (owner = s.requestLock ∧ (p.Inside ↔ s.producer.Inside)) ∨
      (s.requestLock = none ∧ owner = some .producer ∧ p.Inside) ∨
      (owner = none ∧ s.producer.Inside ∧ ¬ p.Inside)) :
    Excl (Inside { s with
      producer := p, requestPool := pool, submitted := submitted, requestLock := owner })
      owner := by
  have others : ∀ t : Thread n, t ≠ .producer → (Inside { s with
      producer := p, requestPool := pool, submitted := submitted, requestLock := owner } t ↔
        s.Inside t) := by
    intro t other
    cases t with
    | producer => exact absurd rfl other
    | worker j => exact Iff.rfl
  rcases change' with stays | enters | leaves
  · obtain ⟨same, iff⟩ := stays
    rw [same]
    apply ok.excl.stay
    intro t
    cases t with
    | producer => exact iff
    | worker j => exact Iff.rfl
  · obtain ⟨free, same, inside⟩ := enters
    have excl := ok.excl
    rw [free] at excl
    rw [same]
    exact excl.enter inside (same ▸ others)
  · obtain ⟨same, held, left⟩ := leaves
    rw [same]
    exact ok.excl.leave (t := .producer) held left (same ▸ others)

end Excl

theorem Ok.worker_move (ok : Ok maxRequests s) {owner : Option (Thread n)}
    (excl : Excl (s.setWorker i w).Inside owner) (old : ∀ c, s.workers i ≠ .popped c)
    (fits : w.Fits s.requestPool) :
    Ok maxRequests { s.setWorker i w with requestLock := owner } := by
  refine ⟨excl, ok.bound, ok.full, ok.room, ?_, ?_, ok.fifo, ?_, ?_⟩
  · intro j found
    cases setWorker_cases found with
    | inl here =>
        rw [here.2] at fits
        exact fits
    | inr before => exact ok.empty j before
  · intro j found
    cases setWorker_cases found with
    | inl here =>
        rw [here.2] at fits
        exact fits
    | inr before => exact ok.popping j before
  · intro some
    refine Or.inr (awake_setWorker fun same => some ?_)
    rw [same] at fits
    exact fits
  · intro c waiting
    cases ok.produce c waiting with
    | inl full => exact Or.inl full
    | inr some => exact Or.inr (popped_setWorker old some)

theorem Ok.producer_move (ok : Ok maxRequests s) {old p : Producer} {owner : Option (Thread n)}
    {submitted : List Int} (at' : s.producer = old)
    (excl : (owner = s.requestLock ∧ (p.Inside ↔ old.Inside)) ∨
      (s.requestLock = none ∧ owner = some .producer ∧ p.Inside) ∨
      (owner = none ∧ old.Inside ∧ ¬ p.Inside))
    (fits : p.Fits maxRequests s.requestPool)
    (fifo : submitted = s.dequeued.map Prod.snd ++ s.requestPool ++ p.pending)
    (signals : old = .signalling → s.requestPool = []) :
    Ok maxRequests { s with producer := p, requestLock := owner, submitted := submitted } := by
  rw [← at'] at excl signals
  refine ⟨ok.excl_producer p _ _ owner excl, ok.bound, ?_, ?_, ok.empty, ok.popping, fifo, ?_, ?_⟩
  · intro c same
    change p = .full c at same
    rw [same] at fits
    exact fits
  · intro c same
    change p = .pushing c at same
    rw [same] at fits
    exact fits
  · intro some
    cases ok.request some with
    | inl signalling => exact absurd (signals signalling) some
    | inr awake => exact Or.inr awake
  · intro c same
    change p = .waiting c at same
    rw [same] at fits
    exact Or.inl fits

theorem Ok.fifo_at (ok : Ok maxRequests s) {old p : Producer} (at' : s.producer = old)
    (same : p.pending = old.pending) :
    s.submitted = s.dequeued.map Prod.snd ++ s.requestPool ++ p.pending := by
  rw [same, ← at']
  exact ok.fifo

theorem Ok.initial (maxRequests : Nat) : Ok maxRequests (initial n) := by
  refine ⟨?_, Nat.zero_le _, ?_, ?_, ?_, ?_, rfl, ?_, ?_⟩
  · intro t
    cases t with
    | producer => exact ⟨fun inside => inside.elim, fun none => by cases none⟩
    | worker j => exact ⟨fun inside => inside.elim, fun none => by cases none⟩
  · intro c same
    cases same
  · intro c same
    cases same
  · intro j same
    cases same
  · intro j same
    cases same
  · intro some
    exact absurd rfl some
  · intro c same
    cases same

/-- Behind the signal of the producer some worker is awake. -/
theorem Ok.signal (ok : Ok maxRequests s) (positive : 0 < n) {workers : Fin n → Worker}
    (at' : s.producer = .signalling)
    (wakes : Signalled (· = .waiting) (fun _ => .woken) s.workers workers) :
    Ok maxRequests { s with producer := .unlocking, workers := workers } := by
  have nonempty : Nonempty (Fin n) := ⟨⟨0, positive⟩⟩
  have keeps : ∀ (p : Worker → Prop), (p .woken ↔ p .waiting) → ∀ j,
      (p (workers j) ↔ p (s.workers j)) := by
    intro p same j
    apply wakes.keeps
    intro x sleeps
    change x = .waiting at sleeps
    rw [sleeps]
    exact same
  refine ⟨?_, ok.bound, ?_, ?_, ?_, ?_, ?_, ?_, ?_⟩
  · apply ok.excl.stay
    intro t
    cases t with
    | producer =>
        change True ↔ s.producer.Inside
        rw [at']
        exact Iff.rfl
    | worker j => exact keeps Worker.Inside Iff.rfl j
  · intro c same
    cases same
  · intro c same
    cases same
  · intro j found
    exact ok.empty j ((keeps (· = .empty) (by simp) j).mp found)
  · intro j found
    exact ok.popping j ((keeps (· = .popping) (by simp) j).mp found)
  · have fifo := ok.fifo
    rw [at'] at fifo
    exact fifo
  · intro _
    exact Or.inr (wakes.some_awake fun x _ => by simp)
  · intro c same
    cases same

theorem Ok.push (ok : Ok maxRequests s) {c : Int} (at' : s.producer = .pushing c) :
    Ok maxRequests { s with producer := .signalling, requestPool := s.requestPool ++ [c] } := by
  have room := ok.room c at'
  have bound := ok.bound
  have inside : s.producer.Inside := by
    rw [at']
    trivial
  refine ⟨?_, ?_, ?_, ?_, ?_, ?_, ?_, fun _ => Or.inl rfl, ?_⟩
  · exact ok.excl_producer _ _ _ _ (Or.inl ⟨rfl, fun _ => inside, fun _ => trivial⟩)
  · change (s.requestPool ++ [c]).length ≤ maxRequests
    rw [List.length_append, List.length_singleton]
    omega
  · intro c' same
    cases same
  · intro c' same
    cases same
  · intro j found
    -- the producer is inside the critical section, so no worker is
    have within : s.Inside (.worker j) := by
      change (s.workers j).Inside
      rw [show s.workers j = .empty from found]
      trivial
    have same : Thread.worker j = Thread.producer := ok.excl.only within inside
    cases same
  · intro j found some
    exact List.append_ne_nil_of_right_ne_nil _ (List.cons_ne_nil c []) some
  · have fifo := ok.fifo
    rw [at'] at fifo
    change s.submitted = _ ++ (s.requestPool ++ [c]) ++ []
    rw [fifo, List.append_nil, List.append_assoc]
    rfl
  · intro c' same
    cases same

theorem Ok.pop (ok : Ok maxRequests s) {c : Int} {rest : List Int}
    (at' : s.workers i = .popping) (top : s.requestPool = c :: rest) :
    Ok maxRequests { s.setWorker i (.popped c) with
      requestPool := rest, dequeued := s.dequeued ++ [(i, c)] } := by
  have bound := ok.bound
  rw [top, List.length_cons] at bound
  have inside : s.Inside (.worker i) := by
    change (s.workers i).Inside
    rw [at']
    trivial
  have alone : ¬ s.producer.Inside := by
    intro within
    have same : Thread.producer = Thread.worker i := ok.excl.only (u := .worker i) within inside
    cases same
  refine ⟨?_, by change rest.length ≤ maxRequests; omega, ?_, ?_, ?_, ?_, ?_, ?_, ?_⟩
  · apply ok.excl_stay
    rw [at']
    exact Iff.rfl
  · intro c' same
    have found : s.producer = .full c' := same
    exact absurd (found ▸ trivial) alone
  · intro c' same
    have found : s.producer = .pushing c' := same
    exact absurd (found ▸ trivial) alone
  · intro j found
    cases setWorker_cases found with
    | inl here => cases here.2
    | inr before =>
        have nil := ok.empty j before
        rw [top] at nil
        cases nil
  · intro j found
    cases setWorker_cases found with
    | inl here => cases here.2
    | inr before =>
        have within : s.Inside (.worker j) := by
          change (s.workers j).Inside
          rw [before]
          trivial
        have same : Thread.worker j = Thread.worker i := ok.excl.only within inside
        cases same
        have here : (s.setWorker i (.popped c)).workers i = .popping := found
        rw [setWorker_self] at here
        cases here
  · have fifo := ok.fifo
    rw [top] at fifo
    change s.submitted = (s.dequeued ++ [(i, c)]).map Prod.snd ++ rest ++ s.producer.pending
    rw [fifo, List.map_append]
    simp
  · intro _
    exact Or.inr (awake_setWorker (by simp))
  · intro c' _
    refine Or.inr ⟨i, c, ?_⟩
    exact setWorker_self s i _

theorem signalled_cases (p : Producer) : (∃ c, p = .waiting c ∧ p.signalled = .woken c) ∨
    ((∀ c, p ≠ .waiting c) ∧ p.signalled = p) := by
  cases p with
  | waiting c => exact Or.inl ⟨c, rfl, rfl⟩
  | _ => exact Or.inr ⟨fun c => by simp, rfl⟩

theorem Ok.workerSignal (ok : Ok maxRequests s) {c : Int} (at' : s.workers i = .popped c) :
    Ok maxRequests { s.setWorker i (.unlocking c) with producer := s.producer.signalled } := by
  have stay : Excl (s.setWorker i (.unlocking c)).Inside s.requestLock := by
    apply ok.excl_stay
    rw [at']
    exact Iff.rfl
  have empty : ∀ j, (s.setWorker i (.unlocking c)).workers j = .empty → s.requestPool = [] := by
    intro j found
    cases setWorker_cases found with
    | inl here => cases here.2
    | inr before => exact ok.empty j before
  have popping : ∀ j, (s.setWorker i (.unlocking c)).workers j = .popping →
      s.requestPool ≠ [] := by
    intro j found
    cases setWorker_cases found with
    | inl here => cases here.2
    | inr before => exact ok.popping j before
  have awake : ∃ j, (s.setWorker i (.unlocking c)).workers j ≠ .waiting :=
    awake_setWorker (by simp)
  cases signalled_cases s.producer with
  | inl blocked =>
      obtain ⟨c', waiting, woken⟩ := blocked
      rw [woken]
      refine ⟨?_, ok.bound, ?_, ?_, empty, popping, ?_, fun _ => Or.inr awake, ?_⟩
      · apply stay.stay
        intro t
        cases t with
        | producer =>
            change False ↔ s.producer.Inside
            rw [waiting]
            exact Iff.rfl
        | worker j => exact Iff.rfl
      · intro d same
        cases same
      · intro d same
        cases same
      · have fifo := ok.fifo
        rw [waiting] at fifo
        exact fifo
      · intro d same
        cases same
  | inr other =>
      obtain ⟨awake', same⟩ := other
      rw [same]
      exact ⟨stay, ok.bound, ok.full, ok.room, empty, popping, ok.fifo, fun _ => Or.inr awake,
        fun d waiting => absurd waiting (awake' d)⟩

theorem Ok.step (ok : Ok maxRequests s) (positive : 0 < n) (step : Step maxRequests s s') :
    Ok maxRequests s' := by
  cases step with
  | submit c at' =>
      have fifo : s.submitted = s.dequeued.map Prod.snd ++ s.requestPool ++ [] :=
        ok.fifo_at at' (p := .idle) rfl
      refine ok.producer_move at' (Or.inl ⟨rfl, Iff.rfl⟩) trivial ?_ fun same => by cases same
      rw [fifo, List.append_nil]
      rfl
  | lock at' free =>
      rename_i c
      have phase : s.producer.pending = [c] ∧ s.producer ≠ .signalling := by
        cases at' with
        | inl locking => simp [locking, Producer.pending]
        | inr woken => simp [woken, Producer.pending]
      refine ok.producer_move rfl (Or.inr (Or.inl ⟨free, rfl, trivial⟩)) trivial ?_
        fun same => absurd same phase.2
      rw [ok.fifo, phase.1]
      rfl
  | testFull at' size =>
      exact ok.producer_move at' (Or.inl ⟨rfl, Iff.rfl⟩) size (ok.fifo_at at' rfl)
        fun same => by cases same
  | testRoom at' size =>
      exact ok.producer_move at' (Or.inl ⟨rfl, Iff.rfl⟩) size (ok.fifo_at at' rfl)
        fun same => by cases same
  | condWait at' =>
      exact ok.producer_move at' (Or.inr (Or.inr ⟨rfl, trivial, id⟩)) (ok.full _ at')
        (ok.fifo_at at' rfl) fun same => by cases same
  | spurious at' =>
      exact ok.producer_move at' (Or.inl ⟨rfl, Iff.rfl⟩) trivial (ok.fifo_at at' rfl)
        fun same => by cases same
  | push at' => exact ok.push at'
  | signal at' some wakes => exact ok.signal positive at' wakes
  | noSignal at' none =>
      have nil : s.requestPool = [] := List.eq_nil_of_length_eq_zero (Nat.eq_zero_of_not_pos none)
      exact ok.producer_move at' (Or.inl ⟨rfl, Iff.rfl⟩) trivial (ok.fifo_at at' rfl) fun _ => nil
  | unlock at' =>
      exact ok.producer_move at' (Or.inr (Or.inr ⟨rfl, trivial, id⟩)) trivial (ok.fifo_at at' rfl)
        fun same => by cases same
  | workerLock at' free =>
      refine ok.worker_move (ok.excl_enter free trivial) ?_ trivial
      intro c
      cases at' with
      | inl starting => simp [starting]
      | inr woken => simp [woken]
  | testEmpty at' size =>
      exact ok.worker_move (ok.excl_stay (by rw [at']; exact Iff.rfl)) (by simp [at'])
        (List.eq_nil_of_length_eq_zero size)
  | testSome at' size =>
      exact ok.worker_move (ok.excl_stay (by rw [at']; exact Iff.rfl)) (by simp [at'])
        fun nil => size (by rw [nil]; rfl)
  | workerWait at' =>
      exact ok.worker_move (ok.excl_leave (by rw [at']; trivial) id) (by simp [at'])
        (ok.empty _ at')
  | workerSpurious at' =>
      exact ok.worker_move (ok.excl_stay (by rw [at']; exact Iff.rfl)) (by simp [at']) trivial
  | pop at' top => exact ok.pop at' top
  | workerSignal at' => exact ok.workerSignal at'
  | workerUnlock at' =>
      exact ok.worker_move (ok.excl_leave (by rw [at']; trivial) id) (by simp [at']) trivial
  | served at' =>
      exact ok.worker_move (ok.excl_stay (by rw [at']; exact Iff.rfl)) (by simp [at']) trivial

theorem Reachable.ok (reachable : Reachable maxRequests s) (positive : 0 < n) :
    Ok maxRequests s := by
  induction reachable with
  | initial => exact .initial maxRequests
  | step _ step ih => exact ih.step positive step

end PoolState

/-- The bounded queue of connections: never more than `maxRequests` entries, taken out in the order
of their submission, each once; no wake-up that somebody waits for is lost. -/
theorem request_pool_run (n maxRequests : Nat) (positive : 0 < n) (s : PoolState n)
    (reachable : s.Reachable maxRequests) :
    s.requestPool.length ≤ maxRequests ∧
    s.submitted = s.dequeued.map Prod.snd ++ s.requestPool ++ s.producer.pending ∧
    ¬ (s.requestPool ≠ [] ∧ (∀ i, s.workers i = .waiting) ∧ s.producer ≠ .signalling) ∧
    ¬ (s.requestPool.length < maxRequests ∧ (∃ c, s.producer = .waiting c) ∧
      ∀ i c, s.workers i ≠ .popped c) := by
  have ok := reachable.ok positive
  refine ⟨ok.bound, ok.fifo, ?_, ?_⟩
  · intro lost
    obtain ⟨some, blocked, quiet⟩ := lost
    cases ok.request some with
    | inl signalling => exact quiet signalling
    | inr awake =>
        obtain ⟨i, awake⟩ := awake
        exact awake (blocked i)
  · intro lost
    obtain ⟨room, blocked, quiet⟩ := lost
    obtain ⟨c, waiting⟩ := blocked
    cases ok.produce c waiting with
    | inl full => omega
    | inr popped =>
        obtain ⟨i, c', popped⟩ := popped
        exact quiet i c' popped

/-- Worker 1 has waited for the first connection and been woken up by it. Worker 0 has taken it from
the pool, which the producer found full with the second connection, and is about to signal. -/
theorem request_pool_run_two : ∃ s : PoolState 2, (s.Reachable 1 ∧ s.workers 0 = .popped 5 ∧
    s.workers 1 = .woken ∧ s.producer = .waiting 6) ∧ s.requestPool.length ≤ 1 ∧
    s.submitted = s.dequeued.map Prod.snd ++ s.requestPool ++ s.producer.pending := by
  have start : PoolState.Reachable 1 (.initial 2) := .initial
  have waiting := ((start.step (.workerLock (i := 1) (Or.inl rfl) rfl)).step
    (.testEmpty (i := 1) rfl rfl)).step (.workerWait (i := 1) rfl)
  have pushed := (((waiting.step (.submit 5 rfl)).step (.lock (Or.inl rfl) rfl)).step
    (.testRoom rfl (by decide))).step (.push rfl)
  have signalled := (pushed.step (.signal rfl (by decide) (.woken 1 rfl))).step (.unlock rfl)
  have full := (((signalled.step (.submit 6 rfl)).step (.lock (Or.inl rfl) rfl)).step
    (.testFull rfl rfl)).step (.condWait rfl)
  have popped := ((full.step (.workerLock (i := 0) (Or.inl rfl) rfl)).step
    (.testSome (i := 0) rfl (by decide))).step (.pop (i := 0) rfl rfl)
  have spec := request_pool_run 2 1 (by decide) _ popped
  exact ⟨_, ⟨popped, rfl, rfl, rfl⟩, spec.1, spec.2.1⟩

end Ece344Lab.Webserver

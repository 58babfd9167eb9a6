import Ece344Lab.Threads.Transitions

set_option autoImplicit false

/- Every call of the package keeps the invariant, and none of its assertions fails. -/
namespace Ece344Lab.Threads

open Outcome Placement State

variable {s : State} {k : List Frame} {t u : Nat} {c : Call} {ie : Bool} {f : Frame}
  {rest : List Nat} {w : WaitQueue}

theorem Bare.cons (bare : Bare k) (plain : f.releases = false) : Bare (f :: k) := by
  intro g member
  cases List.mem_cons.mp member with
  | inl same => exact same ▸ plain
  | inr later => exact bare g later

@[simp] theorem cAssert_true : cAssert true = .ok () := rfl

/-- The computation returns a state that satisfies the invariant. -/
abbrev Keeps (x : Except Fault State) : Prop := Sat x State.Ok fun _ => False

namespace State.Inside

variable (inside : s.Inside c ie k)
include inside

theorem saved (frames : List Frame) : (s.getcontext s.running frames).Inside c ie k := by
  apply inside.frame
  · rfl
  · rfl
  · exact fun _ _ held => held
  · exact fun u => id_getcontext s _ u frames
  · exact fun u _ => status_getcontext s _ u frames
  · rw [status_getcontext]
    exact inside.active
  · exact fun u other => context_getcontext_of_ne s frames other
  · rfl
  · rfl
  · rfl

end State.Inside

/-- Behind the second return from `getcontext` the status is set back. -/
theorem State.Ok.again (ok : s.Ok) (suspended : s.frames = f :: k) (call : f.call = some c) :
    (s.setStatus s.running .run).Inside c f.mask k := by
  have nested := ok.nested
  have pending := ok.pending
  rw [suspended] at nested pending
  rw [calls_cons call] at pending
  have off : s.enabled = false := by
    by_contra on
    have none := ok.outer (by simpa using on)
    rw [suspended] at none
    cases none
  refine ⟨?_, ok.head, Or.inr (status_setStatus_self _ _ _), off, nested.2.1, nested.2.2.2.2,
    nested.2.2.1, pending⟩
  refine Queues.frame (n := s.setStatus s.running .run) ok.queues (Queues.mem_ready_of_head ok.head)
    rfl rfl (fun _ _ held => held) (fun u => id_setStatus s _ u .run)
    (fun u other => status_setStatus_of_ne s .run other)
    (fun u _ => context_setStatus s _ u .run) (fun _ => Iff.rfl) (fun _ _ => rfl) ?_
  exact ok.queues.paired _

theorem State.Ok.idle (ok : s.Ok) (suspended : s.frames = f :: k) (switches : f.switches = true) :
    ¬ ((s.threads s.running).status = .run ∨ (s.threads s.running).status = .new) := by
  have idle : (s.threads s.running).status = .idle := ok.switching ⟨f, k, suspended, switches⟩
  rw [idle]
  nofun

theorem State.Ok.exists_ready (ok : s.Ok) : ∃ rest, s.ready = s.running :: rest := by
  cases same : s.ready with
  | nil => exact absurd (same ▸ ok.head) nofun
  | cons t rest => exact ⟨rest, by rw [Option.some.inj (same ▸ ok.head : some t = _)]⟩

/-- `thread_yield(THREAD_ANY)` behind its first return from `getcontext`. -/
theorem yieldAnyGot_first (inside : s.Inside (.threadYield threadAny) ie k)
    (saved : s.context s.running = ⟨.yieldAny ie :: k, false⟩)
    (more : s.ready = s.running :: u :: rest) (bare : Bare k) : Keeps (yieldAnyGot ie k s) := by
  have off := inside.suspended saved rfl rfl rfl bare .idle
  have active : (s.threads s.running).status = .run ∨ (s.threads s.running).status = .new :=
    inside.active.symm
  obtain ⟨_, q, popped, tail⟩ := ThreadQueue.pop_ok more
  obtain ⟨_, q', pushed, lists⟩ := q.push_ok s.running
  rw [tail] at lists
  have perm : q'.threads.Perm s.ready := by
    rw [lists, more]
    exact List.perm_append_comm
  unfold yieldAnyGot
  rw [ThreadQueue.top_ok more, ok_bind]
  dsimp only
  rw [if_pos active]
  change Keeps (s.readyQueue.pop >>= _)
  rw [popped, ok_bind]
  dsimp only
  rw [pushed, ok_bind]
  dsimp only
  rw [ThreadQueue.top_ok lists, ok_bind]
  exact (inside.rotated off perm).dispatch (congrArg List.head? lists)

theorem yieldAnyGot_again (ok : s.Ok) (suspended : s.frames = .yieldAny ie :: k) :
    Keeps (yieldAnyGot ie k s) := by
  obtain ⟨rest, first⟩ := ok.exists_ready
  have inside := ok.again suspended rfl
  unfold yieldAnyGot
  rw [ThreadQueue.top_ok first, ok_bind]
  dsimp only
  rw [if_neg (ok.idle suspended rfl)]
  exact inside.returned _

/-- `Queue_movetop` to where a search has led. -/
theorem movedTop_split {α : Type} (xs : List α) (x : α) (ys : List α) :
    movedTop (xs ++ x :: ys) xs.length = x :: (xs ++ ys) := by
  cases xs with
  | nil => rfl
  | cons z xs =>
      rw [movedTop, if_neg (by simp), Int.toNat_natCast]
      simp [List.eraseIdx_append_of_length_le]

/-- `thread_yield` with an identifier behind its first return from `getcontext`. -/
theorem yieldToGot_first {wantTid : Int} (inside : s.Inside (.threadYield wantTid) ie k)
    (saved : s.context s.running = ⟨.yieldTo wantTid ie :: k, false⟩)
    (other : wantTid ≠ s.id s.running) (bare : Bare k) : Keeps (yieldToGot wantTid ie k s) := by
  have active : (s.threads s.running).status = .run ∨ (s.threads s.running).status = .new :=
    inside.active.symm
  obtain ⟨rest, first⟩ := inside.exists_ready
  unfold yieldToGot
  rw [inside.off, Bool.not_false, cAssert_true, ok_bind, ThreadQueue.top_ok first, ok_bind]
  dsimp only
  rw [if_pos active]
  cases first_passing s.ready fun u => decide ((s.threads u).iID = wantTid) with
  | inl absent =>
      rw [ThreadQueue.search_none absent]
      exact inside.returned _
  | inr found =>
      obtain ⟨ts, t, us, split, fails, passes⟩ := found
      obtain ⟨found, searched, position, val⟩ := ThreadQueue.search_some split fails passes
      obtain ⟨before, rfl, behind⟩ : ∃ before, ts = s.running :: before ∧
          rest = before ++ t :: us := by
        rw [first] at split
        cases ts with
        | nil =>
            obtain ⟨rfl, _⟩ := List.cons.inj split
            exact absurd (of_decide_eq_true passes).symm other
        | cons r before =>
            obtain ⟨rfl, behind⟩ := List.cons.inj split
            exact ⟨before, rfl, behind⟩
      obtain ⟨_, q, popped, tail⟩ := ThreadQueue.pop_ok first
      obtain ⟨_, q₁, moved, lists⟩ := q.movetop_ok ((found.position : Int) - 1)
      have front : q₁.threads = t :: (before ++ us) := by
        rw [lists, tail, behind, position, List.length_cons,
          show ((before.length + 1 : Nat) : Int) - 1 = before.length by omega, movedTop_split]
      obtain ⟨_, q₂, pushed, whole⟩ := q₁.push_ok s.running
      rw [front] at whole
      have perm : q₂.threads.Perm s.ready := by
        have cycle : (t :: (before ++ us) ++ [s.running]).Perm
            (s.running :: t :: (before ++ us)) := List.perm_append_comm
        rw [whole, first, behind]
        exact cycle.trans (List.perm_middle.symm.cons _)
      have off := inside.suspended saved rfl rfl rfl bare .idle
      rw [searched, ok_bind]
      dsimp only
      change Keeps (s.readyQueue.pop >>= _)
      rw [popped, ok_bind]
      dsimp only
      rw [moved, ok_bind, ThreadQueue.ended_ok front, ok_bind, cAssert_true, ok_bind]
      dsimp only
      rw [pushed, ok_bind, val]
      exact (inside.rotated off perm).dispatch (congrArg List.head? whole)

theorem yieldToGot_again {wantTid : Int} (ok : s.Ok)
    (suspended : s.frames = .yieldTo wantTid ie :: k) :
    Keeps (yieldToGot wantTid ie k s) := by
  obtain ⟨rest, first⟩ := ok.exists_ready
  have inside := ok.again suspended rfl
  have off : s.enabled = false := inside.off
  unfold yieldToGot
  rw [off, Bool.not_false, cAssert_true, ok_bind, ThreadQueue.top_ok first, ok_bind]
  dsimp only
  rw [if_neg (ok.idle suspended rfl)]
  exact inside.returned _

theorem threadYield_keeps (calling : s.Calling k) (bare : Bare k) (wantTid : Int) :
    Keeps (threadYield wantTid k s) := by
  have inside := calling.called (.threadYield wantTid)
  obtain ⟨rest, first⟩ := inside.exists_ready
  unfold threadYield
  dsimp only
  rw [ThreadQueue.ended_ok first, ok_bind, cAssert_true, ok_bind]
  refine Sat.ite (fun _ => inside.returned _) fun _ => ?_
  rw [ThreadQueue.top_ok first, ok_bind]
  refine Sat.ite (fun _ => inside.returned _) fun _ => ?_
  refine Sat.ite (fun any => ?_) fun _ => ?_
  · subst any
    refine Sat.ite (fun _ => inside.returned _) fun several => ?_
    obtain ⟨u, later, more⟩ := ThreadQueue.more_of_size first several
    have saved := inside.saved (.yieldAny s.enabled :: k)
    exact yieldAnyGot_first saved (context_getcontext_self _ _ _) more bare
  · refine Sat.ite (fun _ => inside.returned _) fun other => ?_
    have saved := inside.saved (.yieldTo wantTid s.enabled :: k)
    refine yieldToGot_first saved (context_getcontext_self _ _ _) ?_ bare
    rw [id_getcontext]
    exact other

/-- `thread_sleep` behind its first return from `getcontext`. -/
theorem sleepGot_first {controlId : Int} (inside : s.Inside (.threadSleep (some w)) ie k)
    (saved : s.context s.running = ⟨.sleep w controlId ie :: k, false⟩)
    (more : s.ready = s.running :: u :: rest) (bare : Bare k) :
    Keeps (sleepGot w controlId ie k s) := by
  have off := inside.suspended saved rfl rfl rfl bare .sleep
  have active : (s.threads s.running).status = .run ∨ (s.threads s.running).status = .new :=
    inside.active.symm
  obtain ⟨_, q, popped, tail⟩ := ThreadQueue.pop_ok more
  obtain ⟨_, q', pushed, lists⟩ := (s.waitQueues w).push_ok s.running
  unfold sleepGot
  rw [ThreadQueue.top_ok more, ok_bind]
  dsimp only
  rw [if_pos active, popped, ok_bind]
  dsimp only
  change Keeps ((s.waitQueues w).push s.running >>= _)
  rw [pushed, ok_bind]
  dsimp only
  change Keeps (q.top >>= _)
  rw [ThreadQueue.top_ok tail, ok_bind]
  exact (inside.asleep off more tail lists).dispatch (congrArg List.head? tail)

theorem sleepGot_again {controlId : Int} (ok : s.Ok)
    (suspended : s.frames = .sleep w controlId ie :: k) : Keeps (sleepGot w controlId ie k s) := by
  obtain ⟨rest, first⟩ := ok.exists_ready
  have idle : (s.threads s.running).status = .idle := ok.switching ⟨_, k, suspended, rfl⟩
  have inside := ok.again suspended rfl
  unfold sleepGot
  rw [ThreadQueue.top_ok first, ok_bind]
  dsimp only
  rw [if_neg (ok.idle suspended rfl), if_pos idle]
  exact inside.returned _

theorem threadSleep_keeps (calling : s.Calling k) (bare : Bare k) (queue : Option WaitQueue) :
    Keeps (threadSleep queue k s) := by
  have inside := calling.called (.threadSleep queue)
  obtain ⟨rest, first⟩ := inside.exists_ready
  unfold threadSleep
  cases queue with
  | none => exact inside.returned _
  | some w =>
      dsimp only
      refine Sat.ite (fun _ => inside.returned _) fun several => ?_
      obtain ⟨u, later, more⟩ := ThreadQueue.more_of_size first several
      rw [ThreadQueue.second_ok more, ok_bind, ThreadQueue.top_ok more, ok_bind]
      exact sleepGot_first (inside.saved _) (context_getcontext_self _ _ _) more bare

/-- The thread that has waited longest leaves its queue for the ready queue. -/
theorem wakeupTop_eq (waits : s.waiting w = t :: rest) :
    ∃ q q' : ThreadQueue, q'.threads = rest ∧ q.threads = s.ready ++ [t] ∧
      wakeupTop w s = .ok { (s.setStatus t .idle).setWaitQueue w q' with readyQueue := q } := by
  obtain ⟨_, q', popped, tail⟩ := ThreadQueue.pop_ok waits
  obtain ⟨_, q, pushed, lists⟩ := s.readyQueue.push_ok t
  refine ⟨q, q', tail, lists, ?_⟩
  unfold wakeupTop
  rw [ThreadQueue.top_ok waits, ok_bind]
  change (s.waitQueues w).pop >>= _ = _
  rw [popped, ok_bind]
  change s.readyQueue.push t >>= _ = _
  rw [pushed, ok_bind]

theorem wakeupTop_keeps (inside : s.Inside c ie k) (waits : s.waiting w = t :: rest) :
    Sat (wakeupTop w s) (fun s' => s'.Inside c ie k ∧ s'.waiting w = rest ∧
      s'.ready = s.ready ++ [t]) fun _ => False := by
  obtain ⟨q, q', tail, lists, ran⟩ := wakeupTop_eq waits
  rw [ran]
  refine ⟨inside.woken waits tail lists, ?_, lists⟩
  change (Function.update s.waitQueues w q' w).threads = rest
  rw [Function.update_self, tail]

theorem wakeupLoop_keeps (inside : s.Inside c ie k) (fuel : Nat)
    (enough : (s.waiting w).length ≤ fuel) :
    Sat (wakeupLoop w fuel s) (fun s' => s'.Inside c ie k ∧ s'.waiting w = [] ∧
      s'.ready = s.ready ++ s.waiting w) fun _ => False := by
  have size : (s.waitQueues w).queue.size = (s.waiting w).length := ThreadQueue.size_eq _
  induction fuel generalizing s with
  | zero =>
      have none : s.waiting w = [] := List.length_eq_zero_iff.mp (Nat.le_zero.mp enough)
      rw [none] at size
      rw [wakeupLoop, if_neg (by simpa using size), none, List.append_nil]
      exact ⟨inside, none, rfl⟩
  | succ fuel ih =>
      cases waits : s.waiting w with
      | nil =>
          rw [waits] at size
          rw [wakeupLoop, if_neg (by simpa using size), List.append_nil]
          exact ⟨inside, waits, rfl⟩
      | cons t rest =>
          rw [waits, List.length_cons] at size enough
          rw [wakeupLoop, if_pos (by omega)]
          refine (wakeupTop_keeps inside waits).bind fun s' woken => ?_
          obtain ⟨inside', waits', ready'⟩ := woken
          refine (ih inside' ?_ (ThreadQueue.size_eq _)).weaken fun s'' all => ?_
          · rw [waits']
            omega
          · obtain ⟨inside'', none, ready''⟩ := all
            refine ⟨inside'', none, ?_⟩
            rw [ready'', ready', waits', List.append_assoc]
            rfl

theorem threadWakeup_keeps (calling : s.Calling k) (queue : Option WaitQueue) (all : Int) :
    Keeps (threadWakeup queue all k s) := by
  have inside := calling.called (.threadWakeup queue all)
  unfold threadWakeup
  cases queue with
  | none => exact inside.returned _
  | some w =>
      dsimp only
      refine Sat.ite (fun _ => inside.returned _) fun some => ?_
      have size := ThreadQueue.size_eq (s.waitQueues w)
      refine Sat.ite (fun _ => ?_) fun _ => ?_
      · refine (wakeupLoop_keeps inside _ ?_).bind fun s' woken => woken.1.returned _
        change (s.waitQueues w).threads.length ≤ ((s.waitQueues w).queue.size).toNat
        omega
      · cases waits : (s.waitQueues w).threads with
        | nil =>
            rw [waits] at size
            exact absurd size some
        | cons t rest => exact (wakeupTop_keeps inside waits).bind fun s' woken =>
          woken.1.returned _

@[simp] theorem freeStack_null : freeStack none = .ok () := rfl

theorem threadCreate_keeps (calling : s.Calling k) (fresh : s.allocated t = false) :
    Keeps (threadCreate t k s) := by
  have inside := calling.called (.threadCreate t)
  unfold threadCreate
  dsimp only
  split
  case h_2 =>
      have allocated : (⟨s.threads, Function.update s.allocated t true, s.readyQueue, s.exitQueue,
          s.readyQueueIndex, s.waitQueues, s.locks, false, s.running, s.frames,
          (s.called (.threadCreate t)).log⟩ : State).Inside (.threadCreate t) s.enabled k := by
        apply inside.frame
        · rfl
        · rfl
        · intro u _ held
          by_cases same : u = t
          · rw [same]
            exact Function.update_self _ _ _
          · exact (Function.update_of_ne same _ _).trans held
        · exact fun _ => rfl
        · exact fun _ _ => rfl
        · exact inside.active
        · exact fun _ _ => rfl
        · rfl
        · rfl
        · rfl
      exact allocated.returned _
  case h_1 _ i found =>
      obtain ⟨lower, upper, unused, _⟩ := Search.firstFrom_eq_some.mp found
      obtain ⟨_, q, pushed, lists⟩ := s.readyQueue.push_ok t
      change Keeps (s.readyQueue.push t >>= _)
      rw [pushed, ok_bind]
      exact (inside.born fresh (Option.isNone_iff_eq_none.mp unused)
        (by simp only [threadMaxThreads] at upper ⊢; omega) lists).returned _

/-- Another ready thread is taken out. -/
theorem State.Inside.exited (inside : s.Inside c ie k) {q : ThreadQueue}
    (one : s.ready.Perm (t :: q.threads)) (head : q.threads.head? = some s.running) :
    (({ s with readyQueue := q }.setIndex (s.id t) none).happened (.exited t)).Inside c ie k :=
  ⟨inside.queues.exited one, head, inside.active, inside.off, inside.outer, inside.nested,
    inside.plain, inside.pending⟩

/-- The memory of a thread that has exited is given back, or the thread is put aside. -/
theorem State.Inside.buried (inside : s.Inside c ie k) (dead : ¬ Live t s.log) :
    (s.free t).Inside c ie k := by
  apply inside.frame
  · rfl
  · rfl
  · intro u alive held
    have other : u ≠ t := fun same => dead (same ▸ alive)
    exact (Function.update_of_ne other _ _).trans held
  · exact fun _ => rfl
  · exact fun _ _ => rfl
  · exact inside.active
  · exact fun _ _ => rfl
  · rfl
  · rfl
  · rfl

theorem State.Inside.putAside (inside : s.Inside c ie k) (q : ThreadQueue) :
    { s with exitQueue := q }.Inside c ie k :=
  ⟨inside.queues.putAside q, inside.head, inside.active, inside.off, inside.outer, inside.nested,
    inside.plain, inside.pending⟩

/-- Some thread other than the running one is looked for and taken out. -/
theorem exitOther_keeps {tid : Int} (inside : s.Inside (.threadExit tid) ie k)
    (other : tid ≠ s.id s.running) :
    (∃ q, s.readyQueue.exitFound (fun u => decide (s.id u = tid)) = .ok (none, q)) ∨
      ∃ t q, s.readyQueue.exitFound (fun u => decide (s.id u = tid)) = .ok (some t, q) ∧
        t ≠ s.running ∧ s.id t = tid ∧ s.ready.Perm (t :: q.threads) ∧
        q.threads.head? = some s.running := by
  obtain ⟨rest, first⟩ := inside.exists_ready
  cases first_passing s.ready fun u => decide (s.id u = tid) with
  | inl absent => exact Or.inl (ThreadQueue.exitFound_none absent)
  | inr found =>
      obtain ⟨ts, t, us, split, fails, passes⟩ := found
      obtain ⟨q, removed, lists⟩ := ThreadQueue.exitFound_some split fails passes
      have id : s.id t = tid := of_decide_eq_true passes
      refine Or.inr ⟨t, q, removed, fun same => other ?_, id, ?_, ?_⟩
      · rw [← id, same]
      · rw [lists, split]
        exact List.perm_middle
      · rw [lists]
        rw [first] at split
        cases ts with
        | nil =>
            obtain ⟨rfl, _⟩ := List.cons.inj split
            exact absurd id.symm other
        | cons r before =>
            obtain ⟨rfl, _⟩ := List.cons.inj split
            rfl

/-- A call of `thread_exit` with the identifier of another ready thread does not come upon a stack.
-/
def Call.Spares (s : State) : Call → Prop
  | .threadExit tid => ∀ t ∈ s.ready, t ≠ s.running → s.id t = tid → s.pStack t = none
  | _ => True

/-- The computation stops at most where the call comes upon a stack. -/
abbrev KeepsSparing (c : Call) (s : State) (x : Except Fault State) : Prop :=
  Sat x State.Ok fun _ => ¬ c.Spares s

theorem Keeps.sparing {x : Except Fault State} (keeps : Keeps x) (c : Call) (s : State) :
    KeepsSparing c s x :=
  keeps.mono (fun _ ok => ok) fun _ => False.elim

theorem threadExit_id_keeps {tid : Int} (calling : s.Calling k) (other : tid ≠ s.id s.running)
    (identifier : 0 ≤ tid) : KeepsSparing (.threadExit tid) s (threadExit tid k s) := by
  have inside := calling.called (.threadExit tid)
  obtain ⟨rest, first⟩ := inside.exists_ready
  unfold threadExit
  dsimp only
  rw [if_pos identifier]
  rw [ThreadQueue.top_ok first, ok_bind]
  rcases exitOther_keeps inside other with ⟨q, none⟩ | ⟨t, q, found, apart, id, one, head⟩
  · change KeepsSparing _ _ (s.readyQueue.exitFound (fun u => decide (s.id u = tid)) >>= _)
    change s.readyQueue.exitFound (fun u => decide (s.id u = tid)) = _ at none
    rw [none]
    exact inside.returned _
  · change KeepsSparing _ _ (s.readyQueue.exitFound (fun u => decide (s.id u = tid)) >>= _)
    change s.readyQueue.exitFound (fun u => decide (s.id u = tid)) = _ at found
    rw [found, ok_bind]
    have inside' := inside.exited one head
    have different : ¬ s.id t = s.id s.running := by
      change s.id t = tid at id
      rw [id]
      exact other
    dsimp only
    change KeepsSparing _ _ (if s.id t = s.id s.running then _ else _)
    rw [if_neg different]
    -- the thread that exits has a stack, or the call spares it
    cases stack : s.pStack t with
    | none =>
        change KeepsSparing _ _ (freeStack (s.pStack t) >>= _)
        rw [stack, freeStack_null, ok_bind]
        exact (inside'.buried fun alive => alive.1 rfl).returned _
    | some p =>
        have member : t ∈ s.ready := one.mem_iff.mpr List.mem_cons_self
        refine ((sat_true _).bind fun _ _ => ?_).mono (fun _ ok => ok) fun _ _ spares => ?_
        · exact (inside'.buried fun alive => alive.1 rfl).returned _
        · cases stack.symm.trans (spares t member apart id)

/-- The thread at the end of the ready queue is put aside. -/
theorem threadExit_any_keeps (calling : s.Calling k) :
    KeepsSparing (.threadExit threadAny) s (threadExit threadAny k s) := by
  have inside := calling.called (.threadExit threadAny)
  obtain ⟨rest, first⟩ := inside.exists_ready
  unfold threadExit
  dsimp only
  rw [if_neg (by decide), if_pos rfl]
  refine Sat.ite (fun _ => inside.returned _) fun more => ?_
  obtain ⟨u, later, lists⟩ := ThreadQueue.more_of_size first more
  obtain ⟨ts, v, t, split⟩ := last_two (l := s.readyQueue.threads)
    (show 1 < (s.readyQueue.threads).length by
      rw [show s.readyQueue.threads = _ from lists]; simp)
  obtain ⟨q, removed, left⟩ := ThreadQueue.exitLast_ok split
  obtain ⟨_, q', pushed, _⟩ := s.exitQueue.push_ok t
  have one : s.ready.Perm (t :: q.threads) := by
    change s.readyQueue.threads.Perm _
    rw [left, split, show ts ++ [v, t] = (ts ++ [v]) ++ [t] by simp]
    exact List.perm_append_comm
  have head : q.threads.head? = some s.running := by
    rw [left]
    change s.readyQueue.threads = s.running :: u :: later at lists
    rw [split] at lists
    cases ts with
    | nil =>
        obtain ⟨rfl, _⟩ := List.cons.inj lists
        rfl
    | cons r ts =>
        obtain ⟨rfl, _⟩ := List.cons.inj lists
        rfl
  change KeepsSparing _ _ (s.readyQueue.exitLast >>= _)
  rw [removed, ok_bind]
  dsimp only
  change KeepsSparing _ _ (s.exitQueue.push t >>= _)
  rw [pushed, ok_bind]
  exact ((inside.exited one head).putAside q').returned _

/-- The running thread is put aside, and the next one goes on. -/
theorem threadExit_self_keeps (calling : s.Calling k) (long : 1 < s.ready.length) :
    KeepsSparing (.threadExit threadSelf) s (threadExit threadSelf k s) := by
  have inside := calling.called (.threadExit threadSelf)
  obtain ⟨rest, first⟩ := inside.exists_ready
  unfold threadExit
  dsimp only
  rw [if_neg (by decide), if_neg (by decide), if_pos rfl]
  have more : ¬ s.readyQueue.queue.size = 1 := by
    have size := ThreadQueue.size_eq s.readyQueue
    change 1 < s.readyQueue.threads.length at long
    omega
  obtain ⟨u, later, lists⟩ := ThreadQueue.more_of_size first more
  change s.readyQueue.threads = s.running :: u :: later at lists
  obtain ⟨_, q, popped, tail⟩ := ThreadQueue.pop_ok lists
  obtain ⟨_, q', pushed, _⟩ := s.exitQueue.push_ok s.running
  have one : s.ready.Perm (s.running :: q.threads) := by
    rw [tail]
    exact .of_eq lists
  have gone : s.running ∉ q.threads := by
    have distinct := one.nodup_iff.mp (inside.queues.apart.nodup none)
    exact (List.nodup_cons.mp distinct).1
  have queues := ((inside.queues.exited one).putAside q').vacated gone
  rw [ThreadQueue.top_ok first, ok_bind]
  refine Sat.ite (fun last => absurd last.1 more) fun _ =>
    Sat.ite (fun last => absurd last more) fun _ => ?_
  change KeepsSparing _ _ (s.exitQueue.push s.running >>= _)
  rw [pushed, ok_bind]
  dsimp only
  change KeepsSparing _ _ (s.readyQueue.pop >>= _)
  rw [popped, ok_bind]
  dsimp only
  rw [ThreadQueue.top_ok tail, ok_bind]
  exact queues.dispatch (congrArg List.head? tail)

theorem threadExit_keeps {tid : Int} (calling : s.Calling k) (other : tid ≠ s.id s.running)
    (several : tid = threadSelf → 1 < s.ready.length) :
    KeepsSparing (.threadExit tid) s (threadExit tid k s) := by
  by_cases identifier : 0 ≤ tid
  · exact threadExit_id_keeps calling other identifier
  by_cases any : tid = threadAny
  · exact any ▸ threadExit_any_keeps calling
  by_cases self : tid = threadSelf
  · exact self ▸ threadExit_self_keeps calling (several self)
  · unfold threadExit
    dsimp only
    rw [if_neg identifier, if_neg any, if_neg self]
    exact (calling.called (.threadExit tid)).returned _

section Locks

theorem State.Inside.setLock (inside : s.Inside c ie k) (lock : Nat) (l : Lock) :
    (s.setLock lock l).Inside c ie k :=
  inside.frame rfl rfl (fun _ _ held => held) (fun _ => rfl) (fun _ _ => rfl) inside.active
    (fun _ _ => rfl) rfl rfl rfl

variable {lock cv : Nat}

theorem acquireLoop_keeps (inside : s.Inside (.lockAcquire lock) ie k) (bare : Bare k) :
    Keeps (acquireLoop lock ie k s) := by
  obtain ⟨rest, first⟩ := inside.exists_ready
  unfold acquireLoop
  refine Sat.ite (fun _ => ?_) fun _ => ?_
  · exact threadSleep_keeps (inside.calling (f := .acquire lock ie) rfl rfl rfl rfl bare)
      (bare.cons rfl) _
  · rw [ThreadQueue.top_ok first, ok_bind]
    exact (inside.setLock _ _).returned _

theorem lockAcquire_keeps (calling : s.Calling k) (bare : Bare k) (lock : Nat) :
    Keeps (lockAcquire lock k s) :=
  acquireLoop_keeps (calling.called (.lockAcquire lock)) bare

theorem lockRelease_keeps (calling : s.Calling k) (bare : Bare k) (lock : Nat) :
    Keeps (lockRelease lock k s) := by
  have inside := (calling.called (.lockRelease lock)).setLock lock
    { s.locks lock with status := .free }
  unfold lockRelease
  exact threadWakeup_keeps (inside.calling (f := .release lock s.enabled) rfl rfl rfl rfl bare) _ _

theorem cvWait_keeps (calling : s.Calling k) (bare : Bare k) (cv lock : Nat) :
    Keeps (cvWait cv lock k s) := by
  have inside := calling.called (.cvWait cv lock)
  obtain ⟨rest, first⟩ := inside.exists_ready
  unfold cvWait
  dsimp only
  rw [ThreadQueue.top_ok first, ok_bind]
  refine Sat.ite (fun _ => ?_) fun _ => inside.returned _
  exact lockRelease_keeps
    (inside.calling (f := .waitReleased cv lock s.enabled) rfl rfl rfl rfl bare)
    (bare.cons rfl) lock

theorem cvSignal_keeps (calling : s.Calling k) (bare : Bare k) (cv lock : Nat) :
    Keeps (cvSignal cv lock k s) := by
  have inside := calling.called (.cvSignal cv lock)
  obtain ⟨rest, first⟩ := inside.exists_ready
  unfold cvSignal
  dsimp only
  rw [ThreadQueue.top_ok first, ok_bind]
  refine Sat.ite (fun _ => ?_) fun _ => inside.returned _
  exact threadWakeup_keeps
    (inside.calling (f := .signalled cv lock s.enabled) rfl rfl rfl rfl bare) _ _

theorem cvBroadcast_keeps (calling : s.Calling k) (bare : Bare k) (cv lock : Nat) :
    Keeps (cvBroadcast cv lock k s) := by
  have inside := calling.called (.cvBroadcast cv lock)
  obtain ⟨rest, first⟩ := inside.exists_ready
  unfold cvBroadcast
  dsimp only
  rw [ThreadQueue.top_ok first, ok_bind]
  refine Sat.ite (fun _ => ?_) fun _ => inside.returned _
  exact threadWakeup_keeps
    (inside.calling (f := .broadcasted cv lock s.enabled) rfl rfl rfl rfl bare) _ _

end Locks

/-- The calls of a run: nobody calls `thread_exit` with the own identifier, and the last ready
thread does not exit. -/
def Call.Permitted (s : State) : Call → Prop
  | .threadExit tid => tid ≠ s.id s.running ∧ (tid = threadSelf → 1 < s.ready.length)
  | _ => True

theorem enter_keeps (calling : s.Calling k) (bare : Bare k) {c : Call} (may : c.Permitted s)
    (fresh : ∀ t, c = .threadCreate t → s.allocated t = false) :
    KeepsSparing c s (enter c k s) := by
  cases c with
  | threadCreate t => exact Keeps.sparing (threadCreate_keeps calling (fresh t rfl)) _ _
  | threadYield wantTid => exact Keeps.sparing (threadYield_keeps calling bare wantTid) _ _
  | threadExit tid => exact threadExit_keeps calling may.1 may.2
  | threadSleep queue => exact Keeps.sparing (threadSleep_keeps calling bare queue) _ _
  | threadWakeup queue all => exact Keeps.sparing (threadWakeup_keeps calling queue all) _ _
  | lockAcquire lock => exact Keeps.sparing (lockAcquire_keeps calling bare lock) _ _
  | lockRelease lock => exact Keeps.sparing (lockRelease_keeps calling bare lock) _ _
  | cvWait cv lock => exact Keeps.sparing (cvWait_keeps calling bare cv lock) _ _
  | cvSignal cv lock => exact Keeps.sparing (cvSignal_keeps calling bare cv lock) _ _
  | cvBroadcast cv lock => exact Keeps.sparing (cvBroadcast_keeps calling bare cv lock) _ _

end Ece344Lab.Threads

import Ece344Lab.Threads.Effects

set_option autoImplicit false

/- What the scheduling calls do to the wait queues and to the ready queue. -/
namespace Ece344Lab.Threads

open Outcome State

variable {s s' m : State} {k : List Frame} {t u : Nat} {c : Call} {ie : Bool} {w v : WaitQueue}
  {rest : List Nat}

abbrev Still (s : State) (x : Except Fault State) : Prop :=
  Sat x (fun s' => s'.waitQueues = s.waitQueues) fun _ => True

section Still

theorem yieldAnyGot_still (same : m.waitQueues = s.waitQueues) : Still s (yieldAnyGot ie k m) := by
  unfold yieldAnyGot
  refine (sat_true _).bind fun current _ => ?_
  dsimp only
  refine Sat.ite (fun _ => ?_) fun _ => same
  exact (sat_true _).bind fun q _ => (sat_true _).bind fun q' _ => (sat_true _).bind fun u _ => same

theorem yieldToGot_still {wantTid : Int} (same : m.waitQueues = s.waitQueues) :
    Still s (yieldToGot wantTid ie k m) := by
  unfold yieldToGot
  refine (sat_true _).bind fun _ _ => (sat_true _).bind fun current _ => ?_
  dsimp only
  refine Sat.ite (fun _ => (sat_true _).bind fun found _ => ?_) fun _ => same
  cases found with
  | none => exact same
  | some found =>
      exact (sat_true _).bind fun q _ => (sat_true _).bind fun q' _ => (sat_true _).bind fun _ _ =>
        (sat_true _).bind fun _ _ => (sat_true _).bind fun q'' _ => same

theorem threadYield_still (wantTid : Int) : Still s (threadYield wantTid k s) := by
  unfold threadYield
  refine (sat_true _).bind fun _ _ => (sat_true _).bind fun _ _ => ?_
  refine Sat.ite (fun _ => rfl) fun _ => (sat_true _).bind fun current _ => ?_
  refine Sat.ite (fun _ => rfl) fun _ => Sat.ite (fun _ => ?_) fun _ => ?_
  · exact Sat.ite (fun _ => rfl) fun _ => yieldAnyGot_still rfl
  · exact Sat.ite (fun _ => rfl) fun _ => yieldToGot_still rfl

theorem threadCreate_still (t : Nat) : Still s (threadCreate t k s) := by
  unfold threadCreate
  dsimp only
  split
  · exact (sat_true _).bind fun q _ => rfl
  · rfl

theorem threadExit_still (tid : Int) : Still s (threadExit tid k s) := by
  unfold threadExit
  dsimp only
  refine Sat.ite (fun _ => ?_) fun _ => Sat.ite (fun _ => ?_) fun _ => Sat.ite (fun self => ?_)
    fun _ => rfl
  · refine (sat_true _).bind fun current _ => (sat_true _).bind fun found _ => ?_
    match found with
    | (none, _) => rfl
    | (some t, q) =>
        exact Sat.ite (fun _ => (sat_true _).bind fun _ _ => rfl) fun _ =>
          (sat_true _).bind fun _ _ => rfl
  · exact Sat.ite (fun _ => rfl) fun _ => (sat_true _).bind fun found _ =>
      (sat_true _).bind fun _ _ => rfl
  · refine (sat_true _).bind fun current _ => Sat.ite (fun _ => rfl) fun _ =>
      Sat.ite (fun _ => (sat_true _).bind fun _ _ => rfl) fun _ => ?_
    exact (sat_true _).bind fun _ _ => (sat_true _).bind fun _ _ => (sat_true _).bind fun _ _ => rfl

end Still

/-- The longest waiting threads of a queue become ready, and others go on waiting. -/
structure Wakes (w : WaitQueue) (woken rest : List Nat) (s s' : State) : Prop where
  ready : s'.ready = s.ready ++ woken
  waiting : s'.waiting w = rest
  others : ∀ v, v ≠ w → s'.waiting v = s.waiting v
  locks : s'.locks = s.locks
  running : s'.running = s.running

section Wakeup

theorem wakeupTop_wakes (waits : s.waiting w = t :: rest) :
    Returns (wakeupTop w s) (Wakes w [t] rest s) := by
  obtain ⟨q, q', tail, lists, ran⟩ := wakeupTop_eq waits
  refine ⟨_, ran, lists, ?_, fun v other => ?_, rfl, rfl⟩
  · change (Function.update s.waitQueues w q' w).threads = rest
    rw [Function.update_self, tail]
  · change (Function.update s.waitQueues w q' v).threads = _
    rw [Function.update_of_ne other]
    rfl

theorem Wakes.none (waits : s.waiting w = []) : Wakes w (s.waiting w) [] s s :=
  ⟨by rw [waits, List.append_nil], waits, fun _ _ => rfl, rfl, rfl⟩

/-- The loop wakes up all threads that wait. -/
theorem wakeupLoop_wakes {fuel : Nat} (enough : (s.waiting w).length ≤ fuel) :
    Returns (wakeupLoop w fuel s) (Wakes w (s.waiting w) [] s) := by
  have size : (s.waitQueues w).queue.size = (s.waiting w).length := ThreadQueue.size_eq _
  induction fuel generalizing s with
  | zero =>
      have none : s.waiting w = [] := List.length_eq_zero_iff.mp (Nat.le_zero.mp enough)
      rw [none] at size
      rw [wakeupLoop, if_neg (by simpa using size)]
      exact ⟨s, rfl, .none none⟩
  | succ fuel ih =>
      cases waits : s.waiting w with
      | nil =>
          rw [waits] at size
          rw [wakeupLoop, if_neg (by simpa using size)]
          exact ⟨s, rfl, waits ▸ .none waits⟩
      | cons t rest =>
          rw [waits, List.length_cons] at size enough
          obtain ⟨m, woken, first⟩ := wakeupTop_wakes waits
          have shorter : (m.waiting w).length ≤ fuel := by
            rw [first.waiting]
            omega
          obtain ⟨s', loops, later⟩ := ih shorter (ThreadQueue.size_eq _)
          rw [wakeupLoop, if_pos (by omega), woken, ok_bind]
          refine ⟨s', loops, ?_, later.waiting,
            fun v other => (later.others v other).trans (first.others v other),
            later.locks.trans first.locks, later.running.trans first.running⟩
          rw [later.ready, first.ready, first.waiting, List.append_assoc]
          rfl

theorem threadWakeup_all (w : WaitQueue) (k : List Frame) (s : State) :
    Returns (threadWakeup (some w) 1 k s) fun s' =>
      Wakes w (s.waiting w) [] s s' ∧ s'.frames = k ∧ s'.enabled = s.enabled ∧
        s'.log.head? = some (.ret s.running (.threadWakeup (some w) 1)
          (some (s.waiting w).length) s.enabled) := by
  have size := ThreadQueue.size_eq (s.waitQueues w)
  have number : (s.waitQueues w).queue.size = ((s.waiting w).length : Nat) := size
  unfold threadWakeup
  dsimp only
  change Returns (if (s.waitQueues w).queue.size = 0 then _ else _) _
  by_cases none : (s.waitQueues w).queue.size = 0
  · have empty : s.waiting w = [] := List.length_eq_zero_iff.mp (by
      change (s.waitQueues w).threads.length = 0
      omega)
    rw [if_pos none]
    have wakes := Wakes.none empty
    refine ⟨_, rfl, ⟨wakes.ready, wakes.waiting, wakes.others, rfl, rfl⟩, rfl, rfl, ?_⟩
    rw [empty]
    rfl
  · rw [if_neg none, if_pos rfl]
    have enough : (s.waiting w).length ≤ (((s.called (.threadWakeup (some w) 1)).interruptsSet
        false).waitQueues w).queue.size.toNat := by
      change (s.waitQueues w).threads.length ≤ (s.waitQueues w).queue.size.toNat
      omega
    obtain ⟨m, loops, wakes⟩ := wakeupLoop_wakes
      (s := (s.called (.threadWakeup (some w) 1)).interruptsSet false) enough
    rw [loops, ok_bind]
    refine ⟨_, rfl, ⟨wakes.ready, wakes.waiting, wakes.others, wakes.locks, wakes.running⟩,
      rfl, rfl, ?_⟩
    change some (Event.ret m.running _ (some (s.waitQueues w).queue.size) s.enabled) = _
    rw [wakes.running, number]
    rfl

theorem threadWakeup_one {all : Int} (k : List Frame) (waits : s.waiting w = t :: rest)
    (one : all ≠ 1) :
    Returns (threadWakeup (some w) all k s) fun s' =>
      Wakes w [t] rest s s' ∧ s'.frames = k ∧ s'.enabled = s.enabled ∧
        s'.log.head? = some (.ret s.running (.threadWakeup (some w) all) (some 1) s.enabled) := by
  have size := ThreadQueue.size_eq (s.waitQueues w)
  change (s.waitQueues w).threads = t :: rest at waits
  rw [waits, List.length_cons] at size
  unfold threadWakeup
  dsimp only
  change Returns (if (s.waitQueues w).queue.size = 0 then _ else _) _
  rw [if_neg (by omega), if_neg one]
  obtain ⟨m, tops, wakes⟩ := wakeupTop_wakes
    (s := (s.called (.threadWakeup (some w) all)).interruptsSet false) waits
  rw [tops, ok_bind]
  refine ⟨_, rfl, ⟨wakes.ready, wakes.waiting, wakes.others, wakes.locks, wakes.running⟩,
    rfl, rfl, ?_⟩
  change some (Event.ret m.running _ (some 1) s.enabled) = _
  rw [wakes.running]
  rfl

theorem threadWakeup_none (k : List Frame) (waits : s.waiting w = []) (all : Int) :
    Returns (threadWakeup (some w) all k s) fun s' =>
      Wakes w [] [] s s' ∧ s'.frames = k ∧ s'.enabled = s.enabled ∧
        s'.log.head? = some (.ret s.running (.threadWakeup (some w) all) (some 0) s.enabled) := by
  have size := ThreadQueue.size_eq (s.waitQueues w)
  change (s.waitQueues w).threads = [] at waits
  rw [waits] at size
  unfold threadWakeup
  dsimp only
  change Returns (if (s.waitQueues w).queue.size = 0 then _ else _) _
  rw [if_pos (by simpa using size)]
  exact ⟨_, rfl, ⟨(List.append_nil _).symm, waits, fun _ _ => rfl, rfl, rfl⟩, rfl, rfl, rfl⟩

/-- `thread_wakeup` wakes up the threads at the start of the queue. -/
theorem threadWakeup_wakes (w : WaitQueue) (all : Int) (k : List Frame) (s : State) :
    Returns (threadWakeup (some w) all k s) fun s' =>
      ∃ woken rest, s.waiting w = woken ++ rest ∧ Wakes w woken rest s s' := by
  cases waits : s.waiting w with
  | nil =>
      obtain ⟨s', runs, wakes, _⟩ := threadWakeup_none k waits all
      exact ⟨s', runs, [], [], rfl, wakes⟩
  | cons t rest =>
      by_cases one : all = 1
      · subst one
        obtain ⟨s', runs, wakes, _⟩ := threadWakeup_all w k s
        exact ⟨s', runs, s.waiting w, [], by rw [waits, List.append_nil], wakes⟩
      · obtain ⟨s', runs, wakes, _⟩ := threadWakeup_one k waits one
        exact ⟨s', runs, [t], rest, rfl, wakes⟩

end Wakeup

section Sleep

theorem sleepGot_sleeps {controlId : Int} (ie : Bool) (k : List Frame)
    (lists : s.ready = s.running :: u :: rest)
    (active : s.status s.running = .new ∨ s.status s.running = .run) (w : WaitQueue) :
    Returns (sleepGot w controlId ie k s) fun s' => s'.ready = u :: rest ∧
      s'.waiting w = s.waiting w ++ [s.running] ∧ (∀ v, v ≠ w → s'.waiting v = s.waiting v) ∧
      s'.running = u := by
  have first : (s.threads s.running).status = .run ∨ (s.threads s.running).status = .new :=
    active.symm
  obtain ⟨_, q, popped, tail⟩ := ThreadQueue.pop_ok (q := s.readyQueue) lists
  obtain ⟨_, q', pushed, waits⟩ := (s.waitQueues w).push_ok s.running
  unfold sleepGot
  rw [ThreadQueue.top_ok lists, ok_bind]
  dsimp only
  rw [if_pos first, popped, ok_bind]
  change Returns ((s.waitQueues w).push s.running >>= _) _
  rw [pushed, ok_bind]
  change Returns (q.top >>= _) _
  rw [ThreadQueue.top_ok tail, ok_bind]
  refine ⟨_, rfl, tail, ?_, fun v other => ?_, rfl⟩
  · change (Function.update s.waitQueues w q' w).threads = _
    rw [Function.update_self, waits]
    rfl
  · change (Function.update s.waitQueues w q' v).threads = _
    rw [Function.update_of_ne other]
    rfl

/-- `thread_sleep` where another thread is ready. -/
theorem threadSleep_sleeps (k : List Frame) (lists : s.ready = s.running :: u :: rest)
    (active : s.status s.running = .new ∨ s.status s.running = .run) (w : WaitQueue) :
    Returns (threadSleep (some w) k s) fun s' => s'.ready = u :: rest ∧
      s'.waiting w = s.waiting w ++ [s.running] ∧ (∀ v, v ≠ w → s'.waiting v = s.waiting v) ∧
      s'.running = u := by
  have several : ¬ s.readyQueue.queue.size = 1 := by
    rw [ThreadQueue.size_eq, show s.readyQueue.threads = _ from lists, List.length_cons,
      List.length_cons]
    omega
  unfold threadSleep
  change Returns (if s.readyQueue.queue.size = 1 then _ else _) _
  rw [if_neg several]
  change Returns (queueSecond s.readyQueue.queue >>= _) _
  rw [ThreadQueue.second_ok lists, ok_bind]
  change Returns (s.readyQueue.top >>= _) _
  rw [ThreadQueue.top_ok lists, ok_bind]
  refine sleepGot_sleeps (s := ((s.called (.threadSleep (some w))).interruptsSet false).getcontext
    s.running _) s.enabled k lists ?_ w
  change State.status (State.getcontext _ _ _) s.running = _ ∨
    State.status (State.getcontext _ _ _) s.running = _
  rw [status_getcontext]
  exact active

/-- `thread_sleep` where no other thread is ready. -/
theorem threadSleep_alone (k : List Frame) (lists : s.ready = [s.running]) (w : WaitQueue) :
    Returns (threadSleep (some w) k s) fun s' => s'.queued = s.queued ∧ s'.locks = s.locks ∧
      s'.running = s.running ∧ s'.frames = k ∧ s'.enabled = s.enabled := by
  unfold threadSleep
  change Returns (if s.readyQueue.queue.size = 1 then _ else _) _
  rw [if_pos (ThreadQueue.size_eq_one.mpr ⟨_, lists⟩)]
  exact ⟨_, rfl, rfl, rfl, rfl, rfl, rfl⟩

end Sleep

end Ece344Lab.Threads

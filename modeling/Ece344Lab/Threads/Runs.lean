import Ece344Lab.Threads.Calls

set_option autoImplicit false

/- The invariant holds in every state of a run, and what it says about the queues and about the
timer signal. -/
namespace Ece344Lab.Threads

open Outcome Placement State

variable {s s' : State} {k : List Frame} {a : Action}

/-- How a run begins: no call is under way, every lock is free and nobody waits. -/
structure Begun (s : State) : Prop where
  log : ∃ t, s.log = [.created t]
  frames : s.frames = []
  saved : ∀ t, (s.context t).frames = []
  locks : ∀ lock, s.locks lock = ⟨none, .free⟩
  waiting : ∀ w, s.waiting w = []

theorem threadInit_begun {newthread : Nat} {enabled : Bool}
    (runs : threadInit newthread enabled = .ok s) : Begun s := by
  obtain ⟨_, q, pushed, _⟩ := ThreadQueue.new.push_ok newthread
  unfold threadInit at runs
  dsimp only at runs
  rw [pushed, ok_bind] at runs
  obtain rfl := Except.ok.inj runs
  exact ⟨⟨newthread, rfl⟩, rfl, fun _ => rfl, fun _ => rfl, fun _ => rfl⟩

theorem threadInit_ok {newthread : Nat} {enabled : Bool}
    (runs : threadInit newthread enabled = .ok s) : s.Ok := by
  obtain ⟨_, q, pushed, lists⟩ := ThreadQueue.new.push_ok newthread
  unfold threadInit at runs
  dsimp only at runs
  rw [pushed, ok_bind] at runs
  obtain rfl := Except.ok.inj runs
  have alive : ∀ t, Live t [Event.created newthread] ↔ newthread = t := by
    intro t
    simp [Live]
  have none' : ∀ t, Threads.pending t [Event.created newthread] = some [] := by
    intro t
    simp [Threads.pending]
  refine ⟨⟨?_, fun t => ?_, fun t live => ?_, fun t live => ?_, fun i t found => ?_,
    fun t member other => ?_, fun w t member => ?_, fun t => ?_⟩, ?_, fun _ => Or.inr rfl,
    fun switching => absurd switching not_switching_nil, fun _ => rfl, trivial, none' _⟩
  · apply apart_of_only (p := none)
    · change q.threads.Nodup
      rw [lists]
      exact List.nodup_singleton _
    · intro p other
      cases p with
      | none => exact absurd rfl other
      | some w => rfl
  · rw [alive]
    constructor
    · rintro rfl
      refine ⟨none, ?_⟩
      change newthread ∈ q.threads
      rw [lists]
      exact List.mem_singleton_self _
    · rintro ⟨p, member⟩
      cases p with
      | none =>
          change t ∈ q.threads at member
          rw [lists] at member
          exact (List.mem_singleton.mp member).symm
      | some w => cases member
  · have same := (alive t).mp live
    simp [same]
  · obtain rfl := (alive t).mp live
    have below : (0 : Int) < (threadMaxThreads : Int) := by decide
    exact ⟨Int.le_refl 0, below, rfl⟩
  · by_cases here : (i : Int) = ThreadQueue.new.queue.size
    · have same : some newthread = some t := (if_pos here).symm.trans found
      exact ⟨(alive t).mpr (Option.some.inj same), here.symm⟩
    · cases (if_neg here).symm.trans found
  · change t ∈ q.threads at member
    rw [lists] at member
    exact absurd (congrArg some (List.mem_singleton.mp member).symm) other
  · cases member
  · rw [none']
    exact Option.some_ne_none []
  · change q.threads.head? = _
    rw [lists]
    rfl

theorem resume_keeps (ok : s.Ok) {f : Frame} (suspended : s.frames = f :: k) :
    Keeps (resume f k s) := by
  have nested := ok.nested
  rw [suspended] at nested
  have active : f.switches = false →
      s.status s.running = .new ∨ s.status s.running = .run := by
    intro plain
    apply ok.active
    rintro ⟨g, rest, same, switches⟩
    rw [suspended] at same
    cases same
    rw [plain] at switches
    cases switches
  have pending := ok.pending
  rw [suspended] at pending
  have bare := nested.2.2.2.1
  cases f with
  | yieldAny ie => exact yieldAnyGot_again ok suspended
  | yieldTo wantTid ie => exact yieldToGot_again ok suspended
  | sleep queue controlId ie => exact sleepGot_again ok suspended
  | acquire lock ie => exact acquireLoop_keeps (ok.inside suspended rfl rfl) bare
  | release lock ie => exact ((ok.inside suspended rfl rfl).setLock _ _).returned _
  | waitReleased cv lock ie =>
      have inside := ok.inside suspended rfl rfl
      unfold resume
      exact threadSleep_keeps (inside.calling (f := .waitSlept cv lock ie) rfl rfl rfl rfl bare)
        (bare.cons rfl) _
  | waitSlept cv lock ie =>
      have inside := ok.inside suspended rfl rfl
      unfold resume
      exact lockAcquire_keeps (inside.calling (f := .waitAcquired cv lock ie) rfl rfl rfl rfl bare)
        (bare.cons rfl) lock
  | waitAcquired cv lock ie => exact (ok.inside suspended rfl rfl).returned _
  | signalled cv lock ie => exact (ok.inside suspended rfl rfl).returned _
  | broadcasted cv lock ie => exact (ok.inside suspended rfl rfl).returned _
  | exitMain ie => cases nested.1
  | handler e =>
      refine ⟨?_, ok.head, fun _ => active rfl, fun at' => ?_, nested.2.1, nested.2.2.2.2, pending⟩
      · exact Queues.frame (n := { s.interruptsSet e with frames := k }) ok.queues
          (Queues.mem_ready_of_head ok.head) rfl rfl (fun _ _ held => held) (fun _ => rfl)
          (fun _ _ => rfl) (fun _ _ => rfl) (fun _ => Iff.rfl) (fun _ _ => rfl) (ok.queues.paired _)
      · exact absurd at' (not_switching_of_plain nested.2.2.1)
  | stub =>
      obtain rfl := nested.2.1 rfl
      refine ⟨?_, ok.head, fun _ => active rfl, fun at' => ?_, fun _ => rfl, trivial, pending⟩
      · exact Queues.frame (n := { s.interruptsSet true with frames := [] }.happened
            (.started s.running true)) ok.queues (Queues.mem_ready_of_head ok.head) rfl rfl
          (fun _ _ held => held) (fun _ => rfl) (fun _ _ => rfl) (fun _ _ => rfl) (fun _ => Iff.rfl)
          (fun _ _ => rfl) (ok.queues.paired _)
      · exact absurd at' not_switching_nil

/-- The interrupt handler makes a call with the timer signal blocked. -/
theorem State.Ok.interrupted (ok : s.Ok) (on : s.enabled = true) :
    (s.interruptsSet false).Calling (.handler s.enabled :: s.frames) := by
  have user := ok.outer on
  have calling := ok.calling user
  rw [user]
  refine ⟨?_, ok.head, calling.active, nofun, ⟨rfl, fun _ => rfl, nofun, nofun, trivial⟩, ?_,
    calling.pending⟩
  · exact Queues.frame (n := s.interruptsSet false) ok.queues (Queues.mem_ready_of_head ok.head)
      rfl rfl (fun _ _ held => held) (fun _ => rfl) (fun _ _ => rfl) (fun _ _ => rfl)
      (fun _ => Iff.rfl) (fun _ _ => rfl) (ok.queues.paired _)
  · intro f member
    rw [List.mem_singleton.mp member]
    rfl

theorem State.Ok.bare_interrupted (ok : s.Ok) (on : s.enabled = true) :
    Bare (.handler s.enabled :: s.frames) := by
  rw [ok.outer on]
  intro f member
  rw [List.mem_singleton.mp member]
  rfl

theorem State.Ok.interruptsSet (ok : s.Ok) (user : s.frames = []) (enabled : Bool) :
    (s.interruptsSet enabled).Ok := by
  refine ⟨?_, ok.head, ok.active, ok.switching, fun _ => user, ok.nested, ok.pending⟩
  exact Queues.frame (n := s.interruptsSet enabled) ok.queues (Queues.mem_ready_of_head ok.head)
    rfl rfl (fun _ _ held => held) (fun _ => rfl) (fun _ _ => rfl) (fun _ _ => rfl)
    (fun _ => Iff.rfl) (fun _ _ => rfl) (ok.queues.paired _)

/-- The steps of a run: nobody calls `thread_exit` with the own identifier, and the last ready
thread does not exit. -/
def Permitted (s : State) : Action → Prop
  | .invoke c => c.Permitted s
  | _ => True

theorem Step.keeps (ok : s.Ok) (may : Permitted s a) (step : Step s a s') : s'.Ok := by
  cases step with
  | invoke user fresh runs => exact (enter_keeps (ok.calling user) nofun may fresh).of_ok runs
  | interruptsSet user enabled => exact ok.interruptsSet user enabled
  | timer on runs =>
    exact (threadYield_keeps (ok.interrupted on) (ok.bare_interrupted on) threadAny).of_ok runs
  | goOn suspended runs => exact (resume_keeps ok suspended).of_ok runs

/-- What can be done next has an outcome, when the calls of `thread_exit` do not come upon a stack.
-/
theorem step_total (ok : s.Ok) :
    (∀ c : Call, s.frames = [] → c.Permitted s → c.Spares s →
      (∀ t, c = .threadCreate t → s.allocated t = false) → ∃ s', Step s (.invoke c) s') ∧
    (s.enabled = true → ∃ s', Step s .timer s') ∧
    (s.frames ≠ [] → ∃ s', Step s .goOn s') := by
  refine ⟨fun c user may spares fresh => ?_, fun on => ?_, fun suspended => ?_⟩
  · obtain ⟨s', runs, _⟩ := (enter_keeps (ok.calling user) nofun may fresh).exists_of
      fun _ stops => stops spares
    exact ⟨s', .invoke user fresh runs⟩
  · have keeps := threadYield_keeps (ok.interrupted on) (ok.bare_interrupted on) threadAny
    obtain ⟨s', runs, _⟩ := keeps.exists_ok
    exact ⟨s', .timer on runs⟩
  · cases frames : s.frames with
    | nil => exact absurd frames suspended
    | cons f k =>
        obtain ⟨s', runs, _⟩ := (resume_keeps ok frames).exists_ok
        exact ⟨s', .goOn frames runs⟩

/-- A run meets stricter conditions as well as weaker ones. -/
theorem Reachable.mono {p q : State → Action → Prop} (weaker : ∀ s a, p s a → q s a)
    (run : Reachable p s) : Reachable q s := by
  induction run with
  | init runs => exact .init runs
  | step _ may step ih => exact .step ih (weaker _ _ may) step

theorem Reachable.ok (run : Reachable Permitted s) : s.Ok := by
  induction run with
  | init runs => exact threadInit_ok runs
  | step _ may step ih => exact step.keeps ih may

end Ece344Lab.Threads

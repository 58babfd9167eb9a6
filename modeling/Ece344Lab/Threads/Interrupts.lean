import Ece344Lab.Threads.Conservation
import Ece344Lab.Threads.Effects

set_option autoImplicit false

/- Every call gives the timer signal back as it found it. -/
namespace Ece344Lab.Threads

open Outcome State

variable {s s' : State} {k : List Frame} {t : Nat} {c : Call} {ie : Bool} {log : List Event}

section Pairs

variable {xs ys : List Event} {inner outer : List (Call × Bool)}

/-- A return that does not match is not mended later. -/
theorem pending_ne_none_of_append (paired : pending t (xs ++ ys) ≠ none) : pending t ys ≠ none := by
  induction xs with
  | nil => exact paired
  | cons e xs ih =>
      apply ih
      intro none'
      apply paired
      cases e <;> simp [pending, none']

theorem pending_call (c : Call) (ie : Bool) (before : pending t log = some inner) :
    pending t (.call t c ie :: log) = some ((c, ie) :: inner) := by
  simp [pending, before]

theorem pending_ret {value : Option Int} (before : pending t log = some ((c, ie) :: inner)) :
    pending t (.ret t c value ie :: log) = some inner := by
  simp [pending, before]

theorem pending_of_ret {value : Option Int}
    (paired : pending t (.ret t c value ie :: log) ≠ none) :
    ∃ outer, pending t log = some ((c, ie) :: outer) := by
  unfold pending at paired
  rw [if_pos rfl] at paired
  cases before : pending t log with
  | none => simp [before] at paired
  | some open' =>
      cases open' with
      | nil => simp [before] at paired
      | cons call outer =>
          rw [before] at paired
          by_cases same : c = call.1 ∧ ie = call.2
          · obtain ⟨rfl, rfl⟩ := same
            exact ⟨outer, rfl⟩
          · exact absurd (if_neg same) paired

theorem pending_aside {e : Event} (call : ∀ c ie, e ≠ .call t c ie)
    (ret : ∀ c value ie, e ≠ .ret t c value ie) (created : e ≠ .created t) (log : List Event) :
    pending t (e :: log) = pending t log := by
  cases e with
  | call u c ie => exact pending_call_of_ne (by rintro rfl; exact call c ie rfl) c ie
  | ret u c value ie =>
      exact pending_ret_of_ne (by rintro rfl; exact ret c value ie rfl) c value ie
  | created u => exact pending_created_of_ne (by rintro rfl; exact created rfl)
  | started u ie => rfl
  | exited u => rfl

/-- An event is a call, a return or the creation of the thread, or leaves what it has pending. -/
theorem event_cases {P : Event → Prop} (call : ∀ c ie, P (.call t c ie))
    (ret : ∀ c value ie, P (.ret t c value ie)) (created : P (.created t))
    (aside : ∀ e, e ≠ .created t → (∀ log, pending t (e :: log) = pending t log) → P e)
    (e : Event) : P e := by
  by_cases calls : ∃ c ie, e = .call t c ie
  · obtain ⟨c, ie, rfl⟩ := calls
    exact call c ie
  by_cases rets : ∃ c value ie, e = .ret t c value ie
  · obtain ⟨c, value, ie, rfl⟩ := rets
    exact ret c value ie
  by_cases new : e = .created t
  · exact new ▸ created
  · exact aside e new (pending_aside (fun c ie same => calls ⟨c, ie, same⟩)
      (fun c value ie same => rets ⟨c, value, ie, same⟩) new)

/-- What a thread has pending after some events that do not include its creation. -/
theorem pending_append (old : .created t ∉ xs) (during : pending t xs = some inner)
    (before : pending t ys = some outer) : pending t (xs ++ ys) = some (inner ++ outer) := by
  induction xs generalizing inner with
  | nil =>
      obtain rfl := Option.some.inj during
      exact before
  | cons e xs ih =>
      have old' : .created t ∉ xs := fun member => old (List.mem_cons_of_mem _ member)
      cases e using event_cases (t := t) with
      | call c ie =>
          obtain ⟨calls, rest⟩ : ∃ calls, pending t xs = some calls :=
            Option.ne_none_iff_exists'.mp fun none' => by simp [pending, none'] at during
          rw [pending_call c ie rest] at during
          obtain rfl := Option.some.inj during
          exact pending_call c ie (ih old' rest)
      | ret c value ie =>
          obtain ⟨calls, rest⟩ := pending_of_ret (during ▸ Option.some_ne_none inner)
          rw [pending_ret rest] at during
          obtain rfl := Option.some.inj during
          exact pending_ret (ih old' rest)
      | created => exact absurd List.mem_cons_self old
      | aside e _ same =>
          rw [same] at during
          rw [List.cons_append, same]
          exact ih old' during

/-- The call that is pending, and the calls that the thread has completed since. -/
theorem exists_call (pends : pending t log = some ((c, ie) :: outer)) :
    ∃ during before, log = during ++ .call t c ie :: before ∧ .created t ∉ during ∧
      pending t during = some [] ∧ pending t before = some outer := by
  induction size : log.length using Nat.strong_induction_on generalizing log c ie outer with
  | _ n ih =>
      cases log with
      | nil => cases pends
      | cons e log =>
          have shorter : log.length < n := by rw [← size, List.length_cons]; omega
          cases e using event_cases (t := t) with
          | call c' ie' =>
              obtain ⟨calls, rest⟩ : ∃ calls, pending t log = some calls :=
                Option.ne_none_iff_exists'.mp fun none' => by simp [pending, none'] at pends
              rw [pending_call c' ie' rest] at pends
              obtain ⟨same, rfl⟩ := List.cons.inj (Option.some.inj pends)
              cases same
              exact ⟨[], log, rfl, by simp, rfl, rest⟩
          | ret c' value ie' =>
              obtain ⟨calls, rest⟩ := pending_of_ret (pends ▸ Option.some_ne_none _)
              rw [pending_ret rest] at pends
              obtain rfl := Option.some.inj pends
              obtain ⟨d, b, rfl, old, complete, rest⟩ := ih _ shorter rest rfl
              have shorter' : b.length < n := by
                rw [List.length_append, List.length_cons] at shorter
                omega
              obtain ⟨d', b', rfl, old', complete', rest⟩ := ih _ shorter' rest rfl
              refine ⟨.ret t c' value ie' :: (d ++ .call t c' ie' :: d'), b', by simp, ?_, ?_, rest⟩
              · simp [old, old']
              · exact pending_ret (pending_append old complete (pending_call c' ie' complete'))
          | created =>
              simp [pending] at pends
          | aside e new same =>
              rw [same] at pends
              obtain ⟨d, b, rfl, old, complete, rest⟩ := ih _ shorter pends rfl
              refine ⟨e :: d, b, rfl, ?_, (same d).trans complete, rest⟩
              simp [old, new.symm]

end Pairs

section Starts

def NoStart (s s' : State) : Prop := ∀ t ie, .started t ie ∈ s'.log → .started t ie ∈ s.log

theorem NoStart.trans {m : State} (first : NoStart s m) (second : NoStart m s') : NoStart s s' :=
  fun t ie member => first t ie (second t ie member)

theorem NoStart.cons {e : Event} (log : s'.log = e :: s.log) (other : ∀ t ie, e ≠ .started t ie) :
    NoStart s s' := by
  intro t ie member
  rw [log] at member
  exact (List.mem_cons.mp member).resolve_left fun same => other t ie same.symm

theorem NoStart.called (s : State) (c : Call) : NoStart s ((s.called c).interruptsSet false) :=
  .cons rfl nofun

theorem NoStart.returned (s : State) (c : Call) (ie : Bool) (value : Option Int) (k : List Frame) :
    NoStart s ((s.interruptsSet ie).returned c value k) :=
  .cons rfl nofun

theorem Effect.noStart {events : List Event} (effect : Effect k s s' events) : NoStart s s' := by
  intro t ie member
  rw [effect.log, List.mem_append] at member
  exact member.resolve_left fun new => effect.plain _ new

abbrev StartsNone (s : State) (x : Except Fault State) : Prop := Sat x (NoStart s) fun _ => True

theorem Affects.startsNone {m : State} {x : Except Fault State} (before : NoStart s m)
    (affects : Affects k m x) : StartsNone s x :=
  affects.mono (fun _ ⟨_, effect⟩ => before.trans effect.noStart) fun _ _ => trivial

variable {lock cv : Nat}

theorem acquireLoop_startsNone {m : State} (before : NoStart s m)
    (head : m.ready.head? = some m.running) : StartsNone s (acquireLoop lock ie k m) := by
  unfold acquireLoop
  refine Sat.ite (fun _ => (threadSleep_effect head _).startsNone before) fun _ => ?_
  rw [top_of_head head]
  exact before.trans (.returned _ _ _ _ _)

theorem lockAcquire_startsNone {m : State} (before : NoStart s m)
    (head : m.ready.head? = some m.running) : StartsNone s (lockAcquire lock k m) :=
  acquireLoop_startsNone (before.trans (.called m _)) head

theorem lockRelease_startsNone {m : State} (before : NoStart s m) :
    StartsNone s (lockRelease lock k m) := by
  have released : NoStart s (((m.called (.lockRelease lock)).interruptsSet false).setLock lock
      { m.locks lock with status := .free }) := before.trans (NoStart.called m (.lockRelease lock))
  unfold lockRelease
  exact (threadWakeup_effect _ _).startsNone released

theorem enter_startsNone (head : s.ready.head? = some s.running) {c : Call}
    (may : c.Permitted s) : StartsNone s (enter c k s) := by
  have stranger : ∀ c ie, NoStart s
      ((((s.called c).interruptsSet false).interruptsSet ie).returned c none k) :=
    fun c ie => (NoStart.called s c).trans (.returned _ _ _ _ _)
  have self : NoStart s s := fun _ _ member => member
  cases c with
  | threadCreate t => exact (threadCreate_effect t).startsNone self
  | threadYield wantTid => exact (threadYield_effect head wantTid).startsNone self
  | threadExit tid => exact (threadExit_effect head may.several).startsNone self
  | threadSleep queue => exact (threadSleep_effect head queue).startsNone self
  | threadWakeup queue all => exact (threadWakeup_effect queue all).startsNone self
  | lockAcquire lock => exact lockAcquire_startsNone self head
  | lockRelease lock => exact lockRelease_startsNone self
  | cvWait cv lock =>
      rw [enter, cvWait_eq head]
      exact Sat.ite (fun _ => lockRelease_startsNone (.called s _)) fun _ => stranger _ _
  | cvSignal cv lock =>
      rw [enter, cvSignal_eq head]
      exact Sat.ite (fun _ => (threadWakeup_effect _ _).startsNone (.called s _)) fun _ =>
        stranger _ _
  | cvBroadcast cv lock =>
      rw [enter, cvBroadcast_eq head]
      exact Sat.ite (fun _ => (threadWakeup_effect _ _).startsNone (.called s _)) fun _ =>
        stranger _ _

theorem resume_startsNone (head : s.ready.head? = some s.running) {f : Frame}
    (running : f.final = false) (other : f ≠ .stub) : StartsNone s (resume f k s) := by
  have self : NoStart s s := fun _ _ member => member
  have between := Between.start k s
  cases f with
  | yieldAny ie => exact (yieldAnyGot_effect between).startsNone self
  | yieldTo wantTid ie => exact (yieldToGot_effect between).startsNone self
  | sleep queue controlId ie => exact (sleepGot_effect between).startsNone self
  | acquire lock ie => exact acquireLoop_startsNone self head
  | waitReleased cv lock ie =>
      unfold resume
      exact (threadSleep_effect head _).startsNone self
  | waitSlept cv lock ie => exact lockAcquire_startsNone self head
  | release lock ie => exact NoStart.cons rfl nofun
  | waitAcquired cv lock ie => exact NoStart.returned s _ _ _ _
  | signalled cv lock ie => exact NoStart.returned s _ _ _ _
  | broadcasted cv lock ie => exact NoStart.returned s _ _ _ _
  | handler e => exact self
  | exitMain ie => cases running
  | stub => exact absurd rfl other

end Starts

/-- In a run every function starts with the timer signal unblocked. -/
theorem Reachable.started (run : Reachable Permitted s) :
    ∀ t ie, .started t ie ∈ s.log → ie = true := by
  induction run with
  | init runs =>
      obtain ⟨newthread, log⟩ := (threadInit_begun runs).log
      rw [log]
      simp
  | @step s s' a before may step ih =>
      have ok := before.ok
      cases step with
      | invoke user fresh runs =>
          exact fun t ie member => ih t ie ((enter_startsNone ok.head may).of_ok runs t ie member)
      | interruptsSet user enabled => exact ih
      | timer on runs =>
          have affects := threadYield_effect (k := .handler s.enabled :: s.frames)
            (s := s.interruptsSet false) ok.head threadAny
          have same : NoStart s (s.interruptsSet false) := fun _ _ member => member
          exact fun t ie member => ih t ie ((affects.startsNone same).of_ok runs t ie member)
      | @goOn s' f k suspended runs =>
          by_cases stub : f = .stub
          · subst stub
            obtain rfl := Except.ok.inj runs
            intro t ie member
            cases List.mem_cons.mp member with
            | inl same => exact (Event.started.inj same).2
            | inr earlier => exact ih t ie earlier
          · have nested := ok.nested
            rw [suspended] at nested
            have none' := resume_startsNone (k := k) ok.head nested.1 stub
            exact fun t ie member => ih t ie (none'.of_ok runs t ie member)

/-- Every call that returns gives the timer signal back as it was when the thread made the call,
whatever has happened in between, and functions of threads start with the signal unblocked. -/
theorem interrupts_restored (run : Reachable Permitted s) :
    (∀ later earlier t c value ie, s.log = later ++ .ret t c value ie :: earlier →
      ∃ during before, earlier = during ++ .call t c ie :: before ∧ .created t ∉ during ∧
        pending t during = some []) ∧
    ∀ t ie, .started t ie ∈ s.log → ie = true := by
  refine ⟨fun later earlier t c value ie log => ?_, run.started⟩
  have paired := run.ok.queues.paired t
  rw [log] at paired
  obtain ⟨outer, pends⟩ := pending_of_ret (pending_ne_none_of_append paired)
  obtain ⟨during, before, split, old, complete, _⟩ := exists_call pends
  exact ⟨during, before, split, old, complete⟩

/-- A run in which `cv_wait` sleeps, is signalled and returns. -/
theorem interrupts_restored_wait : ∃ s, Reachable Permitted s ∧
    (∃ log, s.log = .ret 0 (.cvWait 0 0) none true :: log) ∧
    (∀ later earlier t c value ie, s.log = later ++ .ret t c value ie :: earlier →
      ∃ during before, earlier = during ++ .call t c ie :: before ∧ .created t ∉ during ∧
        pending t during = some []) ∧
    ∀ t ie, .started t ie ∈ s.log → ie = true := by
  obtain ⟨s, run, last⟩ : ∃ s, Reachable Permitted s ∧
      s.log.head? = some (.ret 0 (.cvWait 0 0) none true) :=
    exists_reachable Permitted 0 true [.invoke (.threadCreate 1), .invoke (.lockAcquire 0),
      .invoke (.cvWait 0 0), .goOn, .goOn, .goOn, .invoke (.lockAcquire 0),
      .invoke (.cvSignal 0 0), .goOn, .invoke (.lockRelease 0), .goOn, .timer, .goOn, .goOn, .goOn]
      (by decide +kernel)
  obtain ⟨log, same⟩ := List.head?_eq_some_iff.mp last
  exact ⟨s, run, ⟨log, same⟩, interrupts_restored run⟩

end Ece344Lab.Threads

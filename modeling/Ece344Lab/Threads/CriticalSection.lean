import Ece344Lab.Threads.Abandoned
import Ece344Lab.Threads.Program

set_option autoImplicit false

/- Locks that protect memory. While nobody has a lock the memory satisfies its invariant, and the
thread that has the lock knows what it has made of the memory. -/
namespace Ece344Lab.Threads

open Outcome State

variable {σ ℓ : Type}

/-- What a lock protects: the places `inside` are those of the threads that have it, `invariant` is
what holds of the memory while it is free, `holding` what the thread that has it knows, and
`abandoned` what a thread leaves behind that ends with it. -/
structure Region (σ ℓ : Type) where
  inside : ℓ → Prop
  invariant : σ → Prop
  holding : ℓ → σ → Prop
  abandoned : σ → Prop

/-- Nothing is protected by a lock that is not used. -/
def Region.unused : Region σ ℓ := ⟨fun _ => False, fun _ => True, fun _ _ => True, fun _ => False⟩

/-- Whether the thread has the lock does not change, and it goes on knowing. -/
def Region.Stays (region : Region σ ℓ) (l next : ℓ) : Prop :=
  (region.inside l ↔ region.inside next) ∧
    (region.inside l → ∀ m, region.holding l m → region.holding next m)

/-- What a call must do so that the places inside are those of threads that have the lock. -/
def Call.Keeps (lock : Nat) (region : Region σ ℓ) (l next : ℓ) : Call → Prop
  | .lockAcquire k => k ≠ lock ∧ region.Stays l next ∨ k = lock ∧ ¬ region.inside l ∧
      region.inside next ∧ ∀ m, region.invariant m → region.holding next m
  | .lockRelease k => k ≠ lock ∧ region.Stays l next ∨ k = lock ∧ region.inside l ∧
      ¬ region.inside next ∧ ∀ m, region.holding l m → region.invariant m
  | .cvWait _ k => k ≠ lock ∧ region.Stays l next ∨ k = lock ∧ region.inside l ∧
      region.inside next ∧ (∀ m, region.holding l m → region.invariant m) ∧
        ∀ m, region.invariant m → region.holding next m
  | .threadYield _ | .cvSignal _ _ | .cvBroadcast _ _ | .threadSleep none
  | .threadSleep (some (.other _)) | .threadWakeup none _ | .threadWakeup (some (.other _)) _ =>
      region.Stays l next
  | _ => False

/-- What an instruction must do so that the memory is used as the lock allows. Outside, it does not
touch what the lock protects. -/
def Instruction.Keeps (lock : Nat) (region : Region σ ℓ) (l : ℓ) : Instruction σ ℓ → Prop
  | .call c next => c.Keeps lock region l next
  | .create start next => ¬ region.inside start ∧ region.Stays l next
  | .exit => region.inside l → ∀ m, region.holding l m → region.abandoned m
  | .halt => True
  | .access run => ∀ m m' next, run true m = .ok (m', next) →
      (region.inside l ↔ region.inside next) ∧
      (region.inside l → region.holding l m → region.holding next m') ∧
      (¬ region.inside l → (region.invariant m → region.invariant m') ∧
        (region.abandoned m → region.abandoned m') ∧
        ∀ l', region.inside l' → region.holding l' m → region.holding l' m')

/-- The program uses the memory as the locks allow. -/
def Protects (program : ℓ → Instruction σ ℓ) (regions : Nat → Region σ ℓ) : Prop :=
  ∀ lock l, (program l).Keeps lock (regions lock) l

/-- A call takes the lock, gives it up for a time, gives it up, or leaves it alone. -/
theorem Call.Keeps.cases {lock : Nat} {region : Region σ ℓ} {l next : ℓ} {c : Call}
    (keeps : c.Keeps lock region l next) :
    (c.Gets lock ∧ ¬ c.Gives lock ∧ ¬ region.inside l ∧ region.inside next ∧
      ∀ m, region.invariant m → region.holding next m) ∨
    (c.Gets lock ∧ c.Gives lock ∧ region.inside l ∧ region.inside next ∧
      (∀ m, region.holding l m → region.invariant m) ∧
      ∀ m, region.invariant m → region.holding next m) ∨
    (¬ c.Gets lock ∧ c.Gives lock ∧ region.inside l ∧ ¬ region.inside next ∧
      ∀ m, region.holding l m → region.invariant m) ∨
    (¬ c.Gets lock ∧ ¬ c.Gives lock ∧ region.Stays l next) := by
  cases c with
  | lockAcquire k =>
      obtain ⟨other, stays⟩ | ⟨same, takes⟩ := keeps
      · exact Or.inr (Or.inr (Or.inr ⟨other, id, stays⟩))
      · exact Or.inl ⟨same, id, takes⟩
  | lockRelease k =>
      obtain ⟨other, stays⟩ | ⟨same, gives⟩ := keeps
      · exact Or.inr (Or.inr (Or.inr ⟨id, other, stays⟩))
      · exact Or.inr (Or.inr (Or.inl ⟨id, same, gives⟩))
  | cvWait cv k =>
      obtain ⟨other, stays⟩ | ⟨same, waits⟩ := keeps
      · exact Or.inr (Or.inr (Or.inr ⟨other, other, stays⟩))
      · exact Or.inr (Or.inl ⟨same, same, waits⟩)
  | threadCreate t => cases keeps
  | threadExit tid => cases keeps
  | threadYield wantTid | cvSignal cv k | cvBroadcast cv k =>
      exact Or.inr (Or.inr (Or.inr ⟨id, id, keeps⟩))
  | threadSleep queue =>
      match queue, keeps with
      | none, keeps | some (.other i), keeps => exact Or.inr (Or.inr (Or.inr ⟨id, id, keeps⟩))
  | threadWakeup queue all =>
      match queue, keeps with
      | none, keeps | some (.other i), keeps => exact Or.inr (Or.inr (Or.inr ⟨id, id, keeps⟩))

/-- A thread that gives the lock up has it. -/
theorem Call.Keeps.gives {lock : Nat} {region : Region σ ℓ} {l next : ℓ} {c : Call}
    (keeps : c.Keeps lock region l next) (gives : c.Gives lock) : region.inside l := by
  obtain ⟨_, not, _⟩ | ⟨_, _, isInside, _⟩ | ⟨_, _, isInside, _⟩ | ⟨_, not, _⟩ := keeps.cases
  · exact absurd gives not
  · exact isInside
  · exact isInside
  · exact absurd gives not

/-- The thread is in a call that has the lock when it returns. -/
def Entering (lock : Nat) (frames : List Frame) : Prop := ∃ f ∈ frames, f.Takes lock

/-- The outermost call restores an unblocked signal. -/
def Unmasked (frames : List Frame) : Prop := ∀ f, frames.getLast? = some f → f.mask = true

namespace System

/-- A thread and the lock agree: inside it has the lock or is about to get it. -/
structure Stands (lock : Nat) (region : Region σ ℓ) (s : State) (memory : σ) (t : Nat) (l : ℓ) :
    Prop where
  has : region.inside l → Holds lock t s.log ∨
    Entering lock (s.stack t) ∧ ∀ m, region.invariant m → region.holding l m
  hasNot : ¬ region.inside l → ¬ Holds lock t s.log ∧ ¬ Entering lock (s.stack t)
  held : Holds lock t s.log → region.holding l memory
  unmasked : Unmasked (s.stack t)
  enabled : t = s.running → s.frames = [] → s.enabled = true

/-- The invariant of such a program. -/
structure Guarded (lock : Nat) (region : Region σ ℓ) (sys : System σ ℓ) : Prop where
  run : Reachable Ordinary sys.package
  gone : ∀ t, sys.locals t = none → ¬ Holds lock t sys.package.log
  alive : ∀ t, Live t sys.package.log ↔ ∃ l, sys.locals t = some l
  stands : ∀ t l, sys.locals t = some l →
    Stands lock region sys.package sys.memory t l
  free : (∀ t, ¬ Holds lock t sys.package.log) → region.invariant sys.memory ∨
    region.abandoned sys.memory ∧ (sys.package.locks lock).status = .locked

end System

variable {program : ℓ → Instruction σ ℓ} {lock : Nat} {region : Region σ ℓ} {sys sys' : System σ ℓ}
  {s p : State} {l l' next : ℓ} {k : List Frame} {mask : Bool} {takes before : Prop} {t v : Nat}
  {c : Call} {f : Frame} {a : Action} {locals : Nat → Option ℓ}

theorem State.Ok.live_running (ok : s.Ok) : Live s.running s.log :=
  (ok.queues.live s.running).mpr ⟨none, List.mem_of_mem_head? ok.head⟩

/-- A thread that does not run is somewhere in a call, or has not begun. -/
theorem State.Ok.stack_ne_nil (ok : s.Ok) (live : Live t s.log) (other : t ≠ s.running) :
    s.stack t ≠ [] := by
  have off : ∀ {status}, s.Suspended status t → (s.context t).frames ≠ [] := by
    intro status suspended nil
    obtain ⟨f, k, frames, _⟩ := suspended.switching
    rw [nil] at frames
    cases frames
  rw [stack_of_ne other]
  obtain ⟨w, member⟩ := (ok.queues.live t).mp live
  cases w with
  | none =>
      cases ok.queues.ready t member fun same => other (Option.some.inj same).symm with
      | inl fresh =>
          rw [fresh.context]
          exact List.cons_ne_nil _ _
      | inr suspended => exact off suspended
  | some w => exact off (ok.queues.waiting w t member)

/-- The same threads are alive while nobody begins or ends. -/
theorem Steadily.live {log : List Event} (steadily : Steadily log s) :
    Live t s.log ↔ Live t log := by
  obtain ⟨events, same, steady⟩ := steadily
  rw [same]
  clear same
  induction events with
  | nil => exact Iff.rfl
  | cons e events ih =>
      have rest := ih fun e' member => steady e' (List.mem_cons_of_mem _ member)
      have first := steady e List.mem_cons_self
      cases e with
      | created u => cases first
      | exited u => cases first
      | _ => exact rest

section Proceeds

variable (proceeds : Proceeds lock mask takes before k s p)
include proceeds

theorem Proceeds.entering (enters : takes ∨ Entering lock k) :
    Holds lock s.running p.log ∨ Entering lock (p.stack s.running) := by
  obtain ⟨running, frames, _, took⟩ | ⟨front, g, stack, _, same, _⟩ := proceeds.stack
  · cases enters with
    | inl takes => exact Or.inl (took takes)
    | inr outer =>
        right
        rw [← running, stack_running, frames]
        exact outer
  · right
    rw [stack]
    cases enters with
    | inl takes => exact ⟨g, by simp, same.mpr takes⟩
    | inr outer =>
        obtain ⟨f, member, there⟩ := outer
        exact ⟨f, by simp [member], there⟩

theorem Proceeds.not_entering (none' : ¬ takes) (outer : ¬ Entering lock k) :
    ¬ Entering lock (p.stack s.running) := by
  obtain ⟨running, frames, _, _⟩ | ⟨front, g, stack, _, same, free⟩ := proceeds.stack
  · rw [← running, stack_running, frames]
    exact outer
  · rw [stack]
    rintro ⟨f, member, there⟩
    rcases List.mem_append.mp member with first | later
    · exact none' (free f first there)
    · cases List.mem_cons.mp later with
      | inl equal => exact none' (same.mp (equal ▸ there))
      | inr last => exact outer ⟨f, last, there⟩

theorem Proceeds.unmasked (base : k = [] → mask = true) (outer : Unmasked k) :
    Unmasked (p.stack s.running) ∧ (p.running = s.running → p.frames = [] → p.enabled = true) := by
  obtain ⟨running, frames, enabled, _⟩ | ⟨front, g, stack, restores, _, _⟩ := proceeds.stack
  · refine ⟨?_, fun _ user => ?_⟩
    · rw [← running, stack_running, frames]
      exact outer
    · rw [enabled]
      exact base (frames.symm.trans user)
  · refine ⟨?_, fun running user => ?_⟩
    · rw [stack]
      intro f last
      cases k with
      | nil =>
          rw [List.getLast?_concat] at last
          obtain rfl := Option.some.inj last
          exact restores.trans (base rfl)
      | cons h k =>
          apply outer
          rw [List.getLast?_append, List.getLast?_cons_cons] at last
          rw [List.getLast?_cons] at last ⊢
          exact last
    · rw [← running, stack_running, user] at stack
      exact absurd stack.symm (by simp)

end Proceeds

namespace System

/-- Two threads do not have the lock at the same time. -/
theorem Guarded.one (run : Reachable Ordinary p) {u : Nat} (here : Holds lock t p.log)
    (there : Holds lock u p.log) : t = u :=
  run.lockOk_ordinary.2.exclusive.one lock t u here there

theorem Stands.aside {memory : σ} (stands : Stands lock region s memory t l)
    (ok : s.Ok) (live : Live t s.log) (other : t ≠ s.running) (stack : p.stack t = s.stack t)
    (holds : Holds lock t p.log ↔ Holds lock t s.log) :
    Stands lock region p memory t l := by
  refine ⟨?_, ?_, fun there => stands.held (holds.mp there), ?_, fun running user => ?_⟩
  · rw [stack, holds]
    exact stands.has
  · rw [stack, holds]
    exact stands.hasNot
  · rw [stack]
    exact stands.unmasked
  · subst running
    rw [stack_running] at stack
    exact absurd (stack.symm.trans user) (ok.stack_ne_nil live other)

theorem Stands.of_stub {memory : σ} (outside : ¬ region.inside l) (stub : p.stack t = [.stub])
    (holds : ¬ Holds lock t p.log) : Stands lock region p memory t l := by
  refine ⟨fun isInside => absurd isInside outside, fun _ => ⟨holds, ?_⟩,
    fun there => absurd there holds, ?_, fun running user => ?_⟩
  · rw [stub]
    rintro ⟨f, member, there⟩
    rw [List.mem_singleton.mp member] at there
    exact there
  · rw [stub]
    rintro f last
    obtain rfl := Option.some.inj last
    rfl
  · subst running
    rw [stack_running] at stub
    exact absurd (user.symm.trans stub) (by nofun)

/-- When the running thread does not have the lock and nobody else has it either, the memory is as
a free lock promises, or as a thread has left it that went out with the lock. -/
theorem Guarded.nobody (guarded : sys.Guarded lock region) (not : ¬ before)
    (gave : ¬ before → Holds lock sys.package.running sys.package.log → region.invariant sys.memory)
    (sticks : Abandoned lock sys.package → Abandoned lock p)
    (others : ∀ t, t ≠ sys.package.running → ¬ Holds lock t sys.package.log) :
    region.invariant sys.memory ∨ region.abandoned sys.memory ∧ Abandoned lock p := by
  by_cases holds : Holds lock sys.package.running sys.package.log
  · exact Or.inl (gave not holds)
  · have none' : ∀ t, ¬ Holds lock t sys.package.log := by
      intro t
      by_cases same : t = sys.package.running
      · exact same ▸ holds
      · exact others t same
    exact (guarded.free none').imp id fun left => ⟨left.1, sticks ⟨left.2, none'⟩⟩

/-- The running thread after it has gone on. -/
theorem Guarded.stands_own (guarded : sys.Guarded lock region)
    (here : sys.locals sys.package.running = some l) (run : Reachable Ordinary p)
    (proceeds : Proceeds lock mask takes before k sys.package p)
    (others : ∀ t, t ≠ sys.package.running →
      (Holds lock t p.log ↔ Holds lock t sys.package.log))
    (had : before → Holds lock sys.package.running sys.package.log)
    (enters : region.inside l' → before ∨
      (takes ∨ Entering lock k) ∧ ∀ m, region.invariant m → region.holding l' m)
    (leaves : ¬ region.inside l' → ¬ before ∧ ¬ takes ∧ ¬ Entering lock k)
    (knows : before → region.holding l sys.memory → region.holding l' sys.memory)
    (took : takes → ¬ before → ∀ m, region.invariant m → region.holding l' m)
    (gave : ¬ before → Holds lock sys.package.running sys.package.log → region.invariant sys.memory)
    (sticks : Abandoned lock sys.package → Abandoned lock p)
    (base : k = [] → mask = true) (outer : Unmasked k) :
    Stands lock region p sys.memory sys.package.running l' := by
  have masks := proceeds.unmasked base outer
  refine ⟨fun isInside => ?_, fun outside => ?_, fun holds => ?_, masks.1,
    fun same => masks.2 same.symm⟩
  · obtain held | ⟨entering, imp⟩ := enters isInside
    · exact Or.inl (proceeds.keeps held)
    · exact (proceeds.entering entering).imp id fun entering => ⟨entering, imp⟩
  · obtain ⟨not, none', outer⟩ := leaves outside
    exact ⟨fun holds => (proceeds.gets holds).elim not none', proceeds.not_entering none' outer⟩
  · by_cases held : before
    · exact knows held ((guarded.stands _ _ here).held (had held))
    · have takes' := (proceeds.gets holds).resolve_left held
      obtain free | left := guarded.nobody held gave sticks fun u other there =>
        other (Guarded.one run ((others u other).mpr there) holds)
      · exact took takes' held _ free
      · exact absurd holds (left.2.nobody _)

/-- The running thread goes on, in its own code or in a call, and the memory stays. A thread may be
new, about to start outside. -/
theorem Guarded.proceeds (guarded : sys.Guarded lock region)
    (here : sys.locals sys.package.running = some l) (run : Reachable Ordinary p)
    (proceeds : Proceeds lock mask takes before k sys.package p)
    (others : ∀ t, t ≠ sys.package.running →
      (sys.locals t ≠ none → p.stack t = sys.package.stack t) ∧
      (Holds lock t p.log ↔ Holds lock t sys.package.log))
    (known : ∀ t, t ≠ sys.package.running → locals t = sys.locals t ∨ sys.locals t = none ∧
      ∀ m, locals t = some m → ¬ region.inside m ∧ p.stack t = [.stub])
    (live : ∀ t, Live t p.log ↔ t = sys.package.running ∨ ∃ m, locals t = some m)
    (had : before → Holds lock sys.package.running sys.package.log)
    (enters : region.inside l' → before ∨
      (takes ∨ Entering lock k) ∧ ∀ m, region.invariant m → region.holding l' m)
    (leaves : ¬ region.inside l' → ¬ before ∧ ¬ takes ∧ ¬ Entering lock k)
    (knows : before → region.holding l sys.memory → region.holding l' sys.memory)
    (took : takes → ¬ before → ∀ m, region.invariant m → region.holding l' m)
    (gave : ¬ before → Holds lock sys.package.running sys.package.log → region.invariant sys.memory)
    (sticks : Abandoned lock sys.package → Abandoned lock p)
    (base : k = [] → mask = true) (outer : Unmasked k) :
    Guarded lock region
      ⟨p, sys.memory, Function.update locals sys.package.running (some l')⟩ := by
  have ok := guarded.run.lockOk_ordinary.1
  have own := guarded.stands_own here run proceeds (fun t other => (others t other).2) had enters
    leaves knows took gave sticks base outer
  refine ⟨run, fun t at' => ?_, fun t => ?_, fun t m at' => ?_, fun none' => ?_⟩
  · change Function.update locals _ _ t = none at at'
    have other : t ≠ sys.package.running := by
      rintro rfl
      rw [Function.update_self] at at'
      cases at'
    rw [Function.update_of_ne other] at at'
    have gone : sys.locals t = none := by
      obtain old | ⟨none', _⟩ := known t other
      · exact old ▸ at'
      · exact none'
    exact fun holds => guarded.gone t gone ((others t other).2.mp holds)
  · refine (live t).trans ?_
    by_cases same : t = sys.package.running
    · subst same
      exact ⟨fun _ => ⟨l', Function.update_self _ _ _⟩, fun _ => Or.inl rfl⟩
    · change _ ↔ ∃ l, Function.update locals _ _ t = some l
      rw [Function.update_of_ne same]
      exact ⟨fun there => there.resolve_left same, Or.inr⟩
  · change Function.update locals _ _ t = some m at at'
    by_cases same : t = sys.package.running
    · subst same
      rw [Function.update_self] at at'
      exact Option.some.inj at' ▸ own
    · rw [Function.update_of_ne same] at at'
      obtain ⟨stack, holds⟩ := others t same
      obtain old | ⟨none', new⟩ := known t same
      · rw [old] at at'
        exact (guarded.stands t m at').aside ok ((guarded.alive t).mpr ⟨m, at'⟩) same
          (stack (at' ▸ Option.some_ne_none m)) holds
      · exact .of_stub (new m at').1 (new m at').2 fun there =>
          guarded.gone t none' (holds.mp there)
  · have left := guarded.nobody (fun held => none' _ (proceeds.keeps held)) gave sticks
      fun t other holds => none' t ((others t other).2.mpr holds)
    exact left.imp id fun left => ⟨left.1, left.2.locked⟩

/-- The running thread is somewhere in its code. -/
theorem Guarded.exists_running (guarded : sys.Guarded lock region) :
    ∃ l, sys.locals sys.package.running = some l :=
  (guarded.alive _).mp guarded.run.lockOk_ordinary.1.live_running

theorem Guarded.live_of_steadily (guarded : sys.Guarded lock region)
    (steadily : Steadily sys.package.log p) (t : Nat) :
    Live t p.log ↔ t = sys.package.running ∨ ∃ m, sys.locals t = some m := by
  rw [steadily.live, guarded.alive t]
  refine ⟨Or.inr, fun there => ?_⟩
  obtain rfl | there := there
  · exact guarded.exists_running
  · exact there

theorem moved_same (here : sys.locals t = some l) :
    ({ sys with package := p } : System σ ℓ) = sys.moved p t (some l) := by
  unfold moved
  rw [← here, Function.update_eq_self]

theorem Guarded.goOn (guarded : sys.Guarded lock region)
    (step : Threads.Step sys.package .goOn p) :
    ({ sys with package := p } : System σ ℓ).Guarded lock region := by
  obtain ⟨l, here⟩ := guarded.exists_running
  obtain ⟨ok, lockOk⟩ := guarded.run.lockOk_ordinary
  have may : Permitted sys.package .goOn := trivial
  have others := fun t (other : t ≠ sys.package.running) =>
    step.others lock ok may nofun other
  have steadily := step.steadily ok nofun nofun
  have run := guarded.run.goOn step
  cases step with
  | @goOn _ f k suspended runs =>
      have stack : sys.package.stack sys.package.running = f :: k :=
        (stack_running _).trans suspended
      have stands := guarded.stands _ l here
      have masks := stands.unmasked
      rw [stack] at masks
      have entering : Entering lock (f :: k) ↔ f.Takes lock ∨ Entering lock k := by
        unfold Entering
        simp
      have has := stands.has
      have hasNot := stands.hasNot
      rw [stack, entering] at has hasNot
      rw [moved_same here]
      refine guarded.proceeds here run ((resume_proceeds ok lockOk suspended).of_ok runs)
        (fun t other => ⟨fun _ => (others t other).1 nofun, (others t other).2⟩)
        (fun t _ => Or.inl rfl) (guarded.live_of_steadily steadily) id has (fun outside => ?_)
        (fun _ => id) (fun takes not m => ?_) (fun not held => absurd held not)
        (fun abandoned => (resume_abandons ok suspended abandoned).of_ok runs) (fun nil => ?_)
        fun g last => ?_
      · obtain ⟨not, none'⟩ := hasNot outside
        exact ⟨not, fun takes => none' (Or.inl takes), fun enters => none' (Or.inr enters)⟩
      · by_cases isInside : region.inside l
        · exact ((has isInside).resolve_left not).2 m
        · exact absurd (Or.inl takes) (hasNot isInside).2
      · subst nil
        exact masks f rfl
      · cases k with
        | nil => cases last
        | cons h k => exact masks g (by rw [List.getLast?_cons_cons]; exact last)

theorem Guarded.timer (guarded : sys.Guarded lock region)
    (step : Threads.Step sys.package .timer p) :
    ({ sys with package := p } : System σ ℓ).Guarded lock region := by
  obtain ⟨l, here⟩ := guarded.exists_running
  obtain ⟨ok, lockOk⟩ := guarded.run.lockOk_ordinary
  have may : Ordinary sys.package .timer := trivial
  have others := fun t (other : t ≠ sys.package.running) =>
    step.others lock ok may.disciplined.permitted nofun other
  have steadily := step.steadily ok nofun nofun
  have run : Reachable Ordinary p := .step guarded.run may step
  have step' := step
  cases step with
  | timer on runs =>
      have user := ok.outer on
      have empty : ¬ Entering lock sys.package.frames := by
        rw [user]
        rintro ⟨f, member, _⟩
        cases member
      have stack := stack_running sys.package
      have has := (guarded.stands _ l here).has
      have hasNot := (guarded.stands _ l here).hasNot
      rw [stack] at has hasNot
      have proceeds : Proceeds lock true False (Holds lock sys.package.running sys.package.log) []
          sys.package p := by
        rw [user, on] at runs
        have turn :=
          (threadYield_turns (k := [.handler true]) (s := sys.package.interruptsSet false)
          ok.head threadAny).of_ok runs
        exact Turn.proceeds_inside (s := sys.package) (g := .handler true) turn [] nofun rfl Iff.rfl
          Iff.rfl
      rw [moved_same here]
      refine guarded.proceeds here run proceeds
        (fun t other => ⟨fun _ => (others t other).1 nofun, (others t other).2⟩)
        (fun t _ => Or.inl rfl) (guarded.live_of_steadily steadily) id (fun isInside => ?_)
        (fun outside => ?_) (fun _ => id) False.elim (fun not held => absurd held not)
        (Step.abandoned ok may.disciplined.permitted step' nofun) (fun _ => rfl) nofun
      · exact Or.inl ((has isInside).resolve_right fun entering => empty entering.1)
      · refine ⟨(hasNot outside).1, id, ?_⟩
        rintro ⟨f, member, _⟩
        cases member

/-- In its own code a thread has the lock at the places inside. -/
theorem Guarded.holds_iff (guarded : sys.Guarded lock region)
    (user : sys.package.frames = []) (here : sys.locals sys.package.running = some l) :
    Holds lock sys.package.running sys.package.log ↔ region.inside l := by
  have empty : ¬ Entering lock (sys.package.stack sys.package.running) := by
    rw [stack_running, user]
    rintro ⟨f, member, _⟩
    cases member
  constructor
  · intro holds
    by_contra outside
    exact ((guarded.stands _ l here).hasNot outside).1 holds
  · exact fun isInside => ((guarded.stands _ l here).has isInside).resolve_right fun enters =>
      empty enters.1

theorem not_entering_nil : ¬ Entering lock [] := by
  rintro ⟨f, member, _⟩
  cases member

theorem Guarded.call (guarded : sys.Guarded lock region)
    (here : sys.locals sys.package.running = some l) (keeps : c.Keeps lock region l next)
    (may : Ordinary sys.package (.invoke c)) (step : Threads.Step sys.package (.invoke c) p) :
    (sys.moved p sys.package.running (some next)).Guarded lock region := by
  obtain ⟨ok, lockOk⟩ := guarded.run.lockOk_ordinary
  have user : sys.package.frames = [] := by
    cases step with
    | invoke user _ _ => exact user
  have holds := guarded.holds_iff user here
  have known : region.inside l → region.holding l sys.memory := fun isInside =>
    (guarded.stands _ l here).held (holds.mpr isInside)
  have creates : ∀ t, c ≠ .threadCreate t := by
    rintro t rfl
    exact keeps
  have exits : ∀ tid, c ≠ .threadExit tid := by
    rintro t rfl
    exact keeps
  have run : Reachable Ordinary p := .step guarded.run may step
  have others := fun t (other : t ≠ sys.package.running) => step.others lock ok
    may.disciplined.permitted (fun tid same => absurd (Action.invoke.inj same) (exits tid)) other
  have steadily := step.steadily ok (fun t same => creates t (Action.invoke.inj same))
    fun tid same => exits tid (Action.invoke.inj same)
  have proceeds : Proceeds lock sys.package.enabled (c.Gets lock)
      (Holds lock sys.package.running sys.package.log ∧ ¬ c.Gives lock) [] sys.package p := by
    cases step with
    | invoke _ _ runs =>
        refine (enter_proceeds ok.head lock creates exits fun cv same => ?_).of_ok runs
        subst same
        have fields := lockOk.guarded.held lock _ (holds.mpr (keeps.gives rfl))
        unfold isHolder
        rw [fields]
        exact decide_eq_true ⟨rfl, rfl⟩
  have sticks : Abandoned lock sys.package → Abandoned lock p := by
    refine fun abandoned => step.abandoned ok may.disciplined.permitted (fun c' same gives => ?_)
      abandoned
    cases same
    exact abandoned.nobody _ (holds.mpr (keeps.gives gives))
  refine guarded.proceeds here run proceeds
    (fun t other => ⟨fun _ => (others t other).1 fun same => creates t (Action.invoke.inj same),
      (others t other).2⟩) (fun t _ => Or.inl rfl) (guarded.live_of_steadily steadily) And.left
    (fun isInside => ?_) (fun outside => ?_) (fun before => ?_) (fun takes not => ?_)
    (fun not held => ?_) sticks
    (fun _ => (guarded.stands _ l here).enabled rfl user) nofun
  all_goals rw [holds] at *
  · obtain ⟨gets, _, _, _, imp⟩ | ⟨gets, _, _, _, _, imp⟩ | ⟨_, _, _, out, _⟩ |
        ⟨_, keeps, same, _⟩ := keeps.cases
    · exact Or.inr ⟨Or.inl gets, imp⟩
    · exact Or.inr ⟨Or.inl gets, imp⟩
    · exact absurd isInside out
    · exact Or.inl ⟨same.mpr isInside, keeps⟩
  · obtain ⟨_, _, _, isInside, _⟩ | ⟨_, _, _, isInside, _⟩ | ⟨not, gives, _⟩ | ⟨not, _, same, _⟩ :=
      keeps.cases
    · exact absurd isInside outside
    · exact absurd isInside outside
    · exact ⟨fun before => before.2 gives, not, not_entering_nil⟩
    · exact ⟨fun before => outside (same.mp before.1), not, not_entering_nil⟩
  · obtain ⟨_, _, out, _⟩ | ⟨_, gives, _⟩ | ⟨_, gives, _⟩ | ⟨_, _, _, imp⟩ := keeps.cases
    · exact absurd before.1 out
    · exact absurd gives before.2
    · exact absurd gives before.2
    · exact imp before.1 _
  · obtain ⟨_, _, _, _, imp⟩ | ⟨_, _, _, _, _, imp⟩ | ⟨none', _⟩ | ⟨none', _⟩ := keeps.cases
    · exact imp
    · exact imp
    · exact absurd takes none'
    · exact absurd takes none'
  · obtain ⟨_, _, out, _⟩ | ⟨_, _, _, _, imp, _⟩ | ⟨_, _, _, _, imp⟩ | ⟨_, keeps, _⟩ := keeps.cases
    · exact absurd held out
    · exact imp _ (known held)
    · exact imp _ (known held)
    · exact absurd ⟨held, keeps⟩ not

end System

end Ece344Lab.Threads

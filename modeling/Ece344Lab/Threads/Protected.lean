import Ece344Lab.Threads.CriticalSection

set_option autoImplicit false

/- Threads begin without a lock, and the memory is used as the locks allow, so the invariants of the
locks hold through whole runs. -/
namespace Ece344Lab.Threads

open Outcome State

variable {σ ℓ : Type} {program : ℓ → Instruction σ ℓ} {lock : Nat} {region : Region σ ℓ}
  {regions : Nat → Region σ ℓ} {sys sys' : System σ ℓ} {s p : State} {l start next main : ℓ}
  {t v : Nat} {c : Call} {m m' : σ}

/-- The assertions of an access hold when the signal is not blocked and, inside, the thread knows
what it should. -/
def Instruction.Checks (region : Region σ ℓ) (l : ℓ) : Instruction σ ℓ → Prop
  | .access run => ∀ m, (region.inside l → region.holding l m) → ∃ r, run true m = .ok r
  | _ => True

/-- `thread_create` returns to its caller, with a new thread that is about to begin or with none. -/
structure Creates (v : Nat) (s p : State) : Prop where
  running : p.running = s.running
  frames : p.frames = []
  enabled : p.enabled = s.enabled
  made : (∃ value, p.log = .ret s.running (.threadCreate v) value s.enabled :: .created v ::
      .call s.running (.threadCreate v) s.enabled :: s.log ∧ (p.context v).frames = [.stub]) ∨
    ∃ value, p.log = .ret s.running (.threadCreate v) value s.enabled ::
      .call s.running (.threadCreate v) s.enabled :: s.log

theorem threadCreate_creates (v : Nat) (s : State) :
    Sat (threadCreate v [] s) (Creates v s) fun _ => True := by
  unfold threadCreate
  dsimp only
  split
  · refine (sat_true _).bind fun q _ => ⟨rfl, rfl, rfl, Or.inl ⟨_, rfl, ?_⟩⟩
    change (Function.update s.threads v _ v).context.frames = _
    rw [Function.update_self]
  · exact ⟨rfl, rfl, rfl, Or.inr ⟨_, rfl⟩⟩

namespace Creates

variable (creates : Creates v s p)
include creates

theorem holds : Holds lock t p.log ↔ Holds lock t s.log := by
  obtain ⟨value, log, _⟩ | ⟨value, log⟩ := creates.made
  · rw [log]
    exact (holds_cons rfl rfl).trans ((holds_cons rfl rfl).trans (holds_cons rfl rfl))
  · rw [log]
    exact (holds_cons rfl rfl).trans (holds_cons rfl rfl)

theorem live (fresh : ¬ Live v s.log) : Live t p.log ↔ t = v ∧ Live v p.log ∨ Live t s.log := by
  obtain ⟨value, log, _⟩ | ⟨value, log⟩ := creates.made
  · rw [log]
    change v = t ∨ Live t s.log ↔ t = v ∧ (v = v ∨ Live v s.log) ∨ Live t s.log
    simp [eq_comm]
  · rw [log]
    change Live t s.log ↔ t = v ∧ Live v s.log ∨ Live t s.log
    simp [fresh]

theorem stub (fresh : ¬ Live v s.log) (other : v ≠ s.running) (made : Live v p.log) :
    p.stack v = [.stub] := by
  obtain ⟨value, log, stub⟩ | ⟨value, log⟩ := creates.made
  · rw [stack_of_ne fun same => other (same.trans creates.running)]
    exact stub
  · rw [log] at made
    exact absurd made fresh

theorem proceeds : Proceeds lock s.enabled False (Holds lock s.running s.log) [] s p where
  keeps := creates.holds.mpr
  gets holds := Or.inl (creates.holds.mp holds)
  stack := Or.inl ⟨creates.running, creates.frames, creates.enabled, False.elim⟩

end Creates

namespace System

/-- `thread_create` when the thread is given memory that nobody alive uses. -/
theorem Guarded.created (guarded : sys.Guarded lock region)
    (step : Threads.Step sys.package (.invoke (.threadCreate v)) p) :
    Creates v sys.package p ∧ ¬ Live v sys.package.log ∧ v ≠ sys.package.running ∧
      sys.locals v = none := by
  have ok := guarded.run.lockOk_ordinary.1
  cases step with
  | invoke user fresh runs =>
      have creates := (threadCreate_creates v sys.package).of_ok runs
      have unused : ¬ Live v sys.package.log := by
        intro live
        exact absurd ((fresh v rfl).symm.trans (ok.queues.allocated v live)) nofun
      have away : sys.locals v = none := by
        cases at' : sys.locals v with
        | none => rfl
        | some l => exact absurd ((guarded.alive v).mpr ⟨l, at'⟩) unused
      refine ⟨creates, unused, ?_, away⟩
      rintro rfl
      exact unused ok.live_running

theorem Guarded.create (guarded : sys.Guarded lock region)
    (here : sys.locals sys.package.running = some l)
    (step : Threads.Step sys.package (.invoke (.threadCreate v)) p)
    (outside : ¬ region.inside start) (stays : region.Stays l next) {locals : Nat → Option ℓ}
    (others : ∀ t, t ≠ v → locals t = sys.locals t)
    (new : ∀ m, locals v = some m ↔ Live v p.log ∧ m = start) :
    Guarded lock region
      ⟨p, sys.memory, Function.update locals sys.package.running (some next)⟩ := by
  obtain ⟨ok, lockOk⟩ := guarded.run.lockOk_ordinary
  have may : Ordinary sys.package (.invoke (.threadCreate v)) := trivial
  have run : Reachable Ordinary p := .step guarded.run may step
  obtain ⟨creates, fresh, other, away⟩ := guarded.created step
  have user : sys.package.frames = [] := by
    cases step with
    | invoke user _ _ => exact user
  have holds := guarded.holds_iff user here
  refine guarded.proceeds here run creates.proceeds (fun t apart => ?_) (fun t apart => ?_)
    (fun t => ?_) id (fun isInside => Or.inl (holds.mpr (stays.1.mpr isInside)))
      (fun isOutside => ?_)
    (fun held => stays.2 (holds.mp held) _) False.elim (fun not held => absurd held not)
    (step.abandoned ok may.disciplined.permitted fun c same gives => ?_)
    (fun _ => (guarded.stands _ l here).enabled rfl user) nofun
  · obtain ⟨stack, held⟩ := step.others lock ok may.disciplined.permitted
      (fun tid same => by cases same) apart
    refine ⟨fun known => stack ?_, held⟩
    rintro ⟨⟩
    exact known away
  · by_cases newcomer : t = v
    · subst newcomer
      refine Or.inr ⟨away, fun m at' => ?_⟩
      obtain ⟨made, rfl⟩ := (new m).mp at'
      exact ⟨outside, creates.stub fresh other made⟩
    · exact Or.inl (others t newcomer)
  · rw [creates.live fresh, guarded.alive t]
    by_cases newcomer : t = v
    · subst newcomer
      simp only [true_and, new, away, reduceCtorEq, exists_false, or_false, other, false_or,
        exists_and_left, exists_eq, and_true]
    · rw [others t newcomer]
      refine ⟨fun live => Or.inr (live.resolve_left fun at' => newcomer at'.1),
        fun live => Or.inr ?_⟩
      obtain rfl | live := live
      · exact ⟨l, here⟩
      · exact live
  · exact ⟨fun held => isOutside (stays.1.mp (holds.mp held)), id, not_entering_nil⟩
  · cases same
    exact gives

/-- A thread ends. It leaves what it should behind when it has the lock. -/
theorem Guarded.exit (guarded : sys.Guarded lock region)
    (here : sys.locals sys.package.running = some l)
    (leaves : region.inside l → ∀ m, region.holding l m → region.abandoned m)
    (several : 1 < sys.package.ready.length)
    (step : Threads.Step sys.package (.invoke (.threadExit threadSelf)) p) :
    (sys.moved p sys.package.running none).Guarded lock region := by
  obtain ⟨ok, lockOk⟩ := guarded.run.lockOk_ordinary
  have known := ok.queues.index _ ok.live_running
  have may : Ordinary sys.package (.invoke (.threadExit threadSelf)) := by
    refine ⟨fun same => ?_, fun _ => several⟩
    rw [← same] at known
    exact absurd known.1 (by decide)
  have permitted : (Call.threadExit threadSelf).Permitted sys.package := may
  have run : Reachable Ordinary p := .step guarded.run may step
  have log : p.log =
    [.exited sys.package.running, .call sys.package.running (.threadExit threadSelf)
      sys.package.enabled] ++ sys.package.log := by
    cases step with
    | invoke _ _ runs => exact (threadExit_log ok.head (permitted.several rfl)).of_ok runs
  have others := fun t (other : t ≠ sys.package.running) => step.others lock ok
    may.disciplined.permitted (fun tid same => by cases same; rfl) other
  have without : ¬ Holds lock sys.package.running p.log := by
    rw [log]
    rintro (takes | ⟨gives, _⟩)
    · cases takes
    · simp [Event.gives] at gives
  have user : sys.package.frames = [] := by
    cases step with
    | invoke user _ _ => exact user
  have locks : p.locks = sys.package.locks := by
    cases step with
    | invoke _ _ runs =>
        obtain ⟨_, effect⟩ := (threadExit_effect ok.head permitted.several).of_ok runs
        exact effect.locks
  have nobody : (∀ t, ¬ Holds lock t p.log) → region.invariant sys.memory ∨
      region.abandoned sys.memory ∧ (p.locks lock).status = .locked := by
    intro none'
    rw [locks]
    by_cases held : Holds lock sys.package.running sys.package.log
    · have known := (guarded.stands _ l here).held held
      have status := congrArg Lock.status (lockOk.guarded.held lock _ held)
      exact Or.inr ⟨leaves ((guarded.holds_iff user here).mp held) _ known, status⟩
    · refine guarded.free fun t holds => ?_
      by_cases same : t = sys.package.running
      · exact held (same ▸ holds)
      · exact none' t ((others t same).2.mpr holds)
  refine ⟨run, fun t at' => ?_, fun t => ?_, fun t m at' => ?_, nobody⟩
  · by_cases same : t = sys.package.running
    · exact same ▸ without
    · change Function.update sys.locals _ _ t = none at at'
      rw [Function.update_of_ne same] at at'
      exact fun holds => guarded.gone t at' ((others t same).2.mp holds)
  · change Live t p.log ↔ ∃ m, Function.update sys.locals sys.package.running none t = some m
    rw [log]
    change sys.package.running ≠ t ∧ Live t sys.package.log ↔ _
    by_cases same : t = sys.package.running
    · subst same
      simp
    · rw [Function.update_of_ne same, guarded.alive t]
      exact and_iff_right fun equal => same equal.symm
  · change Function.update sys.locals _ _ t = some m at at'
    have same : t ≠ sys.package.running := by
      rintro rfl
      rw [Function.update_self] at at'
      cases at'
    rw [Function.update_of_ne same] at at'
    exact (guarded.stands t m at').aside ok ((guarded.alive t).mpr ⟨m, at'⟩) same
      ((others t same).1 fun equal => by cases equal) (others t same).2

/-- The running thread uses the memory. -/
theorem Guarded.access (guarded : sys.Guarded lock region)
    (user : sys.package.frames = []) (here : sys.locals sys.package.running = some l)
    (same : region.inside l ↔ region.inside next)
    (within : region.inside l → region.holding l sys.memory → region.holding next m')
    (without : ¬ region.inside l → (region.invariant sys.memory → region.invariant m') ∧
      (region.abandoned sys.memory → region.abandoned m') ∧
      ∀ l', region.inside l' → region.holding l' sys.memory → region.holding l' m') :
    ({ sys with memory := m' }.moved sys.package sys.package.running (some next)).Guarded lock
      region := by
  have held := guarded.holds_iff user here
  have own := guarded.stands _ l here
  have others : ∀ t, t ≠ sys.package.running → ∀ l', sys.locals t = some l' →
      Holds lock t sys.package.log → region.holding l' m' := by
    intro t other l' at' holds
    have isInside : region.inside l' := by
      by_contra outside
      exact ((guarded.stands t l' at').hasNot outside).1 holds
    refine (without fun running => ?_).2.2 l' isInside ((guarded.stands t l' at').held holds)
    exact other (Guarded.one guarded.run holds (held.mpr running))
  refine ⟨guarded.run, fun t at' => ?_, fun t => ?_, fun t l' at' => ?_, fun none' => ?_⟩
  · apply guarded.gone t
    change Function.update sys.locals _ _ t = none at at'
    by_cases running : t = sys.package.running
    · subst running
      rw [Function.update_self] at at'
      cases at'
    · rwa [Function.update_of_ne running] at at'
  · refine (guarded.alive t).trans ?_
    change _ ↔ ∃ l, Function.update sys.locals _ _ t = some l
    by_cases running : t = sys.package.running
    · subst running
      rw [Function.update_self, here]
      exact ⟨fun _ => ⟨next, rfl⟩, fun _ => ⟨l, rfl⟩⟩
    · rw [Function.update_of_ne running]
  · change Function.update sys.locals _ _ t = some l' at at'
    by_cases running : t = sys.package.running
    · subst running
      rw [Function.update_self] at at'
      obtain rfl := Option.some.inj at'
      refine ⟨fun isInside => ?_,
        fun outside => own.hasNot fun isInside => outside (same.mp isInside),
        fun holds => ?_, own.unmasked, own.enabled⟩
      · exact Or.inl (held.mpr (same.mpr isInside))
      · exact within (held.mp holds) (own.held holds)
    · rw [Function.update_of_ne running] at at'
      have stands := guarded.stands t l' at'
      exact ⟨stands.has, stands.hasNot, others t running l' at', stands.unmasked, stands.enabled⟩
  · have keeps := without fun running => none' _ (held.mpr running)
    exact (guarded.free none').imp keeps.1 fun left => ⟨keeps.2.1 left.1, left.2⟩

/-- Every call that such a program makes is an ordinary one. -/
theorem Guarded.ordinary (guarded : ∀ lock, sys.Guarded lock (regions lock))
    (protects : Protects program regions) (user : sys.package.frames = [])
    (here : sys.locals sys.package.running = some l) (instruction : program l = .call c next) :
    Ordinary sys.package (.invoke c) := by
  have keeps := fun lock => protects lock l
  rw [instruction] at keeps
  cases c with
  | lockRelease k =>
      obtain ⟨other, _⟩ | ⟨_, isInside, _⟩ := keeps k
      · exact absurd rfl other
      · exact ((guarded k).holds_iff user here).mpr isInside
  | threadExit tid => exact (keeps 0).elim
  | threadSleep queue =>
      match queue, keeps 0 with
      | none, _ | some (.other i), _ => trivial
  | threadWakeup queue all =>
      match queue, keeps 0 with
      | none, _ | some (.other i), _ => trivial
  | _ => trivial

/-- Every step of such a program keeps the invariant of each lock. -/
theorem Guarded.step (protects : Protects program regions)
    (guarded : ∀ lock, sys.Guarded lock (regions lock)) (step : Step program sys sys')
    (lock : Nat) :
    sys'.Guarded lock (regions lock) := by
  have keeps := fun l => protects lock l
  have own := guarded lock
  cases step with
  | @call l next c p here instruction step =>
      have user : sys.package.frames = [] := by
        cases step with
        | invoke user _ _ => exact user
      have may := Guarded.ordinary guarded protects user here instruction
      specialize keeps l
      rw [instruction] at keeps
      exact own.call here keeps may step
  | @create l start next v p here instruction step created =>
      specialize keeps l
      rw [instruction] at keeps
      obtain ⟨outside, stays⟩ := keeps
      have other := (own.created step).2.2.1
      refine own.create here step outside stays
        (fun t apart => Function.update_of_ne apart _ _) fun m => ?_
      have begins : (sys.moved p v (some start)).locals v = some start := Function.update_self _ _ _
      rw [begins, Option.some.injEq]
      exact ⟨fun at' => ⟨created, at'.symm⟩, fun at' => at'.2.symm⟩
  | @createFails l start next v p here instruction step failed =>
      specialize keeps l
      rw [instruction] at keeps
      obtain ⟨outside, stays⟩ := keeps
      have away := (own.created step).2.2.2
      refine own.create here step outside stays (fun t apart => rfl) fun m => ?_
      rw [away]
      exact ⟨nofun, fun at' => absurd at'.1 failed⟩
  | @exit l p here instruction several step =>
      specialize keeps l
      rw [instruction] at keeps
      exact own.exit here keeps several step
  | @access l next run memory user here instruction runs =>
      specialize keeps l
      rw [instruction] at keeps
      rw [(own.stands _ l here).enabled rfl user] at runs
      obtain ⟨same, within, without⟩ := keeps _ _ _ runs
      exact own.access user here same within without
  | timer step => exact own.timer step
  | goOn step => exact own.goOn step

theorem threadInit_starts {enabled : Bool} (init : threadInit t enabled = .ok p) :
    p.log = [.created t] ∧ p.running = t ∧ p.frames = [] ∧ p.enabled = enabled := by
  obtain ⟨_, q, pushed, _⟩ := ThreadQueue.new.push_ok t
  unfold threadInit at init
  dsimp only at init
  rw [pushed, ok_bind] at init
  obtain rfl := Except.ok.inj init
  exact ⟨rfl, rfl, rfl, rfl⟩

/-- The invariants of the locks hold in every run of a program that starts with them. -/
theorem Run.guarded (protects : Protects program regions)
    (outside : ∀ lock, ¬ (regions lock).inside main) (begins : ∀ lock, (regions lock).invariant m)
    (run : Run program main m sys) (lock : Nat) : sys.Guarded lock (regions lock) := by
  induction run generalizing lock with
  | @start t p init =>
      obtain ⟨log, running, frames, enabled⟩ := threadInit_starts init
      have nobody : ∀ u, ¬ Holds lock u p.log := by
        intro u
        rw [log]
        rintro (takes | ⟨_, nothing⟩)
        · cases takes
        · exact nothing
      have at' : ∀ u l, (if u = t then some main else none) = some l ↔ u = t ∧ main = l := by
        intro u l
        split <;> simp_all
      refine ⟨.init init, fun u _ => nobody u, fun u => ?_, fun u l here => ?_,
        fun _ => Or.inl (begins lock)⟩
      · change Live u p.log ↔ ∃ l, (if u = t then some main else none) = some l
        rw [log]
        simp only [at', exists_and_left, exists_eq', and_true]
        change t = u ∨ False ↔ u = t
        rw [or_false, eq_comm]
      · obtain ⟨rfl, rfl⟩ := (at' u l).mp here
        have stack : p.stack u = [] := by
          subst running
          exact (stack_running p).trans frames
        refine ⟨fun isInside => absurd isInside (outside lock), fun _ => ⟨nobody u, ?_⟩,
          fun holds => absurd holds (nobody u), ?_, fun _ _ => enabled⟩
        · rw [stack]
          exact not_entering_nil
        · rw [stack]
          nofun
  | step before step ih => exact Guarded.step protects ih step lock

/-- The running thread does not stop at an assertion. -/
def Succeeds (program : ℓ → Instruction σ ℓ) (sys : System σ ℓ) : Prop :=
  ∀ l run, sys.package.frames = [] → sys.locals sys.package.running = some l →
    program l = .access run → ∃ r, run sys.package.enabled sys.memory = .ok r

theorem Guarded.succeeds (guarded : sys.Guarded lock region)
    (checks : ∀ l, (program l).Checks region l) : sys.Succeeds program := by
  intro l run user here instruction
  have each := checks l
  rw [instruction] at each
  have stands := guarded.stands _ l here
  rw [stands.enabled rfl user]
  exact each _ fun isInside => stands.held ((guarded.holds_iff user here).mpr isInside)

/-- What holds while the lock is free, and is known to every thread inside and left behind, always
holds. -/
theorem Guarded.always (guarded : sys.Guarded lock region) {p : σ → Prop}
    (released : ∀ m, region.invariant m → p m) (left : ∀ m, region.abandoned m → p m)
    (held : ∀ l m, region.inside l → region.holding l m → p m) : p sys.memory := by
  by_cases taken : ∃ t, Holds lock t sys.package.log
  · obtain ⟨t, holds⟩ := taken
    cases here : sys.locals t with
    | none => exact absurd holds (guarded.gone t here)
    | some l =>
        have stands := guarded.stands t l here
        refine held l _ ?_ (stands.held holds)
        by_contra outside
        exact (stands.hasNot outside).1 holds
  · obtain free | gone := guarded.free fun t holds => taken ⟨t, holds⟩
    · exact released _ free
    · exact left _ gone.1

section One

theorem keeps_unused {i : Instruction σ ℓ} {k : Nat} (keeps : i.Keeps lock region l)
    (alone : ∀ c next, i = .call c next → ¬ c.Gets k ∧ ¬ c.Gives k) :
    i.Keeps k Region.unused l := by
  cases i with
  | call c next =>
      have apart := alone c next rfl
      cases c with
      | lockAcquire j => exact Or.inl ⟨apart.1, Iff.rfl, nofun⟩
      | lockRelease j => exact Or.inl ⟨apart.2, Iff.rfl, nofun⟩
      | cvWait cv j => exact Or.inl ⟨apart.1, Iff.rfl, nofun⟩
      | threadCreate t => exact keeps
      | threadExit tid => exact keeps
      | threadYield _ | cvSignal _ _ | cvBroadcast _ _ => exact ⟨Iff.rfl, nofun⟩
      | threadSleep queue =>
          match queue, keeps with
          | none, _ | some (.other i), _ => exact ⟨Iff.rfl, nofun⟩
      | threadWakeup queue all =>
          match queue, keeps with
          | none, _ | some (.other i), _ => exact ⟨Iff.rfl, nofun⟩
  | create start next => exact ⟨id, Iff.rfl, nofun⟩
  | exit => exact nofun
  | halt => trivial
  | access run => exact fun m m' next runs => ⟨Iff.rfl, nofun, fun _ => ⟨id, id, fun _ => nofun⟩⟩

/-- The invariant of a program that uses one lock. -/
theorem Run.guarded_one (keeps : ∀ l, (program l).Keeps lock region l)
    (alone : ∀ l c next k, program l = .call c next → c.Gets k ∨ c.Gives k → k = lock)
    (outside : ¬ region.inside main) (begins : region.invariant m) (run : Run program main m sys) :
    sys.Guarded lock region := by
  have protects : Protects program (Function.update (fun _ => Region.unused) lock region) := by
    intro k l
    by_cases same : k = lock
    · subst same
      rw [Function.update_self]
      exact keeps l
    · rw [Function.update_of_ne same]
      exact keeps_unused (keeps l) fun c next at' =>
        ⟨fun gets => same (alone l c next k at' (Or.inl gets)),
          fun gives => same (alone l c next k at' (Or.inr gives))⟩
  have guarded := run.guarded protects (fun k => ?_) (fun k => ?_) lock
  · rwa [Function.update_self] at guarded
  · by_cases same : k = lock
    · subst same
      rwa [Function.update_self]
    · rw [Function.update_of_ne same]
      exact id
  · by_cases same : k = lock
    · subst same
      rwa [Function.update_self]
    · rw [Function.update_of_ne same]
      trivial

end One

/-- What a lock does for the memory. -/
structure Protected (lock : Nat) (region : Region σ ℓ) (sys : System σ ℓ) : Prop where
  /-- two threads never have the lock -/
  one : ∀ t u, Holds lock t sys.package.log → Holds lock u sys.package.log → t = u
  /-- a thread in its own code has the lock exactly inside, with the timer signal unblocked -/
  has : ∀ l, sys.package.frames = [] → sys.locals sys.package.running = some l →
    (Holds lock sys.package.running sys.package.log ↔ region.inside l) ∧ sys.package.enabled = true
  /-- what a thread knows is true while it has the lock, also while others run -/
  knows : ∀ t l, sys.locals t = some l → Holds lock t sys.package.log →
    region.inside l ∧ region.holding l sys.memory
  /-- a lock that nobody has leaves its invariant behind, unless a thread has ended with it -/
  free : (∀ t, ¬ Holds lock t sys.package.log) → region.invariant sys.memory ∨
    region.abandoned sys.memory ∧ (sys.package.locks lock).status = .locked

/-- In every run of a program that uses the memory as the locks allow, whenever the timer strikes
and whatever the other threads do, each lock protects its part of the memory. -/
theorem lock_protects (protects : Protects program regions)
    (outside : ∀ lock, ¬ (regions lock).inside main) (begins : ∀ lock, (regions lock).invariant m)
    (run : Run program main m sys) (lock : Nat) : sys.Protected lock (regions lock) := by
  have guarded := run.guarded protects outside begins lock
  refine ⟨fun t u => Guarded.one guarded.run, fun l user here => ?_, fun t l here holds => ?_,
    guarded.free⟩
  · exact ⟨guarded.holds_iff user here, (guarded.stands _ l here).enabled rfl user⟩
  · have stands := guarded.stands t l here
    refine ⟨?_, stands.held holds⟩
    by_contra isOutside
    exact (stands.hasNot isOutside).1 holds

section Tallies

/-- Two sums that are raised one after the other, and a number that is raised twice. -/
structure Tally where
  left : Nat
  right : Nat
  twice : Nat
  deriving DecidableEq

/-- Where a thread is that raises the sums with lock 0, and the number with lock 1 in between. -/
inductive Raising
  | creates
  | takes
  | left
  | enters
  | once
  | again
  | leaves
  | right
  | gives
  deriving DecidableEq

def raise : Raising → Instruction Tally Raising
  | .creates => .create .takes .takes
  | .takes => .call (.lockAcquire 0) .left
  | .left => .access fun _ m => .ok ({ m with left := m.left + 1 }, .enters)
  | .enters => .call (.lockAcquire 1) .once
  | .once => .access fun _ m => .ok ({ m with twice := m.twice + 1 }, .again)
  | .again => .access fun _ m => .ok ({ m with twice := m.twice + 1 }, .leaves)
  | .leaves => .call (.lockRelease 1) .right
  | .right => .access fun _ m => .ok ({ m with right := m.right + 1 }, .gives)
  | .gives => .call (.lockRelease 0) .takes

/-- Lock 0 keeps the sums equal, and lock 1 keeps the number even. -/
def raised : Nat → Region Tally Raising
  | 0 => {
      inside := fun l => l ≠ .creates ∧ l ≠ .takes
      invariant := fun m => m.left = m.right
      holding :=
        fun l m => if l = .left ∨ l = .gives then m.left = m.right else m.left = m.right + 1
      abandoned := fun _ => False }
  | 1 => {
      inside := fun l => l = .once ∨ l = .again ∨ l = .leaves
      invariant := fun m => m.twice % 2 = 0
      holding := fun l m => m.twice % 2 = if l = .again then 1 else 0
      abandoned := fun _ => False }
  | _ => .unused

theorem raise_protects : Protects raise raised := by
  rintro (_ | _ | lock) l
  · cases l <;> simp +contextual [raise, raised, Instruction.Keeps, Call.Keeps, Region.Stays]
  · cases l <;> simp +contextual [raise, raised, Instruction.Keeps, Call.Keeps, Region.Stays] <;>
      omega
  · cases l <;> simp +contextual [raise, raised, Region.unused, Instruction.Keeps, Call.Keeps,
      Region.Stays]

/-- A thread has both locks, in the middle of raising the sums and the number, while another one
waits. -/
theorem lock_protects_two : ∃ sys : System Tally Raising, (sys.memory = ⟨1, 0, 1⟩ ∧
    Holds 0 0 sys.package.log ∧ Holds 1 0 sys.package.log ∧ sys.package.waiting (.ofLock 0) = [1]) ∧
    ∀ lock, sys.Protected lock (raised lock) := by
  obtain ⟨sys, run, facts⟩ : ∃ sys, Run raise .creates ⟨0, 0, 0⟩ sys ∧ (sys.memory = ⟨1, 0, 1⟩ ∧
      Holds 0 0 sys.package.log ∧ Holds 1 0 sys.package.log ∧
      sys.package.waiting (.ofLock 0) = [1]) :=
    exists_run ([some 1, some 0, some 0, none] ++ List.replicate 6 (some 0)) (by decide +kernel)
  refine ⟨sys, facts, lock_protects raise_protects ?_ ?_ run⟩
  · rintro (_ | _ | lock) <;> simp [raised, Region.unused]
  · rintro (_ | _ | lock) <;> simp [raised, Region.unused]

end Tallies

end System

end Ece344Lab.Threads

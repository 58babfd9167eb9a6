import Ece344Lab.Fs.FileContents

set_option autoImplicit false

/- The tree of files that inodes and blocks stand for. -/
namespace Ece344Lab.Fs

open Outcome Ownership

def State.names (s : State) (n : Nat) (name : List Byte) : Option Nat :=
  match testfsDirNameToInodeNr s.sb (s.view n) name with
  | .ok found => if found < 0 then none else some found.toNat
  | .error _ => none

def State.node (s : State) (n : Nat) : Option Node :=
  if s.sb.InodeAllocated n then
    if (s.view n).iType = InodeType.dir.code then some (.dir (s.names n))
    else some (.file (s.bytes n))
  else none

def Session.tree (s : Session) : FileTree := ⟨s.fs.node, s.curDir⟩

@[simp] theorem Session.tree_node (s : Session) : s.tree.node = s.fs.node := rfl

@[simp] theorem Session.tree_cur (s : Session) : s.tree.cur = s.curDir := rfl

/-- The directories are a map of names, and the files keep to the largest size. -/
structure Shown (s : Session) (g : NameMap) (dirs : Nat → List Dirent) : Prop extends
    Mapped s g dirs where
  files : ∀ n, s.fs.sb.InodeAllocated n → ¬ s.fs.IsDir n → FileOk s.fs n

section Nodes

variable {s s' : Session} {g : NameMap} {dirs dirs' : Nat → List Dirent} {n : Nat}
  {name : List Byte}

theorem State.node_free {fs : State} (free : ¬ fs.sb.InodeAllocated n) : fs.node n = none :=
  if_neg free

theorem State.node_file {fs : State} (held : fs.sb.InodeAllocated n) (file : ¬ fs.IsDir n) :
    fs.node n = some (.file (fs.bytes n)) := by
  unfold State.node
  rw [if_pos held, if_neg fun kind => file ⟨held, kind⟩]

theorem State.node_eq_none_iff {fs : State} : fs.node n = none ↔ ¬ fs.sb.InodeAllocated n := by
  unfold State.node
  split_ifs with held kind
  · simp [held]
  · simp [held]
  · simp [held]

theorem Mapped.node_dir (mapped : Mapped s g dirs) (dir : s.fs.IsDir n) :
    s.fs.node n = some (.dir (g n)) := by
  unfold State.node
  rw [if_pos dir.1, if_pos dir.2]
  congr 2
  funext name
  unfold State.names
  rw [(mapped.isMap dir).lookup name]
  cases found : g n name with
  | none => exact if_pos (by decide)
  | some m => exact if_neg (Int.not_lt.mpr (Int.natCast_nonneg m))

/-- A number means what it did when its file is untouched, or its directory has the same names. -/
theorem Mapped.node_kept {g' : NameMap} (mapped : Mapped s g dirs) (mapped' : Mapped s' g' dirs')
    (inodes : s'.fs.sb.InodeAllocated n ↔ s.fs.sb.InodeAllocated n)
    (isDir : s.fs.sb.InodeAllocated n → (s'.fs.IsDir n ↔ s.fs.IsDir n))
    (names : s.fs.IsDir n → g' n = g n)
    (others : s.fs.sb.InodeAllocated n → ¬ s.fs.IsDir n → Untouched s.fs s'.fs n) :
    s'.fs.node n = s.fs.node n := by
  by_cases held : s.fs.sb.InodeAllocated n
  · by_cases dir : s.fs.IsDir n
    · rw [mapped'.node_dir ((isDir held).mpr dir), mapped.node_dir dir, names dir]
    · rw [State.node_file (inodes.mpr held) fun dir' => dir ((isDir held).mp dir'),
        State.node_file held dir, (others held dir).bytes]
  · rw [State.node_free held, State.node_free fun held' => held (inodes.mp held')]

theorem Mapped.find (mapped : Mapped s g dirs) (name : List Byte) :
    s.tree.find name = g s.curDir name := by
  unfold FileTree.find
  rw [s.tree_node, s.tree_cur, mapped.node_dir mapped.ok.dir]

theorem Mapped.named (mapped : Mapped s g dirs) (dir : s.fs.IsDir n) {m : Nat}
    (found : g n name = some m) : s.fs.sb.InodeAllocated m := by
  rw [← mapped.names n dir] at found
  obtain ⟨d, search, rfl⟩ := Option.map_eq_some_iff.mp found
  have live := List.find?_some search
  rw [Bool.and_eq_true] at live
  exact mapped.space.target_allocated dir (List.mem_of_find?_eq_some search) live.1

theorem Mapped.lookup (mapped : Mapped s g dirs) (name : List Byte) :
    Sat (s.lookup name) (fun r => r = nameResult (g s.curDir name)) (fun _ => True) := by
  unfold Session.lookup
  cases read : s.fs.inode s.curDir with
  | error e => trivial
  | ok inode =>
      obtain ⟨_, view, _⟩ := mapped.space.intact.table.of_read read
      rw [ok_bind, view, (mapped.isMap mapped.ok.dir).lookup name]
      rfl

theorem blocksRemoval_iff {d : Dirent} : blocksRemoval d = true ↔
    d.live = true ∧ cString d.name ≠ dot ∧ cString d.name ≠ dotDot := by
  unfold blocksRemoval Dirent.named
  simp only [Bool.and_eq_true, Bool.not_eq_true', Bool.or_eq_false_iff, decide_eq_false_iff_not,
    ne_eq]

/-- A directory whose removal is refused. -/
theorem Mapped.occupied_iff (mapped : Mapped s g dirs) (n : Nat) :
    s.tree.Occupied n ↔ s.fs.IsDir n ∧ (dirs n).find? blocksRemoval ≠ none := by
  unfold FileTree.Occupied
  constructor
  · rintro ⟨names, name, node, notDot, notDotDot, found⟩
    have dir : s.fs.IsDir n := by
      by_contra file
      by_cases held : s.fs.sb.InodeAllocated n
      · rw [s.tree_node, State.node_file held file] at node
        cases node
      · rw [s.tree_node, State.node_free held] at node
        cases node
    refine ⟨dir, fun none => found ?_⟩
    rw [s.tree_node, mapped.node_dir dir] at node
    cases node
    rw [← mapped.names n dir, lookupEntry_eq_none]
    rintro d member live rfl
    exact List.find?_eq_none.mp none d member (blocksRemoval_iff.mpr ⟨live, notDot, notDotDot⟩)
  · rintro ⟨dir, blocked⟩
    obtain ⟨d, search⟩ := Option.ne_none_iff_exists'.mp blocked
    obtain ⟨live, notDot, notDotDot⟩ := blocksRemoval_iff.mp (List.find?_some search)
    refine ⟨g n, cString d.name, mapped.node_dir dir, notDot, notDotDot, ?_⟩
    rw [← mapped.names n dir,
      (mapped.distinct n dir).lookup (List.mem_of_find?_eq_some search) live]
    exact Option.some_ne_none _

/-- A step that changes no file and no name. -/
theorem Shown.same (shown : Shown s g dirs) (mapped : Mapped s' g dirs')
    (inodes : ∀ m, s'.fs.sb.InodeAllocated m ↔ s.fs.sb.InodeAllocated m)
    (kinds : ∀ m, s.fs.sb.InodeAllocated m → (s'.fs.view m).iType = (s.fs.view m).iType)
    (others : ∀ m, s.fs.sb.InodeAllocated m → ¬ s.fs.IsDir m → Untouched s.fs s'.fs m) :
    Shown s' g dirs' ∧ s'.fs.node = s.fs.node := by
  have isDir : ∀ m, s'.fs.IsDir m ↔ s.fs.IsDir m := by
    intro m
    unfold State.IsDir
    rw [inodes]
    exact and_congr_right fun held => by rw [kinds m held]
  constructor
  · refine ⟨mapped, fun m held file => ?_⟩
    have held₀ := (inodes m).mp held
    have file₀ : ¬ s.fs.IsDir m := fun dir => file ((isDir m).mpr dir)
    exact (shown.files m held₀ file₀).untouched (others m held₀ file₀)
  · funext m
    exact shown.node_kept mapped (inodes m) (fun _ => isDir m) (fun _ => rfl) (others m)

theorem Shown.quiet (shown : Shown s g dirs) (mapped : Mapped s' g dirs')
    (step : Quiet s.fs s'.fs) : Shown s' g dirs' ∧ s'.fs.node = s.fs.node := by
  have owns := shown.space.intact.owns
  apply shown.same mapped step.inodeAllocated_iff
  · exact fun m held => by rw [(step.untouched owns held).view]
  · exact fun m held _ => step.untouched owns held

end Nodes

section Stays

variable {s : Session}

/-- `c.cur_dir` is not written. -/
abbrev Stays (s : Session) (x : Except Halt (Int × Session)) : Prop :=
  Sat x (fun r => r.2.curDir = s.curDir) fun _ => True

theorem cmdLsInternal_stays (args : List Arg) (recursive : Bool) :
    Stays s (s.cmdLsInternal args recursive) := by
  unfold Session.cmdLsInternal
  split
  · apply Sat.bind (sat_true _)
    intro found _
    apply Sat.ite
    · exact fun _ => rfl
    · intro _
      apply Sat.bind (sat_true _)
      intro fs _
      apply Sat.bind (sat_true _)
      intro inode _
      apply Sat.ite
      · intro _
        apply Sat.bind (sat_true _)
        intro fs₁ _
        apply Sat.bind (sat_true _)
        exact fun _ _ => rfl
      · exact fun _ => rfl
  · exact rfl

theorem cmdCreateOrMkdir_stays (args : List Arg) (type : InodeType) :
    Stays s (s.cmdCreateOrMkdir args type) := by
  unfold Session.cmdCreateOrMkdir
  split
  · apply Sat.bind (sat_true _)
    exact fun _ _ => rfl
  · exact rfl

theorem cmdRm_stays (args : List Arg) : Stays s (s.cmdRm args) := by
  unfold Session.cmdRm
  split
  · apply Sat.bind (sat_true _)
    intro r _
    apply Sat.ite
    · exact fun _ => rfl
    · intro _
      apply Sat.bind (sat_true _)
      intro fs _
      apply Sat.bind (sat_true _)
      intro fs₁ _
      apply Sat.bind (sat_true _)
      exact fun _ _ => rfl
  · exact rfl

theorem cmdStat_stays (args : List Arg) : Stays s (s.cmdStat args) := by
  unfold Session.cmdStat
  split
  · apply Sat.bind (sat_true _)
    intro found _
    apply Sat.ite
    · exact fun _ => rfl
    · intro _
      apply Sat.bind (sat_true _)
      intro fs _
      apply Sat.bind (sat_true _)
      intro inode _
      apply Sat.bind (sat_true _)
      exact fun _ _ => rfl
  · exact rfl

theorem cmdRead_stays (args : List Arg) : Stays s (s.cmdRead args) := by
  unfold Session.cmdRead
  split
  · split
    · exact rfl
    · apply Sat.ite
      · exact fun _ => rfl
      · intro _
        split
        · exact rfl
        · apply Sat.bind (sat_true _)
          intro r _
          apply Sat.ite
          · exact fun _ => rfl
          · intro _
            apply Sat.bind (sat_true _)
            intro r' _
            apply Sat.bind (sat_true _)
            exact fun _ _ => rfl
  · exact rfl

theorem cmdWrite_stays (args : List Arg) : Stays s (s.cmdWrite args) := by
  unfold Session.cmdWrite
  split
  · split
    · exact rfl
    · apply Sat.ite
      · exact fun _ => rfl
      · intro _
        apply Sat.bind (sat_true _)
        intro r _
        apply Sat.ite
        · exact fun _ => rfl
        · intro _
          apply Sat.bind (sat_true _)
          intro r' _
          apply Sat.bind (sat_true _)
          intro fs _
          apply Sat.bind (sat_true _)
          exact fun _ _ => rfl
  · exact rfl

/-- Only `cd` changes the current directory. -/
theorem handleCommand_stays (c : Command) (other : ∀ args, c ≠ .cd args) :
    Stays s (s.handleCommand c) := by
  cases c with
  | cd args => exact absurd rfl (other args)
  | pwd args =>
      change Stays s (s.cmdPwd args)
      unfold Session.cmdPwd
      split
      · apply Sat.bind (sat_true _)
        exact fun _ _ => rfl
      · exact rfl
  | ls args => exact cmdLsInternal_stays args false
  | lsr args => exact cmdLsInternal_stays args true
  | create args => exact cmdCreateOrMkdir_stays args .file
  | mkdir args => exact cmdCreateOrMkdir_stays args .dir
  | rm args => exact cmdRm_stays args
  | stat args => exact cmdStat_stays args
  | read args => exact cmdRead_stays args
  | write args => exact cmdWrite_stays args
  | fsstat args =>
      change Stays s (s.cmdFsstat args)
      unfold Session.cmdFsstat
      split
      · exact rfl
      · exact rfl

end Stays

end Ece344Lab.Fs

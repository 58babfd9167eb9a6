import Ece344Lab.Fs.ExactReturns
import Ece344Lab.Fs.FileNodes
import Ece344Lab.Fs.Silent

set_option autoImplicit false

/- The commands that change the tree of files, and `read`. -/
namespace Ece344Lab.Fs

open Outcome Ownership

/-- An argument that makes a directory record of less than 2 GiB. -/
def Arg.Small (arg : Arg) : Prop := 8 + (arg.bytes.length + 1) < 2 ^ 31

instance (arg : Arg) : Decidable arg.Small := by
  unfold Arg.Small
  infer_instance

def Command.Small : Command → Prop
  | .cd args | .pwd args | .ls args | .lsr args | .create args | .stat args | .rm args | .mkdir args
  | .read args | .write args | .fsstat args => ∀ arg ∈ args, arg.Small

section Steps

variable {s s' : Session} {g g' : NameMap} {dirs dirs' : Nat → List Dirent}
    {c : Command} {ret : Int}

theorem Session.tree_eq (stays : s'.curDir = s.curDir) (same : s'.fs.node = s.fs.node) :
    s'.tree = s.tree := by
  unfold Session.tree
  rw [stays, same]

theorem Shown.cd (shown : Shown s g dirs) (name : Arg) (mapped : Mapped s' g dirs')
    (ran : s.cmdCd [name] = .ok (ret, s')) :
    s.tree.Cds ret s'.tree s.fs.stdout s'.fs.stdout name.bytes := by
  have quiet : Quiet s.fs s'.fs :=
    (cmdCd_quiet shown.space.intact.consistent shown.space.intact.table [name]).of_ok ran
  have nodes := (shown.quiet mapped quiet).2
  have walk : Sat (s.cmdCd [name]) (fun r => s.tree.Cds r.1 { s.tree with cur := r.2.curDir }
      s.fs.stdout s.fs.stdout name.bytes) (fun _ => True) := by
    unfold FileTree.Cds
    rw [shown.find]
    unfold Session.cmdCd
    apply Sat.bind (shown.lookup name.bytes)
    rintro _ rfl
    cases found : g s.curDir name.bytes with
    | none => exact ⟨rfl, rfl, rfl⟩
    | some n =>
        have held := shown.named shown.ok.dir found
        have nonneg : ¬ ((n : Nat) : Int) < 0 := Int.not_lt.mpr (Int.natCast_nonneg n)
        unfold nameResult
        dsimp only
        rw [if_neg nonneg, Int.toNat_natCast, s.tree_node]
        apply Sat.bind (shown.ok.get n)
        intro fs got
        apply Sat.bind (Session.inode_got got.2 n got.1)
        intro dir view
        rw [view]
        apply Sat.ite
        · intro kind
          apply Sat.bind (sat_true _)
          intro _ _
          rw [State.node_file held fun isDir => kind isDir.2]
          exact ⟨rfl, rfl, rfl⟩
        · intro kind
          apply Sat.bind (sat_true _)
          intro _ _
          rw [shown.node_dir ⟨held, not_not.mp kind⟩]
          exact ⟨rfl, rfl, rfl⟩
  rw [(cmdCd_silent s [name]).of_ok ran, show s'.tree = { s.tree with cur := s'.curDir } from
    FileTree.ext nodes rfl]
  exact walk.of_ok ran

def InodeType.node (type : InodeType) (n parent : Nat) : Node :=
  if type = .dir then .dir (newNames n parent) else .file []

theorem InodeType.node_file (n parent : Nat) : InodeType.file.node n parent = .file [] := rfl

theorem InodeType.node_dir (n parent : Nat) :
    InodeType.dir.node n parent = .dir (newNames n parent) := rfl

/-- The names after a creation. -/
theorem NameMap.after_created {name : Arg} {type : InodeType} {n : Nat}
    (command : c = .create [name] ∧ type = .file ∨ c = .mkdir [name] ∧ type = .dir)
    (new : newInode s.fs s'.fs = some n) : g.after s c 0 s' =
      NameMap.enter (if type = .dir then Function.update g n (newNames n s.curDir) else g) s.curDir
        name.bytes (some n) := by
  unfold NameMap.after
  rw [if_neg (Int.lt_irrefl 0), new]
  rcases command with ⟨rfl, rfl⟩ | ⟨rfl, rfl⟩
  · rfl
  · rfl

/-- A file that has just been created is empty. -/
theorem fileOk_new {fs : State} {n : Nat}
    (view : fs.view n = { Dinode.zero with iType := InodeType.file.code }) :
    FileOk fs n ∧ fs.bytes n = [] := by
  have zero : (fs.view n).size = 0 := by
    rw [view]
    rfl
  refine ⟨⟨by rw [view], Int.le_of_eq zero.symm, ?_, fun q _ _ => ?_⟩, ?_⟩
  · rw [zero]
    exact Int.natCast_nonneg _
  · rw [view]
    unfold content fileBlock
    rw [ptr_iType, ptr_zero, if_pos rfl, Buffer.get_zero]
  · unfold State.bytes
    rw [zero]
    rfl

theorem Shown.created (shown : Shown s g dirs) {name : Arg} {type : InodeType} {n : Nat}
    {es' : List Dirent}
    (command : c = .create [name] ∧ type = .file ∨ c = .mkdir [name] ∧ type = .dir)
    (new : NewEntry s.curDir n name.bytes type (dirs s.curDir) es' s.fs s'.fs)
    (stays : s'.curDir = s.curDir)
    (view : type = .file → s'.fs.view n = { Dinode.zero with iType := type.code })
    (mapped : Mapped s' (g.after s c 0 s') dirs') :
    Shown s' (g.after s c 0 s') dirs' ∧
      s'.tree = (s.tree.set n (some (type.node n s.curDir))).enter name.bytes (some n) := by
  have here := shown.ok.dir
  have apart : n ≠ s.curDir := fun same => new.fresh (same ▸ here.1)
  have kind : type = .file ∨ type = .dir := command.imp And.right And.right
  have after : g.after s c 0 s' = _ :=
    NameMap.after_created command (newInode_eq new.inside new.fresh new.inodes)
  have others : ∀ m, s.fs.sb.InodeAllocated m → m ≠ n :=
    fun m held same => new.fresh (same ▸ held)
  have files : ∀ m, s.fs.sb.InodeAllocated m → ¬ s.fs.IsDir m → Untouched s.fs s'.fs m :=
    fun m held file => new.others m held fun same => file (same ▸ here)
  have own : type = .file → FileOk s'.fs n ∧ s'.fs.bytes n = [] := by
    rintro rfl
    exact fileOk_new (view rfl)
  constructor
  · refine ⟨mapped, fun m held file => ?_⟩
    by_cases same : m = n
    · subst same
      have isFile : type = .file := by
        refine kind.resolve_right fun dir => file ⟨held, ?_⟩
        rw [new.own, dir]
      exact (own isFile).1
    · have held₀ := ((new.inodes m).mp held).resolve_right same
      have file₀ : ¬ s.fs.IsDir m := fun dir => file ((new.isDir_iff same).mpr dir)
      exact (shown.files m held₀ file₀).untouched (files m held₀ file₀)
  · have entered : (s.tree.set n (some (type.node n s.curDir))).node s.curDir =
        some (.dir (g s.curDir)) := by
      rw [FileTree.set_node, Function.update_of_ne apart.symm]
      exact shown.node_dir here
    rw [FileTree.enter_eq _ entered]
    refine FileTree.ext (funext fun m => ?_) stays
    rw [s'.tree_node, FileTree.set_node, FileTree.set_cur, s.tree_cur]
    by_cases parent : m = s.curDir
    · subst parent
      have dir : s'.fs.IsDir s.curDir := (new.isDir_iff apart.symm).mpr here
      have names : g.after s c 0 s' s.curDir =
          Function.update (g s.curDir) name.bytes (some n) := by
        rw [after, NameMap.enter_self]
        split_ifs
        · rw [Function.update_of_ne apart.symm]
        · rfl
      rw [Function.update_self, mapped.node_dir dir, names]
    · rw [Function.update_of_ne parent, FileTree.set_node, s.tree_node]
      have names : g.after s c 0 s' m =
          (if type = .dir then Function.update g n (newNames n s.curDir) else g) m := by
        rw [after, NameMap.enter_other parent]
      by_cases same : m = n
      · subst same
        rw [Function.update_self]
        have held : s'.fs.sb.InodeAllocated m := (new.inodes m).mpr (Or.inr rfl)
        unfold InodeType.node
        split_ifs with dir
        · rw [if_pos dir, Function.update_self] at names
          rw [mapped.node_dir ((new.isDir_self kind).mpr dir), names]
        · rw [State.node_file held fun isDir => dir ((new.isDir_self kind).mp isDir),
            (own (kind.resolve_right dir)).2]
      · rw [Function.update_of_ne same]
        refine shown.node_kept mapped ((new.inodes m).trans (or_iff_left same))
          (fun _ => new.isDir_iff same) (fun _ => ?_) (files m)
        rw [names]
        split_ifs
        · rw [Function.update_of_ne same]
        · rfl

theorem Shown.makes (shown : Shown s g dirs) (name : Arg) (type : InodeType)
    (command : c = .create [name] ∧ type = .file ∨ c = .mkdir [name] ∧ type = .dir)
    (room : name.Small) (mapped : Mapped s' (g.after s c ret s') dirs')
    (ran : s.cmdCreateOrMkdir [name] type = .ok (ret, s'))
    (unfailed : s'.fs.sb.allocFailed = false) :
    Shown s' (g.after s c ret s') dirs' ∧
      s.tree.Makes ret s'.tree s.fs.stdout s'.fs.stdout name.bytes
        fun n => type.node n s.curDir := by
  have here := shown.ok.dir
  have listed := shown.space.listed _ here
  have walk : Sat (s.cmdCreateOrMkdir [name] type)
      (fun r => CreateOutcome s.curDir name.bytes type (dirs s.curDir) s.fs (r.1, r.2.fs) ∧
        CreateReturns s.fs type (lookupEntry (dirs s.curDir) name.bytes) (r.1, r.2.fs))
      (fun _ => True) := by
    unfold Session.cmdCreateOrMkdir
    apply Sat.bind ((testfsCreateFileOrDir_sat s.fs s.curDir type name.bytes _ shown.space.intact
      listed name.noNul shown.ok.clean_free).and (testfsCreateFileOrDir_returns s.fs s.curDir type
      name.bytes _ shown.space.intact listed name.noNul room))
    exact fun _ spec => spec
  obtain ⟨outcome, returns⟩ := walk.of_ok ran
  have stays : s'.curDir = s.curDir := (cmdCreateOrMkdir_stays [name] type).of_ok ran
  have silent : s'.fs.stdout = s.fs.stdout := (cmdCreateOrMkdir_silent s [name] type).of_ok ran
  rw [shown.names _ here] at returns
  unfold FileTree.Makes
  rw [shown.find]
  cases outcome with
  | stranded _ _ ghost =>
      change s'.fs.sb.allocFailed = true at ghost
      rw [ghost] at unfailed
      cases unfailed
  | failed negative failed =>
      have step : Rewritten s.curDir s.fs s'.fs := failed.rewritten
      rw [g.after_of_neg _ _ _ negative] at mapped ⊢
      have kinds : ∀ m, s.fs.sb.InodeAllocated m →
          (s'.fs.view m).iType = (s.fs.view m).iType := by
        intro m held
        by_cases same : m = s.curDir
        · rw [same]
          exact step.kind
        · rw [(step.others m held same).view]
      obtain ⟨shown', nodes⟩ := shown.same mapped step.inodes kinds
        fun m held file => step.others m held fun same => file (same ▸ here)
      have same := Session.tree_eq stays nodes
      refine ⟨shown', silent, ?_⟩
      rcases returns.fails negative with ghost | ⟨taken, code⟩ | ⟨absent, full, code⟩
      · change s'.fs.sb.allocFailed = true at ghost
        rw [ghost] at unfailed
        cases unfailed
      · obtain ⟨n, found⟩ := Option.ne_none_iff_exists'.mp taken
        rw [found]
        exact ⟨code, same⟩
      · rw [absent]
        refine Or.inl ⟨fun n inside none => ?_, code, same⟩
        exact State.node_eq_none_iff.mp none (full n inside)
  | created zero n es' new =>
      change ret = 0 at zero
      subst zero
      obtain ⟨absent, blank⟩ := returns.works (Int.lt_irrefl 0)
      obtain ⟨shown', tree⟩ := shown.created command new stays
        (fun file => blank file n new.fresh ((new.inodes n).mpr (Or.inr rfl))) mapped
      refine ⟨shown', silent, ?_⟩
      rw [absent]
      refine Or.inr ⟨n, new.inside, State.node_free new.fresh, fun m below none => ?_, rfl, tree⟩
      exact State.node_eq_none_iff.mp none (new.least m below)

/-- What has been removed is gone from the tree, and so is its name. -/
theorem Shown.removed (shown : Shown s g dirs) {n : Nat} {name : List Byte}
    (mapped : Mapped s' (g.enter s.curDir name none) dirs') (stays : s'.curDir = s.curDir)
    (inodes : ∀ m, s'.fs.sb.InodeAllocated m ↔ s.fs.sb.InodeAllocated m ∧ m ≠ n)
    (others : ∀ m, s.fs.sb.InodeAllocated m → m ≠ s.curDir → m ≠ n → Untouched s.fs s'.fs m) :
    Shown s' (g.enter s.curDir name none) dirs' ∧
      s'.tree = (s.tree.set n none).enter name none := by
  have here := shown.ok.dir
  have stays' : s'.fs.IsDir s.curDir := stays ▸ mapped.ok.dir
  have apart : n ≠ s.curDir := fun same => ((inodes _).mp stays'.1).2 same.symm
  have files : ∀ m, s.fs.sb.InodeAllocated m → ¬ s.fs.IsDir m → m ≠ n →
      Untouched s.fs s'.fs m :=
    fun m held file other => others m held (fun same => file (same ▸ here)) other
  have isDir : ∀ m, s.fs.sb.InodeAllocated m → m ≠ n → (s'.fs.IsDir m ↔ s.fs.IsDir m) := by
    intro m held other
    by_cases parent : m = s.curDir
    · rw [parent]
      exact iff_of_true stays' here
    · unfold State.IsDir
      rw [inodes, (others m held parent other).view]
      simp only [held, other, true_and, ne_eq, not_false_eq_true]
  refine ⟨⟨mapped, fun m held file => ?_⟩, ?_⟩
  · obtain ⟨held₀, other⟩ := (inodes m).mp held
    have file₀ : ¬ s.fs.IsDir m := fun dir => file ((isDir m held₀ other).mpr dir)
    exact (shown.files m held₀ file₀).untouched (files m held₀ file₀ other)
  · have entered : (s.tree.set n none).node s.curDir = some (.dir (g s.curDir)) := by
      rw [FileTree.set_node, Function.update_of_ne apart.symm]
      exact shown.node_dir here
    rw [FileTree.enter_eq _ entered]
    refine FileTree.ext (funext fun m => ?_) stays
    rw [s'.tree_node, FileTree.set_node, FileTree.set_cur, s.tree_cur]
    by_cases parent : m = s.curDir
    · subst parent
      rw [Function.update_self, mapped.node_dir stays', NameMap.enter_self]
    · rw [Function.update_of_ne parent, FileTree.set_node, s.tree_node]
      by_cases same : m = n
      · rw [same, Function.update_self, State.node_free fun held => ((inodes n).mp held).2 rfl]
      · rw [Function.update_of_ne same]
        exact shown.node_kept mapped ((inodes m).trans (and_iff_left same))
          (fun held => isDir m held same) (fun _ => NameMap.enter_other parent)
          fun held dir => files m held dir same

theorem Shown.removes (shown : Shown s g dirs) (name : Arg)
    (mapped : Mapped s' (g.after s (.rm [name]) ret s') dirs')
    (ran : s.cmdRm [name] = .ok (ret, s')) :
    Shown s' (g.after s (.rm [name]) ret s') dirs' ∧
      s.tree.Removes ret s'.tree s.fs.stdout s'.fs.stdout name.bytes := by
  have here := shown.ok.dir
  have stays : s'.curDir = s.curDir := (cmdRm_stays [name]).of_ok ran
  have silent : s'.fs.stdout = s.fs.stdout := (cmdRm_silent s [name]).of_ok ran
  have outcome : RmOutcome s name.bytes dirs ret s'.fs :=
    (shown.ok.rm_returns shown.space (shown.distinct _ here) name).of_ok ran
  unfold FileTree.Removes
  rw [shown.find]
  cases outcome with
  | refused reason quiet =>
      have negative : ret < 0 := by
        cases reason with
        | reserved _ code => rw [code]; decide
        | absent _ _ code => rw [code]; decide
        | occupied _ _ _ _ _ code => rw [code]; decide
      rw [g.after_of_neg _ _ _ negative] at mapped ⊢
      obtain ⟨shown', nodes⟩ := shown.quiet mapped quiet
      have same := Session.tree_eq stays nodes
      refine ⟨shown', silent, ?_⟩
      cases reason with
      | reserved special code =>
          rw [if_pos special]
          exact ⟨code, same⟩
      | absent plain found code =>
          rw [if_neg plain, ← shown.names _ here, found]
          exact ⟨code, same⟩
      | occupied plain m found dir blocked code =>
          rw [if_neg plain, ← shown.names _ here, found]
          exact Or.inl ⟨(shown.occupied_iff m).mpr ⟨dir, blocked⟩, code, same⟩
  | removed n zero plain found empty inodes others =>
      subst zero
      have after : g.after s (.rm [name]) 0 s' = g.enter s.curDir name.bytes none := by
        unfold NameMap.after
        rw [if_neg (Int.lt_irrefl 0)]
      rw [after] at mapped ⊢
      obtain ⟨shown', tree⟩ := shown.removed mapped stays inodes others
      rw [if_neg plain, ← shown.names _ here, found]
      refine ⟨shown', silent, Or.inr ⟨fun occupied => ?_, rfl, tree⟩⟩
      obtain ⟨dir, blocked⟩ := (shown.occupied_iff n).mp occupied
      exact blocked (empty dir)

/-- How `testfs_get_file_inode` ends. -/
inductive FoundFile (s : Session) (found : Option Nat) (r : Int × Nat × State) : Prop
  | absent (missing : found = none) (ret : r.1 = -eNOENT) (same : r.2.2 = s.fs)
  | dir (n : Nat) (target : found = some n) (isDir : s.fs.IsDir n) (ret : r.1 = -eISDIR)
      (quiet : Quiet s.fs r.2.2)
  | file (n : Nat) (target : found = some n) (held : s.fs.sb.InodeAllocated n)
      (isFile : ¬ s.fs.IsDir n) (ret : r.1 = 0) (number : r.2.1 = n) (quiet : Quiet s.fs r.2.2)

theorem Shown.getFileInode (shown : Shown s g dirs) (name : List Byte) :
    Sat (s.testfsGetFileInode name) (FoundFile s (g s.curDir name)) (fun _ => True) := by
  unfold Session.testfsGetFileInode
  apply Sat.bind (shown.lookup name)
  rintro _ rfl
  cases found : g s.curDir name with
  | none => exact .absent rfl rfl rfl
  | some n =>
      have held := shown.named shown.ok.dir found
      unfold nameResult
      dsimp only
      rw [if_neg (Int.not_lt.mpr (Int.natCast_nonneg n)), Int.toNat_natCast]
      apply Sat.bind (shown.ok.get n)
      intro fs got
      have step := got.2.quiet
      apply Sat.bind (Session.inode_got got.2 n got.1)
      intro inode view
      rw [view]
      apply Sat.ite
      · intro kind
        apply Sat.bind (testfsPutInode_sat fs step.consistent step.table n)
        exact fun _ put => .dir n rfl ⟨held, kind⟩ rfl (step.trans put.2.2.2.quiet)
      · exact fun kind => .file n rfl held (fun isDir => kind isDir.2) rfl rfl step

/-- How `cmd_write` ends when every block is handed out. -/
inductive WriteCall (s : Session) (found : Option Nat) (start : Nat) (buf : List Byte) (ret : Int)
    (s' : State) : Prop
  | absent (missing : found = none) (ret : ret = -eNOENT) (quiet : Quiet s.fs s')
  | dir (n : Nat) (target : found = some n) (isDir : s.fs.IsDir n) (ret : ret = -eISDIR)
      (quiet : Quiet s.fs s')
  | written (n : Nat) (target : found = some n) (held : s.fs.sb.InodeAllocated n)
      (isFile : ¬ s.fs.IsDir n) (written : FileWritten n start buf s.fs ret s')

theorem Shown.cmdWrite (shown : Shown s g dirs) (filename offset buf : Arg) (start : Nat)
    (parsed : strToOffset offset.bytes = some (start : Int)) (small : buf.Small) :
    Sat (s.cmdWrite [filename, offset, buf])
      (fun r => r.2.fs.sb.allocFailed = false →
        WriteCall s (g s.curDir filename.bytes) start buf.bytes r.1 r.2.fs) (fun _ => True) := by
  have intact := shown.space.intact
  unfold Session.cmdWrite
  dsimp only
  rw [parsed]
  dsimp only
  rw [if_neg (Int.not_lt.mpr (Int.natCast_nonneg start))]
  apply Sat.bind (shown.getFileInode filename.bytes)
  intro r found
  obtain ⟨ret, n, fs⟩ := r
  change Sat (if ret < 0 then _ else _) _ _
  cases found with
  | absent missing code same =>
      change ret = -eNOENT at code
      change fs = s.fs at same
      subst code same
      exact fun _ => .absent missing rfl (.refl intact.consistent intact.table)
  | dir n target isDir code quiet =>
      change ret = -eISDIR at code
      subst code
      exact fun _ => .dir n target isDir rfl quiet
  | file m target held isFile code number quiet =>
      change ret = 0 at code
      change n = m at number
      change Quiet s.fs fs at quiet
      subst code number
      have intact₁ := quiet.intact intact
      have held₁ := (quiet.inodeAllocated_iff n).mpr held
      have short : buf.bytes.length < 2 ^ 31 := by
        unfold Arg.Small at small
        omega
      have upper : (fs.view n).size ≤ maxFileSize := by
        rw [quiet.view n held.1]
        exact (shown.files n held isFile).upper
      rw [if_neg (Int.lt_irrefl 0)]
      apply Sat.bind (onInode_fileWritten fs n start buf.bytes intact₁ held₁ upper
        (List.length_pos_of_ne_nil buf.nonempty) short |>.and
          (Session.file_write fs n start buf.bytes intact₁ held₁))
      intro r spec
      obtain ⟨ret', fs₂⟩ := r
      obtain ⟨written, either⟩ := spec
      cases either with
      | inr stranded =>
          apply Sat.bind (testfsSyncInode_unfailing fs₂ n)
          intro fs₃ same₃
          apply Sat.bind (testfsPutInode_unfailing fs₃ n)
          intro fs₄ same₄ unfailed
          rw [same₄.trans (same₃.trans stranded.2.2)] at unfailed
          cases unfailed
      | inl rewritten =>
          have intact₂ := rewritten.intact
          apply Sat.bind (testfsSyncInode_sat fs₂ intact₂.consistent intact₂.table n)
          intro fs₃ spec
          have sync := spec.2.quiet
          apply Sat.bind (testfsPutInode_sat fs₃ sync.consistent sync.table n)
          intro fs₄ spec unfailed
          have after := sync.trans spec.2.2.2.quiet
          have facts := (written (after.ghost.symm.trans unfailed)).2
          exact .written n target held isFile ((facts.quiet after intact₂.owns held₁).behind_quiet
            quiet intact.owns held)

theorem Shown.patched (shown : Shown s g dirs) (mapped : Mapped s' g dirs') {n start : Nat}
    {buf : List Byte} (held : s.fs.sb.InodeAllocated n) (file : ¬ s.fs.IsDir n)
    (patched : Patched n start buf s.fs s'.fs) (fits : start + buf.length ≤ maxFileSize)
    (stays : s'.curDir = s.curDir) : Shown s' g dirs' ∧
      s'.tree = s.tree.set n (some (.file (patch (s.fs.bytes n) start buf))) := by
  obtain ⟨ok, bytes⟩ := patched.bytes (shown.files n held file) fits
  have kinds : ∀ m, s.fs.sb.InodeAllocated m → (s'.fs.view m).iType = (s.fs.view m).iType := by
    intro m held
    by_cases same : m = n
    · rw [same]
      exact patched.kind
    · rw [(patched.others m held same).view]
  have isDir : ∀ m, s'.fs.IsDir m ↔ s.fs.IsDir m := by
    intro m
    unfold State.IsDir
    rw [patched.inodes]
    exact and_congr_right fun held => by rw [kinds m held]
  refine ⟨⟨mapped, fun m held' file' => ?_⟩, FileTree.ext (funext fun m => ?_) stays⟩
  · by_cases same : m = n
    · rw [same]
      exact ok
    · have held₀ := (patched.inodes m).mp held'
      exact (shown.files m held₀ fun dir => file' ((isDir m).mpr dir)).untouched
        (patched.others m held₀ same)
  · rw [s'.tree_node, FileTree.set_node, s.tree_node]
    by_cases same : m = n
    · rw [same, Function.update_self, State.node_file ((patched.inodes n).mpr held)
        fun dir => file ((isDir n).mp dir), bytes]
    · rw [Function.update_of_ne same]
      exact shown.node_kept mapped (patched.inodes m) (fun _ => isDir m) (fun _ => rfl)
        fun held' _ => patched.others m held' same

theorem Shown.writes (shown : Shown s g dirs) (filename offset buf : Arg) (start : Nat)
    (parsed : strToOffset offset.bytes = some (start : Int)) (small : buf.Small)
    (mapped : Mapped s' g dirs') (ran : s.cmdWrite [filename, offset, buf] = .ok (ret, s'))
    (unfailed : s'.fs.sb.allocFailed = false) :
    Shown s' g dirs' ∧ s.tree.Writes ret s'.tree s.fs.stdout s'.fs.stdout filename.bytes start
      buf.bytes := by
  have stays : s'.curDir = s.curDir := (cmdWrite_stays [filename, offset, buf]).of_ok ran
  have call : WriteCall s (g s.curDir filename.bytes) start buf.bytes ret s'.fs :=
    (shown.cmdWrite filename offset buf start parsed small).of_ok ran unfailed
  have silent : s'.fs.stdout = s.fs.stdout :=
    (cmdWrite_silent s [filename, offset, buf]).of_ok ran
  unfold FileTree.Writes
  rw [shown.find]
  cases call with
  | absent missing code quiet =>
      obtain ⟨shown', nodes⟩ := shown.quiet mapped quiet
      rw [missing]
      exact ⟨shown', silent, code, Session.tree_eq stays nodes⟩
  | dir n target isDir code quiet =>
      obtain ⟨shown', nodes⟩ := shown.quiet mapped quiet
      rw [target]
      dsimp only
      rw [s.tree_node, shown.node_dir isDir]
      exact ⟨shown', silent, code, Session.tree_eq stays nodes⟩
  | written n target held isFile written =>
      rw [target]
      dsimp only
      rw [s.tree_node, State.node_file held isFile]
      dsimp only
      unfold FileWritten at written
      split_ifs at written ⊢ with fits inside
      · obtain ⟨shown', tree⟩ := shown.patched mapped held isFile written.2 fits stays
        exact ⟨shown', silent, written.1, tree⟩
      · have whole : start + (buf.bytes.take (maxFileSize - start)).length ≤ maxFileSize := by
          rw [List.length_take]
          omega
        obtain ⟨shown', tree⟩ := shown.patched mapped held isFile written.2 whole stays
        exact ⟨shown', silent, written.1, tree⟩
      · obtain ⟨shown', nodes⟩ := shown.quiet mapped written.2
        exact ⟨shown', silent, written.1, Session.tree_eq stays nodes⟩

/-- `cmd_read` while it holds the inode of a file. -/
theorem FileOk.readFile {fs : State} {n : Nat} (ok : FileOk fs n) (intact : Intact fs)
    (held : fs.sb.InodeAllocated n) (start size : Nat) :
    Sat (Session.readFile fs n start size)
      (fun r => ReadsRange (fs.bytes n) start size r.1 fs.stdout r.2.stdout) (fun _ => True) := by
  have lower := ok.lower
  have upper := ok.upper
  rw [maxFileSize_eq] at upper
  have length : (fs.bytes n).length = (fs.view n).size.toNat := State.length_bytes
  have owned := owned_of_owns intact.owns held
  have exact : start + size < 2 ^ 63 →
      Int.bmod ((start : Int) + (size : Int)) (2 ^ 64) = start + size := by
    intro small
    apply Int.bmod_eq_of_le <;> omega
  cases read : fs.inode n with
  | error e =>
      unfold Session.readFile
      rw [read]
      trivial
  | ok inode =>
      have view : inode.dinode = fs.view n := (intact.table.of_read read).2.1
      by_cases past : (fs.view n).size < Int.bmod ((start : Int) + (size : Int)) (2 ^ 64)
      · unfold Session.readFile
        rw [read, ok_bind, view, if_pos past]
        refine ⟨fun inside => ?_, fun _ _ => ⟨rfl, rfl⟩⟩
        have same := exact (by omega)
        omega
      · have behind : (fs.bytes n).length < start + size → start + size < 2 ^ 63 → False := by
          intro far small
          have same := exact small
          omega
        by_cases fits : start + size ≤ (fs.bytes n).length
        · rw [length] at fits
          have room : (size + 1) % 2 ^ 64 = size + 1 := by omega
          have bytes : ((fs.bytes n).drop start).take size =
              fileBytes fs.sb.dev (fs.view n) start size := State.bytes_range (by omega)
          have result : Sat (testfsReadData fs.sb (fs.view n) start size)
              (fun r => r = ⟨if start < maxFileSize then toInt32 size else eFBIG,
                fileBytes fs.sb.dev (fs.view n) start size⟩) (fun _ => True) := by
            by_cases first : start / 8192 < 4196362
            · apply (testfsReadData_sat fs.sb (fs.view n) start size owned (by omega) first
                (by omega)).anyStop.weaken
              rintro r rfl
              rw [if_pos (by rw [maxFileSize_eq]; omega)]
            · have none : size = 0 := by omega
              have beyond : nrMaxBlock ≤ start / blockSize := Nat.not_lt.mp first
              unfold testfsReadData
              rw [if_pos beyond, none, if_neg (by rw [maxFileSize_eq]; omega)]
              exact rfl
          have served : ¬ 2 ^ 63 ≤ size + 1 := by omega
          unfold Session.readFile
          rw [read, ok_bind, view, if_neg past, room, if_neg served, Int.toNat_natCast]
          apply Sat.bind result
          rintro _ rfl
          dsimp only
          generalize same : (if start < maxFileSize then toInt32 size else eFBIG) = ret
          rw [length_fileBytes, if_neg (by omega)]
          by_cases printed : 0 ≤ ret
          · rw [if_pos printed, if_neg (by omega)]
            refine ⟨fun _ => ⟨same.symm, ?_⟩, fun far small => (behind far small).elim⟩
            rw [if_pos printed, bytes]
            rfl
          · rw [if_neg printed]
            refine ⟨fun _ => ⟨same.symm, ?_⟩, fun far small => (behind far small).elim⟩
            rw [if_neg printed]
        · exact (sat_true _).weaken fun r _ =>
            ⟨fun inside => absurd inside fits, fun far small => (behind far small).elim⟩

theorem Shown.reads (shown : Shown s g dirs) (filename offset sizeArg : Arg) (start size : Nat)
    (parsed : strToOffset offset.bytes = some (start : Int))
    (parsed' : strToSize sizeArg.bytes = some size)
    (same : s'.tree = s.tree) (ran : s.cmdRead [filename, offset, sizeArg] = .ok (ret, s')) :
    s.tree.Reads ret s'.tree s.fs.stdout s'.fs.stdout filename.bytes start size := by
  have walk : Sat (s.cmdRead [filename, offset, sizeArg]) (fun r => s.tree.Reads r.1 s.tree
      s.fs.stdout r.2.fs.stdout filename.bytes start size) (fun _ => True) := by
    unfold FileTree.Reads
    rw [shown.find]
    unfold Session.cmdRead
    dsimp only
    rw [parsed, parsed']
    dsimp only
    rw [if_neg (Int.not_lt.mpr (Int.natCast_nonneg start))]
    apply Sat.bind ((shown.getFileInode filename.bytes).and
      (testfsGetFileInode_silent s filename.bytes))
    intro r spec
    obtain ⟨found, silent⟩ := spec
    obtain ⟨ret, n, fs⟩ := r
    change fs.stdout = s.fs.stdout at silent
    change Sat (if ret < 0 then _ else _) _ _
    cases found with
    | absent missing code _ =>
        change ret = -eNOENT at code
        subst code
        rw [missing]
        exact ⟨rfl, rfl, silent⟩
    | dir m target isDir code _ =>
        change ret = -eISDIR at code
        subst code
        rw [target]
        dsimp only
        rw [s.tree_node, shown.node_dir isDir]
        exact ⟨rfl, rfl, silent⟩
    | file m target held isFile code number quiet =>
        change ret = 0 at code
        change n = m at number
        change Quiet s.fs fs at quiet
        subst code number
        have same := quiet.untouched shown.space.intact.owns held
        have ok := (shown.files n held isFile).untouched same
        have held' := (quiet.inodeAllocated_iff n).mpr held
        rw [target]
        dsimp only
        rw [s.tree_node, State.node_file held isFile, if_neg (Int.lt_irrefl 0)]
        apply Sat.bind (ok.readFile (quiet.intact shown.space.intact) held' start size)
        intro r spec
        obtain ⟨ret', fs'⟩ := r
        rw [same.bytes, silent] at spec
        apply Sat.bind (testfsPutInode_silent fs' n)
        intro fs'' put
        change fs''.stdout = fs'.stdout at put
        refine ⟨rfl, ?_⟩
        change ReadsRange _ _ _ ret' _ fs''.stdout
        rw [put]
        exact spec
  rw [same]
  exact walk.of_ok ran

end Steps

end Ece344Lab.Fs

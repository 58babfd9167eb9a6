import Ece344Lab.Fs.ExistingName
import Ece344Lab.Fs.FileListing
import Ece344Lab.Fs.Tight

set_option autoImplicit false

/- The commands come to their end. -/
namespace Ece344Lab.Fs

open Outcome Ownership

section Held

variable {s t t' t'' : State} {n : Nat} {out out' : List Output}

theorem testfsGetInode_comes (s : State) (ok : Consistent s.sb) (table : TableOk s) (n : Nat)
    (inside : n < 16384) :
    Sat (testfsGetInode s n) (fun s' => s'.sb = s.sb ∧
      Retabled s s' s.view (Function.update s.refs n (s.refs n + 1)) s.dirty) (fun _ => False) := by
  obtain ⟨s', got, sb, step⟩ := testfsGetInode_eq s ok table n inside
  rw [got]
  exact ⟨sb, step⟩

theorem testfsPutInode_comes (s : State) (table : TableOk s) (n : Nat) (held : 0 < s.refs n)
    (clean : s.dirty n = false) :
    Sat (testfsPutInode s n) (fun s' => s'.sb = s.sb ∧
      Retabled s s' s.view (Function.update s.refs n (s.refs n - 1)) s.dirty) (fun _ => False) := by
  have put := testfsPutInode_eq s table n held
  rw [clean, if_neg Bool.false_ne_true] at put
  obtain ⟨s', returned, sb, step⟩ := put
  rw [returned]
  exact ⟨sb, step⟩

theorem State.inode_comes (table : TableOk s) (held : 0 < s.refs n) :
    Sat (s.inode n) (fun inode => inode.dinode = s.view n ∧ inode.dirty = s.dirty n)
      (fun _ => False) := by
  obtain ⟨inode, _, read, view, dirty, _⟩ := table.inode_eq held
  rw [read]
  exact ⟨view, dirty⟩

theorem Printed.trans (first : Printed out t t') (second : Printed out' t' t'') :
    Printed (out ++ out') t t'' :=
  ⟨second.sb.trans first.sb, second.table,
    fun m inside => (second.view m inside).trans (first.view m inside),
    fun m => (second.refs m).trans (first.refs m), fun m => (second.dirty m).trans (first.dirty m),
    by rw [second.stdout, first.stdout, List.append_assoc]⟩

theorem Sees.printed (sees : Sees s t) (step : Printed out t t') : Sees s t' :=
  ⟨step.sb.trans sees.sb, step.table,
    fun m inside => (step.view m inside).trans (sees.view m inside),
    fun m => (step.dirty m).trans (sees.dirty m)⟩

end Held

section Listing

variable {s : State} {dirs : Nat → List Dirent} {descend : State → Nat → Except Halt State}
  {recursive : Bool} {n : Nat} {names : List (List Byte)}

/-- Something has been printed. -/
abbrev Prints (t : State) (x : Except Halt State) : Prop :=
  Sat x (fun t' => ∃ out, Printed out t t') fun _ => False

/-- No directory names the root as its child. -/
theorem Namespace.child_ne_root (space : Namespace s dirs) (dir : s.IsDir n) {d : Dirent}
    (member : d ∈ dirs n) (child : namesChild d = true) : d.target ≠ 0 := by
  obtain ⟨live, notDot, notDotDot⟩ := namesChild_iff.mp child
  obtain ⟨parent, shape, _⟩ := space.shape n dir
  have behind : d ∈ (dirs n).drop 2 := by
    rw [shape.drop_two] at member
    rcases List.mem_cons.mp member with rfl | member
    · rw [(newDirent_named dot_noNul dot).mpr rfl] at notDot
      cases notDot
    · rcases List.mem_cons.mp member with rfl | member
      · rw [(newDirent_named dotDot_noNul dotDot).mpr rfl] at notDotDot
        cases notDotDot
      · exact member
  intro root
  apply space.tree.orphan n
  rw [← root]
  exact List.mem_map.mpr ⟨d, List.mem_filter.mpr ⟨behind, live⟩, rfl⟩

def Descended (s : State) (dirs : Nat → List Dirent) (descend : State → Nat → Except Halt State)
    (n : Nat) : Prop :=
  ∀ t name m, NamesDir s dirs n name m → m ≠ 0 → Sees s t → 0 < t.refs m → Prints t (descend t m)

theorem Namespace.lsEntry_comes (space : Namespace s dirs) (clean : ∀ m, s.dirty m = false)
    (below : Descended s dirs descend n) (dir : s.IsDir n) {t : State} (sees : Sees s t)
    {d : Dirent} (member : d ∈ dirs n) (live : d.live = true) :
    Prints t (lsEntry descend recursive t d) := by
  have allocated := space.target_allocated dir member live
  have consistent : Consistent t.sb := sees.sb ▸ space.intact.consistent
  unfold lsEntry
  change Sat (testfsGetInode t d.target >>= _) _ _
  apply Sat.bind (testfsGetInode_comes t consistent sees.table d.target allocated.1)
  intro t₁ got
  obtain ⟨sb, step⟩ := got
  have sees₁ := sees.retabled sb step
  have held₁ : 0 < t₁.refs d.target := by
    rw [step.refs, Function.update_self]
    exact Nat.succ_pos _
  apply Sat.bind (State.inode_comes sees₁.table held₁)
  intro cin spec
  rw [sees₁.view d.target allocated.1] at spec
  dsimp only
  generalize Output.text (cString d.name ++ if decide (cin.dinode.iType = InodeType.dir.code) = true
    then [47, 10] else [10]) = line
  have printed := (Printed.refl sees₁.table).print line
  have sees₂ := sees₁.printed printed
  have held₂ : 0 < (t₁.print line).refs d.target := held₁
  -- the inode is put when what is below it has been printed
  have put : ∀ {out t₂}, Printed out (t₁.print line) t₂ →
      Prints t (testfsPutInode t₂ d.target) := by
    intro out t₂ inner
    have flag : t₂.dirty d.target = false := by
      rw [inner.dirty, sees₂.dirty]
      exact clean d.target
    apply (testfsPutInode_comes t₂ inner.table d.target (inner.refs _ ▸ held₂) flag).weaken
    intro t₃ spec
    exact ⟨_, .around sb step (printed.trans inner) spec.1 spec.2⟩
  apply Sat.ite
  · intro deep
    obtain ⟨_, isDir, notDot, notDotDot⟩ := deep
    have kind : (s.view d.target).iType = InodeType.dir.code :=
      spec.1 ▸ of_decide_eq_true isDir
    have child := namesChild_iff.mpr ⟨live, Bool.eq_false_iff.mpr notDot,
      Bool.eq_false_iff.mpr notDotDot⟩
    apply Sat.bind (below (t₁.print line) (cString d.name) d.target
      ⟨⟨allocated, kind⟩, d, member, child, rfl, rfl⟩ (space.child_ne_root dir member child) sees₂
      held₂)
    exact fun t₂ inner => put inner.choose_spec
  · exact fun _ => put (.refl sees₂.table)

/-- The loop of `testfs_ls`; by induction on its fuel, with the entries that are left. -/
theorem Namespace.lsLoop_comes (space : Namespace s dirs) (backed : Backed s)
    (clean : ∀ m, s.dirty m = false) (below : Descended s dirs descend n) (dir : s.IsDir n)
    (fuel : Nat) (t : State) (sees : Sees s t) (held : 0 < t.refs n) (before after : List Dirent)
    (split : dirs n = before ++ after) (enough : after.length < fuel) :
    Prints t (lsLoop descend n recursive fuel t (direntsSize before)) := by
  induction fuel generalizing t before after with
  | zero => omega
  | succ fuel ih =>
      have listing := (space.listed n dir).listing
      have stored := backed.stored space.intact.owns dir.1
      unfold lsLoop
      apply Sat.bind (State.inode_comes sees.table held)
      intro inode spec
      rw [spec.1, sees.view n dir.1.1, sees.sb]
      cases after with
      | nil =>
          rw [List.append_nil] at split
          rw [← split, listing.next_end, ok_bind]
          exact ⟨[], .refl sees.table⟩
      | cons d rest =>
          have split' : dirs n = (before ++ [d]) ++ rest := by
            rw [split, List.append_assoc]
            rfl
          rw [List.length_cons] at enough
          rw [returns_of_stored (listing.next before rest d split) stored, ok_bind]
          dsimp only
          apply Sat.ite
          · intro live
            have member : d ∈ dirs n := by
              rw [split]
              exact List.mem_append_right before List.mem_cons_self
            apply Sat.bind (space.lsEntry_comes clean below dir sees member live)
            rintro t₁ ⟨out, printed⟩
            apply (ih t₁ (sees.printed printed) (printed.refs n ▸ held) (before ++ [d]) rest split'
              (by omega)).weaken
            rintro t₂ ⟨out', printed'⟩
            exact ⟨_, printed.trans printed'⟩
          · exact fun _ => ih t sees held (before ++ [d]) rest split' (by omega)

/-- `testfs_ls`; by induction on the depth, which no way from the root exceeds. -/
theorem Namespace.testfsLs_comes (space : Namespace s dirs) (tree : DirTree s dirs)
    (backed : Backed s) (clean : ∀ m, s.dirty m = false) (recursive : Bool) (depth : Nat)
    (t : State) (path : Rooted.Path 0 (NamesDir s dirs) names n)
    (enough : 16384 ≤ names.length + depth) (sees : Sees s t) (held : 0 < t.refs n) :
    Prints t (testfsLs recursive depth t n) := by
  induction depth generalizing t names n with
  | zero =>
      have short := tree.path_length path
      omega
  | succ depth ih =>
      have dir := tree.path_isDir path
      have listing := (space.listed n dir).listing
      unfold testfsLs
      apply Sat.bind (State.inode_comes sees.table held)
      intro inode spec
      rw [spec.1, sees.view n dir.1.1]
      refine space.lsLoop_comes backed clean ?_ dir _ t sees held [] (dirs n) rfl
        (Nat.lt_succ_of_le listing.length_le)
      intro t' name m step other sees' held'
      apply ih t' (path.child step other) _ sees' held'
      rw [List.length_append, List.length_singleton]
      omega

end Listing

/-- The current directory is held, no inode waits to be written back, and no block lies behind the
end of an inode. -/
structure Session.Lively (s : Session) : Prop where
  held : 0 < s.fs.refs s.curDir
  clean : ∀ n, s.fs.dirty n = false
  tight : s.fs.Tight

abbrev Ends {α : Type} (x : Except Halt α) : Prop := Sat x (fun _ => True) fun _ => False

/-- A new record finds its place and its blocks, besides those that the new inode takes. In the
place of a freed record it takes none. -/
structure RecordRoom (s : State) (n : Nat) (type : InodeType) (name : List Byte)
    (es : List Dirent) : Prop where
  place : direntPlace name es < 2 ^ 31
  inode : type.cost ≤ s.sb.free
  blocks : es.find? (addDirentTest name) = none → type.cost + s.entryNeed n name es ≤ s.sb.free

/-- A name that the current directory does not have yet has room for its record, if an inode is
left. -/
def Session.NameRoom (s : Session) (type : InodeType) (name : List Byte) : Prop :=
  s.tree.find name = none → (∃ n < 16384, s.tree.node n = none) →
    ∀ es, DirOk s.fs s.curDir es → RecordRoom s.fs s.curDir type name es

def Session.NamesFile (s : Session) (name : List Byte) (n : Nat) : Prop :=
  s.tree.find name = some n ∧ ∃ bytes, s.tree.node n = some (.file bytes)

/-- What is asked for fits: a new record finds its place and its blocks, what is written into a file
its blocks, and the end of a range that is read from a file is a 64-bit number. -/
def Session.Room (s : Session) : Command → Prop
  | .create [name] => s.NameRoom .file name.bytes
  | .mkdir [name] => s.NameRoom .dir name.bytes
  | .write [filename, offset, buf] => ∀ n (start : Nat), s.NamesFile filename.bytes n →
      strToOffset offset.bytes = some (start : Int) →
      s.fs.need n start buf.bytes.length ≤ s.fs.sb.free
  | .read [filename, offset, size] => ∀ n (start amount : Nat), s.NamesFile filename.bytes n →
      strToOffset offset.bytes = some (start : Int) → strToSize size.bytes = some amount →
      start + amount < 2 ^ 63
  | _ => True

section Looking

variable {s : Session} {g : NameMap} {dirs : Nat → List Dirent}

theorem Session.Lively.sees (_lively : s.Lively) (table : TableOk s.fs) : Sees s.fs s.fs :=
  ⟨rfl, table, fun _ _ => rfl, fun _ => rfl⟩

theorem eNOENT_negative : -eNOENT < 0 := by decide

theorem Shown.lookup_comes (shown : Shown s g dirs) (lively : s.Lively) (name : List Byte) :
    Sat (s.lookup name) (fun r => r = -eNOENT ∨ ∃ n : Nat, r = n ∧ s.fs.sb.InodeAllocated n)
      (fun _ => False) := by
  unfold Session.lookup
  apply Sat.bind (State.inode_comes shown.space.intact.table lively.held)
  intro inode spec
  rw [spec.1, (shown.isMap shown.ok.dir).lookup name]
  cases target : g s.curDir name with
  | none => exact Or.inl rfl
  | some n => exact Or.inr ⟨n, rfl, shown.named shown.ok.dir target⟩

theorem Shown.get_comes (shown : Shown s g dirs) (lively : s.Lively) {n : Nat}
    (allocated : s.fs.sb.InodeAllocated n) :
    Sat (testfsGetInode s.fs n) (fun fs => Sees s.fs fs ∧ 0 < fs.refs n ∧ 0 < fs.refs s.curDir ∧
      ∀ m, fs.refs m = Function.update s.fs.refs n (s.fs.refs n + 1) m) (fun _ => False) := by
  have intact := shown.space.intact
  apply (testfsGetInode_comes s.fs intact.consistent intact.table n allocated.1).weaken
  intro fs got
  obtain ⟨sb, step⟩ := got
  have held := lively.held
  refine ⟨(lively.sees intact.table).retabled sb step, ?_, ?_, step.refs⟩
  · rw [step.refs, Function.update_self]
    exact Nat.succ_pos _
  · rw [step.refs, Function.update_apply]
    split
    · exact Nat.succ_pos _
    · exact held

theorem Session.Lively.put_comes (lively : s.Lively) {fs : State} (sees : Sees s.fs fs) {n : Nat}
    (held : 0 < fs.refs n) : Ends (testfsPutInode fs n) := by
  have flag : fs.dirty n = false := by
    rw [sees.dirty]
    exact lively.clean n
  exact (testfsPutInode_comes fs sees.table n held flag).weaken fun _ _ => trivial

theorem Shown.cmdCd_ends (shown : Shown s g dirs) (lively : s.Lively) (args : List Arg) :
    Ends (s.cmdCd args) := by
  unfold Session.cmdCd
  split
  · rename_i name
    apply Sat.bind (shown.lookup_comes lively name.bytes)
    rintro _ (rfl | ⟨n, rfl, allocated⟩)
    · rw [if_pos eNOENT_negative]
      exact trivial
    rw [if_neg (Int.not_lt.mpr (Int.natCast_nonneg n)), Int.toNat_natCast]
    apply Sat.bind (shown.get_comes lively allocated)
    rintro fs ⟨sees, held, heldDir, _⟩
    apply Sat.bind (State.inode_comes sees.table held)
    intro dir _
    apply Sat.ite
    · intro _
      apply Sat.bind (lively.put_comes sees held)
      exact fun _ _ => trivial
    · intro _
      apply Sat.bind (lively.put_comes sees heldDir)
      exact fun _ _ => trivial
  · exact trivial

theorem Shown.cmdPwd_ends (shown : Shown s g dirs) (lively : s.Lively) (args : List Arg) :
    Ends (s.cmdPwd args) := by
  have tree := shown.dirTree
  unfold Session.cmdPwd
  split
  · obtain ⟨names, path⟩ := tree.path shown.ok.dir
    have length := tree.path_length path
    have enough : names.length < maxDepth := by
      change names.length < 16385
      omega
    obtain ⟨fs, printed, _⟩ := testfsPwd_path tree path maxDepth s.fs enough
      (lively.sees shown.space.intact.table) lively.held fun _ m _ _ => lively.clean m
    rw [printed, ok_bind]
    exact trivial
  · exact trivial

/-- What `ls` does to the references: it keeps one on what is not a directory. -/
inductive LsRefs (s : Session) (ret : Int) (s' : Session) : Prop
  | even (other : ret ≠ -eNOTDIR) (refs : ∀ m, s'.fs.refs m = s.fs.refs m)
  | kept (code : ret = -eNOTDIR) (n : Nat) (file : ¬ s.fs.IsDir n)
      (refs : ∀ m, s'.fs.refs m = Function.update s.fs.refs n (s.fs.refs n + 1) m)

theorem Shown.cmdLsInternal_ends (shown : Shown s g dirs) (lively : s.Lively) (args : List Arg)
    (recursive : Bool) :
    Sat (s.cmdLsInternal args recursive) (fun r => LsRefs s r.1 r.2) (fun _ => False) := by
  have tree := shown.dirTree
  unfold Session.cmdLsInternal
  split
  · rename_i name
    apply Sat.bind (shown.lookup_comes lively name.bytes)
    rintro _ (rfl | ⟨n, rfl, allocated⟩)
    · rw [if_pos eNOENT_negative]
      have other : -eNOENT ≠ -eNOTDIR := by decide
      exact .even other fun _ => rfl
    rw [if_neg (Int.not_lt.mpr (Int.natCast_nonneg n)), Int.toNat_natCast]
    apply Sat.bind (shown.get_comes lively allocated)
    rintro fs ⟨sees, held, _, refs⟩
    apply Sat.bind (State.inode_comes sees.table held)
    intro inode spec
    rw [spec.1, sees.view n allocated.1]
    apply Sat.ite
    · intro kind
      obtain ⟨names, path⟩ := tree.path ⟨allocated, kind⟩
      apply Sat.bind
        (shown.space.testfsLs_comes tree shown.backed lively.clean recursive maxDepth fs
        path (Nat.le_add_left_of_le (by decide)) sees held)
      rintro fs₁ ⟨out, printed⟩
      have flag : fs₁.dirty n = false := by
        rw [printed.dirty, sees.dirty]
        exact lively.clean n
      apply Sat.bind (testfsPutInode_comes fs₁ printed.table n (printed.refs n ▸ held) flag)
      rintro fs₂ ⟨_, put⟩
      have other : (0 : Int) ≠ -eNOTDIR := by decide
      refine .even other fun m => ?_
      have after := put.refs m
      rw [printed.refs, refs n, Function.update_self, Nat.add_sub_cancel] at after
      rw [after]
      by_cases here : m = n
      · rw [here, Function.update_self]
      · rw [Function.update_of_ne here, printed.refs, refs, Function.update_of_ne here]
    · exact fun file => .kept rfl n (fun dir => file dir.2) refs
  · have other : -eINVAL ≠ -eNOTDIR := by decide
    exact .even other fun _ => rfl

theorem Shown.cmdStat_ends (shown : Shown s g dirs) (lively : s.Lively) (args : List Arg) :
    Ends (s.cmdStat args) := by
  unfold Session.cmdStat
  split
  · rename_i name
    apply Sat.bind (shown.lookup_comes lively name.bytes)
    rintro _ (rfl | ⟨n, rfl, allocated⟩)
    · rw [if_pos eNOENT_negative]
      exact trivial
    rw [if_neg (Int.not_lt.mpr (Int.natCast_nonneg n)), Int.toNat_natCast]
    apply Sat.bind (shown.get_comes lively allocated)
    rintro fs ⟨sees, held, _⟩
    apply Sat.bind (State.inode_comes sees.table held)
    intro inode _
    dsimp only
    have printed := (Printed.refl sees.table).print (.stat name.bytes inode.iNr inode.dinode.iType
      inode.dinode.iSize inode.dinode.blockCount)
    apply Sat.bind (lively.put_comes (sees.printed printed) (printed.refs n ▸ held))
    exact fun _ _ => trivial
  · exact trivial

theorem Shown.getFileInode_comes (shown : Shown s g dirs) (lively : s.Lively) (name : List Byte) :
    Sat (s.testfsGetFileInode name) (fun r => r.1 < 0 ∨ r.1 = 0 ∧ s.fs.sb.InodeAllocated r.2.1 ∧
      ¬ s.fs.IsDir r.2.1 ∧ Sees s.fs r.2.2 ∧ 0 < r.2.2.refs r.2.1) (fun _ => False) := by
  unfold Session.testfsGetFileInode
  apply Sat.bind (shown.lookup_comes lively name)
  rintro _ (rfl | ⟨n, rfl, allocated⟩)
  · rw [if_pos eNOENT_negative]
    exact Or.inl eNOENT_negative
  · have refused : -eISDIR < 0 := by decide
    rw [if_neg (Int.not_lt.mpr (Int.natCast_nonneg n)), Int.toNat_natCast]
    apply Sat.bind (shown.get_comes lively allocated)
    rintro fs ⟨sees, held, _⟩
    apply Sat.bind (State.inode_comes sees.table held)
    intro inode spec
    rw [spec.1, sees.view n allocated.1]
    apply Sat.ite
    · intro _
      apply Sat.bind (lively.put_comes sees held)
      exact fun _ _ => Or.inl refused
    · exact fun kind => Or.inr ⟨rfl, allocated, fun dir => kind dir.2, sees, held⟩

/-- `cmd_read` while it holds the inode of a file: a range whose end is a 64-bit number. -/
theorem readFile_comes {fs : State} {n : Nat} (table : TableOk fs)
    (upper : (fs.view n).size ≤ maxFileSize) (owned : Owned fs.sb (fs.view n))
    (stored : Stored fs.sb.dev (fs.view n)) (held : 0 < fs.refs n) (start size : Nat)
    (word : start + size < 2 ^ 63) :
    Sat (Session.readFile fs n start size) (fun r => ∃ out, Printed out fs r.2)
      (fun _ => False) := by
  rw [maxFileSize_eq] at upper
  have sum : Int.bmod ((start : Int) + (size : Int)) (2 ^ 64) = start + size := by
    apply Int.bmod_eq_of_le <;> omega
  have refl : ∃ out, Printed out fs fs := ⟨[], .refl table⟩
  unfold Session.readFile
  apply Sat.bind (State.inode_comes table held)
  intro inode spec
  rw [spec.1, sum]
  apply Sat.ite
  · exact fun _ => refl
  · intro past
    have room : (size + 1) % 2 ^ 64 = size + 1 := by omega
    rw [room, if_neg (by omega), Int.toNat_natCast]
    have result : Sat (testfsReadData fs.sb (fs.view n) start size)
        (fun r => r.stored.length = size) (fun _ => False) := by
      by_cases inside : start / 8192 < 4196362
      · apply (testfsReadData_sat fs.sb (fs.view n) start size owned (by omega) inside
          (by omega)).mono
        · rintro _ rfl
          exact length_fileBytes _ _ _ _
        · exact fun _ stop => stop.2 stored
      · have none : size = 0 := by omega
        have beyond : nrMaxBlock ≤ start / blockSize := Nat.not_lt.mp inside
        unfold testfsReadData
        rw [if_pos beyond, none]
        exact rfl
    apply Sat.bind result
    intro r length
    dsimp only
    rw [length, if_neg (by omega)]
    apply Sat.ite
    · intro _
      rw [if_neg (by omega)]
      exact ⟨_, (Printed.refl table).print _⟩
    · exact fun _ => refl

/-- What `testfs_get_file_inode` has found is a file that has the name. -/
theorem Shown.namesFile (shown : Shown s g dirs) {name : List Byte} {n : Nat}
    (target : g s.curDir name = some n) (held : s.fs.sb.InodeAllocated n) (file : ¬ s.fs.IsDir n) :
    s.NamesFile name n :=
  ⟨(shown.find name).trans target, s.fs.bytes n, State.node_file held file⟩

theorem Shown.gotFile (shown : Shown s g dirs) (lively : s.Lively) (name : List Byte) :
    Sat (s.testfsGetFileInode name) (fun r => Quiet s.fs r.2.2 ∧ (r.1 < 0 ∨
      s.NamesFile name r.2.1 ∧ s.fs.sb.InodeAllocated r.2.1 ∧ ¬ s.fs.IsDir r.2.1 ∧
        Sees s.fs r.2.2 ∧ 0 < r.2.2.refs r.2.1)) (fun _ => False) := by
  have intact := shown.space.intact
  apply ((shown.getFileInode_comes lively name).also (shown.getFileInode name)).weaken
  rintro ⟨ret, m, fs⟩ ⟨comes, outcome⟩
  cases outcome with
  | absent _ missing same =>
      change ret = _ at missing
      change fs = s.fs at same
      rw [missing, same]
      exact ⟨.refl intact.consistent intact.table, Or.inl eNOENT_negative⟩
  | dir _ _ _ refused quiet =>
      have negative : -eISDIR < 0 := by decide
      change ret = _ at refused
      rw [refused]
      exact ⟨quiet, Or.inl negative⟩
  | file n target held file _ number quiet =>
      change m = n at number
      refine ⟨quiet, comes.imp_right fun found => ⟨?_, found.2⟩⟩
      change s.NamesFile name m
      rw [number]
      exact shown.namesFile target held file

theorem Shown.cmdRead_ends (shown : Shown s g dirs) (lively : s.Lively) (args : List Arg)
    (room : s.Room (.read args)) : Ends (s.cmdRead args) := by
  unfold Session.cmdRead
  split
  · rename_i filename offset size
    split
    · exact trivial
    · rename_i start parsed
      apply Sat.ite
      · exact fun _ => trivial
      · intro nonneg
        split
        · exact trivial
        · rename_i amount parsed'
          obtain ⟨start, rfl⟩ := Int.eq_ofNat_of_zero_le (Int.not_lt.mp nonneg)
          apply Sat.bind (shown.gotFile lively filename.bytes)
          rintro ⟨ret, n, fs⟩ ⟨_, found⟩
          change Sat (if ret < 0 then _ else _) _ _
          apply Sat.ite
          · exact fun _ => trivial
          · intro got
            obtain ⟨named, allocated, file, sees, held⟩ := found.resolve_left got
            change s.NamesFile filename.bytes n at named
            change Sees s.fs fs at sees
            change s.fs.sb.InodeAllocated n at allocated
            have word : start + amount < 2 ^ 63 := room n start amount named parsed parsed'
            have view := sees.view n allocated.1
            have intact := shown.space.intact
            have upper := (shown.files n allocated file).upper
            have owned := owned_of_owns intact.owns allocated
            have stored := shown.backed.stored intact.owns allocated
            rw [← view, ← sees.sb] at owned stored
            rw [← view] at upper
            apply Sat.bind (readFile_comes sees.table upper owned stored held start amount word)
            rintro ⟨ret', fs'⟩ ⟨out, printed⟩
            apply Sat.bind (lively.put_comes (sees.printed printed) (printed.refs n ▸ held))
            exact fun _ _ => trivial
  · exact trivial

end Looking

end Ece344Lab.Fs

import Ece344Lab.Fs.CreateReturns
import Ece344Lab.Fs.Progress

set_option autoImplicit false

/- The commands that write come to their end when they have the blocks. -/
namespace Ece344Lab.Fs

open Outcome Ownership

section Writing

variable {s : State} {n : Nat} {name : List Byte} {inodeNr : Nat} {es : List Dirent}

theorem onInode_write_comes (buf : List Byte) (pos : Nat) (intact : Intact s)
    (allocated : s.sb.InodeAllocated n) (readable : s.Readable n)
    (enough : s.need n pos buf.length ≤ s.sb.free) :
    Sat (s.onInode n fun sb inode => testfsWriteData sb inode buf pos)
      (fun r => r.2.sb.allocFailed = s.sb.allocFailed) (fun _ => False) := by
  by_cases inside : pos / 8192 < 4196362
  · apply (onInode_write_sat s n buf pos intact allocated inside).mono _ fun _ stop => stop readable
    rintro _ ⟨inode, w, _, view, _, outcome, rfl⟩
    unfold State.need at enough
    rw [← view] at enough
    cases outcome with
    | done spliced _ _ _ => exact spliced.ghost
    | tooBig spliced _ _ _ => exact spliced.ghost
    | failed failed =>
        have short := failed.short
        omega
    | stranded strands _ _ _ =>
        have short := (strands.short s.sb.dev (le_lastBlock _ _)).2
        omega
  · unfold State.onInode
    apply Sat.bind (State.inode_comes intact.table readable.inTable)
    intro inode _
    dsimp only
    rw [testfsWriteData_beyond s.sb inode buf pos (Nat.not_lt.mp inside)]
    exact rfl

theorem testfsRemoveDirentAllowed_comes (intact : Intact s) (backed : Backed s)
    (allocated : s.sb.InodeAllocated n) (clean : s.dirty n = false)
    (entries : s.IsDir n → DirOk s n es) :
    Sat (testfsRemoveDirentAllowed s n) (fun _ => True) (fun _ => False) := by
  unfold testfsRemoveDirentAllowed
  apply Sat.bind (testfsGetInode_comes s intact.consistent intact.table n allocated.1)
  rintro s₁ ⟨sb, step⟩
  have held : 0 < s₁.refs n := by
    rw [step.refs, Function.update_self]
    exact Nat.succ_pos _
  have put := testfsPutInode_comes s₁ step.ok n held ((step.dirty n).trans clean)
  apply Sat.bind (State.inode_comes step.ok held)
  intro inode spec
  rw [spec.1, step.view n allocated.1, sb]
  apply Sat.ite
  · exact fun _ => Sat.bind put fun _ _ => trivial
  · intro kind
    have listing := (entries ⟨allocated, not_not.mp kind⟩).listing
    have stored := backed.stored intact.owns allocated
    rw [returns_of_stored (listing.first _) stored, ok_bind]
    exact Sat.bind put fun _ _ => trivial

theorem testfsRemoveDirent_comes (dirs : Nat → List Dirent) (intact : Intact s) (backed : Backed s)
    (held : 0 < s.refs n) (clean : ∀ m, s.dirty m = false) (dir : s.IsDir n)
    (entries : ∀ m, s.IsDir m → DirOk s m (dirs m))
    (targets : ∀ d ∈ dirs n, d.live = true → s.sb.InodeAllocated d.target) :
    Sat (testfsRemoveDirent s n name) (fun _ => True) (fun _ => False) := by
  unfold testfsRemoveDirent
  apply Sat.ite
  · exact fun _ => trivial
  · intro _
    have dirOk := entries n dir
    have listing := dirOk.listing
    have stored := backed.stored intact.owns dir.1
    apply Sat.bind (State.inode_comes intact.table held)
    intro inode spec
    rw [spec.1, returns_of_stored (listing.first fun d => d.live && d.named name) stored, ok_bind]
    cases found : (dirs n).find? fun d => d.live && d.named name with
    | none => exact trivial
    | some d =>
        obtain ⟨passes, after, split⟩ := find_split found
        rw [Bool.and_eq_true] at passes
        let before := (dirs n).takeWhile fun e => !(e.live && e.named name)
        have member : d ∈ dirs n := by
          rw [split]
          exact List.mem_append_right before List.mem_cons_self
        have allocated := targets d member passes.1
        have allowed := testfsRemoveDirentAllowed_sat s d.dInodeNr.toInt.toNat _ intact
          fun held kind => entries _ ⟨held, kind⟩
        have comes := testfsRemoveDirentAllowed_comes intact backed allocated (clean _)
          (entries d.target)
        apply Sat.bind (comes.also allowed)
        rintro ⟨ret, s₁⟩ ⟨_, shuffled, _⟩
        change Shuffled s s₁ s.refs s.dirty at shuffled
        have quiet := shuffled.quiet
        have intact₁ := quiet.intact intact
        have dir₁ := dirOk.quiet quiet intact
        have wf := listing.wf d member
        have readable : s₁.Readable n := by
          refine ⟨?_, (quiet.backed backed).stored intact₁.owns dir₁.allocated⟩
          rw [shuffled.refs]
          exact held
        change Sat (if ret < 0 then _ else _) _ _
        apply Sat.ite
        · exact fun _ => trivial
        · intro _
          have wrote := (dir_overwrite s₁ n before after d d.freed intact₁ (split ▸ dir₁)
            wf.freed rfl).mono (fun _ spec => spec) fun _ stop => stop readable
          exact Sat.bind wrote fun _ _ => trivial

end Writing

section Creating

variable {s s₁ s₂ : State} {n p : Nat} {name : List Byte} {inodeNr : Nat} {es : List Dirent}
  {type : InodeType}

/-- A name that is not there yet gets its record. -/
theorem testfsAddDirent_comes (intact : Intact s) (dir : DirOk s n es) (readable : s.Readable n)
    (noNul : ∀ b ∈ name, b ≠ 0) (absent : lookupEntry es name = none) (fits : Fits s n name es) :
    Sat (testfsAddDirent s n name inodeNr)
      (fun r => 0 ≤ r.1 ∧ ∃ es', Inserted n name inodeNr es s r.2 es') (fun _ => False) := by
  have new : ¬ Carries name es := by
    rintro ⟨d, member, live, named⟩
    exact lookupEntry_eq_none.mp absent d member live (of_decide_eq_true named)
  obtain ⟨r, ran, nonneg⟩ :=
    (testfsAddDirent_new_iff inodeNr intact dir readable noNul new).mpr fits
  have outcome := (testfsAddDirent_sat s n name inodeNr es intact dir noNul).of_ok ran
  rw [ran]
  cases outcome with
  | refused negative _ _ => omega
  | failed negative _ => omega
  | stranded negative _ _ => omega
  | inserted _ es' done => exact ⟨nonneg, es', done⟩

theorem testfsCreateEmptyDir_comes (parent : Nat) (intact : Intact s) (dir : DirOk s n [])
    (empty : s.slots n = fun _ => 0) (readable : s.Readable n) (backed : Backed s)
    (unfailed : s.sb.allocFailed = false) (block : 1 ≤ s.sb.free) :
    Sat (testfsCreateEmptyDir s parent n) (fun r => 0 ≤ r.1) (fun _ => False) := by
  have fits : Fits s n dot [] := by
    refine ⟨by decide, by decide, fun _ => ?_⟩
    rw [entryNeed_dot dir empty]
    exact block
  have first : Sat (testfsAddDirent s n dot n) _ _ :=
    testfsAddDirent_comes intact dir readable dot_noNul rfl fits
  unfold testfsCreateEmptyDir
  apply Sat.bind (State.inode_comes intact.table readable.inTable)
  intro inode spec
  rw [spec.1, cAssert_pos dir.listing.kind, ok_bind]
  apply Sat.bind (first.also (testfsAddDirent_sat s n dot n [] intact dir dot_noNul))
  rintro ⟨ret, s₁⟩ ⟨⟨nonneg, _⟩, outcome⟩
  change 0 ≤ ret at nonneg
  have entered := outcome.first_block rfl (by decide)
  obtain ⟨_, done, _⟩ := entered.resolve_left fun full => absurd nonneg (Int.not_le.mpr full.1)
  have intact₁ := done.rewritten.intact
  have dir₁ : DirOk s₁ n [newDirent dot n] := done.dir
  have unfailed₁ : s₁.sb.allocFailed = false := done.ghost.trans unfailed
  have readable₁ : s₁.Readable n := by
    refine ⟨?_, (done.rewritten.backed unfailed₁ backed).stored intact₁.owns dir₁.allocated⟩
    rw [done.rewritten.refs]
    exact readable.inTable
  have absent : lookupEntry [newDirent dot n] dotDot = none := by
    apply lookupEntry_eq_none.mpr
    intro d member _ same
    have own : cString (newDirent dot n).name = dot := cString_terminated dot_noNul
    rw [List.mem_singleton.mp member, own] at same
    exact absurd same (by decide)
  have fits₁ : Fits s₁ n dotDot [newDirent dot n] := by
    refine ⟨by decide, (direntPlace_le _ _).trans_lt ?_, fun _ => ?_⟩
    · rw [direntsSize_dot]
      decide
    · rw [entryNeed_dotDot dir₁]
      exact Nat.zero_le _
  have second : Sat (testfsAddDirent s₁ n dotDot parent) _ _ :=
    testfsAddDirent_comes intact₁ dir₁ readable₁ dotDot_noNul absent fits₁
  change Sat (if ret < 0 then _ else _) _ _
  rw [if_neg (Int.not_lt.mpr nonneg)]
  apply Sat.bind second
  rintro ⟨ret', s₂⟩ ⟨nonneg', _⟩
  change Sat (if ret' < 0 then _ else _) _ _
  rw [if_neg (Int.not_lt.mpr nonneg')]
  exact Int.le_refl 0

theorem Created.fill_comes (created : Created n type s s₁) (owns : Owns s.sb.Allocated s.pointers)
    (backed : Backed s) (unfailed : s.sb.allocFailed = false) (block : type.cost ≤ s.sb.free)
    (dir : Option Nat) :
    Sat (createContents s₁ dir type n) (fun r => 0 ≤ r.1 ∧ Filled n (dir.getD n) type s₁ r.2)
      (fun _ => False) := by
  have ends : Sat (createContents s₁ dir type n) (fun _ => True) (fun _ => False) := by
    unfold createContents
    apply Sat.ite
    · intro kind
      obtain ⟨none, empty⟩ := created.emptyDir kind
      have backed₁ := created.backed owns backed
      have readable : s₁.Readable n := by
        refine ⟨?_, backed₁.stored created.intact.owns none.allocated⟩
        rw [created.refs, Function.update_self]
        exact Nat.succ_pos _
      rw [kind] at block
      exact (testfsCreateEmptyDir_comes _ created.intact none empty readable backed₁
        (created.ghost.trans unfailed) (created.free ▸ block)).weaken fun _ _ => trivial
    · exact fun _ => trivial
  apply (ends.also (created.fill dir)).weaken
  rintro r ⟨_, full | done⟩
  · have short := full.2.2
    omega
  · exact done

theorem createEntry_comes (intact : Intact s) (dir : DirOk s p es) (readable : s.Readable p)
    (noNul : ∀ b ∈ name, b ≠ 0) (absent : lookupEntry es name = none) (fits : Fits s p name es) :
    Sat (createEntry s (some p) name n)
      (fun r => r.1 = 0 ∧ Rewritten p s r.2 ∧ r.2.sb.allocFailed = s.sb.allocFailed)
      (fun _ => False) := by
  unfold createEntry
  dsimp only
  apply Sat.bind (testfsAddDirent_comes intact dir readable noNul absent fits)
  rintro ⟨ret, s'⟩ ⟨nonneg, es', done⟩
  change Sat (if ret < 0 then _ else _) _ _
  rw [if_neg (Int.not_lt.mpr nonneg)]
  have step := done.rewritten
  have held : 0 < s'.refs p := by
    rw [step.refs]
    exact readable.inTable
  obtain ⟨s'', synced, sync⟩ := testfsSyncInode_quiet s' step.intact.consistent step.intact.table p
    held
  rw [synced, ok_bind]
  exact ⟨rfl, step.trans (sync.rewritten step.intact dir.allocated.1),
    sync.quiet.ghost.trans done.ghost⟩

theorem testfsCreateFileOrDir_comes (intact : Intact s) (dir : DirOk s p es) (held : 0 < s.refs p)
    (backed : Backed s) (unfailed : s.sb.allocFailed = false) (noNul : ∀ b ∈ name, b ≠ 0)
    (length : 8 + (name.length + 1) < 2 ^ 31)
    (room : lookupEntry es name = none → (∃ m < 16384, ¬ s.sb.InodeAllocated m) →
      RecordRoom s p type name es) :
    Sat (testfsCreateFileOrDir s (some p) type name) (fun r => r.2.sb.allocFailed = false)
      (fun _ => False) := by
  have listing := dir.listing
  have stored := backed.stored intact.owns dir.allocated
  unfold testfsCreateFileOrDir createLookup
  dsimp only
  rw [bind_assoc]
  apply Sat.bind (State.inode_comes intact.table held)
  intro inode spec
  rw [spec.1, listing.lookup stored, ok_bind]
  apply Sat.ite
  · exact fun _ => unfailed
  · intro missing
    have absent : lookupEntry es name = none := by
      cases target : lookupEntry es name with
      | none => rfl
      | some m =>
          rw [target] at missing
          exact absurd (Int.natCast_nonneg m) missing
    apply Sat.bind (testfsCreateInode_sat s type intact)
    rintro ⟨ret, n, s₁⟩ (⟨negative, _, same⟩ | ⟨zero, created⟩)
    · change ret < 0 at negative
      change s₁ = s at same
      rw [if_pos negative, same]
      exact unfailed
    · change ret = 0 at zero
      change Created n type s s₁ at created
      have room := room absent ⟨n, created.inside, created.fresh⟩
      rw [zero, if_neg (Int.lt_irrefl 0)]
      apply Sat.bind (created.fill_comes intact.owns backed unfailed room.inode (some p))
      rintro ⟨ret₁, s₂⟩ ⟨nonneg, filled⟩
      change Filled n p type s₁ s₂ at filled
      change Sat (if ret₁ < 0 then _ else _) _ _
      rw [if_neg (Int.not_lt.mpr nonneg)]
      have unfailed₂ : s₂.sb.allocFailed = false :=
        filled.ghost.trans (created.ghost.trans unfailed)
      have other : p ≠ n := fun equal => created.fresh (equal ▸ dir.allocated)
      obtain ⟨same₂, dir₂⟩ := created.parent filled.rewritten dir
      obtain ⟨_, rest, need⟩ := created.leaves filled dir name
      have intact₂ := filled.rewritten.intact
      have backed₂ := filled.rewritten.backed unfailed₂ (created.backed intact.owns backed)
      have refs₂ : s₂.refs = Function.update s.refs n (s.refs n + 1) :=
        filled.rewritten.refs.trans created.refs
      have readable₂ : s₂.Readable p := by
        refine ⟨?_, backed₂.stored intact₂.owns dir₂.allocated⟩
        rw [refs₂, Function.update_of_ne other]
        exact held
      have fits : Fits s₂ p name es := by
        refine ⟨length, room.place, fun none => ?_⟩
        have blocks := room.blocks none
        omega
      apply Sat.bind (createEntry_comes intact₂ dir₂ readable₂ noNul absent fits)
      rintro ⟨ret₂, s₃⟩ ⟨zero₂, rewritten, ghost⟩
      change ret₂ = 0 at zero₂
      change Rewritten p s₂ s₃ at rewritten
      change Sat (if ret₂ < 0 then _ else _) _ _
      rw [zero₂, if_neg (Int.lt_irrefl 0)]
      have held₃ : 0 < s₃.refs n := by
        rw [rewritten.refs, refs₂, Function.update_self]
        exact Nat.succ_pos _
      obtain ⟨s₄, s₅, synced, put, step⟩ := written_back s₃ rewritten.intact.consistent
        rewritten.intact.table n held₃
      rw [synced, ok_bind, put, ok_bind]
      exact step.quiet.ghost.trans (ghost.trans unfailed₂)

end Creating

section Commands

variable {s : Session} {g : NameMap} {dirs : Nat → List Dirent}

abbrev Goes (x : Except Halt (Int × Session)) : Prop :=
  Sat x (fun r => r.2.fs.sb.allocFailed = false) fun _ => False

theorem Ends.goes {x : Except Halt (Int × Session)} (ends : Ends x)
    (quiet : Sat x (fun r => Quiet s.fs r.2.fs) (fun _ => True))
    (unfailed : s.fs.sb.allocFailed = false) : Goes x :=
  (ends.also quiet).weaken fun _ spec => spec.2.ghost.trans unfailed

theorem Shown.cmdCreateOrMkdir_goes (shown : Shown s g dirs) (lively : s.Lively) (args : List Arg)
    (type : InodeType) (unfailed : s.fs.sb.allocFailed = false) (small : ∀ arg ∈ args, arg.Small)
    (room : ∀ name, args = [name] → s.NameRoom type name.bytes) :
    Goes (s.cmdCreateOrMkdir args type) := by
  have dir := shown.space.listed _ shown.ok.dir
  unfold Session.cmdCreateOrMkdir
  split
  · rename_i name
    have fits : lookupEntry (dirs s.curDir) name.bytes = none →
        (∃ m < 16384, ¬ s.fs.sb.InodeAllocated m) →
        RecordRoom s.fs s.curDir type name.bytes (dirs s.curDir) := by
      rintro absent ⟨m, inside, free⟩
      apply room name rfl _ ⟨m, inside, State.node_free free⟩ _ dir
      rw [shown.find, ← shown.names _ shown.ok.dir]
      exact absent
    apply Sat.bind (testfsCreateFileOrDir_comes shown.space.intact dir lively.held shown.backed
      unfailed name.noNul (small name List.mem_cons_self) fits)
    exact fun _ done => done
  · exact unfailed

/-- No inode is larger than its blocks. -/
theorem Shown.size_le (shown : Shown s g dirs) {n : Nat} (held : s.fs.sb.InodeAllocated n) :
    (s.fs.view n).size ≤ 4196362 * 8192 := by
  by_cases dir : s.fs.IsDir n
  · exact (shown.space.listed n dir).bounded
  · have upper := (shown.files n held dir).upper
    rwa [maxFileSize_eq] at upper

/-- The inode whose record has been freed. -/
theorem Shown.unlinked_size (shown : Shown s g dirs) {name : List Byte} {inodeNr : Int} {fs : State}
    (unlinked : Unlinked s.curDir name dirs s.fs inodeNr fs) :
    (fs.view inodeNr.toNat).size ≤ 4196362 * 8192 := by
  have allocated := shown.space.unlinked_allocated shown.ok.dir unlinked
  by_cases own : inodeNr.toNat = s.curDir
  · obtain ⟨_, _, _, _, _, _, dir⟩ := unlinked.place
    rw [own]
    exact dir.bounded
  · rw [(unlinked.rewritten.others _ allocated own).view]
    exact shown.size_le allocated

theorem Shown.cmdRm_goes (shown : Shown s g dirs) (lively : s.Lively) (args : List Arg)
    (unfailed : s.fs.sb.allocFailed = false) : Goes (s.cmdRm args) := by
  have space := shown.space
  have intact := space.intact
  have dir := space.listed _ shown.ok.dir
  unfold Session.cmdRm
  split
  · rename_i name
    have spec := testfsRemoveDirent_sat s.fs s.curDir name.bytes dirs intact dir
      fun m held kind => space.listed m ⟨held, kind⟩
    have comes : Sat (testfsRemoveDirent s.fs s.curDir name.bytes) _ _ :=
      testfsRemoveDirent_comes dirs intact shown.backed lively.held lively.clean shown.ok.dir
        space.listed fun d => space.target_allocated shown.ok.dir
    have tightens := testfsRemoveDirent_tight s.fs s.curDir name.bytes dirs intact dir space.listed
    apply Sat.bind ((comes.also spec).also tightens)
    rintro ⟨inodeNr, fs₁⟩ ⟨⟨_, outcome⟩, tight⟩
    change Sat (if inodeNr < 0 then _ else _) _ _
    rcases outcome with ⟨negative, refused⟩ | ⟨nonneg, unlinked⟩
    · change inodeNr < 0 at negative
      rw [if_pos negative]
      exact refused.quiet.ghost.trans unfailed
    · change 0 ≤ inodeNr at nonneg
      change Unlinked s.curDir name.bytes dirs s.fs inodeNr fs₁ at unlinked
      rw [if_neg (Int.not_lt.mpr nonneg)]
      have step := unlinked.rewritten
      have intact₁ := step.intact
      have unfailed₁ : fs₁.sb.allocFailed = false := unlinked.ghost.trans unfailed
      have before := space.unlinked_allocated shown.ok.dir unlinked
      have allocated := (step.inodes _).mpr before
      have fetched := testfsGetInode_comes fs₁ intact₁.consistent intact₁.table inodeNr.toNat
        allocated.1
      apply Sat.bind (fetched.also (testfsGetInode_sat fs₁ intact₁.consistent intact₁.table _))
      rintro fs₂ ⟨⟨sb, got⟩, _, _, shuffled⟩
      have erasable : fs₂.Erasable inodeNr.toNat := by
        have view : fs₂.view inodeNr.toNat = fs₁.view inodeNr.toNat := got.view _ allocated.1
        refine ⟨?_, ?_, ?_, ?_⟩
        · rw [got.refs, Function.update_self]
          exact Nat.succ_pos _
        · rw [sb, view]
          exact (step.backed unfailed₁ shown.backed).stored intact₁.owns allocated
        · rw [sb, view]
          exact (tight unfailed₁).2 lively.tight _ allocated
        · rw [view]
          exact endBlock_lt _ ((shown.unlinked_size unlinked).trans (by decide))
      have allocated₂ : fs₂.sb.InodeAllocated inodeNr.toNat := sb ▸ allocated
      have intact₂ := shuffled.quiet.intact intact₁
      apply Sat.bind ((testfsRemoveInode_spec fs₂ inodeNr.toNat intact₂ allocated₂).mono
        (fun _ gone => gone) fun _ stop => stop erasable)
      intro fs₃ gone
      have intact₃ := gone.intact
      have held₃ : 0 < fs₃.refs s.curDir := by
        have held := lively.held
        rw [gone.refs, shuffled.refs, Function.update_idem, Function.update_self, step.refs,
          Nat.add_sub_cancel, Function.update_eq_self]
        exact held
      obtain ⟨fs₄, synced, sync⟩ := testfsSyncInode_quiet fs₃ intact₃.consistent intact₃.table
        s.curDir held₃
      rw [synced, ok_bind]
      exact sync.quiet.ghost.trans (gone.ghost.trans ((congrArg _ sb).trans unfailed₁))
  · exact unfailed

theorem Shown.cmdWrite_goes (shown : Shown s g dirs) (lively : s.Lively) (args : List Arg)
    (unfailed : s.fs.sb.allocFailed = false) (small : ∀ arg ∈ args, arg.Small)
    (room : s.Room (.write args)) : Goes (s.cmdWrite args) := by
  have intact := shown.space.intact
  unfold Session.cmdWrite
  split
  · rename_i filename offset buf
    have short : 8 + (buf.bytes.length + 1) < 2 ^ 31 := small buf (by simp)
    split
    · exact unfailed
    · rename_i start parsed
      apply Sat.ite
      · exact fun _ => unfailed
      · intro nonneg
        obtain ⟨start, rfl⟩ := Int.eq_ofNat_of_zero_le (Int.not_lt.mp nonneg)
        apply Sat.bind (shown.gotFile lively filename.bytes)
        rintro ⟨ret, n, fs⟩ ⟨quiet, found⟩
        change Quiet s.fs fs at quiet
        change Sat (if ret < 0 then _ else _) _ _
        apply Sat.ite
        · exact fun _ => quiet.ghost.trans unfailed
        · intro got
          obtain ⟨named, held, file, sees, inTable⟩ := found.resolve_left got
          change s.NamesFile filename.bytes n at named
          change Sees s.fs fs at sees
          change s.fs.sb.InodeAllocated n at held
          change 0 < fs.refs n at inTable
          have enough : fs.need n start buf.bytes.length ≤ fs.sb.free := by
            unfold State.need
            rw [sees.view n held.1, sees.sb]
            exact room n start named parsed
          have intact₁ := quiet.intact intact
          have held₁ := (quiet.inodeAllocated_iff n).mpr held
          have ok := (shown.files n held file).untouched (quiet.untouched intact.owns held)
          have stored : Stored fs.sb.dev (fs.view n) := by
            rw [sees.view n held.1, sees.sb]
            exact shown.backed.stored intact.owns held
          have unfailed₁ : fs.sb.allocFailed = false := quiet.ghost.trans unfailed
          have wrote := onInode_write_comes buf.bytes start intact₁ held₁ ⟨inTable, stored⟩ enough
          apply Sat.bind
            (wrote.also (onInode_fileWritten fs n start buf.bytes intact₁ held₁ ok.upper
            (List.length_pos_of_ne_nil buf.nonempty) (by omega)))
          rintro ⟨ret₁, fs₁⟩ ⟨same, written⟩
          change fs₁.sb.allocFailed = _ at same
          have unfailed₂ := same.trans unfailed₁
          have step : Rewritten n fs fs₁ := (written unfailed₂).1
          have inTable₁ : 0 < fs₁.refs n := by
            rw [step.refs]
            exact inTable
          obtain ⟨fs₂, fs₃, synced, put, back⟩ := written_back fs₁ step.intact.consistent
            step.intact.table n inTable₁
          dsimp only
          rw [synced, ok_bind, put, ok_bind]
          exact back.quiet.ghost.trans unfailed₂
  · exact unfailed

theorem Shown.handleCommand_goes (shown : Shown s g dirs) (lively : s.Lively) (c : Command)
    (unfailed : s.fs.sb.allocFailed = false) (small : c.Small) (room : s.Room c) :
    Goes (s.handleCommand c) := by
  have consistent := shown.space.intact.consistent
  have table := shown.space.intact.table
  have ls : ∀ args recursive, Ends (s.cmdLsInternal args recursive) := fun args recursive =>
    (shown.cmdLsInternal_ends lively args recursive).weaken fun _ _ => trivial
  cases c with
  | cd args =>
    exact (shown.cmdCd_ends lively args).goes (cmdCd_quiet consistent table args) unfailed
  | pwd args =>
      exact (shown.cmdPwd_ends lively args).goes (cmdPwd_quiet consistent table args) unfailed
  | ls args => exact (ls args false).goes (cmdLsInternal_quiet consistent table args false) unfailed
  | lsr args => exact (ls args true).goes (cmdLsInternal_quiet consistent table args true) unfailed
  | create args =>
      apply shown.cmdCreateOrMkdir_goes lively args .file unfailed small
      rintro name rfl
      exact room
  | mkdir args =>
      apply shown.cmdCreateOrMkdir_goes lively args .dir unfailed small
      rintro name rfl
      exact room
  | rm args => exact shown.cmdRm_goes lively args unfailed
  | stat args =>
      exact (shown.cmdStat_ends lively args).goes (cmdStat_quiet consistent table args) unfailed
  | read args =>
      exact (shown.cmdRead_ends lively args room).goes
        (cmdRead_quiet consistent table args) unfailed
  | write args => exact shown.cmdWrite_goes lively args unfailed small room
  | fsstat args =>
      have ends : Ends (s.handleCommand (.fsstat args)) := by
        change Ends (s.cmdFsstat args)
        unfold Session.cmdFsstat
        split <;> exact trivial
      exact ends.goes (cmdFsstat_quiet consistent table args) unfailed

end Commands

end Ece344Lab.Fs

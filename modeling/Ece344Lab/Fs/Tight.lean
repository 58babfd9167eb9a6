import Ece344Lab.Fs.FileCommands
import Ece344Lab.Fs.WithinSize

set_option autoImplicit false

/- No inode keeps blocks behind its end as long as no block allocation fails. -/
namespace Ece344Lab.Fs

open Outcome Ownership

/-- No block of any inode lies behind the end of it. -/
def State.Tight (s : State) : Prop :=
  ∀ n, s.sb.InodeAllocated n → WithinSize s.sb.dev (s.view n)

/-- A step that leaves no block behind the end of an inode, unless a block allocation has failed. -/
def Tightens (s s' : State) : Prop :=
  s'.sb.allocFailed = false → s.sb.allocFailed = false ∧ (s.Tight → s'.Tight)

theorem Tightens.refl (s : State) : Tightens s s := fun unfailed => ⟨unfailed, id⟩

theorem Tightens.trans {s s' s'' : State} (first : Tightens s s') (second : Tightens s' s'') :
    Tightens s s'' := by
  intro unfailed
  obtain ⟨unfailed', tight'⟩ := second unfailed
  obtain ⟨unfailed'', tight''⟩ := first unfailed'
  exact ⟨unfailed'', fun tight => tight' (tight'' tight)⟩

theorem Tightens.of_failed {s s' : State} (failed : s'.sb.allocFailed = true) : Tightens s s' := by
  intro unfailed
  rw [failed] at unfailed
  cases unfailed

theorem WithinSize.congr {dev dev' : Device} {d : Dinode} (within : WithinSize dev d)
    (same : ptr dev' d = ptr dev d) : WithinSize dev' d := by
  refine ⟨fun log inside nonzero => within.data log inside ?_, within.dindirect⟩
  rwa [same] at nonzero

theorem WithinSize.of_null {dev : Device} {d : Dinode} (null : ∀ slot, ptr dev d slot = 0) :
    WithinSize dev d := by
  refine ⟨fun log _ nonzero => absurd (null _) nonzero, fun nonzero => absurd ?_ nonzero⟩
  exact (toNat_eq_zero _).mp (null .dindirect)

section Steps

variable {s s' : State} {n : Nat}

theorem Untouched.within (same : Untouched s s' n) (before : s.sb.InodeAllocated n)
    (after : s'.sb.InodeAllocated n) (within : WithinSize s.sb.dev (s.view n)) :
    WithinSize s'.sb.dev (s'.view n) := by
  have slots := same.slots
  rw [State.slots_eq before, State.slots_eq after, same.view] at slots
  rw [same.view]
  exact within.congr slots

theorem Quiet.tightens (step : Quiet s s') (owns : Owns s.sb.Allocated s.pointers) :
    Tightens s s' := by
  refine fun unfailed => ⟨step.ghost.symm.trans unfailed, fun tight m held => ?_⟩
  have before := (step.inodeAllocated_iff m).mp held
  exact (step.untouched owns before).within before held (tight m before)

theorem Created.tightens {type : InodeType} (created : Created n type s s') : Tightens s s' := by
  refine fun unfailed => ⟨created.ghost.symm.trans unfailed, fun tight m held => ?_⟩
  by_cases here : m = n
  · subst here
    rw [created.view]
    exact .of_null fun slot => by rw [ptr_iType, ptr_zero]
  · have before := ((created.inodes m).mp held).resolve_right here
    exact (created.others m before).within before held (tight m before)

theorem Removed.tightens (removed : Removed n s s') : Tightens s s' := by
  refine fun unfailed => ⟨removed.ghost.symm.trans unfailed, fun tight m held => ?_⟩
  have before := (removed.inodes m).mp held
  exact (removed.others m before.1 before.2).within before.1 held (tight m before.1)

/-- A write that has found all its blocks. -/
theorem WriteOutcome.within {start : Nat} {buf : List Byte} {sb : SuperBlock} {inode : Inode}
    {r : FileResult} (outcome : WriteOutcome start (toInt32 buf.length) start buf sb inode r)
    (unfailed : r.sb.allocFailed = false) (owned : Owned sb inode.dinode)
    (counts : inode.dinode.blockCount = BitVec.ofNat 32 (held (ptr sb.dev inode.dinode)))
    (bounded : inode.dinode.size ≤ 4196362 * 8192) (within : WithinSize sb.dev inode.dinode)
    (positive : 0 < buf.length) (small : buf.length < 2 ^ 31) (inside : start / 8192 < 4196362) :
    WithinSize r.sb.dev r.inode.dinode := by
  cases outcome with
  | done spliced _ fits size =>
      rw [if_pos positive] at size
      exact ((spliced.done_iff owned counts bounded within positive inside fits size).mpr
        (Or.inl small)).1
  | tooBig spliced _ _ size =>
      have size' : r.inode.dinode.size = 4196362 * 8192 := by
        unfold Dinode.size
        rw [size]
        decide
      exact (spliced.within_iff within (by omega)).mpr fun log inside _ _ => by omega
  | failed failed =>
      rw [failed.ghost] at unfailed
      cases unfailed
  | stranded _ _ ghost _ =>
      rw [ghost] at unfailed
      cases unfailed

theorem onInode_write_tight (s : State) (n : Nat) (buf : List Byte) (pos : Nat) (intact : Intact s)
    (allocated : s.sb.InodeAllocated n) (bounded : (s.view n).size ≤ 4196362 * 8192)
    (positive : 0 < buf.length) (small : buf.length < 2 ^ 31) (inside : pos / 8192 < 4196362) :
    Sat (s.onInode n fun sb inode => testfsWriteData sb inode buf pos) (fun r => Tightens s r.2)
      (fun _ => True) := by
  apply Sat.anyStop
  apply (onInode_write_sat s n buf pos intact allocated inside).weaken
  rintro _ ⟨inode, w, read, view, _, outcome, rfl⟩ unfailed
  change w.sb.allocFailed = false at unfailed
  have spliced : Spliced pos buf s.sb inode w := by
    cases outcome with
    | done spliced _ _ _ => exact spliced
    | tooBig spliced _ _ _ => exact spliced
    | failed failed =>
        rw [failed.ghost] at unfailed
        cases unfailed
    | stranded _ _ ghost _ =>
        rw [ghost] at unfailed
        cases unfailed
  refine ⟨spliced.ghost.symm.trans unfailed, fun tight m held => ?_⟩
  have owned := owned_of_owns intact.owns allocated
  have counts := intact.counts n allocated
  have within := tight n allocated
  rw [State.slots_eq allocated] at counts
  rw [← view] at owned counts bounded within
  have own := outcome.within unfailed owned counts bounded within positive small inside
  have step := spliced.ext.onInode intact.table read owned
  have before := (step.allocated_iff m).mp held
  by_cases here : m = n
  · subst here
    rw [step.view_self allocated.1]
    exact own
  · exact (step.untouched intact.owns allocated view before here).within before held
      (tight m before)

end Steps

section Dirents

variable {s : State} {n : Nat} {name : List Byte} {inodeNr : Nat} {es : List Dirent}

theorem DirOk.bounded (dir : DirOk s n es) : (s.view n).size ≤ 4196362 * 8192 := by
  have small := dir.listing.small
  rw [dir.listing.size]
  omega

theorem testfsWriteDirent_tight (offset : Nat) (intact : Intact s) (dir : DirOk s n es)
    (room : 8 + (name.length + 1) < 2 ^ 31) (inside : offset ≤ direntsSize es) :
    Sat (testfsWriteDirent s n name inodeNr offset) (fun r => Tightens s r.2)
      (fun _ => True) := by
  have small := dir.listing.small
  have length : (newDirent name inodeNr).bytes.length = 8 + (name.length + 1) := by
    rw [Dirent.length_bytes, length_newDirent]
  refine testfsWriteDirent_sat s n name inodeNr offset (fun _ => .refl s) fun _ => ?_
  by_cases start : offset < 2 ^ 31
  · rw [toInt32_small _ start]
    exact onInode_write_tight s n _ offset intact dir.allocated dir.bounded (by omega) (by omega)
      (by omega)
  · obtain ⟨e, stopped⟩ := write_wrapped s n (newDirent name inodeNr).bytes offset
      (Nat.not_lt.mp start) (by omega)
    rw [stopped]
    trivial

theorem testfsAddDirent_tight (intact : Intact s) (dir : DirOk s n es)
    (room : 8 + (name.length + 1) < 2 ^ 31) :
    Sat (testfsAddDirent s n name inodeNr) (fun r => Tightens s r.2)
      (fun _ => True) := by
  unfold testfsAddDirent
  cases read : s.inode n with
  | error e => trivial
  | ok inode =>
      obtain ⟨_, view, _⟩ := intact.table.of_read read
      have listing := dir.listing
      rw [← view] at listing
      rw [ok_bind, cAssert_pos listing.kind, ok_bind]
      apply Sat.bind (listing.first (addDirentTest name)).anyStop
      rintro _ rfl
      have place := direntPlace_le name es
      cases es.find? (addDirentTest name) with
      | none =>
          dsimp only
          apply Sat.bind (sat_true _)
          exact fun _ _ => testfsWriteDirent_tight _ intact dir room place
      | some d =>
          dsimp only
          apply Sat.ite
          · exact fun _ => .refl s
          · exact fun _ => testfsWriteDirent_tight _ intact dir room place

theorem testfsCreateEmptyDir_tight (parent : Nat) (intact : Intact s) (dir : DirOk s n [])
    (empty : s.slots n = fun _ => 0) :
    Sat (testfsCreateEmptyDir s parent n) (fun r => Tightens s r.2)
      (fun _ => True) := by
  unfold testfsCreateEmptyDir
  cases read : s.inode n with
  | error e => trivial
  | ok inode =>
      rw [ok_bind]
      apply Sat.bind (sat_true _)
      intro _ _
      apply Sat.bind ((testfsAddDirent_sat s n dot n [] intact dir dot_noNul).and
        (testfsAddDirent_tight intact dir (by decide)))
      intro r spec
      obtain ⟨outcome, tight⟩ := spec
      obtain ⟨ret, s₁⟩ := r
      change Sat (if ret < 0 then _ else _) _ _
      apply Sat.ite
      · exact fun _ => tight
      · intro nonneg
        have first := outcome.first_block rfl (by decide)
        rw [entryNeed_dot dir empty] at first
        obtain ⟨_, done, _⟩ := first.resolve_left fun full => nonneg full.1
        have intact₁ := done.rewritten.intact
        have dir₁ : DirOk s₁ n [newDirent dot n] := done.dir
        apply Sat.bind ((testfsAddDirent_sat s₁ n dotDot parent _ intact₁ dir₁ dotDot_noNul).and
          (testfsAddDirent_tight intact₁ dir₁ (by decide)))
        intro r spec
        obtain ⟨outcome', tight'⟩ := spec
        obtain ⟨ret', s₂⟩ := r
        change Sat (if ret' < 0 then _ else _) _ _
        have second := outcome'.first_block (dotDot_absent dir.allocated.1)
          (by rw [direntsSize_dot]; decide)
        rw [entryNeed_dotDot dir₁] at second
        obtain ⟨nonneg', done', _⟩ := second.resolve_left
          fun full => Nat.not_lt_zero _ full.2.2.2
        rw [if_neg (Int.not_lt.mpr nonneg')]
        exact tight.trans tight'

end Dirents

section Create

variable {s s₁ : State} {p n : Nat} {name : List Byte} {type : InodeType} {es : List Dirent}

theorem Created.fill_tight (created : Created n type s s₁) (dir : Option Nat) :
    Sat (createContents s₁ dir type n) (fun r => Tightens s₁ r.2) (fun _ => True) := by
  unfold createContents
  apply Sat.ite
  · intro kind
    obtain ⟨none, empty⟩ := created.emptyDir kind
    exact testfsCreateEmptyDir_tight _ created.intact none empty
  · exact fun _ => .refl s₁

theorem createEntry_tight (s : State) (p n : Nat) (name : List Byte) (es : List Dirent)
    (intact : Intact s) (dir : DirOk s p es) (noNul : ∀ b ∈ name, b ≠ 0)
    (room : 8 + (name.length + 1) < 2 ^ 31) :
    Sat (createEntry s (some p) name n) (fun r => Tightens s r.2)
      (fun _ => True) := by
  unfold createEntry
  apply Sat.bind ((testfsAddDirent_sat s p name n es intact dir noNul).and
    (testfsAddDirent_tight intact dir room))
  intro r spec
  obtain ⟨outcome, tight⟩ := spec
  obtain ⟨ret, s'⟩ := r
  change Sat (if ret < 0 then _ else _) _ _
  apply Sat.ite
  · exact fun _ => tight
  · intro nonneg
    cases outcome with
    | refused negative _ _ => exact absurd negative nonneg
    | failed negative _ => exact absurd negative nonneg
    | stranded negative _ _ => exact absurd negative nonneg
    | inserted _ es' done =>
        have intact' := done.rewritten.intact
        apply Sat.bind (testfsSyncInode_sat s' intact'.consistent intact'.table p)
        exact fun s'' spec => tight.trans (spec.2.quiet.tightens intact'.owns)

theorem testfsCreateFileOrDir_tight (s : State) (p : Nat) (type : InodeType) (name : List Byte)
    (es : List Dirent) (intact : Intact s) (dir : DirOk s p es) (noNul : ∀ b ∈ name, b ≠ 0)
    (room : 8 + (name.length + 1) < 2 ^ 31) :
    Sat (testfsCreateFileOrDir s (some p) type name) (fun r => Tightens s r.2)
      (fun _ => True) := by
  unfold testfsCreateFileOrDir
  apply Sat.bind (createLookup_sat s p name es intact dir)
  intro found same
  apply Sat.ite
  · exact fun _ => .refl s
  · intro missing
    have absent : lookupEntry es name = none := by
      cases search : es.find? fun d => d.live && d.named name with
      | none =>
          unfold lookupEntry
          rw [search]
          rfl
      | some d =>
          have live := List.find?_some search
          rw [Bool.and_eq_true] at live
          rw [search] at same
          exact absurd (same ▸ of_decide_eq_true live.1) missing
    apply Sat.bind (testfsCreateInode_sat s type intact).total
    intro r spec
    obtain ⟨ret, n, s₁⟩ := r
    change Sat (if ret < 0 then _ else _) _ _
    cases spec with
    | inl full =>
        obtain ⟨negative, _, same⟩ := full
        change s₁ = s at same
        rw [if_pos negative, same]
        exact .refl s
    | inr made =>
        obtain ⟨zero, created⟩ := made
        change ret = 0 at zero
        change Created n type s s₁ at created
        rw [if_neg (by omega)]
        apply Sat.bind (((created.fill (some p)).and (created.fill_fails (some p))).and
          (created.fill_tight (some p)))
        intro r spec
        obtain ⟨ret₁, s₂⟩ := r
        obtain ⟨⟨filled, ghost₂, _⟩, tight₂⟩ := spec
        change Tightens s₁ s₂ at tight₂
        change Sat (if ret₁ < 0 then _ else _) _ _
        apply Sat.ite
        · intro negative
          apply Sat.bind (testfsRemoveInode_unfailing s₂ n)
          exact fun s₃ same => .of_failed (same.trans (ghost₂ negative))
        · intro nonneg
          have done : Filled n p type s₁ s₂ := (filled.resolve_left fun full => nonneg full.1).2
          have intact₂ := done.rewritten.intact
          have dir₂ := (created.parent done.rewritten dir).2
          apply Sat.bind (((createEntry_fails_ghost s₂ p n name es intact₂ dir₂ noNul room
            absent).and (created.enter_view done.rewritten dir noNul)).and
            (createEntry_tight s₂ p n name es intact₂ dir₂ noNul room))
          intro r spec
          obtain ⟨ret₂, s₃⟩ := r
          obtain ⟨⟨ghost₃, entered⟩, tight₃⟩ := spec
          change Tightens s₂ s₃ at tight₃
          change Sat (if ret₂ < 0 then _ else _) _ _
          apply Sat.ite
          · intro negative
            apply Sat.bind (testfsRemoveInode_unfailing s₃ n)
            exact fun s₄ same => .of_failed (same.trans (ghost₃ negative))
          · intro nonneg₂
            have intact₃ : Intact s₃ := (entered nonneg₂).1
            apply Sat.bind (testfsSyncInode_sat s₃ intact₃.consistent intact₃.table n)
            intro s₄ spec
            have sync := spec.2.quiet
            apply Sat.bind (testfsPutInode_sat s₄ sync.consistent sync.table n)
            intro s₅ spec
            have quiet := sync.trans spec.2.2.2.quiet
            exact created.tightens.trans
              (tight₂.trans (tight₃.trans (quiet.tightens intact₃.owns)))

end Create

theorem testfsRemoveDirent_tight (s : State) (n : Nat) (name : List Byte)
    (dirs : Nat → List Dirent) (intact : Intact s) (dir : DirOk s n (dirs n))
    (entries : ∀ m, s.IsDir m → DirOk s m (dirs m)) :
    Sat (testfsRemoveDirent s n name) (fun r => Tightens s r.2) (fun _ => True) := by
  unfold testfsRemoveDirent
  apply Sat.ite
  · exact fun _ => .refl s
  · intro _
    cases read : s.inode n with
    | error e => trivial
    | ok inode =>
        obtain ⟨_, view, _⟩ := intact.table.of_read read
        have listing := dir.listing
        rw [← view] at listing
        rw [ok_bind]
        apply Sat.bind (listing.first fun d => d.live && d.named name).anyStop
        rintro _ rfl
        cases found : (dirs n).find? fun d => d.live && d.named name with
        | none => exact .refl s
        | some d =>
            obtain ⟨_, after, split⟩ := find_split found
            let before := (dirs n).takeWhile fun e => !(e.live && e.named name)
            have whole : direntsSize (dirs n) =
                direntsSize before + (8 + d.name.length + direntsSize after) := by
              rw [split, direntsSize_append, direntsSize_cons]
            have small := listing.small
            have wf := listing.wf d (by rw [split]; simp)
            apply Sat.bind (testfsRemoveDirentAllowed_sat s d.dInodeNr.toInt.toNat _ intact
              fun held kind => entries _ ⟨held, kind⟩)
            intro r spec
            obtain ⟨ret, s₁⟩ := r
            have quiet : Quiet s s₁ := spec.1.quiet
            change Sat (if ret < 0 then _ else _) _ _
            apply Sat.ite
            · exact fun _ => quiet.tightens intact.owns
            · intro _
              have dir₁ := dir.quiet quiet intact
              have room := wf.freed.small
              have length : d.freed.bytes.length = 8 + d.freed.name.length := Dirent.length_bytes _
              apply Sat.bind (onInode_write_tight s₁ n d.freed.bytes (direntsSize before)
                (quiet.intact intact) dir₁.allocated dir₁.bounded (by omega) (by omega) (by omega))
              intro r tight
              exact (quiet.tightens intact.owns).trans tight

section Commands

variable {s s' : Session} {g : NameMap} {dirs : Nat → List Dirent}

theorem Shown.cmdRm_tight (shown : Shown s g dirs) (args : List Arg) :
    Sat (s.cmdRm args) (fun r => Tightens s.fs r.2.fs) (fun _ => True) := by
  have space := shown.space
  have intact := space.intact
  have dir := space.listed _ shown.ok.dir
  unfold Session.cmdRm
  split
  · rename_i name
    apply Sat.bind ((testfsRemoveDirent_sat s.fs s.curDir name.bytes dirs intact dir
      fun m held kind => space.listed m ⟨held, kind⟩).and
      (testfsRemoveDirent_tight s.fs s.curDir name.bytes dirs intact dir space.listed))
    intro r spec
    obtain ⟨outcome, tight⟩ := spec
    obtain ⟨inodeNr, fs₁⟩ := r
    change Sat (if inodeNr < 0 then _ else _) _ _
    apply Sat.ite
    · exact fun _ => tight
    · intro nonneg
      have unlinked : Unlinked s.curDir name.bytes dirs s.fs inodeNr fs₁ :=
        (outcome.resolve_left fun refused => nonneg refused.1).2
      have step := unlinked.rewritten
      have intact₁ := step.intact
      have allocated := (step.inodes _).mpr (space.unlinked_allocated shown.ok.dir unlinked)
      apply Sat.bind (testfsGetInode_sat fs₁ intact₁.consistent intact₁.table inodeNr.toNat)
      intro fs₂ spec
      have got := spec.2.2.quiet
      apply Sat.bind (testfsRemoveInode_sat fs₂ inodeNr.toNat (got.intact intact₁)
        ((got.inodeAllocated_iff _).mpr allocated))
      intro fs₃ gone
      have intact₃ := gone.intact
      apply Sat.bind (testfsSyncInode_sat fs₃ intact₃.consistent intact₃.table s.curDir)
      intro fs₄ spec
      exact tight.trans ((got.tightens intact₁.owns).trans
        (gone.tightens.trans (spec.2.quiet.tightens intact₃.owns)))
  · exact .refl s.fs

/-- A write to a file, wherever it begins. -/
theorem onInode_write_tightens (fs : State) (n start : Nat) (buf : List Byte) (intact : Intact fs)
    (held : fs.sb.InodeAllocated n) (upper : (fs.view n).size ≤ maxFileSize)
    (positive : 0 < buf.length) (small : buf.length < 2 ^ 31) :
    Sat (fs.onInode n fun sb inode => testfsWriteData sb inode buf start)
      (fun r => Tightens fs r.2) (fun _ => True) := by
  have bounded := upper
  rw [maxFileSize_eq] at bounded
  by_cases inside : start / 8192 < 4196362
  · exact onInode_write_tight fs n buf start intact held (by omega) positive small inside
  · apply (onInode_fileWritten fs n start buf intact held upper positive small).weaken
    intro r written unfailed
    have outside := (written unfailed).2
    unfold FileWritten at outside
    rw [maxFileSize_eq, if_neg (by omega), if_neg (by omega)] at outside
    exact outside.2.tightens intact.owns unfailed

theorem Shown.cmdWrite_tight (shown : Shown s g dirs) (args : List Arg)
    (small : ∀ arg ∈ args, arg.Small) :
    Sat (s.cmdWrite args) (fun r => Tightens s.fs r.2.fs) (fun _ => True) := by
  have intact := shown.space.intact
  unfold Session.cmdWrite
  split
  · rename_i filename offset buf
    have short : 8 + (buf.bytes.length + 1) < 2 ^ 31 := small buf (by simp)
    split
    · exact .refl s.fs
    · rename_i start _
      apply Sat.ite
      · exact fun _ => .refl s.fs
      · intro nonneg
        apply Sat.bind (shown.getFileInode filename.bytes)
        intro r found
        obtain ⟨ret, n, fs⟩ := r
        change Sat (if ret < 0 then _ else _) _ _
        cases found with
        | absent _ code same =>
            change ret = -eNOENT at code
            change fs = s.fs at same
            rw [if_pos (by rw [code]; decide), same]
            exact .refl s.fs
        | dir _ _ _ code quiet =>
            change ret = -eISDIR at code
            rw [if_pos (by rw [code]; decide)]
            exact quiet.tightens intact.owns
        | file m _ held isFile code number quiet =>
            change ret = 0 at code
            change n = m at number
            change Quiet s.fs fs at quiet
            subst code number
            have intact₁ := quiet.intact intact
            have held₁ := (quiet.inodeAllocated_iff n).mpr held
            have ok := (shown.files n held isFile).untouched (quiet.untouched intact.owns held)
            have number : ((start.toNat : Nat) : Int) = start :=
              Int.toNat_of_nonneg (Int.not_lt.mp nonneg)
            rw [if_neg (Int.lt_irrefl 0), ← number]
            have positive := List.length_pos_of_ne_nil buf.nonempty
            have wrote := onInode_fileWritten fs n start.toNat buf.bytes intact₁ held₁ ok.upper
              positive (by omega)
            have write := onInode_write_tightens fs n start.toNat buf.bytes intact₁ held₁ ok.upper
              positive (by omega)
            apply Sat.bind (wrote.and write)
            intro r spec
            obtain ⟨ret₁, fs₁⟩ := r
            obtain ⟨written, tight⟩ := spec
            change Tightens fs fs₁ at tight
            change Sat (testfsSyncInode fs₁ n >>= _) _ _
            cases flag : fs₁.sb.allocFailed with
            | true =>
                apply Sat.bind (testfsSyncInode_unfailing fs₁ n)
                intro fs₂ same
                apply Sat.bind (testfsPutInode_unfailing fs₂ n)
                exact fun fs₃ same' => .of_failed (same'.trans (same.trans flag))
            | false =>
                have intact₂ : Intact fs₁ := (written flag).1.intact
                apply Sat.bind (testfsSyncInode_sat fs₁ intact₂.consistent intact₂.table n)
                intro fs₂ spec
                have sync := spec.2.quiet
                apply Sat.bind (testfsPutInode_sat fs₂ sync.consistent sync.table n)
                intro fs₃ spec
                have rest := sync.trans spec.2.2.2.quiet
                exact (quiet.tightens intact.owns).trans
                  (tight.trans (rest.tightens intact₂.owns))
  · exact .refl s.fs

theorem Shown.cmdCreateOrMkdir_tight (shown : Shown s g dirs) (args : List Arg) (type : InodeType)
    (small : ∀ arg ∈ args, arg.Small) :
    Sat (s.cmdCreateOrMkdir args type) (fun r => Tightens s.fs r.2.fs) (fun _ => True) := by
  unfold Session.cmdCreateOrMkdir
  split
  · rename_i name
    apply Sat.bind (testfsCreateFileOrDir_tight s.fs s.curDir type name.bytes _ shown.space.intact
      (shown.space.listed _ shown.ok.dir) name.noNul (small name List.mem_cons_self))
    exact fun _ tight => tight
  · exact .refl s.fs

theorem Shown.handleCommand_tight (shown : Shown s g dirs) (c : Command) (small : c.Small) :
    Sat (s.handleCommand c) (fun r => Tightens s.fs r.2.fs) (fun _ => True) := by
  have consistent := shown.space.intact.consistent
  have table := shown.space.intact.table
  have owns := shown.space.intact.owns
  cases c with
  | cd args => exact (cmdCd_quiet consistent table args).weaken fun _ quiet => quiet.tightens owns
  | pwd args => exact (cmdPwd_quiet consistent table args).weaken fun _ quiet => quiet.tightens owns
  | ls args =>
      exact (cmdLsInternal_quiet consistent table args false).weaken
        fun _ quiet => quiet.tightens owns
  | lsr args =>
      exact (cmdLsInternal_quiet consistent table args true).weaken
        fun _ quiet => quiet.tightens owns
  | create args => exact shown.cmdCreateOrMkdir_tight args .file small
  | mkdir args => exact shown.cmdCreateOrMkdir_tight args .dir small
  | rm args => exact shown.cmdRm_tight args
  | stat args =>
      exact (cmdStat_quiet consistent table args).weaken fun _ quiet => quiet.tightens owns
  | read args =>
      exact (cmdRead_quiet consistent table args).weaken fun _ quiet => quiet.tightens owns
  | write args => exact shown.cmdWrite_tight args small
  | fsstat args =>
      exact (cmdFsstat_quiet consistent table args).weaken fun _ quiet => quiet.tightens owns

end Commands

end Ece344Lab.Fs

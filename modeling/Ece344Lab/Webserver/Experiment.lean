import Ece344Lab.Webserver.Fileset
import Ece344Lab.Webserver.RoundTrip

set_option autoImplicit false

/- An experiment: a set of files is made, a client reads the index of the set, and asks for the
files. -/
namespace Ece344Lab.Webserver

open Bytes (text decimal)
open Line Outcome Scan

def MadeFile.path (file : MadeFile) : Option (List Byte) :=
  if file.filename.head? = some 47#8 then none else some (text "./" ++ file.filename)

/-- The files below the directory of the server when the file has been written. -/
def MadeFile.written (files : Files) (file : MadeFile) : Files :=
  match file.path with
  | none => files
  | some path => Function.update files path (some ⟨true, true, true, file.content⟩)

def onDisk (files : Files) (made : List MadeFile) : Files := made.foldl MadeFile.written files

/-- What a client reads about a file in the index. -/
def MadeFile.info (file : MadeFile) : Fileinfo := ⟨file.filename, file.csum, file.fileSz⟩

section Made

variable {dir : List Byte} {nrFiles : Int} {fileSz : Nat → Nat} {random : Nat → Nat → Nat}
  {made : List MadeFile} {index : List Byte}

/-- What `fileset.c` leaves. -/
structure Made (dir : List Byte) (nrFiles : Int) (fileSz : Nat → Nat) (random : Nat → Nat → Nat)
    (made : List MadeFile) (index : List Byte) : Prop where
  bounds : 1 ≤ nrFiles ∧ nrFiles ≤ 99999
  short : dir.length ≤ 1000
  files : made = (List.range nrFiles.toNat).map (makeFile dir fileSz random)
  lines : index = decimal nrFiles ++ newline :: ((made.map MadeFile.info).map Fileinfo.line).flatten

theorem filesetMain_made (ran : filesetMain dir nrFiles fileSz random = .ok (made, index)) :
    Made dir nrFiles fileSz random made index := by
  unfold filesetMain at ran
  split_ifs at ran with count long
  obtain ⟨rfl, rfl⟩ := Prod.mk.inj (Except.ok.inj ran)
  refine ⟨by omega, by omega, rfl, ?_⟩
  rw [List.map_map (f := MadeFile.info)]
  rfl

theorem Made.length (done : Made dir nrFiles fileSz random made index) :
    (made.length : Int) = nrFiles := by
  have bounds := done.bounds
  rw [done.files, List.length_map, List.length_range]
  omega

theorem Made.file (done : Made dir nrFiles fileSz random made index) {file : MadeFile}
    (member : file ∈ made) :
    ∃ i < 10 ^ 5, file.filename = dir ++ numbered i ∧ file.fileSz = fileSz i ∧
      file.content.length = file.fileSz ∧ file.csum = checksum file.content ∧
      newline ∉ file.content := by
  rw [done.files] at member
  obtain ⟨i, inside, rfl⟩ := List.mem_map.mp member
  have bounds := done.bounds
  have small := List.mem_range.mp inside
  exact ⟨i, by omega, rfl, rfl, fillLoop_length (fileSz i), fillLoop_checksum (fileSz i),
    fillLoop_line (fileSz i)⟩

theorem Made.nodup (done : Made dir nrFiles fileSz random made index) :
    (made.map MadeFile.filename).Nodup := by
  rw [done.files, List.map_map]
  exact List.nodup_range.map numbered_injective

theorem Made.printed (done : Made dir nrFiles fileSz random made index)
    (plain : ∀ b ∈ dir, isSpace b = false ∧ b ≠ 0) (sizes : ∀ i, fileSz i < 2 ^ 31) :
    ∀ fi ∈ made.map MadeFile.info, fi.Printed := by
  intro fi member
  obtain ⟨file, inside, rfl⟩ := List.mem_map.mp member
  obtain ⟨i, small, name, size, _, csum, _⟩ := done.file inside
  have length := length_numbered small
  have few := sizes i
  have short := done.short
  refine ⟨⟨?_, ?_⟩, ?_, ?_, ?_⟩
  · change file.filename ≠ []
    rw [name]
    exact List.append_ne_nil_of_right_ne_nil _ (List.ne_nil_of_length_pos (by omega))
  · change ∀ b ∈ file.filename, _
    rw [name]
    intro b inside
    rcases List.mem_append.mp inside with front | back
    · exact plain b front
    · exact numbered_plain back
  · change file.filename.length + 24 < maxLine
    rw [name, List.length_append, length]
    exact Nat.lt_of_le_of_lt (Nat.add_le_add_right (Nat.add_le_add_right short 6) 24) (by decide)
  · change file.csum < 2 ^ 32
    rw [csum]
    exact Nat.mod_lt _ (by decide)
  · change (0 : Int) ≤ file.fileSz ∧ (file.fileSz : Int) < 2 ^ 31
    omega

end Made

/-- What a client reads from the index. -/
theorem Made.read {dir : List Byte} {nrFiles : Int} {fileSz : Nat → Nat} {random : Nat → Nat → Nat}
    {made : List MadeFile} {index : List Byte} (done : Made dir nrFiles fileSz random made index)
    (plain : ∀ b ∈ dir, isSpace b = false ∧ b ≠ 0) (sizes : ∀ i, fileSz i < 2 ^ 31) {rp : Rio}
    (carries : rp.Carries index) (memory : Nat → Fileinfo) {buf : List Byte}
    (room : buf.length = maxLine) :
    ∃ calls, initFileset memory calls rp buf = .ok (made.map MadeFile.info) := by
  have count : (made.map MadeFile.info).length = made.length := List.length_map _
  have length := done.length
  have bounds := done.bounds
  have some : made.map MadeFile.info ≠ [] := by
    apply List.ne_nil_of_length_pos
    omega
  have few : (made.map MadeFile.info).length < 2 ^ 31 := by omega
  rw [done.lines, ← length, ← count] at carries
  exact ⟨_, initFileset_eq (done.printed plain sizes) some few carries room⟩

/-- A client reads from the index the names of all files, which are different, with their checksums
and their lengths. -/
theorem fileset_is_read {dir : List Byte} {nrFiles : Int} {fileSz : Nat → Nat}
    {random : Nat → Nat → Nat}
    {made : List MadeFile} {index : List Byte}
    (ran : filesetMain dir nrFiles fileSz random = .ok (made, index))
    (plain : ∀ b ∈ dir, isSpace b = false ∧ b ≠ 0) (sizes : ∀ i, fileSz i < 2 ^ 31) :
    (made.length : Int) = nrFiles ∧ (made.map MadeFile.filename).Nodup ∧
      ∀ rp : Rio, rp.Carries index → ∀ memory buf, buf.length = maxLine →
        ∃ calls, initFileset memory calls rp buf =
          .ok (made.map fun file =>
            ⟨file.filename, checksum file.content, file.content.length⟩) := by
  have done := filesetMain_made ran
  refine ⟨done.length, done.nodup, ?_⟩
  intro rp carries memory buf room
  have infos : (made.map fun file => ⟨file.filename, checksum file.content, file.content.length⟩) =
      made.map MadeFile.info := by
    apply List.map_congr_left
    intro file member
    obtain ⟨_, _, _, _, size, csum, _⟩ := done.file member
    unfold MadeFile.info
    rw [size, csum]
  rw [infos]
  exact done.read plain sizes carries memory room

section TwoSizes

/-- A set of two files, the second as long as the buffer of a client. -/
def twoSizes (i : Nat) : Nat := if i = 0 then 3 else maxBuf

def twoMade : List MadeFile :=
  [makeFile (text "d") twoSizes (· + ·) 0, makeFile (text "d") twoSizes (· + ·) 1]

theorem twoMade_ran :
    ∃ index, filesetMain (text "d") 2 twoSizes (· + ·) = .ok (twoMade, index) := ⟨_, rfl⟩

theorem twoSizes_small (i : Nat) : twoSizes i < 2 ^ 31 := by
  unfold twoSizes
  split_ifs <;> decide

theorem fileset_is_read_two : ∃ index,
    filesetMain (text "d") 2 twoSizes (· + ·) = .ok (twoMade, index) ∧ (twoMade.length : Int) = 2 ∧
      (twoMade.map MadeFile.filename).Nodup ∧
      ∀ rp : Rio, rp.Carries index → ∀ memory buf, buf.length = maxLine →
        ∃ calls, initFileset memory calls rp buf =
          .ok (twoMade.map fun file =>
            ⟨file.filename, checksum file.content, file.content.length⟩) := by
  obtain ⟨index, ran⟩ := twoMade_ran
  exact ⟨index, ran, fileset_is_read ran (by decide) twoSizes_small⟩

end TwoSizes

section Disk

variable {files : Files} {made : List MadeFile}

/-- Other files are left alone. -/
theorem MadeFile.written_other {file : MadeFile} {path : List Byte}
    (other : file.path ≠ some path) :
    file.written files path = files path := by
  unfold MadeFile.written
  cases at' : file.path with
  | none => rfl
  | some path' =>
      rw [at'] at other
      exact Function.update_of_ne (fun same => other (congrArg some same.symm)) _ _

theorem MadeFile.written_path {file : MadeFile} {path : List Byte} (own : file.path = some path) :
    file.written files path = some ⟨true, true, true, file.content⟩ := by
  unfold MadeFile.written
  rw [own]
  exact Function.update_self path _ files

theorem onDisk_other {path : List Byte} (other : ∀ file ∈ made, file.path ≠ some path) :
    onDisk files made path = files path := by
  induction made generalizing files with
  | nil => rfl
  | cons file made ih =>
      have later : onDisk (file.written files) made path = file.written files path :=
        ih fun file' member => other file' (List.mem_cons_of_mem _ member)
      exact later.trans (MadeFile.written_other (other file List.mem_cons_self))

/-- The files of the set are found when their names are different. -/
theorem onDisk_found (different : (made.map MadeFile.filename).Nodup) {file : MadeFile}
    (member : file ∈ made) (relative : file.filename.head? ≠ some 47#8) :
    onDisk files made (text "./" ++ file.filename) = some ⟨true, true, true, file.content⟩ := by
  have path : file.path = some (text "./" ++ file.filename) := if_neg relative
  induction made generalizing files with
  | nil => exact absurd member List.not_mem_nil
  | cons first made ih =>
      rw [List.map_cons, List.nodup_cons] at different
      rcases List.mem_cons.mp member with rfl | later
      · have other : ∀ file' ∈ made, file'.path ≠ some (text "./" ++ file.filename) := by
          intro file' inside same
          unfold MadeFile.path at same
          split_ifs at same
          have equal := List.append_cancel_left (Option.some.inj same)
          exact different.1 (equal ▸ List.mem_map_of_mem inside)
        exact (onDisk_other other).trans (MadeFile.written_path path)
      · exact ih different.2 later

/-- Two dots that end before bytes without a dot. -/
theorem dots_before {front back : List Byte} (plain : 46#8 ∉ back)
    (dots : text ".." <:+: front ++ back) :
    text ".." <:+: front := by
  obtain ⟨before, after, split⟩ := dots
  have two : text ".." = [46#8, 46#8] := rfl
  rw [two, List.append_assoc] at split
  rcases List.append_eq_append_iff.mp split with ⟨middle, whole, rest⟩ | ⟨middle, _, rest⟩
  · rcases middle with _ | ⟨b, _ | ⟨b', middle⟩⟩
    · rw [List.nil_append] at rest
      exact absurd (rest ▸ List.mem_cons_self) plain
    · have last : 46#8 :: after = back := (List.cons.inj rest).2
      exact absurd (last ▸ List.mem_cons_self) plain
    · obtain ⟨first, rest⟩ := List.cons.inj rest
      obtain ⟨second, _⟩ := List.cons.inj rest
      refine ⟨before, middle, ?_⟩
      rw [whole, two, ← first, ← second, List.append_assoc]
      rfl
  · have inside : 46#8 ∈ back := by
      rw [rest]
      exact List.mem_append_right middle List.mem_cons_self
    exact absurd inside plain

/-- What `strrchr` finds is the end of the string. -/
theorem strrchr_suffix {c : Byte} {str found : List Byte} (result : strrchr c str = some found) :
    found <:+ str := by
  induction str with
  | nil => cases result
  | cons b rest ih =>
      unfold strrchr at result
      split at result
      · next found' inner =>
          rw [Option.some.inj result] at inner
          exact (ih inner).trans (List.suffix_cons b rest)
      · split_ifs at result
        rw [← Option.some.inj result]

theorem numbered_dotless (i : Nat) : 46#8 ∉ numbered i := by
  unfold numbered
  simp only [List.mem_append]
  rintro (front | zero | digit)
  · exact absurd front (by decide)
  · exact absurd (List.eq_of_mem_replicate zero) (by decide)
  · rw [decimal_natCast] at digit
    exact absurd (isDigit_of_mem digit) (by decide)

/-- No name of the set ends like a C source or a header. -/
theorem numbered_plain_end {i : Nat} (small : i < 10 ^ 5) (front : List Byte) {c : Byte} :
    strrchr 46#8 (front ++ numbered i) ≠ some [46#8, c] := by
  intro result
  have length : [46#8, c].length ≤ (numbered i).length := by
    rw [length_numbered small, List.length_cons, List.length_singleton]
    omega
  have ends :=
    List.suffix_of_suffix_length_le (strrchr_suffix result) (List.suffix_append front _) length
  exact numbered_dotless i (ends.subset List.mem_cons_self)

end Disk

section Server

variable {dir : List Byte} {nrFiles : Int} {fileSz : Nat → Nat} {random : Nat → Nat → Nat}
  {made : List MadeFile} {index : List Byte}

theorem Made.served (done : Made dir nrFiles fileSz random made index) (nonempty : dir ≠ [])
    (relative : dir.head? ≠ some 47#8) (inside : ¬ text ".." <:+: text "./" ++ dir)
    (sizes : ∀ i, fileSz i < 2 ^ 31) (files : Files) {file : MadeFile} (member : file ∈ made) :
    Served (onDisk files made) file.filename ⟨true, true, true, file.content⟩ := by
  obtain ⟨i, small, name, size, length, _, _⟩ := done.file member
  have few := sizes i
  have start : file.filename.head? ≠ some 47#8 := by
    rw [name, List.head?_append_of_ne_nil _ nonempty]
    exact relative
  have whole : text "./" ++ file.filename = (text "./" ++ dir) ++ numbered i := by
    rw [name, List.append_assoc]
  refine ⟨onDisk_found done.nodup member start, ?_, ?_, rfl, rfl, rfl, ?_⟩
  · rw [whole]
    exact fun dots => inside (dots_before (numbered_dotless i) dots)
  · rw [whole]
    rintro (source | header)
    · exact numbered_plain_end small _ source
    · exact numbered_plain_end small _ header
  · change file.content.length < 2 ^ 31
    omega

end Server

/-- An experiment: what a client makes of the response for a file that it has found in the index. -/
theorem fileset_is_served {dir : List Byte} {nrFiles : Int} {fileSz : Nat → Nat}
    {random : Nat → Nat → Nat} {made : List MadeFile} {index : List Byte}
    (ran : filesetMain dir nrFiles fileSz random = .ok (made, index))
    (plain : ∀ b ∈ dir, isSpace b = false ∧ b ≠ 0) (sizes : ∀ i, fileSz i < 2 ^ 31)
    (nonempty : dir ≠ []) (relative : dir.head? ≠ some 47#8)
    (inside : ¬ text ".." <:+: text "./" ++ dir) {n : Nat} {files : Files} {capacity : Int}
    {s : ServerState n} (run : s.Run {onDisk files made} capacity ServerState.Young) :
    ∀ rp : Rio, rp.Carries index → ∀ memory buf, buf.length = maxLine →
      ∃ calls fileset, initFileset memory calls rp buf = .ok fileset ∧ ∀ fi ∈ fileset,
        ∀ host request, clientSend host fi.name = .ok request →
        ∀ response, (⟨text "GET", fi.name⟩, response) ∈ s.responses →
        ∀ rp : Rio, rp.Carries response → ∀ print buf, buf.length = maxBuf →
          ((∃ headers body out,
              clientPrint print headers body rp buf fi.csum fi.len = .ok (true, out)) ↔
            fi.len < maxBuf) ∧
          (maxBuf ≤ fi.len → ∃ headers body,
            clientPrint print headers body rp buf fi.csum fi.len = .error .undefined) := by
  have done := filesetMain_made ran
  intro rp carries memory buf room
  obtain ⟨calls, read⟩ := done.read plain sizes carries memory room
  refine ⟨calls, _, read, ?_⟩
  intro fi found host request sent response member rp carries print buf room
  obtain ⟨file, made', rfl⟩ := List.mem_map.mp found
  obtain ⟨i, _, _, _, length, csum, oneLine⟩ := done.file made'
  have served := done.served nonempty relative inside sizes files made'
  have short : (file.content.length : Int) < maxBuf ↔ Short newline maxBuf file.content := by
    rw [short_iff_of_not_mem oneLine, Nat.cast_lt]
  rw [show response = _ from run.holds_file sent served member] at carries
  have printed : ∀ r, _ ↔ _ ∧ r = (true, shown print _ _) :=
    clientPrint_iff served.small carries room
  unfold MadeFile.info
  dsimp only
  rw [csum, ← length]
  constructor
  · rw [short]
    constructor
    · rintro ⟨headers, body, out, run⟩
      exact ((printed (true, out)).mp ⟨headers, body, run⟩).1
    · intro fits
      obtain ⟨headers, body, run⟩ := (printed _).mpr ⟨fits, rfl⟩
      exact ⟨headers, body, _, run⟩
  · intro long
    have tooLong : ¬ Short newline maxBuf file.content :=
      fun fits => absurd (short.mpr fits) (not_lt.mpr long)
    exact clientPrint_overrun print served.small carries room tooLong _ _

/-- Two workers hand out the files of a set. -/
theorem fileset_is_served_two : ∃ index, ∃ s : ServerState 2,
    filesetMain (text "d") 2 twoSizes (· + ·) = .ok (twoMade, index) ∧ s.responses.length = 2 ∧
      ∀ rp : Rio, rp.Carries index → ∀ memory buf, buf.length = maxLine →
        ∃ calls fileset, initFileset memory calls rp buf = .ok fileset ∧ ∀ fi ∈ fileset,
          ∀ host request, clientSend host fi.name = .ok request →
          ∀ response, (⟨text "GET", fi.name⟩, response) ∈ s.responses →
          ∀ rp : Rio, rp.Carries response → ∀ print buf, buf.length = maxBuf →
            ((∃ headers body out,
                clientPrint print headers body rp buf fi.csum fi.len = .ok (true, out)) ↔
              fi.len < maxBuf) ∧
            (maxBuf ≤ fi.len → ∃ headers body,
              clientPrint print headers body rp buf fi.csum fi.len = .error .undefined) := by
  obtain ⟨index, ran⟩ := twoMade_ran
  have done := filesetMain_made ran
  have plain : ∀ b ∈ text "d", isSpace b = false ∧ b ≠ 0 := by decide
  have inside : ¬ text ".." <:+: text "./" ++ text "d" := by decide
  have served : ∀ file ∈ twoMade, Served (onDisk (fun _ => none) twoMade) file.filename _ :=
    fun file => done.served (List.cons_ne_nil _ _) (by decide) inside twoSizes_small _
  have one := served _ List.mem_cons_self
  have two := served _ (List.mem_cons_of_mem _ List.mem_cons_self)
  have init : requestInit ⟨text "GET", text "d" ++ numbered 0⟩ =
      .ok ([], some (.unread (text "./" ++ (text "d" ++ numbered 0)))) := rfl
  have init' : requestInit ⟨text "GET", text "d" ++ numbered 1⟩ =
      .ok ([], some (.unread (text "./" ++ (text "d" ++ numbered 1)))) := rfl
  have started : ServerState.Run {onDisk (fun _ => none) twoMade} 10 ServerState.Young _ :=
    (ServerState.Run.initial.step (.start (i := (0 : Fin 2)) rfl init) rfl).step
      (.start (i := 1) rfl init') rfl
  have missed :=
    (started.step (.miss (i := 0) rfl rfl rfl) rfl).step (.miss (i := 1) rfl rfl rfl) rfl
  have read :=
    (missed.step (.read (i := 0) rfl (Looks.still_among _ _) one.reads (by decide)) rfl).step
    (.read (i := 1) rfl (Looks.still_among _ _) two.reads (by decide)) rfl
  have sent := (read.step (.sendLoaded (i := 0) rfl) rfl).step (.sendLoaded (i := 1) rfl) rfl
  exact ⟨index, _, ran, rfl,
    fileset_is_served ran plain twoSizes_small (List.cons_ne_nil _ _) (by decide) inside sent⟩

end Ece344Lab.Webserver

import Mathlib.Data.List.Infix
import Ece344Lab.Webserver.Cache

set_option autoImplicit false

/- `request.c`: what is read from a request, and the bytes that are sent for it. -/
namespace Ece344Lab.Webserver

open Bytes Outcome

abbrev maxLine : Nat := 8192
abbrev maxBuf : Nat := 8192

/-- The sum of the bytes in an `unsigned int`. -/
def checksum (bytes : List Byte) : Nat := (bytes.map BitVec.toNat).sum % 2 ^ 32

/-- The words that `sscanf` finds in the first line of a request; the header lines behind it are
discarded. -/
structure HttpRequest where
  method : List Byte
  uri : List Byte
  deriving DecidableEq

/-- What `stat` and `open` say of a file, and its contents. -/
structure File where
  isReg : Bool
  isReadable : Bool
  opens : Bool
  content : List Byte

/-- The files below the directory of the server. -/
abbrev Files := List Byte → Option File

/-- `request_error`: the bytes sent. The body is put together in a buffer of `maxBuf` bytes. -/
def requestError (cause errnum shortmsg longmsg : List Byte) : Except Fault (List Byte) :=
  let body := text "<html><title>OS Web Server Error</title>" ++
    text "<body bgcolor=fffff>\r\n" ++
    text "<p>" ++ errnum ++ text ": " ++ shortmsg ++ text "</p>\r\n" ++
    text "<p>" ++ longmsg ++ text ": " ++ cause ++ text "</p>\r\n" ++
    text "</body></html>\r\n"
  if maxBuf ≤ body.length then .error .undefined
  else
    .ok (text "HTTP/1.0 " ++ errnum ++ text " " ++ shortmsg ++ text "\r\n" ++
      text "Content-Type: text/html\r\n" ++
      text "Content-Length: " ++ decimal body.length ++ text "\r\n" ++
      text "Content-Csum: " ++ decimal (checksum body) ++ text "\r\n\r\n" ++ body)

/-- A character as `strcasecmp` compares it. -/
def lower (c : Byte) : Byte := if 65#8 ≤ c ∧ c ≤ 90#8 then c + 32#8 else c

/-- `request_parse_URI`: at most `max - 1` characters are kept. -/
def requestParseURI (uri : List Byte) (max : Nat) : List Byte := (text "./" ++ uri).take (max - 1)

/-- `request_init`: the bytes sent, and the data unless `NULL` is returned. -/
def requestInit (rq : HttpRequest) : Except Fault (List Byte × Option FileData) :=
  if rq.method.map lower ≠ (text "GET").map lower then do
    let sent ← requestError rq.method (text "501") (text "Not Implemented")
      (text "OS Web Server does not implement this method")
    .ok (sent, none)
  else .ok ([], some ⟨requestParseURI rq.uri maxLine, [], 0⟩)

/-- `strrchr`: the rest of a string from the last `c` on. -/
def strrchr (c : Byte) : List Byte → Option (List Byte)
  | [] => none
  | b :: rest =>
      match strrchr c rest with
      | some found => some found
      | none => if b = c then some (b :: rest) else none

/-- An `off_t` stored in an `int`. -/
def toInt (n : Nat) : Int := (n : Int).bmod (2 ^ 32)

/-- `rio_read`: the bytes that it puts into the buffer, as far as it comes with some calls of
`read`. Each call finds some bytes in the file and gives at least one of those that are left, and at
most some number more. -/
def rioRead (nleft : Nat) (done : List Byte) : List (List Byte × Nat) → Except Fault (List Byte)
  | [] => if 0 < nleft then .error .diverges else .ok done
  | (content, more) :: reads =>
      if 0 < nleft then
        let nread := (content.drop done.length).take (min (more + 1) nleft)
        -- the end of the file
        if nread = [] then .ok done
        else rioRead (nleft - nread.length) (done ++ nread) reads
      else .ok done

/-- What `request_readfile` comes upon when the files change meanwhile: the files when it calls
`stat` and when it calls `open`, what each `read` finds in the file, and what memory from `Malloc`
holds. -/
structure Looks where
  stat : Files
  opened : Files
  reads : List (List Byte × Nat)
  memory : Nat → Byte

def Looks.buffer (looks : Looks) (size : Nat) (bytes : List Byte) : List Byte :=
  bytes ++ (List.range (size - bytes.length)).map fun i => looks.memory (bytes.length + i)

/-- `request_readfile`: what is returned, the bytes sent, and the data. -/
def requestReadfile (looks : Looks) (data : FileData) :
    Except Fault (Int × List Byte × FileData) :=
  let refuse (errnum shortmsg longmsg : String) : Except Fault (Int × List Byte × FileData) := do
    let sent ← requestError data.fileName (text errnum) (text shortmsg) (text longmsg)
    .ok (0, sent, data)
  if data.fileName.head? = some 47#8 then
    refuse "404" "Not found" "OS Web Server doesn't serve files with absolute paths"
  else if text ".." <:+: data.fileName then
    refuse "404" "Not found" "OS Web Server doesn't serve files with .. in the path"
  else if strrchr 46#8 data.fileName = some (text ".c") ∨
      strrchr 46#8 data.fileName = some (text ".h") then
    refuse "404" "Not found" "OS Web Server doesn't serve C or header files "
  else
    match looks.stat data.fileName with
    | none => refuse "404" "Not found" "OS Web Server could not find this file"
    | some file =>
        if ¬ file.isReg ∨ ¬ file.isReadable then
          refuse "403" "Forbidden" "OS Web Server could not read this file"
        else
          let fileSize := toInt file.content.length
          if fileSize ≠ 0 then
            -- `Malloc` gives up on a negative number, which is a very large `size_t`
            if ¬ (looks.opened data.fileName).any File.opens ∨ fileSize < 0 then .error .exits
            else do
              let bytes ← rioRead fileSize.toNat [] looks.reads
              .ok (1, [], { data with
                fileBuf := looks.buffer fileSize.toNat bytes
                fileSize := fileSize })
          else .ok (1, [], { data with fileSize := fileSize })

/-- What is come upon when the files do not change and `read` gives all it is asked for. -/
def Looks.still (files : Files) (name : List Byte) : Looks where
  stat := files
  opened := files
  reads := (files name).toList.map fun file => (file.content, file.content.length)
  memory := fun _ => 0

/-- All looks at a file are at some of the files among `among`. -/
structure Looks.Among (looks : Looks) (among : Set Files) (name : List Byte) : Prop where
  stat : looks.stat ∈ among
  opened : looks.opened ∈ among
  reads : ∀ r ∈ looks.reads, ∃ files ∈ among, ∃ file, files name = some file ∧ r.1 = file.content

theorem Looks.still_among (files : Files) (name : List Byte) :
    (Looks.still files name).Among {files} name := by
  refine ⟨rfl, rfl, fun r member => ?_⟩
  obtain ⟨file, there, rfl⟩ := List.mem_map.mp member
  exact ⟨files, rfl, file, Option.mem_toList.mp there, rfl⟩

section Read

variable {nleft : Nat} {done bytes : List Byte} {reads : List (List Byte × Nat)}

/-- What the buffer holds when `rio_read` is left: each byte stood in its place when some `read` saw
the file, and with fewer than asked for some `read` has come to the end of the file. -/
structure ReadFrom (nleft : Nat) (done : List Byte) (reads : List (List Byte × Nat))
    (bytes : List Byte) : Prop where
  front : done <+: bytes
  length : bytes.length ≤ done.length + nleft
  found : ∀ p, done.length ≤ p → p < bytes.length → ∃ r ∈ reads, r.1[p]? = bytes[p]?
  short : bytes.length < done.length + nleft → ∃ r ∈ reads, r.1.length ≤ bytes.length

/-- What one `read` gives stands in the file at the same place. -/
theorem getElem?_read {content : List Byte} {start most p : Nat}
    (given : (content.drop start).take most = bytes) (lower : start ≤ p)
    (upper : p < start + bytes.length) : content[p]? = bytes[p - start]? := by
  have few : p - start < most := by
    rw [← given, List.length_take] at upper
    omega
  rw [← given, List.getElem?_take_of_lt few, List.getElem?_drop, Nat.add_sub_cancel' lower]

theorem rioRead_from (reads : List (List Byte × Nat)) : ∀ (nleft : Nat) (done : List Byte),
    rioRead nleft done reads = .ok bytes → ReadFrom nleft done reads bytes := by
  induction reads with
  | nil =>
      intro nleft done run
      unfold rioRead at run
      split_ifs at run with some
      obtain rfl := Except.ok.inj run
      exact ⟨List.prefix_refl _, by omega, fun p lower upper => by omega, fun few => by omega⟩
  | cons r reads ih =>
      intro nleft done run
      unfold rioRead at run
      dsimp only at run
      split_ifs at run with some ended
      · obtain rfl := Except.ok.inj run
        have most : 0 < min (r.2 + 1) nleft := by omega
        refine ⟨List.prefix_refl _, by omega, fun p lower upper => by omega,
          fun _ => ⟨r, List.mem_cons_self, ?_⟩⟩
        rcases List.take_eq_nil_iff.mp ended with zero | past
        · omega
        · exact List.drop_eq_nil_iff.mp past
      · generalize given : (r.1.drop done.length).take (min (r.2 + 1) nleft) = nread at run ended
        have few : nread.length ≤ nleft := by
          rw [← given, List.length_take]
          omega
        have spec := ih (nleft - nread.length) (done ++ nread) run
        have total := spec.length
        rw [List.length_append] at total
        refine ⟨(List.prefix_append _ _).trans spec.front, by omega, fun p lower upper => ?_,
          fun few' => ?_⟩
        · by_cases now : p < done.length + nread.length
          · refine ⟨r, List.mem_cons_self, ?_⟩
            obtain ⟨rest, rfl⟩ := spec.front
            rw [List.append_assoc, List.getElem?_append_right lower,
              List.getElem?_append_left (by omega)]
            exact getElem?_read given lower now
          · rw [← List.length_append] at now
            obtain ⟨r', member, same⟩ := spec.found p (Nat.not_lt.mp now) upper
            exact ⟨r', List.mem_cons_of_mem _ member, same⟩
        · obtain ⟨r', member, ends⟩ := spec.short (by rw [List.length_append]; omega)
          exact ⟨r', List.mem_cons_of_mem _ member, ends⟩
      · obtain rfl := Except.ok.inj run
        exact ⟨List.prefix_refl _, by omega, fun p lower upper => by omega, fun few => by omega⟩

theorem ReadFrom.still {content : List Byte} (read : ReadFrom nleft [] reads bytes)
    (same : ∀ r ∈ reads, r.1 = content) (enough : nleft ≤ content.length) :
    bytes = content.take nleft := by
  have upper := read.length
  have full : bytes.length = nleft := by
    by_contra few
    simp only [List.length_nil, Nat.zero_add] at upper
    obtain ⟨r, member, ends⟩ := read.short (by simp only [List.length_nil]; omega)
    rw [same r member] at ends
    omega
  apply List.ext_getElem?
  intro p
  by_cases inside : p < nleft
  · obtain ⟨r, member, found⟩ := read.found p (Nat.zero_le p) (full.symm ▸ inside)
    rw [List.getElem?_take_of_lt inside, ← same r member, found]
  · rw [List.getElem?_eq_none (by omega), List.getElem?_eq_none]
    rw [List.length_take]
    omega

theorem rioRead_whole {content : List Byte} (some : 0 < nleft) (enough : nleft ≤ content.length) :
    rioRead nleft [] [(content, content.length)] = .ok (content.take nleft) := by
  have given : (content.drop ([] : List Byte).length).take (min (content.length + 1) nleft) =
      content.take nleft := by
    rw [List.length_nil, List.drop_zero, Nat.min_eq_right (by omega)]
  have length : (content.take nleft).length = nleft := by
    rw [List.length_take]
    omega
  have nonempty : content.take nleft ≠ [] := by
    apply List.ne_nil_of_length_pos
    rwa [length]
  unfold rioRead
  dsimp only
  rw [if_pos some, given, if_neg nonempty, length, Nat.sub_self]
  rfl

theorem Looks.buffer_full {looks : Looks} (full : bytes.length = nleft) :
    looks.buffer nleft bytes = bytes := by
  unfold Looks.buffer
  rw [full, Nat.sub_self, List.range_zero, List.map_nil, List.append_nil]

theorem toInt_toNat_le (n : Nat) : (toInt n).toNat ≤ n := by
  unfold toInt
  rw [Int.bmod_def]
  split <;> omega

end Read

/-- Whatever the pieces in which it is read, a file that does not change is read as it is. -/
theorem requestReadfile_still {looks : Looks} {files : Files} {data : FileData}
    {r : Int × List Byte × FileData} (among : looks.Among {files} data.fileName)
    (read : requestReadfile looks data = .ok r) :
    requestReadfile (.still files data.fileName) data = .ok r := by
  have stat : looks.stat = files := among.stat
  have opened : looks.opened = files := among.opened
  unfold requestReadfile at read ⊢
  rw [stat, opened] at read
  cases found : files data.fileName with
  | none =>
      have found' : (Looks.still files data.fileName).stat data.fileName = none := found
      rw [found] at read
      rw [found']
      exact read
  | some file =>
      have found' : (Looks.still files data.fileName).stat data.fileName = some file := found
      have found'' : (Looks.still files data.fileName).opened data.fileName = some file := found
      have whole : (Looks.still files data.fileName).reads =
          [(file.content, file.content.length)] := by
        unfold Looks.still
        rw [found]
        rfl
      rw [found] at read
      rw [found', found'', whole]
      dsimp only at read ⊢
      split_ifs at read ⊢ with absolute dots ext forbidden some bad
      · exact read
      · exact read
      · exact read
      · exact read
      · obtain ⟨bytes, given, read⟩ := ok_of_bind read
        have enough := toInt_toNat_le file.content.length
        have positive : 0 < (toInt file.content.length).toNat := by omega
        have same : ∀ r ∈ looks.reads, r.1 = file.content := by
          intro r member
          obtain ⟨files', rfl, file', there, same⟩ := among.reads r member
          rw [found] at there
          rw [same, Option.some.inj there]
        have fromFile := rioRead_from looks.reads _ [] given
        have bytes' : bytes = file.content.take (toInt file.content.length).toNat :=
          fromFile.still same enough
        have length : (file.content.take (toInt file.content.length).toNat).length =
            (toInt file.content.length).toNat := by
          rw [List.length_take]
          omega
        rw [bytes', Looks.buffer_full length] at read
        rw [rioRead_whole positive enough, ok_bind, Looks.buffer_full length]
        exact read
      · exact read

/-- A file that was read keeps its name and has a size. -/
theorem requestReadfile_success {looks : Looks} {data data' : FileData} {ret : Int}
    {sent : List Byte} (read : requestReadfile looks data = .ok (ret, sent, data'))
    (success : ret ≠ 0) :
    ret = 1 ∧ sent = [] ∧ 0 ≤ data'.fileSize ∧ data'.fileName = data.fileName := by
  have refused : ∀ cause errnum shortmsg longmsg,
      (requestError cause errnum shortmsg longmsg >>= fun sent =>
        (.ok (0, sent, data) : Except Fault (Int × List Byte × FileData))) ≠
          .ok (ret, sent, data') := by
    intro cause errnum shortmsg longmsg same
    cases run : requestError cause errnum shortmsg longmsg with
    | error e =>
        rw [run] at same
        cases same
    | ok sent =>
        rw [run] at same
        exact success (congrArg Prod.fst (Except.ok.inj same)).symm
  unfold requestReadfile at read
  dsimp only at read
  split_ifs at read with absolute dots ext
  · exact absurd read (refused _ _ _ _)
  · exact absurd read (refused _ _ _ _)
  · exact absurd read (refused _ _ _ _)
  · cases found : looks.stat data.fileName with
    | none =>
        rw [found] at read
        exact absurd read (refused _ _ _ _)
    | some file =>
        rw [found] at read
        dsimp only at read
        generalize toInt file.content.length = size at read
        split_ifs at read with forbidden some bad
        · exact absurd read (refused _ _ _ _)
        · obtain ⟨bytes, _, read⟩ := ok_of_bind read
          obtain ⟨rfl, done⟩ := Prod.mk.inj (Except.ok.inj read)
          obtain ⟨rfl, rfl⟩ := Prod.mk.inj done
          refine ⟨rfl, rfl, ?_, rfl⟩
          change 0 ≤ size
          omega
        · obtain ⟨rfl, done⟩ := Prod.mk.inj (Except.ok.inj read)
          obtain ⟨rfl, rfl⟩ := Prod.mk.inj done
          refine ⟨rfl, rfl, ?_, rfl⟩
          change 0 ≤ size
          omega

def requestGetFileType (filename : List Byte) : List Byte :=
  if text ".html" <:+: filename then text "text/html"
  else if text ".gif" <:+: filename then text "image/gif"
  else if text ".jpg" <:+: filename then text "image/jpeg"
  else text "text/plain"

/-- `request_sendfile`: the bytes sent. -/
def requestSendfile (data : FileData) : List Byte :=
  let body := data.fileBuf.take data.fileSize.toNat
  text "HTTP/1.0 200 OK\r\n" ++
    text "Server: OS Web Server\r\n" ++
    text "Content-Type: " ++ requestGetFileType data.fileName ++ text "\r\n" ++
    text "Content-Length: " ++ decimal data.fileSize ++ text "\r\n" ++
    text "Content-Csum: " ++ decimal (checksum body) ++ text "\r\n\r\n" ++ body

end Ece344Lab.Webserver

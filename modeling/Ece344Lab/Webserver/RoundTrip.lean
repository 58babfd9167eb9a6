import Ece344Lab.Webserver.Client
import Ece344Lab.Webserver.Transparency

set_option autoImplicit false

/- A client gets the file that it has asked for. -/
namespace Ece344Lab.Webserver

open Bytes (text decimal)
open Line Outcome Scan

/-- A file that the server hands out under a name. -/
structure Served (files : Files) (name : List Byte) (file : File) : Prop where
  found : files (text "./" ++ name) = some file
  inside : ¬ text ".." <:+: text "./" ++ name
  plain : ¬ (strrchr 46#8 (text "./" ++ name) = some (text ".c") ∨
    strrchr 46#8 (text "./" ++ name) = some (text ".h"))
  regular : file.isReg = true
  readable : file.isReadable = true
  opens : file.opens = true
  small : file.content.length < 2 ^ 31

def File.data (file : File) (name : List Byte) : FileData :=
  ⟨text "./" ++ name, file.content, file.content.length⟩

section Server

variable {files : Files} {name : List Byte} {file : File}

theorem Served.reads (served : Served files name file) : ReadsTo files (file.data name) := by
  have relative : ¬ (text "./" ++ name).head? = some 47#8 := by
    have first : text "./" ++ name = 46#8 :: (47#8 :: name) := rfl
    rw [first, List.head?_cons]
    decide
  have size : toInt file.content.length = file.content.length := by
    have small := served.small
    unfold toInt
    apply Int.bmod_eq_of_le <;> omega
  have may : ¬ (¬ file.isReg = true ∨ ¬ file.isReadable = true) := by
    rintro (other | hidden)
    · exact other served.regular
    · exact hidden served.readable
  have found : files (file.data name).fileName = some file := served.found
  have opens : ¬ (¬ (files (file.data name).fileName).any File.opens = true ∨
      (file.content.length : Int) < 0) := by
    rw [found]
    rintro (closed | negative)
    · exact closed served.opens
    · omega
  have whole : (Looks.still files (file.data name).fileName).reads =
      [(file.content, file.content.length)] := by
    unfold Looks.still
    rw [found]
    rfl
  unfold ReadsTo requestReadfile
  split_ifs with absolute dots ext
  · exact absurd absolute relative
  · exact absurd dots served.inside
  · exact absurd ext served.plain
  · have found' : (Looks.still files (file.data name).fileName).stat
        (FileData.unread (file.data name).fileName).fileName = some file := found
    rw [found']
    dsimp only
    rw [if_neg may, size]
    by_cases empty : file.content = []
    · unfold File.data
      rw [empty, if_neg (by simp)]
      rfl
    · have some := List.length_pos_of_ne_nil empty
      rw [if_pos (by omega)]
      refine (if_neg opens).trans ?_
      rw [whole, Int.toNat_natCast, rioRead_whole some (Nat.le_refl _), ok_bind, List.take_length,
        Looks.buffer_full rfl]
      rfl

theorem Served.response (served : Served files name file) (short : name.length + 2 < maxLine) :
    doServerRequestNocache files ⟨text "GET", name⟩ = .ok (requestSendfile (file.data name)) := by
  have init : requestInit ⟨text "GET", name⟩ =
      .ok ([], some (.unread (file.data name).fileName)) := by
    have whole : requestParseURI name maxLine = text "./" ++ name := by
      apply List.take_of_length_le
      have dot : (text "./").length = 2 := rfl
      rw [List.length_append, dot]
      omega
    unfold requestInit
    rw [if_neg fun other => other rfl, whole]
    rfl
  exact ServerState.nocache_loaded init served.reads

def responseHeader (data : FileData) : List (List Byte) :=
  [text "HTTP/1.0 200 OK\r\n", text "Server: OS Web Server\r\n",
    text "Content-Type: " ++ requestGetFileType data.fileName ++ crlf,
    text "Content-Length: " ++ decimal data.fileSize ++ crlf,
    text "Content-Csum: " ++ decimal (checksum (data.fileBuf.take data.fileSize.toNat)) ++ crlf]

theorem requestSendfile_lines (data : FileData) : requestSendfile data =
    (responseHeader data).flatten ++ (crlf ++ data.fileBuf.take data.fileSize.toNat) := by
  have one : text "\r\n" = crlf := rfl
  have two : text "\r\n\r\n" = crlf ++ crlf := rfl
  unfold requestSendfile responseHeader
  rw [one, two]
  simp only [List.flatten_cons, List.flatten_nil, List.append_assoc, List.append_nil]

end Server

section Lines

variable {file : File} {name : List Byte}

/-- A line that is put together from a tag and a number. -/
theorem HeaderLine.number {tag : List Byte} (plain : ∀ b ∈ tag, b ≠ newline ∧ b ≠ 0)
    (short : tag.length + 12 < maxBuf) (some : 2 ≤ tag.length) {n : Nat} (small : n < 10 ^ 10) :
    HeaderLine (tag ++ decimal n ++ crlf) := by
  have digit : ∀ b ∈ decimal n, b ≠ newline ∧ b ≠ 0 := by
    intro b member
    have plain := decimal_plain member
    refine ⟨?_, plain.2⟩
    rintro rfl
    exact absurd plain.1 (by decide)
  have length : (decimal n).length ≤ 10 := by
    rw [decimal_natCast]
    exact length_digits_le (by decide) small
  refine ⟨⟨tag ++ decimal n ++ [13#8], ?_, ?_⟩, ?_, ?_, ?_⟩
  · simp only [List.append_assoc, List.cons_append, List.nil_append]
  · simp only [List.mem_append]
    rintro ((front | inner) | last)
    · exact (plain _ front).1 rfl
    · exact (digit _ inner).1 rfl
    · exact absurd last (by decide)
  · intro b member
    simp only [List.mem_append] at member
    rcases member with (front | inner) | last
    · exact (plain b front).2
    · exact (digit b inner).2
    · revert last b
      decide
  · simp only [List.length_append, List.length_cons, List.length_nil]
    omega
  · intro same
    have sizes := congrArg List.length same
    simp only [List.length_append, List.length_cons, List.length_nil] at sizes
    omega

theorem HeaderLine.closed {l : List Byte} (front : List Byte) (split : l = front ++ [newline])
    (absent : newline ∉ front) (noNul : ∀ b ∈ l, b ≠ 0) (short : l.length < maxBuf)
    (other : l ≠ crlf) :
    HeaderLine l :=
  ⟨⟨front, split, absent⟩, noNul, short, other⟩

/-- Every line of a response's header is one. -/
theorem responseHeader_lines (name : List Byte) (small : file.content.length < 2 ^ 31) :
    ∀ l ∈ responseHeader (file.data name), HeaderLine l := by
  have length : file.content.length < 10 ^ 10 := by omega
  have csum : checksum (file.content.take (file.content.length : Int).toNat) < 10 ^ 10 := by
    unfold checksum
    omega
  intro l member
  unfold responseHeader File.data at member
  simp only [List.mem_cons, List.not_mem_nil, or_false] at member
  rcases member with rfl | rfl | rfl | rfl | rfl
  · exact .closed (text "HTTP/1.0 200 OK\r") rfl (by decide) (by decide) (by decide) (by decide)
  · exact .closed (text "Server: OS Web Server\r") rfl (by decide) (by decide)
      (by decide) (by decide)
  · unfold requestGetFileType
    split_ifs
    · exact .closed (text "Content-Type: text/html\r") rfl (by decide) (by decide)
        (by decide) (by decide)
    · exact .closed (text "Content-Type: image/gif\r") rfl (by decide) (by decide)
        (by decide) (by decide)
    · exact .closed (text "Content-Type: image/jpeg\r") rfl (by decide) (by decide)
        (by decide) (by decide)
    · exact .closed (text "Content-Type: text/plain\r") rfl (by decide) (by decide)
        (by decide) (by decide)
  · exact .number (by decide) (by decide) (by decide) length
  · exact .number (by decide) (by decide) (by decide) csum

/-- A line without the tags is passed over. -/
theorem Seen.scan_plain (seen : Seen) {str : List Byte}
    (length : (text "Content-Length:").isPrefixOf str = false)
    (csum : (text "Content-Csum:").isPrefixOf str = false) : seen.scan str = .ok seen := by
  unfold Seen.scan scanInt scanUnsigned
  rw [tagged_other length, tagged_other csum]
  rfl

/-- What is found behind a tag and a space. -/
theorem tagged_decimal (tag : List Byte) (n : Nat) :
    tagged tag (tag ++ [32#8] ++ decimal n ++ crlf) = some (n : Int) := by
  have stop : ∀ b, crlf.head? = some b → isDigit b = false := head_not_digit rfl
  rw [List.append_assoc, List.append_assoc, tagged_append, List.singleton_append, number_space rfl,
    number_decimal n stop]
  rfl

theorem Seen.scan_length (seen : Seen) {n : Nat} (small : n < 2 ^ 31) :
    seen.scan (text "Content-Length: " ++ decimal n ++ crlf) = .ok { seen with length := n } := by
  have tag : text "Content-Length: " = text "Content-Length:" ++ [32#8] := rfl
  have other :
      tagged (text "Content-Csum:")
        (text "Content-Length:" ++ [32#8] ++ decimal n ++ crlf) = none :=
    tagged_other rfl
  have few : -2 ^ 31 ≤ (n : Int) ∧ (n : Int) < 2 ^ 31 := by omega
  unfold Seen.scan scanInt scanUnsigned
  rw [tag, tagged_decimal, other]
  dsimp only
  rw [asInt_eq few.1 few.2]
  rfl

theorem Seen.scan_csum (seen : Seen) {n : Nat} (small : n < 2 ^ 32) :
    seen.scan (text "Content-Csum: " ++ decimal n ++ crlf) = .ok { seen with csum := n } := by
  have tag : text "Content-Csum: " = text "Content-Csum:" ++ [32#8] := rfl
  have other :
      tagged (text "Content-Length:")
        (text "Content-Csum:" ++ [32#8] ++ decimal n ++ crlf) = none :=
    tagged_other rfl
  unfold Seen.scan scanInt scanUnsigned
  rw [tag, tagged_decimal, other]
  dsimp only
  rw [asUnsigned_eq small]
  rfl

/-- What `client_print` prints. -/
def shown (print : Bool) (header : List (List Byte)) (body : List Byte) : List Byte :=
  if print then (header.map (text "Header: " ++ ·)).flatten ++ body else []

/-- The length and the checksum of the file are found in the header. -/
theorem responseHeader_seen (print : Bool) (name : List Byte)
    (small : file.content.length < 2 ^ 31) :
    Seen.lines print ⟨0, 0, []⟩ (responseHeader (file.data name)) =
      .ok ⟨file.content.length, checksum file.content,
        shown print (responseHeader (file.data name)) []⟩ := by
  have sum : checksum file.content < 2 ^ 32 := Nat.mod_lt _ (by decide)
  have whole : file.content.take (file.content.length : Int).toNat = file.content := by
    rw [Int.toNat_natCast, List.take_length]
  unfold responseHeader File.data
  dsimp only
  rw [whole]
  unfold Seen.lines
  rw [Seen.scan_plain _ rfl rfl, ok_bind]
  unfold Seen.lines
  rw [Seen.scan_plain _ rfl rfl, ok_bind]
  unfold Seen.lines
  rw [Seen.scan_length _ small, ok_bind]
  unfold Seen.lines
  rw [Seen.scan_csum _ sum, ok_bind]
  unfold Seen.lines
  rw [Seen.scan_plain _ rfl rfl]
  unfold Seen.printed shown
  cases print
  · rfl
  · simp only [if_true, List.map_cons, List.map_nil, List.flatten_cons, List.flatten_nil,
      List.append_nil, List.nil_append, List.append_assoc]

/-- The header of a response is read, whatever follows. -/
theorem clientPrint_header (print : Bool) (small : file.content.length < 2 ^ 31) {rp : Rio}
    (carries : rp.Carries (requestSendfile (file.data name))) {buf : List Byte}
    (room : buf.length = maxBuf) :
    ∃ rp₁ buf₁ n rp₂ buf₂ headers, wrapperRioReadlineb rp buf maxBuf = .ok (n, buf₁, rp₁) ∧
      headerLoop print headers rp₁ buf₁ n ⟨0, 0, []⟩ = .ok (rp₂, buf₂, ⟨file.content.length,
        checksum file.content, shown print (responseHeader (file.data name)) []⟩) ∧
      buf₂.length = maxBuf ∧ rp₂.Healthy ∧ rp₂.ahead = file.content := by
  have some : responseHeader (file.data name) ≠ [] := List.cons_ne_nil _ _
  obtain ⟨l, ls, split⟩ := List.exists_cons_of_ne_nil some
  have all := responseHeader_lines name small
  have seen := responseHeader_seen print name small
  rw [split] at all seen ⊢
  have line' := all l List.mem_cons_self
  have ahead : rp.ahead = l ++ (ls.flatten ++ (crlf ++ file.content)) := by
    have whole : (file.data name).fileBuf.take (file.data name).fileSize.toNat = file.content := by
      unfold File.data
      rw [Int.toNat_natCast, List.take_length]
    rw [carries.healthy.ahead, carries.unread, requestSendfile_lines, split, whole,
      List.flatten_cons, List.append_assoc]
  obtain ⟨after, rp₁, first, size, healthy, behind⟩ := readHeader carries.healthy room ahead
    (line'.first _) line'.ne_nil line'.short
  obtain ⟨rp₂, buf₂, header, size₂, healthy₂, ahead₂⟩ := headerLoop_lines ls rp₁ l after _ _ healthy
    line' (fun l' member => all l' (List.mem_cons_of_mem _ member)) size behind seen
  exact ⟨rp₁, _, _, rp₂, buf₂, _, first, header, size₂, healthy₂, ahead₂⟩

/-- What a client makes of the response to a request for a file. -/
theorem clientPrint_iff {print : Bool} (small : file.content.length < 2 ^ 31) {rp : Rio}
    (carries : rp.Carries (requestSendfile (file.data name))) {buf : List Byte}
    (room : buf.length = maxBuf) (r : Bool × List Byte) :
    (∃ headers body, clientPrint print headers body rp buf (checksum file.content)
        file.content.length = .ok r) ↔
      Short newline maxBuf file.content ∧
        r = (true, shown print (responseHeader (file.data name)) file.content) := by
  obtain ⟨rp₁, buf₁, n, rp₂, buf₂, enough, first, header, size, healthy, ahead⟩ :=
    clientPrint_header print small carries room
  have body := bodyLoop_iff print healthy size (ahead.symm ▸ small)
    (shown print (responseHeader (file.data name)) [])
  rw [ahead] at body
  have out : (if print then shown print (responseHeader (file.data name)) [] ++ file.content
      else shown print (responseHeader (file.data name)) []) =
      shown print (responseHeader (file.data name)) file.content := by
    unfold shown
    cases print
    · rfl
    · simp only [if_true, List.append_nil]
  rw [out] at body
  constructor
  · rintro ⟨headers, calls, run⟩
    unfold clientPrint at run
    rw [first, ok_bind] at run
    obtain ⟨⟨rp', buf', seen'⟩, header', run⟩ := ok_of_bind run
    obtain ⟨⟨received, csum, out'⟩, ran, run⟩ := ok_of_bind run
    cases headerLoop_unique header header'
    obtain ⟨short, same⟩ := (body _).mp ⟨calls, ran⟩
    cases same
    refine ⟨short, ?_⟩
    rw [← Except.ok.inj run]
    simp
  · rintro ⟨short, rfl⟩
    obtain ⟨calls, ran⟩ := (body _).mpr ⟨short, rfl⟩
    refine ⟨enough, calls, ?_⟩
    unfold clientPrint
    rw [first, ok_bind]
    dsimp only
    rw [header, ok_bind]
    dsimp only
    rw [ran, ok_bind]
    simp

/-- A line that has no room makes the client write behind its buffer. -/
theorem clientPrint_overrun (print : Bool) (small : file.content.length < 2 ^ 31) {rp : Rio}
    (carries : rp.Carries (requestSendfile (file.data name))) {buf : List Byte}
    (room : buf.length = maxBuf) (long : ¬ Short newline maxBuf file.content) (origCsum : Nat)
    (origLength : Int) :
    ∃ headers body, clientPrint print headers body rp buf origCsum origLength =
      .error .undefined := by
  obtain ⟨rp₁, buf₁, n, rp₂, buf₂, enough, first, header, size, healthy, ahead⟩ :=
    clientPrint_header print small carries room
  obtain ⟨calls, ran⟩ := bodyLoop_overrun print rp₂.ahead.length rp₂ buf₂ 0 0
    (shown print (responseHeader (file.data name)) []) (Nat.le_refl _) healthy size
    (by rw [ahead]; omega) (ahead.symm ▸ long)
  refine ⟨enough, calls, ?_⟩
  unfold clientPrint
  rw [first, ok_bind]
  dsimp only
  rw [header, ok_bind]
  dsimp only
  change (bodyLoop print calls rp₂ buf₂ ((0 : Nat) : Int) 0 _ >>= _) = _
  rw [ran]
  rfl

end Lines

section Runs

variable {n : Nat} {files : Files} {capacity : Int} {s : ServerState n}
    {host name request : List Byte} {file : File}

theorem clientSend_short (sent : clientSend host name = .ok request) :
    name.length + 2 < maxLine := by
  obtain ⟨fits, shape⟩ := clientSend_eq sent
  have get : (text "GET ").length = 4 := rfl
  rw [shape] at fits
  simp only [List.length_append, get] at fits
  omega

/-- Every response to a request for a file holds the file. -/
theorem ServerState.Run.holds_file (run : s.Run {files} capacity ServerState.Young)
    (sent : clientSend host name = .ok request) (served : Served files name file)
    {response : List Byte} (member : (⟨text "GET", name⟩, response) ∈ s.responses) :
    response = requestSendfile (file.data name) := by
  obtain ⟨es, clear⟩ := run.clear
  have right := clear.responses _ member
  rw [served.response (clientSend_short sent)] at right
  exact (Except.ok.inj right).symm

end Runs

/-- The server takes a request as the client meant it. When it hands out the file, the client gets
it if no line of the file is too long for the client's buffer, and writes behind the buffer
otherwise. -/
theorem client_is_served {n : Nat} {files : Files} {capacity : Int} {s : ServerState n}
    (run : s.Run {files} capacity ServerState.Young) {host name request : List Byte}
    (named : Word name) (sent : clientSend host name = .ok request) :
    (∀ results written, wrapperRioWrite results request = .ok written → ∀ rp : Rio,
      rp.Carries written → ∀ buf headers words, buf.length = maxLine → headers.length = maxLine →
        ∃ calls, requestInitRead calls rp buf headers words =
          .ok ([], some (.unread (text "./" ++ name)))) ∧
      ∀ file, Served files name file →
        ∀ response, (⟨text "GET", name⟩, response) ∈ s.responses → ∀ rp : Rio, rp.Carries response →
        ∀ print buf, buf.length = maxBuf →
          (∀ r, (∃ headers body, clientPrint print headers body rp buf (checksum file.content)
              file.content.length = .ok r) ↔
            Short newline maxBuf file.content ∧
              r = (true, shown print (responseHeader (file.data name)) file.content)) ∧
          (¬ Short newline maxBuf file.content → ∃ headers body,
            clientPrint print headers body rp buf (checksum file.content) file.content.length =
              .error .undefined) := by
  constructor
  · intro results written wrote rp carries buf headers words room room'
    rw [wrapperRioWrite_eq wrote] at carries
    exact request_init_client sent named carries room room' words
  · intro file served response member rp carries print buf room
    rw [run.holds_file sent served member] at carries
    exact ⟨clientPrint_iff served.small carries room,
      fun long => clientPrint_overrun print served.small carries room long _ _⟩

section TwoPages

def twoPages : Files := fun name =>
  if name = text "./a.txt" then some ⟨true, true, true, text "one\ntwo"⟩
  else if name = text "./b.html" then some ⟨true, true, true, text "three"⟩
  else none

/-- Two workers hand out both pages, and the client prints the one of two lines. -/
theorem client_is_served_two : ∃ (s : ServerState 2) (request : List Byte),
    (clientSend (text "h") (text "a.txt") = .ok request ∧ s.responses.length = 3) ∧
    (∀ results written, wrapperRioWrite results request = .ok written → ∀ rp : Rio,
      rp.Carries written → ∀ buf headers words, buf.length = maxLine → headers.length = maxLine →
        ∃ calls, requestInitRead calls rp buf headers words =
          .ok ([], some (.unread (text "./" ++ text "a.txt")))) ∧
      ∃ response, (⟨text "GET", text "a.txt"⟩, response) ∈ s.responses ∧
        ∀ rp : Rio, rp.Carries response → ∀ print buf, buf.length = maxBuf →
          ∃ headers body, clientPrint print headers body rp buf (checksum (text "one\ntwo")) 7 =
            .ok (true, shown print
              (responseHeader (File.data ⟨true, true, true, text "one\ntwo"⟩ (text "a.txt")))
              (text "one\ntwo")) := by
  have sent : ∃ request, clientSend (text "h") (text "a.txt") = .ok request := ⟨_, rfl⟩
  obtain ⟨request, sent⟩ := sent
  have named : Word (text "a.txt") := ⟨by decide, by decide⟩
  have served : Served twoPages (text "a.txt") ⟨true, true, true, text "one\ntwo"⟩ :=
    ⟨rfl, by decide, by decide, rfl, rfl, rfl, by decide⟩
  have short : Short newline maxBuf (text "one\ntwo") := by
    have first : Short newline maxBuf (text "one" ++ newline :: text "two") :=
      .more (by decide) (by decide) (.last (by decide) (by decide))
    exact first
  obtain ⟨s, run, count, member⟩ : ∃ s : ServerState 2, s.Run {twoPages} 20 ServerState.Young ∧
      s.responses.length = 3 ∧ ∃ r ∈ s.responses, r.1 = ⟨text "GET", text "a.txt"⟩ :=
    ServerState.exists_run _ twoPages 20
      (([0, 1, 0, 1, 0, 1, 0, 1, 0, 1].map fun i =>
        (i, ⟨text "GET", if i = 0 then text "a.txt" else text "b.html"⟩)) ++
          List.replicate 3 (1, ⟨text "GET", text "a.txt"⟩)) (by decide +kernel)
  obtain ⟨⟨rq, response⟩, member, rfl⟩ := member
  obtain ⟨taken, printed⟩ := client_is_served run named sent
  refine ⟨s, request, ⟨sent, count⟩, taken, response, member, ?_⟩
  intro rp carries print buf room
  exact ((printed _ served response member rp carries print buf room).1 _).mpr ⟨short, rfl⟩

end TwoPages

end Ece344Lab.Webserver

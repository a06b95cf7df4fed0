import SshKeySync.Runtime.EnvelopeCodec
import SshKeySync.Theory.Framing
import SshKeySync.Transport.Service

/-! The HTTP framing of both sides, over the byte stream as the reads cut it. A request is
read back whatever the reads are, and a response whatever its body is. -/
namespace SshKeySync.Runtime
open RustStd Transport

inductive IoErrorKind where
  | unexpectedEof
  | invalidData
  | network
  deriving DecidableEq

/-- An `io::Error`, or the panic of an addition past `usize::MAX`. -/
inductive HttpFailure where
  | io (kind : IoErrorKind) (message : Str)
  | panic
  deriving DecidableEq

def findSubslice (haystack needle : Bytes) : Option Nat := Framing.find needle haystack

/-- `b"\r\n\r\n"`. -/
def blankLine : Bytes := [13, 10, 13, 10]

def headerLimit : Nat := 64 * 1024

/-- The first loop: the bytes read, where the header ends, and the reads still to come. The
stream ends with an empty read or with the list. -/
def readHeader (data : Bytes) : List Bytes → Except HttpFailure (Bytes × Nat × List Bytes)
  | [] => .error (.io .unexpectedEof "connection closed".toList)
  | chunk :: reads =>
    if chunk = [] then .error (.io .unexpectedEof "connection closed".toList)
    else match findSubslice (data ++ chunk) blankLine with
      | some index => .ok (data ++ chunk, index + 4, reads)
      | none =>
        if headerLimit < (data ++ chunk).length then
          .error (.io .invalidData "request too large".toList)
        else readHeader (data ++ chunk) reads

/-- A `Content-Length` line that parses replaces what earlier ones gave. -/
def contentLengthStep (contentLength : Nat) (line : Str) : Nat :=
  match splitOnce ':' line with
  | some (name, value) =>
    if eqIgnoreAsciiCase name "Content-Length".toList then
      ((parseU64 (trim value)).map UInt64.toNat).getD contentLength
    else contentLength
  | none => contentLength

def contentLength (headerLines : List Str) : Nat := headerLines.foldl contentLengthStep 0

/-- The second loop, up to the length asked for or the end of the stream. -/
def readBody (target : Nat) (data : Bytes) : List Bytes → Bytes
  | [] => data
  | chunk :: reads =>
    if data.length < target ∧ chunk ≠ [] then readBody target (data ++ chunk) reads else data

/-- Path and headers, from the text before the blank line. -/
def parseHeaders (headers : Str) : Except HttpFailure (Str × List Str) :=
  match lines headers with
  | [] => .error (.io .invalidData "missing request line".toList)
  | requestLine :: headerLines => match splitWhitespace requestLine with
    | [] => .error (.io .invalidData "missing method".toList)
    | [_] => .error (.io .invalidData "missing path".toList)
    | _ :: path :: _ => .ok (path, headerLines)

def readHttpRequest (reads : List Bytes) : Except HttpFailure (Str × Str) := do
  let (data, headerEnd, reads) ← readHeader [] reads
  let (path, headerLines) ← parseHeaders (fromUtf8Lossy (data.take headerEnd))
  let bodyEnd := headerEnd + contentLength headerLines
  if UInt64.size ≤ bodyEnd then .error .panic
  else
    let data := readBody bodyEnd data reads
    if data.length < bodyEnd then .error (.io .unexpectedEof "short body".toList)
    else .ok (path, fromUtf8Lossy ((data.take bodyEnd).drop headerEnd))

def reason (statusCode : UInt16) : Str :=
  if statusCode = 200 then "OK".toList
  else if statusCode = 400 then "Bad Request".toList
  else if statusCode = 401 then "Unauthorized".toList
  else if statusCode = 404 then "Not Found".toList
  else "Error".toList

def responseHeader (statusCode : UInt16) (bodyLength : Nat) : Str := Framing.header '\r' '\n'
  ["HTTP/1.1 ".toList ++ decimal statusCode.toNat ++ ' ' :: reason statusCode,
    "Content-Type: text/plain".toList, "Content-Length: ".toList ++ decimal bodyLength,
    "Connection: close".toList]

/-- What `write_http_response` writes. -/
def httpResponse (statusCode : UInt16) (body : Bytes) : Bytes :=
  utf8 (responseHeader statusCode body.length) ++ body

def requestLines (address : Str) (port : UInt16) (path : Str) (bodyLength : Nat) : List Str :=
  ["POST ".toList ++ path ++ " HTTP/1.1".toList, "Host: ".toList ++ address ++ ':' :: decimal port.toNat,
    "Content-Type: text/plain".toList, "Content-Length: ".toList ++ decimal bodyLength,
    "Connection: close".toList]

def requestHeader (address : Str) (port : UInt16) (path : Str) (bodyLength : Nat) : Str :=
  Framing.header '\r' '\n' (requestLines address port path bodyLength)

/-- The text `send_http_post` writes. -/
def httpRequest (address : Str) (port : UInt16) (path body : Str) : Str :=
  requestHeader address port path (utf8 body).length ++ body

/-- What a connection to an address returns until it is closed, if there is one. -/
abbrev Network := Str → UInt16 → Bytes → Option Bytes

def responseBody (response : Bytes) : Except HttpFailure Str := do
  let index ← okOr (findSubslice response blankLine) (.io .invalidData "invalid response".toList)
  .ok (fromUtf8Lossy (response.drop (index + 4)))

def sendHttpPost (network : Network) (address : Str) (port : UInt16) (path body : Str) :
    Except HttpFailure Str := do
  let response ← okOr (network address port (utf8 (httpRequest address port path body)))
    (.io .network [])
  responseBody response

def HeaderLine (l : Str) : Prop := l ≠ [] ∧ '\n' ∉ l

private theorem utf8_header (ls : List Str) :
    utf8 (Framing.header '\r' '\n' ls) = Framing.header 13 10 (ls.map utf8) := by
  have hterminator : utf8 ['\r', '\n'] = [13, 10] := by decide
  have hlines : utf8 (ls.flatMap (· ++ ['\r', '\n'])) = (ls.map utf8).flatMap (· ++ [13, 10]) := by
    induction ls with
    | nil => rfl
    | cons l ls ih =>
      rw [List.flatMap_cons, utf8_append, utf8_append, hterminator, ih, List.map_cons,
        List.flatMap_cons]
  rw [Framing.header, Framing.header, utf8_append, hterminator, hlines]

private theorem line_utf8 {l : Str} (h : HeaderLine l) : Framing.Line (10 : UInt8) (utf8 l) := by
  refine ⟨fun hnil => h.1 (utf8_inj hnil), fun hmem => ?_⟩
  obtain ⟨c, hc, hcode⟩ := mem_utf8_ascii (by decide) hmem
  have hnewline : c = '\n' := Char.toNat_inj.mp hcode
  exact h.2 (hnewline ▸ hc)

/-- The blank line of a header is its end, whatever follows. -/
theorem findSubslice_header {ls : List Str} (hls : ls ≠ []) (h : ∀ l ∈ ls, HeaderLine l)
    (rest : Bytes) : ∃ index, index + 4 = (utf8 (Framing.header '\r' '\n' ls)).length ∧
      findSubslice (utf8 (Framing.header '\r' '\n' ls) ++ rest) blankLine = some index := by
  rw [utf8_header, findSubslice, blankLine]
  have hbytes : ∀ l ∈ ls.map utf8, Framing.Line (10 : UInt8) l := by
    intro l hl
    obtain ⟨text, htext, rfl⟩ := List.mem_map.mp hl
    exact line_utf8 (h text htext)
  have hne : ls.map utf8 ≠ [] := fun hnil => hls (List.map_eq_nil_iff.mp hnil)
  refine ⟨_, ?_, Framing.find_header (by decide) hne hbytes rest⟩
  have hlen := Framing.four_le_length_header (13 : UInt8) 10 hne
  omega

/-- The lines of a header, and the blank one that ends it. -/
theorem lines_header {ls : List Str} (h : ∀ l ∈ ls, '\n' ∉ l) :
    lines (Framing.header '\r' '\n' ls) = ls ++ [[]] := by
  have hunlines : Framing.header '\r' '\n' ls = unlines ((ls ++ [[]]).map (· ++ ['\r'])) := by
    rw [Framing.header, unlines, List.flatMap_map, List.flatMap_append]
    congr 1
    simp
  rw [hunlines, lines_unlines]
  · rw [List.map_map]
    exact (List.map_congr_left fun l _ => stripCr_concat l).trans (List.map_id _)
  · intro l hl
    obtain ⟨l', hl', rfl⟩ := List.mem_map.mp hl
    rw [List.mem_append, not_or]
    refine ⟨?_, by decide⟩
    rcases List.mem_append.mp hl' with hl' | hl'
    · exact h l' hl'
    · rw [List.mem_singleton.mp hl']
      exact List.not_mem_nil

section
variable {total : Bytes} {reads : List Bytes}

/-- However a stream is cut, the first loop stops at its blank line and loses nothing. -/
theorem readHeader_of_find {index : Nat} (hfind : findSubslice total blankLine = some index)
    (hlimit : index + 4 ≤ headerLimit) {data : Bytes} (hreads : ∀ chunk ∈ reads, chunk ≠ [])
    (htotal : data ++ reads.flatten = total) (hshort : data.length < index + 4) :
    ∃ data' rest, readHeader data reads = .ok (data', index + 4, rest) ∧
      data' ++ rest.flatten = total ∧ (∀ chunk ∈ rest, chunk ≠ []) ∧ index + 4 ≤ data'.length := by
  induction reads generalizing data with
  | nil =>
    have hlength := Framing.find_add_length_le (List.cons_ne_nil _ _) hfind
    simp only [List.flatten_nil, List.append_nil] at htotal
    rw [htotal] at hshort
    simp only [List.length_cons, List.length_nil] at hlength
    omega
  | cons chunk reads ih =>
    obtain ⟨hchunk, hrest⟩ := List.forall_mem_cons.mp hreads
    rw [List.flatten_cons, ← List.append_assoc] at htotal
    have hbegins : data ++ chunk <+: total := ⟨_, htotal⟩
    have hfound : findSubslice (data ++ chunk) blankLine =
        if index + 4 ≤ (data ++ chunk).length then some index else none :=
      Framing.find_of_prefix (List.cons_ne_nil _ _) hbegins hfind
    rw [readHeader, if_neg hchunk, hfound]
    by_cases hlong : index + 4 ≤ (data ++ chunk).length
    · rw [if_pos hlong]
      exact ⟨_, reads, rfl, htotal, hrest, hlong⟩
    · rw [if_neg hlong]
      simp only
      rw [if_neg (by omega)]
      exact ih hrest htotal (Nat.lt_of_not_le hlong)

/-- The second loop returns a part of the stream that reaches the target. -/
theorem readBody_prefix {target : Nat} {data : Bytes} (hreads : ∀ chunk ∈ reads, chunk ≠ [])
    (htotal : data ++ reads.flatten = total) (henough : target ≤ total.length) :
    readBody target data reads <+: total ∧ target ≤ (readBody target data reads).length := by
  induction reads generalizing data with
  | nil =>
    simp only [List.flatten_nil, List.append_nil] at htotal
    rw [readBody, htotal]
    exact ⟨List.prefix_rfl, henough⟩
  | cons chunk reads ih =>
    obtain ⟨hchunk, hrest⟩ := List.forall_mem_cons.mp hreads
    rw [readBody]
    by_cases hshort : data.length < target
    · rw [if_pos ⟨hshort, hchunk⟩]
      rw [List.flatten_cons, ← List.append_assoc] at htotal
      exact ih hrest htotal
    · rw [if_neg fun h => hshort h.1]
      exact ⟨⟨_, htotal⟩, Nat.le_of_not_lt hshort⟩

/-- A stream of a header and enough of a body is read as these two. -/
theorem readHttpRequest_eq_ok {ls headerLines : List Str} {path : Str} {body extra : Bytes}
    (hls : ls ≠ []) (hlines : ∀ l ∈ ls, HeaderLine l)
    (hlimit : (utf8 (Framing.header '\r' '\n' ls)).length ≤ headerLimit)
    (hparse : parseHeaders (Framing.header '\r' '\n' ls) = .ok (path, headerLines))
    (hlength : contentLength headerLines = body.length)
    (hsize : (utf8 (Framing.header '\r' '\n' ls)).length + body.length < UInt64.size)
    (hreads : ∀ chunk ∈ reads, chunk ≠ [])
    (htotal : reads.flatten = utf8 (Framing.header '\r' '\n' ls) ++ body ++ extra) :
    readHttpRequest reads = .ok (path, fromUtf8Lossy body) := by
  obtain ⟨index, hindex, hfind⟩ := findSubslice_header hls hlines (body ++ extra)
  rw [← List.append_assoc, ← htotal] at hfind
  rw [← hindex] at hlimit hsize
  obtain ⟨data, rest, hread, hdata, hrest, hlong⟩ :=
    readHeader_of_find hfind hlimit hreads (List.nil_append _) (Nat.succ_pos _)
  have hheader : data.take (index + 4) = utf8 (Framing.header '\r' '\n' ls) := by
    have htake := congrArg (List.take (index + 4)) (hdata.trans htotal)
    rw [List.take_append_of_le_length hlong] at htake
    rw [htake, hindex, List.append_assoc, List.take_left]
  have henough : index + 4 + body.length ≤ reads.flatten.length := by
    rw [htotal, List.length_append, List.length_append]
    omega
  obtain ⟨⟨later, hbegins⟩, htarget⟩ := readBody_prefix hrest hdata henough
  have hbody : ((readBody (index + 4 + body.length) data rest).take (index + 4 + body.length)).drop
      (index + 4) = body := by
    have htake := congrArg (List.take (index + 4 + body.length)) (hbegins.trans htotal)
    rw [List.take_append_of_le_length htarget] at htake
    rw [htake, hindex, ← List.length_append, List.take_left, List.drop_left]
  rw [readHttpRequest, hread, ok_bind]
  simp only [hheader, fromUtf8Lossy_utf8, hparse, ok_bind, hlength]
  rw [if_neg (Nat.not_le.mpr hsize), if_neg (Nat.not_lt.mpr htarget), hbody]

end

private theorem contentLengthStep_other {n : Nat} {name : Str} (value : Str) (hname : ':' ∉ name)
    (hother : eqIgnoreAsciiCase name "Content-Length".toList = false) :
    contentLengthStep n (name ++ ':' :: value) = n := by
  rw [contentLengthStep, splitOnce_append _ hname]
  simp only [hother, Bool.false_eq_true, if_false]

private theorem contentLengthStep_decimal (n : Nat) {length : Nat} (h : length < UInt64.size) :
    contentLengthStep n ("Content-Length".toList ++ ':' :: ' ' :: decimal length) = length := by
  have hname : eqIgnoreAsciiCase "Content-Length".toList "Content-Length".toList := by decide
  have htrim : trim (' ' :: decimal length) = decimal length := by
    have hstart : trimStart (' ' :: decimal length) = trimStart (decimal length) := rfl
    rw [trim, hstart]
    exact trim_eq_self (decimal_unpadded length)
  have hparse : parseU64 (decimal length) = some (UInt64.ofNat length) := by
    rw [parseU64, parseUnsigned_decimal h, Option.map_some]
  rw [contentLengthStep, splitOnce_append _ (by decide)]
  simp only [hname, if_true, htrim, hparse, Option.map_some, Option.getD_some]
  exact UInt64.toNat_ofNat_of_lt' h

section
variable {address : Str} {port : UInt16} {path body : Str} {reads : List Bytes}

private theorem headerLine_requestLines (hpath : Word path) (haddress : '\n' ∉ address) (n : Nat) :
    ∀ l ∈ requestLines address port path n, HeaderLine l := by
  have hnewline : '\n' ∉ path := fun h => absurd (hpath.2 _ h) (by decide)
  have hport := newline_not_mem_decimal port.toNat
  have hlength := newline_not_mem_decimal n
  intro l hl
  simp only [requestLines, List.mem_cons, List.not_mem_nil, or_false] at hl
  rcases hl with rfl | rfl | rfl | rfl | rfl <;>
    simp [HeaderLine, hnewline, haddress, hport, hlength]

private theorem parseHeaders_requestHeader (hpath : Word path) (haddress : '\n' ∉ address) (n : Nat) :
    parseHeaders (requestHeader address port path n) =
      .ok (path, (requestLines address port path n).tail ++ [[]]) := by
  have hwords : splitWhitespace ("POST ".toList ++ path ++ " HTTP/1.1".toList) =
      ["POST".toList, path, "HTTP/1.1".toList] := by
    have hall : ∀ w ∈ ["POST".toList, path, "HTTP/1.1".toList], Word w := by
      simp only [List.forall_mem_cons]
      exact ⟨by decide, hpath, by decide, nofun⟩
    have hjoin : joinWords ["POST".toList, path, "HTTP/1.1".toList] =
        "POST ".toList ++ path ++ " HTTP/1.1".toList := by
      rw [joinWords_cons_cons, joinWords_cons_cons, joinWords_singleton]
      simp
    rw [← hjoin, splitWhitespace_joinWords hall]
  rw [parseHeaders, requestHeader, lines_header fun l hl => (headerLine_requestLines hpath haddress n l hl).2]
  simp only [requestLines, List.cons_append, hwords, List.tail_cons]

private theorem contentLength_requestLines (n : Nat) (h : n < UInt64.size) :
    contentLength ((requestLines address port path n).tail ++ [[]]) = n := by
  have hhost : "Host: ".toList ++ address ++ ':' :: decimal port.toNat =
      "Host".toList ++ ':' :: (' ' :: (address ++ ':' :: decimal port.toNat)) := by simp
  have htype : "Content-Type: text/plain".toList = "Content-Type".toList ++ ':' :: " text/plain".toList := rfl
  have hconnection : "Connection: close".toList = "Connection".toList ++ ':' :: " close".toList := rfl
  have hlength : "Content-Length: ".toList ++ decimal n = "Content-Length".toList ++ ':' :: ' ' :: decimal n := by
    simp
  simp only [contentLength, requestLines, List.tail_cons, List.cons_append, List.nil_append,
    List.foldl_cons, List.foldl_nil]
  rw [hhost, contentLengthStep_other _ (by decide) (by decide), htype,
    contentLengthStep_other _ (by decide) (by decide), hlength, contentLengthStep_decimal _ h,
    hconnection, contentLengthStep_other _ (by decide) (by decide)]
  rfl

/-- However the request's bytes are cut, and whatever follows them, the server reads path
and body. -/
theorem readHttpRequest_httpRequest (hpath : Word path) (haddress : '\n' ∉ address)
    (hlimit : (utf8 (requestHeader address port path (utf8 body).length)).length ≤ headerLimit)
    (hsize : (utf8 (httpRequest address port path body)).length < UInt64.size)
    (hreads : ∀ chunk ∈ reads, chunk ≠ []) (extra : Bytes)
    (htotal : reads.flatten = utf8 (httpRequest address port path body) ++ extra) :
    readHttpRequest reads = .ok (path, body) := by
  rw [httpRequest, utf8_append] at hsize htotal
  rw [List.length_append] at hsize
  have hread := readHttpRequest_eq_ok (List.cons_ne_nil _ _) (headerLine_requestLines hpath haddress _)
    hlimit (parseHeaders_requestHeader hpath haddress _)
    (contentLength_requestLines _ (by omega)) hsize hreads htotal
  rwa [fromUtf8Lossy_utf8] at hread

end

/-- The client's text of a response is its body. -/
theorem responseBody_httpResponse (statusCode : UInt16) (body : Str) :
    responseBody (httpResponse statusCode (utf8 body)) = .ok body := by
  have hreason : '\n' ∉ reason statusCode := by
    unfold reason
    split_ifs <;> decide
  have hlines : ∀ l ∈ ["HTTP/1.1 ".toList ++ decimal statusCode.toNat ++ ' ' :: reason statusCode,
      "Content-Type: text/plain".toList, "Content-Length: ".toList ++ decimal (utf8 body).length,
      "Connection: close".toList], HeaderLine l := by
    have hcode := newline_not_mem_decimal statusCode.toNat
    have hlength := newline_not_mem_decimal (utf8 body).length
    intro l hl
    simp only [List.mem_cons, List.not_mem_nil, or_false] at hl
    rcases hl with rfl | rfl | rfl | rfl <;> simp [HeaderLine, hcode, hlength, hreason]
  obtain ⟨index, hindex, hfind⟩ := findSubslice_header (List.cons_ne_nil _ _) hlines (utf8 body)
  rw [responseBody, httpResponse, responseHeader, hfind, okOr_some, ok_bind, hindex, List.drop_left,
    fromUtf8Lossy_utf8]

def Segmented (reads : List Bytes) (stream : Bytes) : Prop :=
  reads.flatten = stream ∧ ∀ chunk ∈ reads, 1 ≤ chunk.length ∧ chunk.length ≤ 1024

/-- Both directions of an exchange are framed independently of the reads and of the bodies. -/
theorem framing_independent :
    (∀ (address : Str) (port : UInt16) (path body : Str) (reads : List Bytes) (extra : Bytes),
      Word path → '\n' ∉ address → (utf8 body).length ≤ isizeMax →
      (utf8 (requestHeader address port path (utf8 body).length)).length ≤ headerLimit →
      Segmented reads (utf8 (httpRequest address port path body) ++ extra) →
      readHttpRequest reads = .ok (path, body)) ∧
    ∀ (statusCode : UInt16) (body : Str), responseBody (httpResponse statusCode (utf8 body)) = .ok body := by
  refine ⟨?_, responseBody_httpResponse⟩
  intro address port path body reads extra hpath haddress hbody hlimit hsegmented
  have hsize : (utf8 (httpRequest address port path body)).length < UInt64.size := by
    have hbounds : headerLimit + isizeMax < UInt64.size := by decide
    rw [httpRequest, utf8_append, List.length_append]
    omega
  have hreads : ∀ chunk ∈ reads, chunk ≠ [] := fun chunk hchunk =>
    List.ne_nil_of_length_pos (hsegmented.2 chunk hchunk).1
  exact readHttpRequest_httpRequest hpath haddress hlimit hsize hreads extra hsegmented.1

private def blankBody : Str := "a\r\n\r\nContent-Length: 7".toList

private def blankRequest : Bytes := utf8 (httpRequest "10.0.0.2".toList 9922 "/v1/keys/get".toList blankBody)

/-- A body that looks like a header, cut inside the blank line before it, and followed by more. -/
theorem framing_independent_blank : readHttpRequest
    [blankRequest.take 114, blankRequest.drop 114 ++ [7]] = .ok ("/v1/keys/get".toList, blankBody) := by
  refine framing_independent.1 "10.0.0.2".toList 9922 "/v1/keys/get".toList blankBody _ [7] (by decide)
    (by decide) (by decide +kernel) (by decide +kernel) ⟨?_, by decide +kernel⟩
  rw [List.flatten_cons, List.flatten_cons, List.flatten_nil, List.append_nil, ← List.append_assoc,
    List.take_append_drop]
  rfl

end SshKeySync.Runtime

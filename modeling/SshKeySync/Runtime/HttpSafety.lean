import SshKeySync.Runtime.Http

/-! Panics of the HTTP reader. Its only arithmetic on data from the network is the sum of the
header's end and the length asked for; the slices are in range exactly when that sum is. -/
namespace SshKeySync.Runtime
open RustStd

/-- With overflow checks an addition past `usize::MAX` panics, without them it wraps. -/
inductive Profile where
  | checked
  | wrapping
  deriving DecidableEq

def addUsize (profile : Profile) (a b : Nat) : Except HttpFailure Nat :=
  if a + b < UInt64.size then .ok (a + b)
  else match profile with
    | .checked => .error .panic
    | .wrapping => .ok ((a + b) % UInt64.size)

/-- `&data[first..last]`, which panics out of range. -/
def slice (data : Bytes) (first last : Nat) : Except HttpFailure Bytes :=
  if first ≤ last ∧ last ≤ data.length then .ok ((data.take last).drop first) else .error .panic

/-- What follows the headers: the sum, the second loop, and the slice of the body. -/
def takeBody (profile : Profile) (data : Bytes) (reads : List Bytes) (headerEnd contentLength : Nat) :
    Except HttpFailure Bytes := do
  let bodyEnd ← addUsize profile headerEnd contentLength
  let data := readBody bodyEnd data reads
  if data.length < bodyEnd then .error (.io .unexpectedEof "short body".toList)
  else slice data headerEnd bodyEnd

/-- `read_http_request` with its addition and slices as a build carries them out. -/
def readHttpRequestIn (profile : Profile) (reads : List Bytes) : Except HttpFailure (Str × Str) := do
  let (data, headerEnd, reads) ← readHeader [] reads
  let headers ← slice data 0 headerEnd
  let (path, headerLines) ← parseHeaders (fromUtf8Lossy headers)
  let body ← takeBody profile data reads headerEnd (contentLength headerLines)
  .ok (path, fromUtf8Lossy body)

def Declares (line : Str) (length : UInt64) : Prop :=
  ∃ name value, splitOnce ':' line = some (name, value) ∧
    eqIgnoreAsciiCase name "Content-Length".toList ∧ parseU64 (trim value) = some length

/-- The stream brings a header to its blank line before the reader gives up on it. -/
def HeaderArrives (reads : List Bytes) (header : Bytes) : Prop :=
  ∃ before chunk later index, reads = before ++ chunk :: later ∧
    findSubslice before.flatten blankLine = none ∧ before.flatten.length ≤ headerLimit ∧
    findSubslice (before.flatten ++ chunk) blankLine = some index ∧
    header = (before.flatten ++ chunk).take (index + 4)

/-- Method and path are there, and the last content length that parses leaves the body's end
past `usize::MAX`. -/
def Overlong (header : Bytes) : Prop :=
  ∃ requestLine earlier line later length,
    lines (fromUtf8Lossy header) = requestLine :: (earlier ++ line :: later) ∧
    2 ≤ (splitWhitespace requestLine).length ∧ Declares line length ∧
    (∀ l ∈ later, ∀ n, ¬ Declares l n) ∧ UInt64.size ≤ header.length + length.toNat

private theorem contentLengthStep_of_declares {line : Str} {length : UInt64} (h : Declares line length) (n : Nat) :
    contentLengthStep n line = length.toNat := by
  obtain ⟨name, value, hsplit, hname, hparse⟩ := h
  rw [contentLengthStep, hsplit]
  simp only [hname, if_true, hparse, Option.map_some, Option.getD_some]

private theorem contentLengthStep_of_not_declares {line : Str} (h : ∀ n, ¬ Declares line n) (n : Nat) :
    contentLengthStep n line = n := by
  rw [contentLengthStep]
  cases hsplit : splitOnce ':' line with
  | none => rfl
  | some kv =>
    dsimp only
    split
    · rename_i hname
      cases hparse : parseU64 (trim kv.2) with
      | none => rfl
      | some length => exact absurd ⟨kv.1, kv.2, hsplit, hname, hparse⟩ (h length)
    · rfl

/-- The last line that declares a length decides, and without one it is zero. -/
theorem contentLength_cases (headerLines : List Str) :
    (contentLength headerLines = 0 ∧ ∀ l ∈ headerLines, ∀ n, ¬ Declares l n) ∨
      ∃ earlier line later length, headerLines = earlier ++ line :: later ∧ Declares line length ∧
        (∀ l ∈ later, ∀ n, ¬ Declares l n) ∧ contentLength headerLines = length.toNat := by
  induction headerLines using List.reverseRecOn with
  | nil => exact Or.inl ⟨rfl, nofun⟩
  | append_singleton headerLines l ih =>
    rw [contentLength, List.foldl_append, List.foldl_cons, List.foldl_nil, ← contentLength]
    by_cases hl : ∃ length, Declares l length
    · obtain ⟨length, hlength⟩ := hl
      exact Or.inr ⟨headerLines, l, [], length, rfl, hlength, nofun, contentLengthStep_of_declares hlength _⟩
    · rw [not_exists] at hl
      rw [contentLengthStep_of_not_declares hl]
      rcases ih with ⟨hzero, hnone⟩ | ⟨earlier, line, later, length, rfl, hline, hlater, hcl⟩
      · refine Or.inl ⟨hzero, ?_⟩
        simp only [List.forall_mem_append, List.forall_mem_singleton]
        exact ⟨hnone, hl⟩
      · refine Or.inr ⟨earlier, line, later ++ [l], length, by simp, hline, ?_, hcl⟩
        simp only [List.forall_mem_append, List.forall_mem_singleton]
        exact ⟨hlater, hl⟩

private theorem contentLength_lt (headerLines : List Str) : contentLength headerLines < UInt64.size := by
  rcases contentLength_cases headerLines with ⟨hzero, -⟩ | ⟨_, _, _, length, -, -, -, hlength⟩
  · rw [hzero]
    decide
  · rw [hlength]
    exact length.toNat_lt_size

/-- A sum past the limit needs a declared length. -/
theorem exists_declares_iff {headerLines : List Str} {bound : Nat} (hbound : 0 < bound) :
    bound ≤ contentLength headerLines ↔ ∃ earlier line later length,
      headerLines = earlier ++ line :: later ∧ Declares line length ∧
      (∀ l ∈ later, ∀ n, ¬ Declares l n) ∧ bound ≤ length.toNat := by
  constructor
  · intro h
    rcases contentLength_cases headerLines with
      ⟨hzero, -⟩ | ⟨earlier, line, later, length, hsplit, hline, hlater, hlength⟩
    · omega
    · exact ⟨earlier, line, later, length, hsplit, hline, hlater, hlength ▸ h⟩
  · rintro ⟨earlier, line, later, length, rfl, hline, hlater, hle⟩
    rw [contentLength, List.foldl_append, List.foldl_cons, contentLengthStep_of_declares hline]
    have hrest (n : Nat) : later.foldl contentLengthStep n = n := by
      induction later generalizing n with
      | nil => rfl
      | cons l later ih =>
        obtain ⟨hl, hlater⟩ := List.forall_mem_cons.mp hlater
        rw [List.foldl_cons, contentLengthStep_of_not_declares hl, ih hlater]
    rwa [hrest]

/-- What the first loop returns is a header that arrived. -/
theorem readHeader_eq_ok_iff {reads rest : List Bytes} {data data' : Bytes} {headerEnd : Nat}
    (hreads : ∀ chunk ∈ reads, chunk ≠ []) (hnone : findSubslice data blankLine = none)
    (hshort : data.length ≤ headerLimit) :
    readHeader data reads = .ok (data', headerEnd, rest) ↔
      ∃ before chunk index, reads = before ++ chunk :: rest ∧
        findSubslice (data ++ before.flatten) blankLine = none ∧
        (data ++ before.flatten).length ≤ headerLimit ∧
        findSubslice (data ++ before.flatten ++ chunk) blankLine = some index ∧
        data' = data ++ before.flatten ++ chunk ∧ headerEnd = index + 4 := by
  induction reads generalizing data with
  | nil => exact iff_of_false nofun fun ⟨before, chunk, _, hsplit, _⟩ => by cases before <;> cases hsplit
  | cons c reads ih =>
    obtain ⟨hc, hrest⟩ := List.forall_mem_cons.mp hreads
    rw [readHeader, if_neg hc]
    constructor
    · intro h
      cases hfind : findSubslice (data ++ c) blankLine with
      | some index =>
        rw [hfind] at h
        cases h
        refine ⟨[], c, index, rfl, ?_⟩
        rw [List.flatten_nil, List.append_nil]
        exact ⟨hnone, hshort, hfind, rfl, rfl⟩
      | none =>
        rw [hfind] at h
        dsimp only at h
        split at h
        · cases h
        · rename_i hlimit
          obtain ⟨before, chunk, index, rfl, h⟩ := (ih hrest hfind (Nat.not_lt.mp hlimit)).mp h
          refine ⟨c :: before, chunk, index, rfl, ?_⟩
          rwa [List.flatten_cons, ← List.append_assoc]
    · rintro ⟨before, chunk, index, hsplit, hbefore, hlimit, hfind, rfl, rfl⟩
      cases before with
      | nil =>
        cases hsplit
        rw [List.flatten_nil, List.append_nil] at hfind ⊢
        rw [hfind]
      | cons c' before =>
        cases hsplit
        have hdata : data ++ (c :: before).flatten = data ++ c ++ before.flatten := by
          rw [List.flatten_cons, List.append_assoc]
        rw [hdata] at hbefore hlimit hfind
        have hfirst : findSubslice (data ++ c) blankLine = none :=
          Framing.find_eq_none_of_prefix (List.cons_ne_nil _ _) (List.prefix_append ..) hbefore
        have hfits : (data ++ c).length ≤ headerLimit := by
          rw [List.length_append] at hlimit
          omega
        rw [hfirst]
        dsimp only
        rw [if_neg (Nat.not_lt.mpr hfits)]
        exact (ih hrest hfirst hfits).mpr ⟨before, chunk, index, rfl, hbefore, hlimit, hfind, by rw [hdata], rfl⟩

private theorem le_length_readBody (target : Nat) (data : Bytes) (reads : List Bytes) :
    data.length ≤ (readBody target data reads).length := by
  induction reads generalizing data with
  | nil => exact Nat.le_refl _
  | cons chunk reads ih =>
    rw [readBody]
    split
    · refine Nat.le_trans ?_ (ih (data ++ chunk))
      rw [List.length_append]
      exact Nat.le_add_right _ _
    · exact Nat.le_refl _

/-- In both builds a sum past the limit panics: at the addition, or at the slice whose end has
wrapped to before its start. -/
theorem takeBody_eq (profile : Profile) {data : Bytes} {headerEnd contentLength : Nat} (reads : List Bytes)
    (hheader : headerEnd ≤ data.length) (hend : headerEnd < UInt64.size)
    (hlength : contentLength < UInt64.size) :
    takeBody profile data reads headerEnd contentLength =
      if UInt64.size ≤ headerEnd + contentLength then .error .panic
      else if (readBody (headerEnd + contentLength) data reads).length < headerEnd + contentLength then
        .error (.io .unexpectedEof "short body".toList)
      else
        .ok (((readBody (headerEnd + contentLength) data reads).take
          (headerEnd + contentLength)).drop headerEnd) := by
  unfold takeBody addUsize
  by_cases hfits : headerEnd + contentLength < UInt64.size
  · rw [if_pos hfits, if_neg (Nat.not_le.mpr hfits), ok_bind]
    dsimp only
    split
    · rfl
    · rename_i hlong
      rw [slice, if_pos ⟨Nat.le_add_right _ _, Nat.not_lt.mp hlong⟩]
  · rw [if_neg hfits, if_pos (Nat.not_lt.mp hfits)]
    cases profile with
    | checked => rfl
    | wrapping =>
      have hwrap : (headerEnd + contentLength) % UInt64.size < headerEnd := by
        rw [Nat.mod_eq_sub_mod (Nat.not_lt.mp hfits), Nat.mod_eq_of_lt (by omega)]
        omega
      have hlong := le_length_readBody ((headerEnd + contentLength) % UInt64.size) data reads
      rw [ok_bind]
      dsimp only
      rw [if_neg (by omega), slice, if_neg fun h => Nat.not_le.mpr hwrap h.1]

private theorem readHeader_ne_panic (data : Bytes) (reads : List Bytes) : readHeader data reads ≠ .error .panic := by
  induction reads generalizing data with
  | nil =>
    intro h
    cases h
  | cons chunk reads ih =>
    rw [readHeader]
    intro h
    split at h
    · cases h
    · split at h
      · cases h
      · split at h
        · cases h
        · exact ih _ h

private theorem parseHeaders_ne_panic (headers : Str) : parseHeaders headers ≠ .error .panic := by
  rw [parseHeaders]
  intro h
  split at h
  · cases h
  · split at h <;> cases h

private theorem parseHeaders_eq_ok_iff {headers path : Str} {headerLines : List Str} :
    parseHeaders headers = .ok (path, headerLines) ↔ ∃ requestLine method rest,
      lines headers = requestLine :: headerLines ∧ splitWhitespace requestLine = method :: path :: rest := by
  rw [parseHeaders]
  constructor
  · intro h
    split at h
    · cases h
    · rename_i requestLine headerLines' hlines
      split at h
      · cases h
      · cases h
      · rename_i method path' rest hwords
        cases h
        exact ⟨requestLine, method, rest, hlines, hwords⟩
  · rintro ⟨requestLine, method, rest, hlines, hwords⟩
    rw [hlines]
    dsimp only
    rw [hwords]

private theorem overlong_iff {header : Bytes} (hheader : header.length < UInt64.size) : Overlong header ↔
    ∃ path headerLines, parseHeaders (fromUtf8Lossy header) = .ok (path, headerLines) ∧
      UInt64.size ≤ header.length + contentLength headerLines := by
  have hbound (n : Nat) : UInt64.size ≤ header.length + n ↔ UInt64.size - header.length ≤ n := by omega
  constructor
  · rintro ⟨requestLine, earlier, line, later, length, hlines, hwords, hline, hlater, hle⟩
    obtain ⟨method, path, rest, hsplit⟩ : ∃ method path rest,
        splitWhitespace requestLine = method :: path :: rest := by
      match splitWhitespace requestLine, hwords with
      | method :: path :: rest, _ => exact ⟨method, path, rest, rfl⟩
    refine ⟨path, _, parseHeaders_eq_ok_iff.mpr ⟨requestLine, method, rest, hlines, hsplit⟩, ?_⟩
    rw [hbound] at hle ⊢
    exact (exists_declares_iff (by omega)).mpr ⟨earlier, line, later, length, rfl, hline, hlater, hle⟩
  · rintro ⟨path, headerLines, hparse, hle⟩
    obtain ⟨requestLine, method, rest, hlines, hsplit⟩ := parseHeaders_eq_ok_iff.mp hparse
    rw [hbound] at hle
    obtain ⟨earlier, line, later, length, rfl, hline, hlater, hle⟩ := (exists_declares_iff (by omega)).mp hle
    refine ⟨requestLine, earlier, line, later, length, hlines, ?_, hline, hlater, (hbound _).mpr hle⟩
    rw [hsplit]
    exact Nat.le_add_left _ _

section
variable {reads : List Bytes} (hreads : ∀ chunk ∈ reads, 1 ≤ chunk.length ∧ chunk.length ≤ 1024)
include hreads

private theorem reads_ne_nil : ∀ chunk ∈ reads, chunk ≠ [] := fun chunk hchunk =>
  List.ne_nil_of_length_pos (hreads chunk hchunk).1

/-- The header the first loop returns lies in its data, which one read past the limit bounds. -/
theorem readHeader_bounds {data : Bytes} {headerEnd : Nat} {rest : List Bytes}
    (h : readHeader [] reads = .ok (data, headerEnd, rest)) :
    headerEnd ≤ data.length ∧ HeaderArrives reads (data.take headerEnd) ∧ headerEnd < UInt64.size := by
  obtain ⟨before, chunk, index, hsplit, hnone, hlimit, hfind, rfl, rfl⟩ :=
    (readHeader_eq_ok_iff (reads_ne_nil hreads) rfl (Nat.zero_le _)).mp h
  rw [List.nil_append] at hnone hlimit hfind ⊢
  have hle := Framing.find_add_length_le (List.cons_ne_nil _ _) hfind
  have hchunk := (hreads chunk (by rw [hsplit]; simp)).2
  have hsize : headerLimit + 1024 < UInt64.size := by decide
  simp only [List.length_cons, List.length_nil, List.length_append] at hle ⊢
  exact ⟨hle, ⟨before, chunk, rest, index, hsplit, hnone, hlimit, hfind, rfl⟩, by omega⟩

/-- The build makes no difference, and the slices need no check but the sum's. -/
theorem readHttpRequestIn_eq (profile : Profile) : readHttpRequestIn profile reads = readHttpRequest reads := by
  rw [readHttpRequestIn, readHttpRequest]
  cases hread : readHeader [] reads with
  | error error => rfl
  | ok read =>
    obtain ⟨data, headerEnd, rest⟩ := read
    obtain ⟨hheader, -, hend⟩ := readHeader_bounds hreads hread
    rw [ok_bind, ok_bind]
    dsimp only
    rw [slice, if_pos ⟨Nat.zero_le _, hheader⟩, ok_bind, List.drop_zero]
    cases parseHeaders (fromUtf8Lossy (data.take headerEnd)) with
    | error error => rfl
    | ok parsed =>
      rw [ok_bind, ok_bind, takeBody_eq profile rest hheader hend (contentLength_lt _)]
      split
      · rfl
      · split <;> rfl

/-- The reader panics on no other streams. -/
theorem readHttpRequest_eq_panic_iff :
    readHttpRequest reads = .error .panic ↔ ∃ header, HeaderArrives reads header ∧ Overlong header := by
  constructor
  · intro h
    rw [readHttpRequest] at h
    cases hread : readHeader [] reads with
    | error error =>
      rw [hread] at h
      cases h
      exact absurd hread (readHeader_ne_panic [] reads)
    | ok read =>
      obtain ⟨data, headerEnd, rest⟩ := read
      obtain ⟨hheader, harrives, hend⟩ := readHeader_bounds hreads hread
      have hlength : (data.take headerEnd).length = headerEnd := List.length_take_of_le hheader
      refine ⟨_, harrives, (overlong_iff (by rwa [hlength])).mpr ?_⟩
      rw [hread, ok_bind] at h
      dsimp only at h
      cases hparse : parseHeaders (fromUtf8Lossy (data.take headerEnd)) with
      | error error =>
        rw [hparse] at h
        cases h
        exact absurd hparse (parseHeaders_ne_panic _)
      | ok parsed =>
        refine ⟨parsed.1, parsed.2, rfl, ?_⟩
        rw [hparse, ok_bind] at h
        rw [hlength]
        split at h
        · assumption
        · split at h <;> cases h
  · rintro ⟨header, ⟨before, chunk, later, index, hsplit, hnone, hlimit, hfind, rfl⟩, hlong⟩
    have hread : readHeader [] reads = .ok _ := (readHeader_eq_ok_iff (reads_ne_nil hreads) rfl (Nat.zero_le _)).mpr
      ⟨before, chunk, index, hsplit, hnone, hlimit, hfind, rfl, rfl⟩
    obtain ⟨hheader, -, hend⟩ := readHeader_bounds hreads hread
    have hlength := List.length_take_of_le hheader
    rw [List.nil_append] at hread hlength
    obtain ⟨path, headerLines, hparse, hsize⟩ := (overlong_iff (by rwa [hlength])).mp hlong
    rw [hlength] at hsize
    rw [readHttpRequest, hread, ok_bind]
    dsimp only
    rw [hparse, ok_bind, if_pos hsize]

end

/-- In either build, reading a stream that is cut into reads ends with a request or an
`io::Error` if and only if no header that arrives is overlong. -/
theorem reader_survives_iff (profile : Profile) {stream : Bytes} {reads : List Bytes}
    (hsegmented : Segmented reads stream) : readHttpRequestIn profile reads ≠ .error .panic ↔
      ∀ header, HeaderArrives reads header → ¬ Overlong header := by
  rw [readHttpRequestIn_eq hsegmented.2, Ne, readHttpRequest_eq_panic_iff hsegmented.2]
  simp only [not_exists, not_and]

private theorem headerArrives_single_iff {ls : List Str} (hls : ls ≠ []) (h : ∀ l ∈ ls, HeaderLine l)
    {header : Bytes} : HeaderArrives [utf8 (Framing.header '\r' '\n' ls)] header ↔
      header = utf8 (Framing.header '\r' '\n' ls) := by
  obtain ⟨index, hindex, hfind⟩ := findSubslice_header hls h []
  rw [List.append_nil] at hfind
  constructor
  · rintro ⟨before, chunk, later, index', hsplit, -, -, hfind', rfl⟩
    cases before with
    | nil =>
      cases hsplit
      rw [List.flatten_nil, List.nil_append] at hfind' ⊢
      obtain rfl := Option.some.inj (hfind.symm.trans hfind')
      rw [hindex, List.take_length]
    | cons first before => cases before <;> cases hsplit
  · rintro rfl
    refine ⟨[], _, [], index, rfl, rfl, Nat.zero_le _, hfind, ?_⟩
    rw [List.flatten_nil, List.nil_append, hindex, List.take_length]

private def plainLines : List Str := ["GET / HTTP/1.1".toList, "Host: a".toList]

/-- A request without a body is read. -/
theorem reader_survives_plain :
    readHttpRequestIn .checked [utf8 (Framing.header '\r' '\n' plainLines)] ≠ .error .panic := by
  have hlines : ∀ l ∈ plainLines, HeaderLine l := by unfold HeaderLine; decide
  refine (reader_survives_iff .checked ⟨List.flatten_singleton, by decide +kernel⟩).mpr ?_
  intro header harrives hlong
  obtain rfl := (headerArrives_single_iff (List.cons_ne_nil _ _) hlines).mp harrives
  obtain ⟨requestLine, earlier, line, later, length, hsplit, -, ⟨name, value, hcolon, hname, -⟩, -⟩ := hlong
  have hread : lines (Framing.header '\r' '\n' plainLines) = plainLines ++ [[]] :=
    lines_header fun l hl => (hlines l hl).2
  rw [fromUtf8Lossy_utf8] at hsplit
  have hmem : line ∈ ["Host: a".toList, []] := by
    have htail : ["Host: a".toList, []] = earlier ++ line :: later :=
      congrArg List.tail (hread.symm.trans hsplit)
    rw [htail]
    exact List.mem_append_right _ List.mem_cons_self
  rw [List.mem_pair] at hmem
  rcases hmem with rfl | rfl
  · cases hcolon
    cases hname
  · cases hcolon

private def endlessLines : List Str :=
  ["POST /v1/keys/get HTTP/1.1".toList, "Content-Length: 18446744073709551615".toList]

/-- A content length of `u64::MAX` panics in either build. -/
theorem content_length_panics : ∃ stream reads, Segmented reads stream ∧
    ∀ profile, readHttpRequestIn profile reads = .error .panic := by
  have hlines : ∀ l ∈ endlessLines, HeaderLine l := by unfold HeaderLine; decide
  have hsegmented : Segmented [utf8 (Framing.header '\r' '\n' endlessLines)] _ :=
    ⟨List.flatten_singleton, by decide +kernel⟩
  refine ⟨_, _, hsegmented, fun profile => ?_⟩
  rw [readHttpRequestIn_eq hsegmented.2, readHttpRequest_eq_panic_iff hsegmented.2]
  refine ⟨_, (headerArrives_single_iff (List.cons_ne_nil _ _) hlines).mpr rfl, ?_⟩
  refine ⟨"POST /v1/keys/get HTTP/1.1".toList, [], "Content-Length: 18446744073709551615".toList, [[]],
    18446744073709551615, ?_, by decide, ⟨_, _, rfl, by decide, by decide +kernel⟩, ?_, by decide +kernel⟩
  · have hread : lines (Framing.header '\r' '\n' endlessLines) = endlessLines ++ [[]] :=
      lines_header fun l hl => (hlines l hl).2
    rw [fromUtf8Lossy_utf8]
    exact hread
  · rintro l hl n ⟨name, value, hcolon, -⟩
    rw [List.mem_singleton.mp hl] at hcolon
    cases hcolon

end SshKeySync.Runtime

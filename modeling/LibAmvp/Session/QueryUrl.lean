import LibAmvp.Session.Context
import LibAmvp.Session.UserAgent

/-!
# Query URLs

A search on the server is a GET request whose URL carries a list of parameters.  The
URL is printed piece by piece into a buffer, and the place of the next piece is the
sum of the lengths {lit}`snprintf` would have liked to write.  What is left of the buffer
is looked at once for each parameter, after its key and its value have been printed.

Main results:

- Theorem {lit}`appendParameters_of_fits`: while the URL fits, every piece is printed in full.
- Theorem {lit}`printAt_keeps`: what is printed inside the buffer leaves its last but one cell
  a terminator.
- Theorem {lit}`queryUrl_iff`: the URL is complete, and no piece is printed outside the
  buffer, exactly when it fits.
-/

namespace LibAmvp

open Cells

/-! ## Parameters -/

/-- A C string: its characters before the terminator. -/
structure CString where
  chars : List Char
  nulFree : nul ∉ chars

def amvpUtilKvStrMax : Nat := 256

/-- One entry of {lit}`AMVP_KV_LIST`. -/
structure KeyValue where
  key : CString
  value : CString

/-- {lit}`amvp_kv_list_append`. -/
def kvListAppend (kvList : List KeyValue) (key value : CString) :
    AmvpResult × List KeyValue :=
  if amvpUtilKvStrMax < key.chars.length ∨ amvpUtilKvStrMax < value.chars.length then
    (.invalidArg, kvList)
  else
    (.success, kvList ++ [⟨key, value⟩])

/-- {lit}`curl_easy_escape`, with what the library relies on: a string becomes at most
three times as long, never shorter, and stays a string. -/
structure Escaper where
  escape : List Char → List Char
  length_le : ∀ as, (escape as).length ≤ 3 * as.length
  le_length : ∀ as, as.length ≤ (escape as).length
  nulFree : ∀ as, nul ∉ as → nul ∉ escape as

/-! ## Printing the URL -/

/-- The space left in the URL buffer, as an {lit}`int`. -/
def remSpace (len : Nat) : Int := amvpAttrUrlMax - len

/-- An {lit}`int` passed as a {lit}`size_t`. -/
def asSize (n : Int) : Nat := (n % 2 ^ 64).toNat

/-- {lit}`len += snprintf(full_url + len, rem_space, ...)`. -/
def printAt (fullUrl : List Char) (len : Nat) (as : List Char) : Checked (List Char × Nat) := do
  return (← Cells.snprintf nul fullUrl len (asSize (remSpace len)) as, len + as.length)

variable (curl : Escaper)

/-- The part of a value that is escaped: {lit}`strnlen_s` stops at the space left, and a
length of zero asks for the whole string. -/
def boundedValue (value : List Char) (len : Nat) : List Char :=
  if remSpace len ≤ 0 then value else value.take (remSpace len).toNat

/-- One round of the loop of {lit}`amvp_transport_get`. -/
def appendParameter (fullUrl : List Char) (len : Nat) (join : Bool) (param : KeyValue) :
    Checked (List Char × Nat) := do
  let (fullUrl, len) ← printAt fullUrl len
    (if join then '&' :: param.key.chars else param.key.chars)
  printAt fullUrl len (curl.escape (boundedValue param.value.chars len))

/-- The loop of {lit}`amvp_transport_get`. -/
def appendParameters (fullUrl : List Char) (len : Nat) (join : Bool) :
    List KeyValue → Checked (List Char)
  | [] => return fullUrl
  | param :: next => do
    let (fullUrl, len) ← appendParameter curl fullUrl len join param
    if next = [] ∨ remSpace len ≤ 0 then
      return fullUrl
    else
      appendParameters fullUrl len true next

/-- The URL without its parameters. -/
def queryBase (serverName : CString) (serverPort : Int) (url : CString) : List Char :=
  "https://".toList ++ serverName.chars ++ ':' :: (toString serverPort).toList ++ url.chars

/-- The URL {lit}`amvp_transport_get` hands to the network action, for a context with a
server and a list of parameters that may be empty. -/
def queryUrl (serverName : CString) (serverPort : Int) (url : CString)
    (parameters : List KeyValue) : Checked (List Char) := do
  let (fullUrl, len) ← printAt (List.replicate (amvpAttrUrlMax + 1) nul) 0
    (queryBase serverName serverPort url)
  let fullUrl ← appendParameters curl fullUrl len false parameters
  return text nul fullUrl

/-- The parameters as they should follow the URL. -/
def query (join : Bool) : List KeyValue → List Char
  | [] => []
  | param :: next =>
    (if join then '&' :: param.key.chars else param.key.chars) ++
      curl.escape param.value.chars ++ query true next

/-- The URL that is meant. -/
def completeQueryUrl (serverName : CString) (serverPort : Int) (url : CString)
    (parameters : List KeyValue) : List Char :=
  queryBase serverName serverPort url ++ query curl false parameters

section Printing

variable {curl}

/-- A length that is not negative is its own size. -/
theorem asSize_of_nonneg {n : Int} (h : 0 ≤ n) (hmax : n < 2 ^ 64) : asSize n = n.toNat := by
  rw [asSize, Int.emod_eq_of_lt h hmax]

/-- The space that is left, while the length is within the limit. -/
theorem asSize_remSpace {len : Nat} (h : len ≤ amvpAttrUrlMax) :
    asSize (remSpace len) = amvpAttrUrlMax - len := by
  rw [asSize_of_nonneg, remSpace]
  · omega
  · rw [remSpace]
    omega
  · rw [remSpace, amvpAttrUrlMax]
    omega

/-- A piece that fits is printed behind the text there is. -/
theorem printAt_of_fits {acc back : List Char} (as : List Char)
    (hsize : (acc ++ nul :: back).length = amvpAttrUrlMax + 1)
    (hfits : acc.length + as.length < amvpAttrUrlMax) :
    ∃ back', (acc ++ as ++ nul :: back').length = amvpAttrUrlMax + 1 ∧
      printAt (acc ++ nul :: back) acc.length as =
        .ok (acc ++ as ++ nul :: back', acc.length + as.length) := by
  have hroom : acc.length + (as ++ [nul]).length ≤ (acc ++ nul :: back).length := by
    rw [List.length_append, List.length_singleton]
    omega
  have hwrite := writeAll_of_le (as ++ [nul]) hroom
  refine ⟨(acc ++ nul :: back).drop (acc.length + (as ++ [nul]).length), ?_, ?_⟩
  · simp only [List.length_append, List.length_cons, List.length_drop, List.length_nil] at hsize ⊢
    omega
  rw [printAt, Cells.snprintf, asSize_remSpace (by omega), if_neg (by omega),
    List.take_of_length_le (by omega), hwrite, List.take_left]
  simp

/-- The URL buffer: its last but one cell is always a terminator. -/
structure UrlBuffer (cells : List Char) : Prop where
  size : cells.length = amvpAttrUrlMax + 1
  last : cells[amvpAttrUrlMax - 1]? = some nul

/-- A buffer of terminators is one for a URL. -/
theorem urlBuffer_fresh : UrlBuffer (List.replicate (amvpAttrUrlMax + 1) nul) := by
  refine ⟨List.length_replicate, ?_⟩
  rw [List.getElem?_replicate, if_pos (by rw [amvpAttrUrlMax]; omega)]

/-- The text of such a buffer is within the limit. -/
theorem UrlBuffer.length_text_lt {cells : List Char} (h : UrlBuffer cells) :
    (text nul cells).length < amvpAttrUrlMax := by
  have hle := length_text_le h.last
  have hmax : amvpAttrUrlMax = 2083 := rfl
  omega

/-- What is printed inside the buffer leaves the last but one cell a terminator. -/
theorem printAt_keeps {cells cells' as : List Char} {len len' : Nat} (h : UrlBuffer cells)
    (hprint : printAt cells len as = .ok (cells', len')) : UrlBuffer cells' := by
  obtain ⟨written, hwritten, heq⟩ := Guard.bind_eq_ok.mp hprint
  injection heq with heq
  injection heq with hcells _
  subst hcells
  rw [Cells.snprintf] at hwritten
  split at hwritten
  · injection hwritten with hwritten
    rwa [← hwritten]
  · next hroom =>
    have hin := (writeAll_isOk_iff (by simp)).mp ⟨_, hwritten⟩
    have hsize := h.size
    have hmax : amvpAttrUrlMax = 2083 := rfl
    rw [List.length_append, List.length_singleton] at hin
    -- the space left is positive: without space, or with a negative one, no write stays inside
    have hlen : len < amvpAttrUrlMax := by
      by_contra hge
      rcases Nat.lt_or_eq_of_le (Nat.not_lt.mp hge) with hgt | heq
      · omega
      · exact hroom (by rw [asSize_remSpace (Nat.le_of_eq heq.symm), heq, Nat.sub_self])
    rw [asSize_remSpace (Nat.le_of_lt hlen)] at hwritten hin
    rw [writeAll_of_le _ (by simpa using hin)] at hwritten
    injection hwritten with hwritten
    subst hwritten
    have htake : (cells.take len).length = len := by
      rw [List.length_take]
      omega
    have hpiece : (as.take (amvpAttrUrlMax - len - 1)).length ≤ amvpAttrUrlMax - len - 1 :=
      List.length_take_le _ _
    generalize as.take (amvpAttrUrlMax - len - 1) = piece at hpiece hin
    constructor
    · simp only [List.length_append, htake, List.length_singleton, List.length_drop]
      omega
    · rw [List.getElem?_append_right (by omega), htake]
      by_cases hfull : piece.length = amvpAttrUrlMax - 1 - len
      · rw [List.append_assoc, List.getElem?_append_right (by omega), hfull, Nat.sub_self]
        rfl
      · rw [List.getElem?_append_right (by rw [List.length_append, List.length_singleton]; omega),
          List.getElem?_drop, List.length_append, List.length_singleton, ← h.last]
        congr 1
        omega

/-- The query of the first parameter and then of the others. -/
theorem query_cons (join : Bool) (param : KeyValue) (next : List KeyValue) :
    query curl join (param :: next) = query curl join [param] ++ query curl true next := by
  simp only [query, List.append_nil]

/-- One round of the loop prints a key and a value that fit. -/
theorem appendParameter_of_fits {acc back : List Char} (join : Bool) (param : KeyValue)
    (hsize : (acc ++ nul :: back).length = amvpAttrUrlMax + 1)
    (hfits : acc.length + (query curl join [param]).length < amvpAttrUrlMax) :
    ∃ back', (acc ++ query curl join [param] ++ nul :: back').length = amvpAttrUrlMax + 1 ∧
      appendParameter curl (acc ++ nul :: back) acc.length join param =
        .ok (acc ++ query curl join [param] ++ nul :: back',
          acc.length + (query curl join [param]).length) := by
  simp only [query, List.append_nil] at hfits ⊢
  rw [appendParameter]
  generalize (if join then '&' :: param.key.chars else param.key.chars) = key at hfits ⊢
  have hvalue := curl.le_length param.value.chars
  rw [List.length_append] at hfits
  obtain ⟨back₁, hsize₁, hkey⟩ := printAt_of_fits key hsize (by omega)
  have hbounded : boundedValue param.value.chars (acc.length + key.length) =
      param.value.chars := by
    rw [boundedValue, remSpace, if_neg (by omega), List.take_of_length_le (by omega)]
  rw [← List.length_append] at hkey hbounded
  obtain ⟨back₂, hsize₂, hescaped⟩ := printAt_of_fits (curl.escape param.value.chars) hsize₁
    (by rw [List.length_append]; omega)
  refine ⟨back₂, by simpa using hsize₂, ?_⟩
  rw [hkey, Guard.ok_bind]
  dsimp only
  rw [hbounded, hescaped]
  simp [Nat.add_assoc]

/-- While the URL fits, every piece is printed in full. -/
theorem appendParameters_of_fits {acc back : List Char} (join : Bool)
    {parameters : List KeyValue}
    (hsize : (acc ++ nul :: back).length = amvpAttrUrlMax + 1)
    (hfits : acc.length + (query curl join parameters).length < amvpAttrUrlMax) :
    ∃ back', appendParameters curl (acc ++ nul :: back) acc.length join parameters =
      .ok (acc ++ query curl join parameters ++ nul :: back') := by
  induction parameters generalizing acc back join with
  | nil => exact ⟨back, by simp [appendParameters, query]⟩
  | cons param next ih =>
      rw [query_cons, List.length_append] at hfits
      have hparam : acc.length + (query curl join [param]).length < amvpAttrUrlMax := by
        omega
      obtain ⟨back₁, hsize₁, hround⟩ := appendParameter_of_fits join param hsize hparam
      rw [appendParameters, hround, Guard.ok_bind]
      dsimp only
      by_cases hnext : next = []
      · subst hnext
        exact ⟨back₁, by simp⟩
      · obtain ⟨back₂, hrest⟩ := ih true hsize₁ (by rw [List.length_append]; omega)
        refine ⟨back₂, ?_⟩
        rw [if_neg (by rw [remSpace]; simp only [hnext, false_or]; omega), ← List.length_append,
          hrest, query_cons join param next]
        simp

/-- A round of the loop keeps the buffer one for a URL. -/
theorem appendParameter_keeps {cells cells' : List Char} {len len' : Nat} {join : Bool}
    {param : KeyValue} (h : UrlBuffer cells)
    (hround : appendParameter curl cells len join param = .ok (cells', len')) :
    UrlBuffer cells' := by
  obtain ⟨⟨cells₁, len₁⟩, hkey, hvalue⟩ := Guard.bind_eq_ok.mp hround
  exact printAt_keeps (printAt_keeps h hkey) hvalue

/-- The loop keeps the last but one cell a terminator, however long the URL gets. -/
theorem appendParameters_keeps {cells cells' : List Char} {len : Nat} {join : Bool}
    {parameters : List KeyValue} (h : UrlBuffer cells)
    (hrun : appendParameters curl cells len join parameters = .ok cells') :
    UrlBuffer cells' := by
  induction parameters generalizing cells len join with
  | nil =>
      injection hrun with hrun
      rwa [← hrun]
  | cons param next ih =>
      obtain ⟨⟨cells₂, len₂⟩, hround, hrun⟩ := Guard.bind_eq_ok.mp hrun
      have hkeeps := appendParameter_keeps h hround
      dsimp only at hrun
      split at hrun
      · injection hrun with hrun
        rwa [← hrun]
      · exact ih hkeeps hrun

/-- A query has no terminator inside. -/
theorem nul_notMem_query (join : Bool) (parameters : List KeyValue) :
    nul ∉ query curl join parameters := by
  induction parameters generalizing join with
  | nil => simp [query]
  | cons param next ih =>
      have hamp : nul ≠ '&' := by decide
      have hkey := param.key.nulFree
      have hvalue := curl.nulFree _ param.value.nulFree
      cases join <;> simp [query, hamp, hkey, hvalue, ih]

/-- Nor has a number. -/
theorem nul_notMem_toString (n : Int) : nul ∉ (toString n).toList := by
  have hnat : ∀ m : Nat, nul ∉ m.repr.toList := by
    intro m hmem
    rw [Nat.toList_repr] at hmem
    exact absurd (Nat.isDigit_of_mem_toDigits (by decide) (by decide) hmem) (by decide)
  cases n with
  | ofNat m => exact hnat m
  | negSucc m =>
      have hminus : nul ∉ "-".toList := by decide
      have hsplit : toString (Int.negSucc m) = "-" ++ (m + 1).repr := rfl
      rw [hsplit, String.toList_append, List.mem_append, not_or]
      exact ⟨hminus, hnat (m + 1)⟩

/-- Nor has what stands before the query. -/
theorem nul_notMem_queryBase (serverName : CString) (serverPort : Int) (url : CString) :
    nul ∉ queryBase serverName serverPort url := by
  have hscheme : nul ∉ "https://".toList := by decide
  have hcolon : nul ≠ ':' := by decide
  have hport := nul_notMem_toString serverPort
  intro hmem
  rcases List.mem_append.mp hmem with hmem | hmem
  · rcases List.mem_append.mp hmem with hmem | hmem
    · rcases List.mem_append.mp hmem with hmem | hmem
      · exact hscheme hmem
      · exact serverName.nulFree hmem
    · rcases List.mem_cons.mp hmem with hmem | hmem
      · exact hcolon hmem
      · exact hport hmem
  · exact url.nulFree hmem

/-- The buffer after the URL without parameters. -/
theorem printAt_fresh {as : List Char} (hfits : as.length < amvpAttrUrlMax) :
    ∃ back, (as ++ nul :: back).length = amvpAttrUrlMax + 1 ∧
      printAt (List.replicate (amvpAttrUrlMax + 1) nul) 0 as =
        .ok (as ++ nul :: back, as.length) := by
  have hsize : ([] ++ nul :: List.replicate amvpAttrUrlMax nul).length = amvpAttrUrlMax + 1 := by
    simp
  obtain ⟨back, hback, hprint⟩ := printAt_of_fits as hsize (by simpa using hfits)
  simp only [List.nil_append, List.length_nil, Nat.zero_add] at hback hprint
  exact ⟨back, hback, by rw [List.replicate_succ]; exact hprint⟩

/-- A URL that leaves the buffer is not complete, and every printed one is cut to the
space there is. -/
theorem queryUrl_length_lt {serverName : CString} {serverPort : Int} {url : CString}
    {parameters : List KeyValue} {sent : List Char}
    (h : queryUrl curl serverName serverPort url parameters = .ok sent) :
    sent.length < amvpAttrUrlMax := by
  obtain ⟨⟨cells, len⟩, hbase, h⟩ := Guard.bind_eq_ok.mp h
  obtain ⟨cells', hrun, h⟩ := Guard.bind_eq_ok.mp h
  injection h with h
  rw [← h]
  exact (appendParameters_keeps (printAt_keeps urlBuffer_fresh hbase) hrun).length_text_lt

/-- The URL of a search is complete, and no piece of it is printed outside the buffer,
exactly when it fits. -/
theorem queryUrl_iff (curl : Escaper) (serverName : CString) (serverPort : Int) (url : CString)
    (parameters : List KeyValue) :
    queryUrl curl serverName serverPort url parameters =
        .ok (completeQueryUrl curl serverName serverPort url parameters) ↔
      (completeQueryUrl curl serverName serverPort url parameters).length < amvpAttrUrlMax := by
  constructor
  · exact queryUrl_length_lt
  · intro hfits
    rw [completeQueryUrl, List.length_append] at hfits
    obtain ⟨back, hsize, hbase⟩ := printAt_fresh (Nat.lt_of_le_of_lt (Nat.le_add_right _ _) hfits)
    obtain ⟨back', hrun⟩ := appendParameters_of_fits false hsize hfits
    have hnul : nul ∉ completeQueryUrl curl serverName serverPort url parameters := by
      rw [completeQueryUrl, List.mem_append, not_or]
      exact ⟨nul_notMem_queryBase _ _ _, nul_notMem_query _ _⟩
    rw [queryUrl, hbase, Guard.ok_bind]
    dsimp only
    rw [hrun, Guard.ok_bind, Guard.pure_eq, ← completeQueryUrl, text_append hnul]

/-! ## Leaving the buffer -/

/-- The separator and the key of a parameter. -/
def keyPiece (join : Bool) (param : KeyValue) : List Char :=
  if join then '&' :: param.key.chars else param.key.chars

/-- Beyond the limit the space that is left wraps around. -/
theorem asSize_ne_zero {len : Nat} (h : amvpAttrUrlMax < len) (hmax : len < 2 ^ 63) :
    asSize (remSpace len) ≠ 0 := by
  have hneg : remSpace len < 0 := by
    rw [remSpace]
    omega
  have hmod : remSpace len % 2 ^ 64 = remSpace len + 2 ^ 64 := by
    rw [← Int.add_emod_right, Int.emod_eq_of_lt]
    · rw [remSpace]
      omega
    · omega
  rw [asSize, hmod, remSpace]
  omega

/-- A piece that follows a URL too long for the buffer is printed outside. -/
theorem printAt_outside {cells as : List Char} {len : Nat}
    (hsize : cells.length = amvpAttrUrlMax + 1) (h : amvpAttrUrlMax < len) (hmax : len < 2 ^ 63) :
    ∃ i, printAt cells len as = .error i := by
  have hout : cells.length < len + (as.take (asSize (remSpace len) - 1) ++ [nul]).length := by
    rw [List.length_append, List.length_singleton]
    omega
  obtain ⟨i, hi⟩ := writeAll_of_lt (by simp) hout
  refine ⟨i, ?_⟩
  rw [printAt, Cells.snprintf, if_neg (asSize_ne_zero h hmax), hi, Checked.error_bind]

/-- A key that does not fit any more takes its value out of the buffer. -/
theorem appendParameter_outside {cells : List Char} {len : Nat} {join : Bool}
    {param : KeyValue} (h : UrlBuffer cells)
    (hcross : amvpAttrUrlMax < len + (keyPiece join param).length)
    (hmax : len + (keyPiece join param).length < 2 ^ 63) :
    ∃ i, appendParameter curl cells len join param = .error i := by
  rw [appendParameter]
  cases hkey : printAt cells len (if join then '&' :: param.key.chars else param.key.chars) with
  | error i => exact ⟨i, rfl⟩
  | ok printed =>
      obtain ⟨cells', len'⟩ := printed
      have hbuffer := printAt_keeps h hkey
      have hlen : len' = len + (keyPiece join param).length := by
        obtain ⟨written, -, heq⟩ := Guard.bind_eq_ok.mp hkey
        injection heq with heq
        injection heq with _ heq
        exact heq.symm
      rw [Guard.ok_bind]
      exact printAt_outside hbuffer.size (by omega) (by omega)

/-- The loop leaves the buffer when the URL fits up to a parameter but not up to the end of
its key. -/
theorem appendParameters_outside {acc back : List Char} (join : Bool)
    {earlier : List KeyValue} (next : List KeyValue) {param : KeyValue}
    (hbuffer : UrlBuffer (acc ++ nul :: back))
    (hfits : acc.length + (query curl join earlier).length < amvpAttrUrlMax)
    (hcross : amvpAttrUrlMax < acc.length + (query curl join earlier).length +
      (keyPiece (join || !earlier.isEmpty) param).length)
    (hmax : (keyPiece (join || !earlier.isEmpty) param).length < 2 ^ 62) :
    ∃ i, appendParameters curl (acc ++ nul :: back) acc.length join
      (earlier ++ param :: next) = .error i := by
  have hlimit : amvpAttrUrlMax = 2083 := rfl
  induction earlier generalizing acc back join with
  | nil =>
      simp only [query, List.length_nil, Nat.add_zero, List.isEmpty_nil, Bool.not_true,
        Bool.or_false] at hfits hcross hmax
      obtain ⟨i, hround⟩ : ∃ i, appendParameter curl (acc ++ nul :: back) acc.length join param =
          .error i := appendParameter_outside hbuffer hcross (by omega)
      exact ⟨i, by rw [List.nil_append, appendParameters, hround, Checked.error_bind]⟩
  | cons first earlier ih =>
      rw [query_cons join first earlier, List.length_append] at hfits hcross
      have hfirst : acc.length + (query curl join [first]).length < amvpAttrUrlMax := by
        omega
      obtain ⟨back₁, -, hround⟩ := appendParameter_of_fits join first hbuffer.size hfirst
      have hkey : (join || !(first :: earlier).isEmpty) = true := by simp
      rw [hkey] at hcross hmax
      obtain ⟨i, hrest⟩ := ih true (appendParameter_keeps hbuffer hround)
        (by rw [List.length_append]; omega)
        (by rw [Bool.true_or, List.length_append]; omega) (by rwa [Bool.true_or])
      refine ⟨i, ?_⟩
      rw [List.cons_append, appendParameters, hround, Guard.ok_bind]
      dsimp only
      rw [if_neg (by rw [remSpace]; simp; omega), ← List.length_append, hrest]

/-- A search whose URL fits up to a parameter but not up to the end of its key leaves the
buffer. -/
theorem queryUrl_outside {serverName : CString} {serverPort : Int} {url : CString}
    {earlier next : List KeyValue} {param : KeyValue}
    (hfits : (completeQueryUrl curl serverName serverPort url earlier).length < amvpAttrUrlMax)
    (hcross : amvpAttrUrlMax < (completeQueryUrl curl serverName serverPort url earlier).length +
      (keyPiece (!earlier.isEmpty) param).length)
    (hmax : (keyPiece (!earlier.isEmpty) param).length < 2 ^ 62) :
    ∃ i, queryUrl curl serverName serverPort url (earlier ++ param :: next) = .error i := by
  rw [completeQueryUrl, List.length_append] at hfits hcross
  obtain ⟨back, hsize, hbase⟩ := printAt_fresh (Nat.lt_of_le_of_lt (Nat.le_add_right _ _) hfits)
  obtain ⟨i, hrun⟩ := appendParameters_outside false next
    (printAt_keeps urlBuffer_fresh hbase) hfits (by simpa using hcross) (by simpa using hmax)
  refine ⟨i, ?_⟩
  rw [queryUrl, hbase, Guard.ok_bind]
  dsimp only
  rw [hrun, Checked.error_bind]

end Printing

/-! ## A search that leaves the buffer -/

/-- The characters a URL can carry as they are. -/
def isUnreserved (c : Char) : Bool := c.isAlphanum || ['-', '.', '_', '~'].contains c

/-- A hexadecimal digit, in upper case. -/
def hexDigit (n : Fin 16) : Char := if n < 10 then .ofNat (48 + n) else .ofNat (55 + n)

/-- One character of {lit}`curl_easy_escape`. -/
def escapeChar (c : Char) : List Char :=
  if isUnreserved c then [c]
  else ['%', hexDigit (Fin.ofNat 16 (c.toNat / 16)), hexDigit (Fin.ofNat 16 c.toNat)]

/-- An escaped character has one to three characters. -/
theorem length_escapeChar (c : Char) :
    1 ≤ (escapeChar c).length ∧ (escapeChar c).length ≤ 3 := by
  rw [escapeChar]
  split
  · exact ⟨Nat.le_refl 1, by simp⟩
  · exact ⟨by simp, by simp⟩

/-- And no terminator. -/
theorem nul_notMem_escapeChar {c : Char} (h : c ≠ nul) : nul ∉ escapeChar c := by
  have hhex : ∀ n, nul ≠ hexDigit n := by decide
  have hpercent : nul ≠ '%' := by decide
  rw [escapeChar]
  split
  · simpa using h.symm
  · simp [hhex, hpercent]

/-- {lit}`curl_easy_escape` as it is documented. -/
def curlEasyEscape : Escaper where
  escape as := as.flatMap escapeChar
  length_le as := by
    induction as with
    | nil => simp
    | cons c as ih =>
        have hc := (length_escapeChar c).2
        rw [List.flatMap_cons, List.length_append, List.length_cons]
        omega
  le_length as := by
    induction as with
    | nil => simp
    | cons c as ih =>
        have hc := (length_escapeChar c).1
        rw [List.flatMap_cons, List.length_append, List.length_cons]
        omega
  nulFree as h := by
    intro hmem
    obtain ⟨c, hc, hmem⟩ := List.mem_flatMap.mp hmem
    exact nul_notMem_escapeChar (fun heq => h (heq ▸ hc)) hmem

/-- A parameter with a key of 256 characters. -/
def longParameter : KeyValue where
  key := ⟨List.replicate amvpUtilKvStrMax 'k', by simp; decide⟩
  value := ⟨['v'], by decide⟩

/-- The length of the example's query. -/
theorem length_query_replicate (n : Nat) :
    (query curlEasyEscape true (List.replicate n longParameter)).length = 258 * n := by
  induction n with
  | zero => rfl
  | succ n ih =>
      have hkey : longParameter.key.chars.length = 256 := List.length_replicate
      have hvalue : (curlEasyEscape.escape longParameter.value.chars).length = 1 := by decide
      rw [List.replicate_succ, query, if_pos rfl, List.length_append, List.length_append, ih,
        List.length_cons, hkey, hvalue]
      omega

/-- A search with eight parameters, as {lit}`amvp_kv_list_append` puts them together: the
eighth key reaches the end of the buffer, and its value is printed outside. -/
theorem queryUrl_not_inside :
    (∀ kvList, kvListAppend kvList longParameter.key longParameter.value =
      (.success, kvList ++ [longParameter])) ∧
    ∃ i, queryUrl curlEasyEscape ⟨"localhost".toList, by decide⟩ 443
      ⟨"/dependencies?".toList, by decide⟩
      (List.replicate 7 longParameter ++ [longParameter]) = .error i := by
  have hkey : longParameter.key.chars.length = 256 := List.length_replicate
  have hvalue : (curlEasyEscape.escape longParameter.value.chars).length = 1 := by decide
  constructor
  · intro kvList
    rw [kvListAppend, if_neg]
    rw [hkey]
    decide
  · have hbase : (queryBase ⟨"localhost".toList, by decide⟩ 443
        ⟨"/dependencies?".toList, by decide⟩).length = 35 := by decide
    have hquery : (query curlEasyEscape false (List.replicate 7 longParameter)).length = 1805 := by
      rw [List.replicate_succ, query, if_neg (by decide), List.length_append, List.length_append,
        length_query_replicate, hkey, hvalue]
    have hpiece : (keyPiece (!(List.replicate 7 longParameter).isEmpty) longParameter).length =
        257 := by
      rw [keyPiece, if_pos (by rfl), List.length_cons, hkey]
    have hmax : amvpAttrUrlMax = 2083 := rfl
    apply queryUrl_outside
    · rw [completeQueryUrl, List.length_append, hbase, hquery]
      omega
    · rw [completeQueryUrl, List.length_append, hbase, hquery, hpiece]
      omega
    · rw [hpiece]
      omega

end LibAmvp

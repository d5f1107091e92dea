import LibAmvp.Lib.Cells

/-!
# The HTTP user agent

When the server is set the library puts together the user agent it sends with
every request: its own name, the name and release of the operating system, the
machine, the processor and the compiler, separated by semicolons.  The last five
are collected from the platform into buffers of their own, stripped of blanks at
both ends and freed of the separator.

Main results:

- Theorem {lit}`strremovewsS_of_nonblank`: what the stripping makes of a text of at least
  two characters that is not blank throughout.
- Theorem {lit}`stringClean_iff`: the texts that the cleaning treats as it should.
-/

namespace LibAmvp

open Cells

/-! ## Limits -/

def amvpUserAgentStrMax : Nat := 255
def amvpUserAgentOsnameStrMax : Nat := 32
def amvpUserAgentOsverStrMax : Nat := 64
def amvpUserAgentArchStrMax : Nat := 16
def amvpUserAgentProcStrMax : Nat := 64
def amvpUserAgentCompStrMax : Nat := 32
def amvpUserAgentDelimiter : Char := ';'
def amvpUserAgentCharReplacement : Char := '_'
def rsizeMinStr : Nat := 1

/-- The terminator of a C string. -/
def nul : Char := '\x00'

/-! ## Stripping blanks in place -/

/-- The error codes of {lit}`strremovews_s`. -/
inductive Errno where
  | eok
  | eszerol
  | esunterm
deriving DecidableEq

/-- The characters {lit}`strremovews_s` strips. -/
def isBlank (c : Char) : Bool := c == ' ' || c == '\t'

/-- The first loop of {lit}`strremovews_s`: walk over the leading blanks.  The result is the
position reached and what is left of {lit}`smax`, or nothing when {lit}`smax` ran out. -/
def skipBlanks (cells : List Char) (s : Nat) : Nat → Checked (Option (Nat × Nat))
  | 0 => do
    if isBlank (← read cells s) then return none else return some (s, 0)
  | smax + 1 => do
    if isBlank (← read cells s) then
      skipBlanks cells (s + 1) smax
    else
      return some (s, smax + 1)

/-- The second loop of {lit}`strremovews_s`: move the text down over the leading blanks and
leave a blank where each character was.  The result has the cells and, unless
{lit}`smax` ran out, the positions of both pointers. -/
def moveDown (cells : List Char) (newS s : Nat) : Nat → Checked (List Char × Option (Nat × Nat))
  | 0 => do
    if (← read cells s) = nul then return (cells, some (newS, s)) else return (cells, none)
  | smax + 1 => do
    let c ← read cells s
    if c = nul then
      return (cells, some (newS, s))
    else
      let cells ← write cells newS c
      let cells ← write cells s ' '
      moveDown cells (newS + 1) (s + 1) smax

/-- The third loop of {lit}`strremovews_s`: walk to the terminator. -/
def walkToEnd (cells : List Char) (s : Nat) : Nat → Checked (Option Nat)
  | 0 => do
    if (← read cells s) = nul then return some s else return none
  | smax + 1 => do
    if (← read cells s) = nul then return some s else walkToEnd cells (s + 1) smax

/-- The characters the last loop of {lit}`strremovews_s` overwrites. -/
def isFiller (c : Char) : Bool := isBlank c || c == nul

/-- The last loop of {lit}`strremovews_s`, entered with the pointer in front of position
{lit}`s`: overwrite blanks and terminators backwards until another character stops it. -/
def stripEnd (cells : List Char) : Nat → Checked (List Char)
  | 0 => do
    -- the pointer has left the buffer at the front
    let _ ← read cells (-1)
    return cells
  | s + 1 => do
    let c ← read cells s
    if isFiller c then
      stripEnd (← write cells s nul) s
    else
      return cells

/-- The exit of {lit}`strremovews_s` for a text that is not terminated in time. -/
def nullOut (cells : List Char) (smax : Nat) : Checked (Errno × List Char) := do
  return (.esunterm, ← writeAll cells 0 (List.replicate smax nul))

/-- {lit}`strremovews_s`. -/
def strremovewsS (cells : List Char) (smax : Nat) : Checked (Errno × List Char) := do
  if smax = 0 then
    return (.eszerol, cells)
  else if smax ≤ rsizeMinStr then
    return (.eok, ← write cells 0 nul)
  else
    match ← skipBlanks cells 0 smax with
    | none => nullOut cells smax
    | some (s, left) =>
      if s ≠ 0 then
        match ← moveDown cells 0 s left with
        | (cells, none) => nullOut cells smax
        | (cells, some (newS, s)) =>
          let cells ← write cells newS nul
          return (.eok, ← stripEnd cells s)
      else
        match ← walkToEnd cells s left with
        | none => nullOut cells smax
        | some s => return (.eok, ← stripEnd cells s)

section Stripping

variable (front back : List Char)

/-- The first loop goes over the blanks in front. -/
theorem skipBlanks_append {blanks : List Char} {c : Char} {smax : Nat}
    (hblanks : ∀ b ∈ blanks, isBlank b) (hc : ¬ isBlank c) (hmax : blanks.length ≤ smax) :
    skipBlanks (front ++ (blanks ++ c :: back)) front.length smax =
      .ok (some (front.length + blanks.length, smax - blanks.length)) := by
  induction blanks generalizing front smax with
  | nil =>
      cases smax with
      | zero => simp [skipBlanks, hc]
      | succ smax => simp [skipBlanks, hc]
  | cons b blanks ih =>
      obtain ⟨smax, rfl⟩ := Nat.exists_eq_add_one.mpr (Nat.zero_lt_of_lt hmax)
      have hb : isBlank b := hblanks b List.mem_cons_self
      have hrest := ih (front ++ [b])
        (fun b hmem => hblanks b (List.mem_cons_of_mem _ hmem)) (Nat.le_of_succ_le_succ hmax)
      simp only [List.append_assoc, List.cons_append, List.nil_append, List.length_append,
        List.length_cons, List.length_nil, Nat.zero_add] at hrest
      simp only [skipBlanks, List.cons_append, read_append, Guard.ok_bind, hb, if_true, hrest,
        List.length_cons]
      congr 3 <;> omega

/-- Moving a text down over a gap leaves a gap of the same width behind it. -/
theorem moveDown_append {gap todo : List Char} {smax : Nat} (hgap : gap ≠ [])
    (hblank : ∀ b ∈ gap, isBlank b) (htodo : nul ∉ todo) (hmax : todo.length ≤ smax) :
    ∃ gap', gap'.length = gap.length ∧ (∀ b ∈ gap', isBlank b) ∧
      moveDown (front ++ (gap ++ (todo ++ nul :: back))) front.length
          (front.length + gap.length) smax =
        .ok (front ++ (todo ++ (gap' ++ nul :: back)),
          some (front.length + todo.length, front.length + gap.length + todo.length)) := by
  induction todo generalizing front gap smax with
  | nil =>
      refine ⟨gap, rfl, hblank, ?_⟩
      have hread := read_at (front ++ (gap ++ nul :: back)) (front ++ gap) nul back (by simp)
        List.length_append
      cases smax with
      | zero => simp only [List.nil_append, moveDown, hread]; simp
      | succ smax => simp only [List.nil_append, moveDown, hread]; simp
  | cons c todo ih =>
      obtain ⟨g, gap, rfl⟩ := List.exists_cons_of_ne_nil hgap
      obtain ⟨smax, rfl⟩ := Nat.exists_eq_add_one.mpr (Nat.zero_lt_of_lt hmax)
      have hc : c ≠ nul := fun heq => htodo (heq ▸ List.mem_cons_self)
      have hblank' : ∀ b ∈ gap ++ [' '], isBlank b := by
        intro b hb
        rcases List.mem_append.mp hb with hb | hb
        · exact hblank b (List.mem_cons_of_mem _ hb)
        · rw [List.mem_singleton.mp hb]
          decide
      obtain ⟨gap', hlength, hgap', hrun⟩ := ih (front ++ [c])
        (List.append_ne_nil_of_right_ne_nil gap (List.cons_ne_nil ' ' [])) hblank'
        (fun hmem => htodo (List.mem_cons_of_mem _ hmem))
        (Nat.le_of_succ_le_succ hmax)
      refine ⟨gap', by simpa using hlength, hgap', ?_⟩
      have hread := read_at (front ++ (g :: gap ++ (c :: todo ++ nul :: back)))
        (front ++ g :: gap) c (todo ++ nul :: back) (by simp) List.length_append
      have hfirst := write_at c (front ++ (g :: gap ++ (c :: todo ++ nul :: back))) front g
        (gap ++ (c :: todo ++ nul :: back)) (by simp) rfl
      have hsecond := write_at ' ' (front ++ c :: (gap ++ (c :: todo ++ nul :: back)))
        (front ++ c :: gap) c (todo ++ nul :: back) (by simp) List.length_append
      rw [moveDown, hread, Guard.ok_bind, if_neg hc, hfirst, Guard.ok_bind]
      simp only [List.length_cons] at hsecond ⊢
      rw [hsecond, Guard.ok_bind]
      simp only [List.append_assoc, List.cons_append, List.nil_append, List.length_append,
        List.length_cons, List.length_nil, Nat.zero_add] at hrun ⊢
      rw [show front.length + (gap.length + 1) + 1 = front.length + 1 + (gap.length + 1) by omega,
        hrun]
      congr 4 <;> omega

/-- The second loop goes to the terminator. -/
theorem walkToEnd_append {todo : List Char} {smax : Nat} (htodo : nul ∉ todo)
    (hmax : todo.length ≤ smax) :
    walkToEnd (front ++ (todo ++ nul :: back)) front.length smax =
      .ok (some (front.length + todo.length)) := by
  induction todo generalizing front smax with
  | nil =>
      cases smax with
      | zero => simp [walkToEnd]
      | succ smax => simp [walkToEnd]
  | cons c todo ih =>
      obtain ⟨smax, rfl⟩ := Nat.exists_eq_add_one.mpr (Nat.zero_lt_of_lt hmax)
      have hc : c ≠ nul := fun heq => htodo (heq ▸ List.mem_cons_self)
      have hrest := ih (front ++ [c])
        (fun hmem => htodo (List.mem_cons_of_mem _ hmem)) (Nat.le_of_succ_le_succ hmax)
      simp only [List.append_assoc, List.cons_append, List.nil_append, List.length_append,
        List.length_cons, List.length_nil, Nat.zero_add] at hrest
      simp only [walkToEnd, List.cons_append, read_append, Guard.ok_bind, hc, if_false, hrest,
        List.length_cons]
      congr 2
      omega

/-- The third loop overwrites the blanks at the end, back to the last other character. -/
theorem stripEnd_append {last : Char} {tail : List Char} (hlast : ¬ isFiller last)
    (htail : ∀ c ∈ tail, isFiller c) :
    stripEnd (front ++ last :: (tail ++ back)) (front.length + 1 + tail.length) =
      .ok (front ++ last :: (List.replicate tail.length nul ++ back)) := by
  induction tail using List.reverseRecOn generalizing back with
  | nil =>
      have hread := read_append front back last
      simp only [List.nil_append, List.length_nil, Nat.add_zero, stripEnd, hread, Guard.ok_bind,
        List.replicate_zero]
      rw [if_neg hlast]
      rfl
  | append_singleton tail c ih =>
      have hc : isFiller c := htail c (by simp)
      have hplace : (front ++ last :: tail).length = front.length + 1 + tail.length := by
        simp only [List.length_append, List.length_cons]
        omega
      have hread := read_at (front ++ last :: (tail ++ [c] ++ back)) (front ++ last :: tail) c back
        (by simp) hplace
      have hwrite := write_at nul (front ++ last :: (tail ++ [c] ++ back)) (front ++ last :: tail) c
        back (by simp) hplace
      have hrest := ih (nul :: back) (fun c hmem => htail c (by simp [hmem]))
      rw [List.length_append, List.length_singleton, ← Nat.add_assoc, stripEnd, hread,
        Guard.ok_bind, if_pos hc, hwrite, Guard.ok_bind]
      simp only [List.append_assoc, List.cons_append] at hrest ⊢
      rw [hrest, List.replicate_succ']
      simp

/-- Nothing stops the last loop when only blanks and terminators lie before it. -/
theorem stripEnd_of_filler {tail : List Char} (htail : ∀ c ∈ tail, isFiller c) :
    stripEnd (tail ++ back) tail.length = .error (-1) := by
  induction tail using List.reverseRecOn generalizing back with
  | nil => rfl
  | append_singleton tail c ih =>
      have hc : isFiller c := htail c (by simp)
      have hrest := ih (nul :: back) (fun c hmem => htail c (by simp [hmem]))
      rw [List.length_append, List.length_singleton, stripEnd,
        read_at _ tail c back (by simp) rfl, Guard.ok_bind, if_pos hc,
        write_at nul _ tail c back (by simp) rfl, Guard.ok_bind,
        hrest]

end Stripping

/-! ## Cleaning a field -/

/-- The loop of {lit}`amvp_http_user_agent_string_clean`. -/
def replaceDelimiters (cells : List Char) (i : Nat) : Nat → Checked (List Char)
  | 0 => return cells
  | len + 1 => do
    if (← read cells i) = amvpUserAgentDelimiter then
      replaceDelimiters (← write cells i amvpUserAgentCharReplacement) (i + 1) len
    else
      replaceDelimiters cells (i + 1) len

/-- {lit}`amvp_http_user_agent_string_clean`. -/
def httpUserAgentStringClean (cells : List Char) : Checked (List Char) := do
  let len ← strnlen nul cells amvpUserAgentStrMax
  if len = 0 then
    return cells
  else
    let (_, cells) ← strremovewsS cells len
    let len ← strnlen nul cells amvpUserAgentStrMax
    replaceDelimiters cells 0 len

/-! ## What the cleaning does -/

/-- A text without the blanks at its ends. -/
def trimBlanks (as : List Char) : List Char := (as.dropWhile isBlank).rdropWhile isBlank

/-- A text without separators. -/
def withoutDelimiters (as : List Char) : List Char :=
  as.map fun c => if c = amvpUserAgentDelimiter then amvpUserAgentCharReplacement else c

/-- What a field should be after the cleaning. -/
def cleaned (as : List Char) : List Char := withoutDelimiters (trimBlanks as)

section Cleaning

variable {as : List Char} (back : List Char)

/-- A text that is not blank throughout has a first and a last character that are not. -/
theorem exists_trimBlanks (h : ∃ c ∈ as, ¬ isBlank c) :
    ∃ lead core last trail, as = lead ++ (core ++ last :: trail) ∧
      trimBlanks as = core ++ [last] ∧ (∀ c ∈ lead, isBlank c) ∧ (∀ c ∈ trail, isBlank c) ∧
      ¬ isBlank last ∧ ∃ c cs, core ++ last :: trail = c :: cs ∧ ¬ isBlank c := by
  have hmid : as.dropWhile isBlank ≠ [] := by
    obtain ⟨c, hmem, hc⟩ := h
    intro hnil
    exact hc (List.dropWhile_eq_nil_iff.mp hnil c hmem)
  have hhead := List.head_dropWhile_not isBlank hmid
  have hcore : trimBlanks as ≠ [] := by
    intro hnil
    have hall := (List.rdropWhile_eq_nil_iff).mp hnil _ (List.head_mem hmid)
    rw [hhead] at hall
    cases hall
  have hsplit : trimBlanks as ++ (as.dropWhile isBlank).rtakeWhile isBlank =
      as.dropWhile isBlank := by
    rw [trimBlanks, List.rdropWhile, List.rtakeWhile, ← List.reverse_append,
      List.takeWhile_append_dropWhile, List.reverse_reverse]
  have hlast := List.dropLast_append_getLast hcore
  have hmid' : (trimBlanks as).dropLast ++
      (trimBlanks as).getLast hcore :: (as.dropWhile isBlank).rtakeWhile isBlank =
      as.dropWhile isBlank := by
    rw [List.append_cons, hlast, hsplit]
  refine ⟨as.takeWhile isBlank, (trimBlanks as).dropLast, (trimBlanks as).getLast hcore,
    (as.dropWhile isBlank).rtakeWhile isBlank, ?_, hlast.symm,
    fun c hc => List.mem_takeWhile_imp hc, fun c hc => List.mem_rtakeWhile_imp hc,
    List.rdropWhile_last_not _ _ hcore, ?_⟩
  · rw [hmid', List.takeWhile_append_dropWhile]
  · refine ⟨(as.dropWhile isBlank).head hmid, (as.dropWhile isBlank).tail, ?_, by simp [hhead]⟩
    rw [hmid', List.cons_head_tail]

/-- A character that is neither a blank nor the terminator ends the third loop. -/
theorem not_isFiller {c : Char} (hblank : ¬ isBlank c) (hnul : c ≠ nul) : ¬ isFiller c := by
  simp [isFiller, hblank, hnul]

/-- A blank does not. -/
theorem isFiller_of_isBlank {c : Char} (h : isBlank c) : isFiller c := by
  simp [isFiller, h]

/-- The terminator is no blank. -/
theorem not_isBlank_nul : ¬ isBlank nul := by
  decide

section Stripped

variable {lead core trail : List Char} {last : Char}

/-- Stripping a text without leading blanks: it stays where it is. -/
theorem strremovewsS_unled (hnul : nul ∉ core ++ last :: trail)
    (hhead : ∃ c cs, core ++ last :: trail = c :: cs ∧ ¬ isBlank c) (hlast : ¬ isFiller last)
    (htrail : ∀ c ∈ trail, isBlank c) (hlength : 2 ≤ (core ++ last :: trail).length) :
    strremovewsS (core ++ last :: trail ++ nul :: back) (core ++ last :: trail).length =
      .ok (.eok, core ++ [last] ++ (List.replicate trail.length nul ++ nul :: back)) := by
  obtain ⟨c, cs, hc, hblank⟩ := hhead
  have hskip := skipBlanks_append [] (cs ++ nul :: back) (List.forall_mem_nil _) hblank
    (Nat.zero_le (core ++ last :: trail).length)
  rw [List.nil_append, List.nil_append, ← List.cons_append, ← hc, List.length_nil] at hskip
  have hwalk := walkToEnd_append [] back hnul (Nat.le_refl _)
  rw [List.nil_append, List.length_nil, Nat.zero_add] at hwalk
  have hstrip := stripEnd_append core (nul :: back) hlast
    (fun c hc => isFiller_of_isBlank (htrail c hc))
  have hplace : core.length + 1 + trail.length = (core ++ last :: trail).length := by
    simp only [List.length_append, List.length_cons]
    omega
  rw [hplace, ← List.cons_append, ← List.append_assoc] at hstrip
  rw [strremovewsS, if_neg (by omega), if_neg (by rw [rsizeMinStr]; omega), hskip,
    Guard.ok_bind]
  simp only [Nat.zero_add, Nat.sub_zero, ne_eq, not_true_eq_false, if_false, hwalk,
    Guard.ok_bind, hstrip]
  simp

/-- Stripping a text with leading blanks: it moves down, and the blanks it leaves behind
are overwritten from the end. -/
theorem strremovewsS_led (hnul : nul ∉ core ++ last :: trail) (hne : lead ≠ [])
    (hlead : ∀ c ∈ lead, isBlank c)
    (hhead : ∃ c cs, core ++ last :: trail = c :: cs ∧ ¬ isBlank c) (hlast : ¬ isFiller last)
    (htrail : ∀ c ∈ trail, isBlank c) :
    strremovewsS (lead ++ (core ++ last :: trail ++ nul :: back))
        (lead.length + (core ++ last :: trail).length) =
      .ok (.eok, core ++ [last] ++
        (List.replicate (lead.length + trail.length) nul ++ nul :: back)) := by
  obtain ⟨c, cs, hc, hblank⟩ := hhead
  have hpos : 0 < lead.length := List.length_pos_of_ne_nil hne
  have htext : 0 < (core ++ last :: trail).length := by simp
  have hskip := skipBlanks_append [] (cs ++ nul :: back) hlead hblank
    (Nat.le_add_right lead.length (core ++ last :: trail).length)
  rw [← List.cons_append, ← hc, List.length_nil, Nat.add_sub_cancel_left, List.nil_append,
    Nat.zero_add] at hskip
  obtain ⟨gap, hgap, hblanks, hmove⟩ := moveDown_append [] back hne hlead hnul
    (Nat.le_refl _)
  obtain ⟨g, gap, rfl⟩ := List.exists_cons_of_length_pos (by omega : 0 < gap.length)
  rw [List.length_nil, Nat.zero_add, Nat.zero_add, List.nil_append, List.nil_append] at hmove
  have hwrite := write_at nul (core ++ last :: trail ++ (g :: gap ++ nul :: back))
    (core ++ last :: trail) g (gap ++ nul :: back) (by simp) rfl
  have hfill : ∀ c ∈ trail ++ nul :: gap, isFiller c := by
    intro c hc
    rcases List.mem_append.mp hc with hc | hc
    · exact isFiller_of_isBlank (htrail c hc)
    · rcases List.mem_cons.mp hc with rfl | hc
      · decide
      · exact isFiller_of_isBlank (hblanks c (List.mem_cons_of_mem _ hc))
  have hstrip := stripEnd_append core (nul :: back) hlast hfill
  have hplace : core.length + 1 + (trail ++ nul :: gap).length =
      lead.length + (core ++ last :: trail).length := by
    simp only [List.length_append, List.length_cons] at hgap ⊢
    omega
  have hcells : core ++ last :: (trail ++ nul :: gap ++ nul :: back) =
      core ++ last :: trail ++ nul :: (gap ++ nul :: back) := by
    simp
  have hfilled : (trail ++ nul :: gap).length = lead.length + trail.length := by
    simp only [List.length_append, List.length_cons] at hgap ⊢
    omega
  rw [hplace, hcells, hfilled] at hstrip
  rw [strremovewsS, if_neg (by omega), if_neg (by rw [rsizeMinStr]; omega), hskip,
    Guard.ok_bind]
  dsimp only
  rw [if_pos (by omega), hmove, Guard.ok_bind]
  dsimp only
  rw [hwrite, Guard.ok_bind, hstrip]
  simp

end Stripped

/-- The stripping of a text that is not blank throughout. -/
theorem strremovewsS_of_nonblank (hnul : nul ∉ as) (hlength : 2 ≤ as.length)
    (h : ∃ c ∈ as, ¬ isBlank c) :
    strremovewsS (as ++ nul :: back) as.length =
      .ok (.eok, trimBlanks as ++
        (List.replicate (as.length - (trimBlanks as).length) nul ++ nul :: back)) := by
  obtain ⟨lead, core, last, trail, rfl, htrim, hlead, htrail, hlast, hhead⟩ :=
    exists_trimBlanks h
  have hlast' : ¬ isFiller last :=
    not_isFiller hlast (fun heq => hnul (by rw [← heq]; simp))
  have hnul' : nul ∉ core ++ last :: trail := fun hmem => hnul (List.mem_append_right _ hmem)
  have hcount : (lead ++ (core ++ last :: trail)).length - (core ++ [last]).length =
      lead.length + trail.length := by
    simp only [List.length_append, List.length_cons, List.length_nil]
    omega
  rw [htrim, hcount]
  by_cases hne : lead = []
  · subst hne
    rw [List.nil_append] at hlength ⊢
    rw [List.length_nil, Nat.zero_add]
    exact strremovewsS_unled back hnul' hhead hlast' htrail hlength
  · rw [List.append_assoc, List.length_append]
    exact strremovewsS_led back hnul' hne hlead hhead hlast' htrail

/-- The stripping of a blank text of at least two characters runs off the front of the
buffer. -/
theorem strremovewsS_of_blank (hlength : 2 ≤ as.length) (h : ∀ c ∈ as, isBlank c) :
    strremovewsS (as ++ nul :: back) as.length = .error (-1) := by
  have hskip := skipBlanks_append [] back h not_isBlank_nul (Nat.le_refl _)
  have hread := read_at (as ++ nul :: back) as nul back rfl rfl
  obtain ⟨a, as, rfl⟩ := List.exists_cons_of_length_pos (Nat.zero_lt_of_lt hlength)
  have hfill : ∀ c ∈ nul :: as, isFiller c := by
    intro c hc
    rcases List.mem_cons.mp hc with rfl | hc
    · decide
    · exact isFiller_of_isBlank (h c (List.mem_cons_of_mem _ hc))
  have hstrip := stripEnd_of_filler (nul :: back) hfill
  have hwrite : write (a :: as ++ nul :: back) 0 nul = .ok (nul :: as ++ nul :: back) := rfl
  rw [List.nil_append, List.length_nil, Nat.zero_add, Nat.sub_self] at hskip
  rw [strremovewsS, if_neg (by omega), if_neg (by rw [rsizeMinStr]; omega), hskip,
    Guard.ok_bind]
  dsimp only
  rw [if_pos (by simp), moveDown, hread, Guard.ok_bind, if_pos rfl, Guard.pure_eq,
    Guard.ok_bind]
  dsimp only
  rw [Nat.cast_zero, hwrite, Guard.ok_bind, List.length_cons, ← List.length_cons (a := nul),
    hstrip, Checked.error_bind]

/-- The stripping of a single character erases it, blank or not. -/
theorem strremovewsS_singleton (c : Char) :
    strremovewsS (c :: nul :: back) 1 = .ok (.eok, nul :: nul :: back) :=
  rfl

/-- The last loop replaces the delimiters of the text. -/
theorem replaceDelimiters_append (front as back : List Char) :
    replaceDelimiters (front ++ (as ++ back)) front.length as.length =
      .ok (front ++ (withoutDelimiters as ++ back)) := by
  induction as generalizing front with
  | nil => rfl
  | cons a as ih =>
      by_cases ha : a = amvpUserAgentDelimiter
      · have hrest := ih (front ++ [amvpUserAgentCharReplacement])
        simp only [List.append_assoc, List.cons_append, List.nil_append, List.length_append,
          List.length_cons, List.length_nil, Nat.zero_add] at hrest
        simp [replaceDelimiters, ha, hrest, withoutDelimiters]
      · have hrest := ih (front ++ [a])
        simp only [List.append_assoc, List.cons_append, List.nil_append, List.length_append,
          List.length_cons, List.length_nil, Nat.zero_add] at hrest
        simp [replaceDelimiters, ha, hrest, withoutDelimiters]

/-- The texts the cleaning treats as it should: a single character has to be blank, and a
longer text must not be blank throughout. -/
def Cleanable (as : List Char) : Prop :=
  (as.length = 1 → ∀ c ∈ as, isBlank c) ∧ (2 ≤ as.length → ∃ c ∈ as, ¬ isBlank c)

instance (as : List Char) : Decidable (Cleanable as) :=
  inferInstanceAs (Decidable (_ ∧ _))

/-- Trimming only takes characters away. -/
theorem trimBlanks_sublist (as : List Char) : (trimBlanks as).Sublist as :=
  (List.rdropWhile_prefix _ _).sublist.trans (List.dropWhile_sublist _)

/-- A cleaned text is no longer. -/
theorem length_cleaned_le (as : List Char) : (cleaned as).length ≤ as.length := by
  rw [cleaned, withoutDelimiters, List.length_map]
  exact (trimBlanks_sublist as).length_le

/-- It has no terminator inside. -/
theorem nul_notMem_cleaned (h : nul ∉ as) : nul ∉ cleaned as := by
  intro hmem
  obtain ⟨c, hc, heq⟩ := List.mem_map.mp hmem
  split at heq
  · exact absurd heq (by decide)
  · exact h (heq ▸ (trimBlanks_sublist as).subset hc)

/-- And no delimiter. -/
theorem delimiter_notMem_cleaned (as : List Char) : amvpUserAgentDelimiter ∉ cleaned as := by
  intro hmem
  obtain ⟨c, -, heq⟩ := List.mem_map.mp hmem
  split at heq
  · exact absurd heq (by decide)
  · exact ‹¬ c = amvpUserAgentDelimiter› heq

/-- Of a text of blanks nothing is left. -/
theorem trimBlanks_of_blank (h : ∀ c ∈ as, isBlank c) : trimBlanks as = [] := by
  rw [trimBlanks, List.dropWhile_eq_nil_iff.mpr h, List.rdropWhile_nil]

/-- The cleaning of a text of two or more characters that is not blank throughout. -/
theorem stringClean_of_nonblank (hnul : nul ∉ as) (hmax : as.length < amvpUserAgentStrMax)
    (hlength : 2 ≤ as.length) (h : ∃ c ∈ as, ¬ isBlank c) :
    ∃ back', httpUserAgentStringClean (as ++ nul :: back) =
      .ok (cleaned as ++ nul :: back') := by
  have hlen := (trimBlanks_sublist as).length_le
  have hnul' : nul ∉ trimBlanks as := fun hmem => hnul ((trimBlanks_sublist as).subset hmem)
  have hrest : ∃ back', List.replicate (as.length - (trimBlanks as).length) nul ++ nul :: back =
      nul :: back' := by
    cases as.length - (trimBlanks as).length with
    | zero => exact ⟨back, rfl⟩
    | succ n => exact ⟨List.replicate n nul ++ nul :: back, rfl⟩
  obtain ⟨back', hback'⟩ := hrest
  refine ⟨back', ?_⟩
  have hreplace := replaceDelimiters_append [] (trimBlanks as) (nul :: back')
  rw [List.nil_append, List.length_nil, List.nil_append] at hreplace
  rw [httpUserAgentStringClean, strnlen_append hnul back hmax, Guard.ok_bind,
    if_neg (by omega), strremovewsS_of_nonblank back hnul hlength h, Guard.ok_bind, hback']
  dsimp only
  rw [strnlen_append hnul' back' (by omega), Guard.ok_bind, hreplace, cleaned]

/-- The cleaning of a single character. -/
theorem stringClean_singleton {c : Char} (hc : c ≠ nul) :
    httpUserAgentStringClean (c :: nul :: back) = .ok (nul :: nul :: back) := by
  have hmem : nul ∉ [c] := by simpa using hc.symm
  have hmax : [c].length < amvpUserAgentStrMax := by simp [amvpUserAgentStrMax]
  have hlen := strnlen_append hmem back hmax
  rw [List.singleton_append] at hlen
  rw [httpUserAgentStringClean, hlen, Guard.ok_bind, List.length_singleton, if_neg (by decide),
    strremovewsS_singleton back c, Guard.ok_bind]
  rfl

/-- The cleaning of a blank text of two or more characters leaves the buffer. -/
theorem stringClean_of_blank (hnul : nul ∉ as) (hmax : as.length < amvpUserAgentStrMax)
    (hlength : 2 ≤ as.length) (h : ∀ c ∈ as, isBlank c) :
    httpUserAgentStringClean (as ++ nul :: back) = .error (-1) := by
  rw [httpUserAgentStringClean, strnlen_append hnul back hmax, Guard.ok_bind,
    if_neg (by omega), strremovewsS_of_blank back hlength h, Checked.error_bind]

/-- The outcome of the cleaning: the index it leaves the buffer at, or the text it makes. -/
def cleanText (cells : List Char) : Checked (List Char) := do
  return text nul (← httpUserAgentStringClean cells)

/-- What the cleaning makes of a text: what it should, or nothing of a character it should
have kept, or an access outside the buffer. -/
inductive CleanOutcome (as : List Char) : Checked (List Char) → Prop where
  | cleaned : Cleanable as → CleanOutcome as (.ok (cleaned as))
  | erased : ¬ Cleanable as → LibAmvp.cleaned as ≠ [] → CleanOutcome as (.ok [])
  | outside : ¬ Cleanable as → CleanOutcome as (.error (-1))

/-- Cleaning a text trims it and replaces its delimiters, erases it, or leaves the buffer. -/
theorem cleanOutcome (hnul : nul ∉ as) (hmax : as.length < amvpUserAgentStrMax) :
    CleanOutcome as (cleanText (as ++ nul :: back)) := by
  by_cases hlength : 2 ≤ as.length
  · by_cases h : ∃ c ∈ as, ¬ isBlank c
    · obtain ⟨back', hclean⟩ := stringClean_of_nonblank back hnul hmax hlength h
      rw [cleanText, hclean, Guard.ok_bind, text_append (nul_notMem_cleaned hnul)]
      exact .cleaned ⟨fun hone => by omega, fun _ => h⟩
    · have hblank : ∀ c ∈ as, isBlank c := by
        intro c hc
        by_contra hnot
        exact h ⟨c, hc, hnot⟩
      rw [cleanText, stringClean_of_blank back hnul hmax hlength hblank, Checked.error_bind]
      exact .outside (fun hclean => h (hclean.2 hlength))
  · match as, hlength with
    | [], _ =>
      have hclean : cleanText (nul :: back) = .ok (cleaned []) := rfl
      rw [List.nil_append, hclean]
      exact .cleaned ⟨by simp, by simp⟩
    | [c], _ =>
      have hc : c ≠ nul := fun heq => hnul (by simp [heq])
      have htext : cleanText ([c] ++ nul :: back) = .ok [] := by
        rw [cleanText, List.singleton_append, stringClean_singleton back hc]
        rfl
      rw [htext]
      by_cases hblank : isBlank c
      · have hnil : cleaned [c] = [] := by
          rw [cleaned, trimBlanks_of_blank (by simpa using hblank)]
          rfl
        have hclean : CleanOutcome [c] (.ok (cleaned [c])) :=
          .cleaned ⟨fun _ => by simpa using hblank, by simp⟩
        rwa [hnil] at hclean
      · have hkeep : cleaned [c] ≠ [] := by
          simp [cleaned, trimBlanks, withoutDelimiters, List.rdropWhile_singleton, hblank]
        exact .erased (fun h => hblank (h.1 rfl c List.mem_cons_self)) hkeep
    | _ :: _ :: _, hlength => simp at hlength

end Cleaning

/-! ## Collecting the fields -/

/-- A buffer of {lit}`max + 1` characters that holds a terminated text. -/
structure Field (max : Nat) where
  cells : List Char
  size : cells.length = max + 1
  terminated : nul ∈ cells

namespace Field

variable {max : Nat}

/-- A buffer as {lit}`calloc` hands it out. -/
def fresh (max : Nat) : Field max where
  cells := List.replicate (max + 1) nul
  size := List.length_replicate
  terminated := by simp

/-- The text in the buffer. -/
def text (f : Field max) : List Char := Cells.text nul f.cells

/-- {lit}`strncpy_s(dest, max + 1, src, max)`. -/
def strncpyS (f : Field max) (src : List Char) : Field max where
  cells := (Cells.text nul src).take max ++
    nul :: f.cells.drop (((Cells.text nul src).take max).length + 1)
  size := by
    have hlen := f.size
    simp only [List.length_append, List.length_cons, List.length_drop, List.length_take]
    omega
  terminated := by simp

/-- The cells of a field are its text, the terminator and what is behind it. -/
theorem exists_cells (f : Field max) : ∃ back, f.cells = f.text ++ nul :: back :=
  exists_text_append f.terminated

/-- The text of a field has no terminator inside. -/
theorem nul_notMem_text (f : Field max) : nul ∉ f.text :=
  Cells.nul_notMem_text f.cells

/-- It fits into the field. -/
theorem length_text_le (f : Field max) : f.text.length ≤ max := by
  obtain ⟨back, hcells⟩ := f.exists_cells
  have hlen := f.size
  rw [hcells, List.length_append, List.length_cons] at hlen
  omega

/-- The same for a field. -/
theorem cleanOutcome (f : Field max) (hmax : max < amvpUserAgentStrMax) :
    CleanOutcome f.text (cleanText f.cells) := by
  obtain ⟨back, hcells⟩ := f.exists_cells
  rw [hcells]
  exact LibAmvp.cleanOutcome back f.nul_notMem_text (lt_of_le_of_lt f.length_text_le hmax)

end Field

/-- The five fields of the user agent that describe the platform. -/
structure Collected where
  osname : Field amvpUserAgentOsnameStrMax
  osver : Field amvpUserAgentOsverStrMax
  arch : Field amvpUserAgentArchStrMax
  proc : Field amvpUserAgentProcStrMax
  comp : Field amvpUserAgentCompStrMax

/-- The texts collected, in the order of the user agent. -/
def Collected.texts (c : Collected) : List (List Char) :=
  [c.osname.text, c.osver.text, c.arch.text, c.proc.text, c.comp.text]

/-- What the library finds out about a Linux machine it runs on.  The registers of
{lit}`__get_cpuid` are given as the sixteen characters each call contributes to the brand
string, and {lit}`stack` is what lies in its 48 characters before and behind them. -/
structure Platform where
  uname : Option (List Char × List Char × List Char)
  getCpuid : Fin 3 → Option (List Char)
  stack : List Char
  getenv : String → Option (List Char)
  compiler : List Char

/-- {lit}`amvp_http_user_agent_check_env_for_var`. -/
def httpUserAgentCheckEnvForVar (p : Platform) (var : String) {max : Nat} (f : Field max) :
    Field max :=
  match p.getenv var with
  | none => f
  | some value => if max < value.length then f else f.strncpyS value

/-- The processor field on an x86 machine. -/
def collectProc (p : Platform) : Field amvpUserAgentProcStrMax :=
  let missing (i : Fin 3) (f : Field amvpUserAgentProcStrMax) :=
    if (p.getCpuid i).isNone then httpUserAgentCheckEnvForVar p "ACV_OE_PROCESSOR" f else f
  let part (i : Fin 3) := (p.getCpuid i).getD ((p.stack.drop (16 * i)).take 16)
  let f := missing 2 (missing 1 (missing 0 (.fresh _)))
  if (p.getCpuid 2).isSome then
    f.strncpyS (part 0 ++ part 1 ++ part 2 ++ p.stack.drop 48)
  else
    f

/-- The fields as {lit}`amvp_http_user_agent_handler` collects them. -/
def Platform.collect (p : Platform) : Collected :=
  match p.uname with
  | none =>
    { osname := httpUserAgentCheckEnvForVar p "ACV_OE_OSNAME" (.fresh _)
      osver := httpUserAgentCheckEnvForVar p "ACV_OE_OSVERSION" (.fresh _)
      arch := httpUserAgentCheckEnvForVar p "ACV_OE_ARCHITECTURE" (.fresh _)
      proc := collectProc p
      comp := (Field.fresh _).strncpyS p.compiler }
  | some (sysname, release, machine) =>
    { osname := (Field.fresh _).strncpyS sysname
      osver := (Field.fresh _).strncpyS release
      arch := (Field.fresh _).strncpyS machine
      proc := collectProc p
      comp := (Field.fresh _).strncpyS p.compiler }

/-! ## The user agent -/

/-- The library's own field. -/
def libver : List Char := "libamvp/0.1.0".toList

/-- {lit}`amvp_http_user_agent_handler` from the collected fields on: clean them one after
the other, and print them into the buffer of the user agent. -/
def httpUserAgentHandler (c : Collected) : Checked (List Char) := do
  let osname ← cleanText c.osname.cells
  let osver ← cleanText c.osver.cells
  let arch ← cleanText c.arch.cells
  let proc ← cleanText c.proc.cells
  let comp ← cleanText c.comp.cells
  let agent ← Cells.snprintf nul (List.replicate (amvpUserAgentStrMax + 1) nul) 0 amvpUserAgentStrMax
    (List.intercalate [amvpUserAgentDelimiter] [libver, osname, osver, arch, proc, comp])
  return text nul agent

/-- The user agent has six fields: the library's own and the five collected ones cleaned. -/
def WellFormedAgent (c : Collected) (agent : List Char) : Prop :=
  agent.splitOn amvpUserAgentDelimiter = libver :: c.texts.map cleaned

instance (c : Collected) (agent : List Char) : Decidable (WellFormedAgent c agent) :=
  inferInstanceAs (Decidable (_ = _))

section Agent

/-- A text with a character other than a blank is cleaned. -/
theorem CleanOutcome.eq_ok {as : List Char} {x : Checked (List Char)} (h : CleanOutcome as x)
    (hclean : Cleanable as) : x = .ok (LibAmvp.cleaned as) := by
  cases h with
  | cleaned => rfl
  | erased hnot => exact absurd hclean hnot
  | outside hnot => exact absurd hclean hnot

/-- Only such a text is. -/
theorem CleanOutcome.cleanable {as : List Char} (h : CleanOutcome as (.ok (LibAmvp.cleaned as))) :
    Cleanable as := by
  generalize hr : LibAmvp.cleaned as = r at h
  generalize hx : Except.ok r = x at h
  cases h with
  | cleaned hclean => exact hclean
  | erased hnot hne =>
      injection hx with hx
      exact absurd (hr.trans hx) hne
  | outside => cases hx

/-- A cleaned field fits its place, and brings neither a separator nor a terminator. -/
theorem CleanOutcome.fits {max : Nat} {f : Field max} {r : List Char}
    (h : CleanOutcome f.text (.ok r)) :
    r.length ≤ max ∧ nul ∉ r ∧ amvpUserAgentDelimiter ∉ r := by
  generalize hx : Except.ok r = x at h
  cases h with
  | cleaned =>
      injection hx with hx
      subst hx
      exact ⟨(length_cleaned_le _).trans f.length_text_le,
        nul_notMem_cleaned f.nul_notMem_text, delimiter_notMem_cleaned _⟩
  | erased =>
      injection hx with hx
      subst hx
      simp
  | outside => cases hx

/-- A text that fits is printed as it is. -/
theorem snprintf_fresh {size : Nat} {as : List Char} (hnul : nul ∉ as)
    (hlen : as.length < size) :
    ∃ cells, Cells.snprintf nul (List.replicate (size + 1) nul) 0 size as = .ok cells ∧
      text nul cells = as := by
  have hroom : 0 + (as ++ [nul]).length ≤ (List.replicate (size + 1) nul).length := by
    simp only [List.length_append, List.length_replicate, List.length_singleton]
    omega
  have hwrite := writeAll_of_le (as ++ [nul]) hroom
  refine ⟨_, ?_, text_append hnul ((List.replicate (size + 1) nul).drop (as.length + 1))⟩
  rw [Cells.snprintf, if_neg (by omega), List.take_of_length_le (by omega), ← Nat.cast_zero, hwrite]
  simp

/-- The user agent of five fields that fit. -/
theorem printAgent {osname osver arch proc comp : List Char}
    (hfits : osname.length ≤ amvpUserAgentOsnameStrMax ∧ osver.length ≤ amvpUserAgentOsverStrMax ∧
      arch.length ≤ amvpUserAgentArchStrMax ∧ proc.length ≤ amvpUserAgentProcStrMax ∧
      comp.length ≤ amvpUserAgentCompStrMax)
    (hnul : ∀ r ∈ [osname, osver, arch, proc, comp], nul ∉ r) :
    ∃ cells, Cells.snprintf nul (List.replicate (amvpUserAgentStrMax + 1) nul) 0 amvpUserAgentStrMax
        (List.intercalate [amvpUserAgentDelimiter] [libver, osname, osver, arch, proc, comp]) =
        .ok cells ∧
      text nul cells =
        List.intercalate [amvpUserAgentDelimiter] [libver, osname, osver, arch, proc, comp] := by
  apply snprintf_fresh
  · have hlib : nul ∉ libver := by decide
    have hdelim : nul ≠ amvpUserAgentDelimiter := by decide
    simp only [List.forall_mem_cons, List.not_mem_nil, false_implies, implies_true,
      and_true] at hnul
    simp [List.intercalate, hlib, hdelim, hnul]
  · have hlib : libver.length = 13 := by decide
    simp only [amvpUserAgentOsnameStrMax, amvpUserAgentOsverStrMax, amvpUserAgentArchStrMax,
      amvpUserAgentProcStrMax, amvpUserAgentCompStrMax] at hfits
    simp only [List.intercalate_cons_cons, List.intercalate_singleton, List.length_append,
      List.length_cons, List.length_nil, hlib, amvpUserAgentStrMax]
    omega

/-- A user agent whose fields are cleaned splits into them. -/
theorem httpUserAgentHandler_splitOn {c : Collected} {osname osver arch proc comp : List Char}
    (hosname : cleanText c.osname.cells = .ok osname)
    (hosver : cleanText c.osver.cells = .ok osver) (harch : cleanText c.arch.cells = .ok arch)
    (hproc : cleanText c.proc.cells = .ok proc) (hcomp : cleanText c.comp.cells = .ok comp) :
    ∃ agent, httpUserAgentHandler c = .ok agent ∧
      agent.splitOn amvpUserAgentDelimiter = [libver, osname, osver, arch, proc, comp] := by
  obtain ⟨hlen₁, hnul₁, hdelim₁⟩ := (hosname ▸ c.osname.cleanOutcome (by decide)).fits
  obtain ⟨hlen₂, hnul₂, hdelim₂⟩ := (hosver ▸ c.osver.cleanOutcome (by decide)).fits
  obtain ⟨hlen₃, hnul₃, hdelim₃⟩ := (harch ▸ c.arch.cleanOutcome (by decide)).fits
  obtain ⟨hlen₄, hnul₄, hdelim₄⟩ := (hproc ▸ c.proc.cleanOutcome (by decide)).fits
  obtain ⟨hlen₅, hnul₅, hdelim₅⟩ := (hcomp ▸ c.comp.cleanOutcome (by decide)).fits
  obtain ⟨cells, hprint, htext⟩ := printAgent ⟨hlen₁, hlen₂, hlen₃, hlen₄, hlen₅⟩
    (by simp [hnul₁, hnul₂, hnul₃, hnul₄, hnul₅])
  have hlib : amvpUserAgentDelimiter ∉ libver := by decide
  have hmem : ∀ r ∈ [libver, osname, osver, arch, proc, comp], amvpUserAgentDelimiter ∉ r := by
    simp [hlib, hdelim₁, hdelim₂, hdelim₃, hdelim₄, hdelim₅]
  refine ⟨_, ?_, List.splitOn_intercalate amvpUserAgentDelimiter hmem (List.cons_ne_nil _ _)⟩
  rw [httpUserAgentHandler, hosname, Guard.ok_bind, hosver, Guard.ok_bind, harch,
    Guard.ok_bind, hproc, Guard.ok_bind, hcomp, Guard.ok_bind, hprint, Guard.ok_bind,
    htext, Guard.pure_eq]

/-- The user agent is well formed, and was made without leaving a buffer, exactly when the
cleaning copes with every field. -/
theorem httpUserAgentHandler_iff (c : Collected) :
    (∃ agent, httpUserAgentHandler c = .ok agent ∧ WellFormedAgent c agent) ↔
      ∀ as ∈ c.texts, Cleanable as := by
  have hosname := c.osname.cleanOutcome (by decide)
  have hosver := c.osver.cleanOutcome (by decide)
  have harch := c.arch.cleanOutcome (by decide)
  have hproc := c.proc.cleanOutcome (by decide)
  have hcomp := c.comp.cleanOutcome (by decide)
  constructor
  · rintro ⟨agent, hagent, hwell⟩
    obtain ⟨osname, h₁, hrest⟩ := Guard.bind_eq_ok.mp hagent
    obtain ⟨osver, h₂, hrest⟩ := Guard.bind_eq_ok.mp hrest
    obtain ⟨arch, h₃, hrest⟩ := Guard.bind_eq_ok.mp hrest
    obtain ⟨proc, h₄, hrest⟩ := Guard.bind_eq_ok.mp hrest
    obtain ⟨comp, h₅, -⟩ := Guard.bind_eq_ok.mp hrest
    obtain ⟨agent', hagent', hsplit⟩ := httpUserAgentHandler_splitOn h₁ h₂ h₃ h₄ h₅
    rw [hagent] at hagent'
    injection hagent' with hsame
    rw [← hsame, hwell] at hsplit
    simp only [Collected.texts, List.map_cons, List.map_nil, List.cons.injEq, and_true,
      true_and] at hsplit
    obtain ⟨rfl, rfl, rfl, rfl, rfl⟩ := hsplit
    rw [h₁] at hosname
    rw [h₂] at hosver
    rw [h₃] at harch
    rw [h₄] at hproc
    rw [h₅] at hcomp
    simp [Collected.texts, hosname.cleanable, hosver.cleanable, harch.cleanable, hproc.cleanable,
      hcomp.cleanable]
  · intro h
    simp only [Collected.texts, List.forall_mem_cons, List.not_mem_nil, false_implies,
      implies_true, and_true] at h
    obtain ⟨h₁, h₂, h₃, h₄, h₅⟩ := h
    exact httpUserAgentHandler_splitOn (hosname.eq_ok h₁) (hosver.eq_ok h₂) (harch.eq_ok h₃)
      (hproc.eq_ok h₄) (hcomp.eq_ok h₅)

/-- A machine whose system name is this text. -/
def Platform.named (sysname : String) : Platform where
  uname := some (sysname.toList, "5.4.0".toList, "x86_64".toList)
  getCpuid _ := none
  stack := []
  getenv _ := none
  compiler := "GCC/9.3.0".toList

/-- A system name of one letter is dropped from the user agent, and one of two blanks takes
the stripping out of its buffer. -/
theorem httpUserAgentHandler_not_wellFormed :
    (∃ agent, httpUserAgentHandler (Platform.named "L").collect = .ok agent ∧
      ¬ WellFormedAgent (Platform.named "L").collect agent) ∧
    httpUserAgentHandler (Platform.named "  ").collect = .error (-1) := by
  refine ⟨⟨"libamvp/0.1.0;;5.4.0;x86_64;;GCC/9.3.0".toList, ?_, ?_⟩, ?_⟩
  · decide +kernel
  · decide +kernel
  · decide +kernel

end Agent

end LibAmvp

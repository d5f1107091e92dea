import LibAmvp.Lib.NulString
import LibAmvp.Session.Results

/-!
# Lists of strings

The list of strings that the report of failures is kept in, as the code walks through it:
appending copies the front of a string, and looking a string up compares it with one entry after
another over the shorter of the two lengths.  The variable for the outcome is set once, before
the first comparison.

Main results:

- Theorem {lit}`lookup_loop_iff`: what looking a string up finds.
- Theorem {lit}`membership_iff`: when it finds exactly the strings that were appended.
-/

namespace LibAmvp

/-- A string with at most {lit}`AMVP_STRING_LIST_MAX_LEN` characters, which is what an entry
holds. -/
def ListEntry : Type := {s : NulString // s.chars.length ≤ amvpStringListMaxLen}

/-- The copy that {lit}`amvp_append_str_list` makes of a string; {lit}`strncpy_s` leaves nothing
when there is none. -/
def entryOf (string : Option NulString) : ListEntry :=
  match string with
  | some s => ⟨s.take amvpStringListMaxLen, s.length_take_le amvpStringListMaxLen⟩
  | none => ⟨.empty, Nat.zero_le _⟩

/-- {lit}`amvp_append_str_list` on the entries of a list. -/
def appendEntry (list : List ListEntry) (string : Option NulString) : List ListEntry :=
  list ++ [entryOf string]

/-- The list after a sequence of calls. -/
def listOfCalls (strings : List (Option NulString)) : List ListEntry :=
  strings.foldl appendEntry []

/-- The loop of {lit}`amvp_lookup_str_list`, with its variable for the outcome of the
comparisons. -/
def lookupLoop (string : NulString) : List ListEntry → Bool → Bool
  | [], _ => false
  | entry :: rest, diff =>
    let len1 := NulString.strnlenS (some entry.val) amvpStringListMaxLen
    let len2 := NulString.strnlenS (some string) amvpStringListMaxLen
    let minlen := if len1 < len2 then len1 else len2
    let diff := NulString.strncmpS (some entry.val) len1 (some string) minlen diff
    if diff = false then true else lookupLoop string rest diff

/-- {lit}`amvp_lookup_str_list`. -/
def lookupEntry (list : List ListEntry) (string : Option NulString) : Bool :=
  match string with
  | some s => lookupLoop s list true
  | none => false

/-! ## Looking up -/

theorem listOfCalls_eq (strings : List (Option NulString)) :
    listOfCalls strings = strings.map entryOf := by
  have hfold (list : List ListEntry) :
      strings.foldl appendEntry list = list ++ strings.map entryOf := by
    induction strings generalizing list with
    | nil => simp
    | cons string rest ih =>
        rw [List.foldl_cons, ih, appendEntry, List.map_cons, List.append_assoc]
        rfl
  exact hfold []

/-- Looking a string up finds an entry when neither is empty and one is the start of the
other. -/
theorem lookup_loop_iff {string : NulString} (hlength : string.chars.length ≤ amvpStringListMaxLen)
    (list : List ListEntry) :
    lookupLoop string list true = true ↔ string.chars.length ≠ 0 ∧
      ∃ entry ∈ list, entry.val.chars.length ≠ 0 ∧ NulString.Comparable entry.val string := by
  induction list with
  | nil => simp [lookupLoop]
  | cons entry rest ih =>
      have hentry := entry.property
      have hmin : (if entry.val.chars.length < string.chars.length then entry.val.chars.length
          else string.chars.length) = min entry.val.chars.length string.chars.length := by
        rw [Nat.min_def]
        split <;> split <;> omega
      have hmax : amvpStringListMaxLen ≤ NulString.rsizeMaxStr := by decide
      rw [lookupLoop]
      simp only [NulString.strnlenS_some, min_eq_left hentry, min_eq_left hlength, hmin]
      rw [NulString.strncmpS_shorter _ _ _ (by omega)]
      by_cases hempty : entry.val.chars.length = 0 ∨ string.chars.length = 0
      · rw [if_pos hempty, if_neg (by decide), ih]
        refine and_congr_right fun hstring => ?_
        have hnone := hempty.resolve_right hstring
        rw [List.exists_mem_cons_iff, or_iff_right]
        rintro ⟨hsome, -⟩
        exact hsome hnone
      · rw [if_neg hempty]
        obtain ⟨hsome, hstring⟩ := not_or.mp hempty
        by_cases hcompare : NulString.Comparable entry.val string
        · exact iff_of_true (by simp [hcompare])
            ⟨hstring, entry, List.mem_cons_self, hsome, hcompare⟩
        · rw [decide_eq_true hcompare, if_neg (by decide), ih]
          refine and_congr_right fun _ => ?_
          rw [List.exists_mem_cons_iff, or_iff_right]
          rintro ⟨-, hsame⟩
          exact hcompare hsame

/-- A string was appended, as far as it fits into an entry. -/
def Appended (strings : List (Option NulString)) (query : NulString) : Prop :=
  ∃ s, some s ∈ strings ∧ s.take amvpStringListMaxLen = query

/-- Looking a string up is exact: the empty string was not appended, and another one was
appended, or no string that is not empty was appended of which one is the start of the other. -/
def LooksUpExactly (strings : List (Option NulString)) (query : NulString) : Prop :=
  if query.chars.length = 0 then ¬Appended strings query
  else Appended strings query ∨ ∀ s, some s ∈ strings → s.chars.length ≠ 0 →
    ¬NulString.Comparable (s.take amvpStringListMaxLen) query

/-- What is found in the list of a sequence of calls. -/
theorem lookup_calls_iff (strings : List (Option NulString)) {query : NulString}
    (hlength : query.chars.length ≤ amvpStringListMaxLen) :
    lookupEntry (listOfCalls strings) (some query) = true ↔ query.chars.length ≠ 0 ∧
      ∃ s, some s ∈ strings ∧ s.chars.length ≠ 0 ∧
        NulString.Comparable (s.take amvpStringListMaxLen) query := by
  unfold lookupEntry
  rw [lookup_loop_iff hlength, listOfCalls_eq]
  simp only [List.mem_map, exists_exists_and_eq_and]
  refine and_congr_right fun _ => ?_
  constructor
  · rintro ⟨string, hstring, hsome, hcompare⟩
    cases string with
    | none => exact absurd rfl hsome
    | some s =>
        refine ⟨s, hstring, fun hnone => hsome ?_, hcompare⟩
        change (s.chars.take _).length = 0
        rw [List.length_take, hnone, Nat.min_zero]
  · rintro ⟨s, hstring, hsome, hcompare⟩
    refine ⟨some s, hstring, fun hnone => hsome ?_, hcompare⟩
    change (s.chars.take _).length = 0 at hnone
    rw [List.length_take] at hnone
    have hmax : amvpStringListMaxLen ≠ 0 := by decide
    omega

/-- For every sequence of calls a query that fits into an entry is found exactly when it was
appended, if and only if looking it up is exact. -/
theorem membership_iff (strings : List (Option NulString)) (query : NulString)
    (hlength : query.chars.length ≤ amvpStringListMaxLen) :
    (lookupEntry (listOfCalls strings) (some query) = true ↔ Appended strings query) ↔
      LooksUpExactly strings query := by
  rw [lookup_calls_iff strings hlength]
  unfold LooksUpExactly
  split_ifs with hempty
  · exact iff_false_left (by rintro ⟨hsome, -⟩; exact hsome hempty)
  · rw [and_iff_right hempty]
    have happended : Appended strings query → ∃ s, some s ∈ strings ∧ s.chars.length ≠ 0 ∧
        NulString.Comparable (s.take amvpStringListMaxLen) query := by
      rintro ⟨s, hstring, rfl⟩
      refine ⟨s, hstring, fun hnone => hempty ?_, Or.inl (List.prefix_refl _)⟩
      rw [NulString.take_chars, List.length_take, hnone, Nat.min_zero]
    constructor
    · intro hexact
      by_contra hnot
      obtain ⟨hnone, hcompare⟩ := not_or.mp hnot
      push Not at hcompare
      obtain ⟨s, hstring, hsome, hsame⟩ := hcompare
      exact hnone (hexact.mp ⟨s, hstring, hsome, hsame⟩)
    · rintro (hquery | hnone)
      · exact iff_of_true (happended hquery) hquery
      · refine ⟨fun hfound => ?_, happended⟩
        obtain ⟨s, hstring, hsome, hsame⟩ := hfound
        exact absurd hsame (hnone s hstring hsome)

/-- The string {lit}`a`. -/
def oneLetter : NulString := ⟨[97], by decide⟩

/-- The string {lit}`ab`. -/
def twoLetters : NulString := ⟨[97, 98], by decide⟩

/-- The start of a string that was appended is found. -/
theorem start_is_found :
    lookupEntry (listOfCalls [some twoLetters]) (some oneLetter) = true ∧
      ¬Appended [some twoLetters] oneLetter := by
  refine ⟨by decide, ?_⟩
  rintro ⟨s, hstring, hquery⟩
  obtain rfl := Option.some.inj (List.mem_singleton.mp hstring)
  exact absurd hquery (by decide)

theorem membership_two_letters :
    oneLetter.chars.length ≤ amvpStringListMaxLen ∧
      ((lookupEntry (listOfCalls [some twoLetters, some oneLetter]) (some oneLetter) = true ↔
        Appended [some twoLetters, some oneLetter] oneLetter) ↔
        LooksUpExactly [some twoLetters, some oneLetter] oneLetter) :=
  ⟨by decide, membership_iff [some twoLetters, some oneLetter] oneLetter (by decide)⟩

end LibAmvp

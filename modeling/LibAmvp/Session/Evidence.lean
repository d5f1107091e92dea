import LibAmvp.Session.VectorSets

/-!
# The response to an evidence set

An evidence set names, group by group, the test evidences that can be gathered without an
operator.  The response has a group for every group of the set, with the evidence of the
names that the library knows.  Group and set are identified by an {lit}`int`.

Main results:

- Theorem {lit}`dispatchIeSet_mirrors`: which sets are answered, and with what.
-/

namespace LibAmvp

/-! ## What an answer looks like -/

/-- The number of a group as the library reads it. -/
def teIdOf (group : Json) : Int :=
  toInt (jsonObjectGetNumber (jsonValueGetObject (some group)) "teId")

/-- The names in a group, when there is an array of strings. -/
def HasNames (group : Json) (names : List String) : Prop :=
  jsonObjectGetArray (jsonValueGetObject (some group)) "autoTE" = some (names.map .str)

/-- The group has a number and at least one name, and all its names are strings. -/
def AnswerableGroup (group : Json) : Prop :=
  teIdOf group ≠ 0 ∧ ∃ names, names ≠ [] ∧ HasNames group names

/-- The evidence for one name: its text in the table, under the name. -/
def evidenceFor (name : String) : Option Json :=
  (evidenceTbl.lookup name).map fun text => .obj [(name, .str text)]

/-- The answer to a group has its number and the evidence for each of its names that is in
the table, in order. -/
def AnswersGroup (group answer : Json) : Prop :=
  ∃ names, HasNames group names ∧
    answer = .obj [("teId", .num (teIdOf group)), ("evidence", .arr (names.filterMap evidenceFor))]

/-! ## One group -/

/-- The entry found in the table is the one with that name. -/
theorem locateAutoEntry_eq_lookup (name : String) :
    locateAutoEntry name = evidenceTbl.lookup name := by
  unfold locateAutoEntry
  induction evidenceTbl with
  | nil => rfl
  | cons entry table ih =>
      rcases entry with ⟨key, label⟩
      rw [List.find?_cons, List.lookup_cons]
      by_cases hname : key = name
      · simp [hname]
      · have hname' : (name == key) = false := beq_false_of_ne (Ne.symm hname)
        simp only [beq_false_of_ne hname, hname', ih]

theorem evidenceEntries_names (names : List String) :
    evidenceEntries (names.map .str) = .ok (names.filterMap evidenceFor) := by
  induction names with
  | nil => rfl
  | cons name names ih =>
      rw [List.map_cons, evidenceEntries, ih]
      dsimp only
      rw [locateAutoEntry_eq_lookup, List.filterMap_cons, evidenceFor]
      cases evidenceTbl.lookup name <;> rfl

/-- Only names are answered. -/
theorem exists_names_of_evidenceEntries {tests entries : List Json}
    (h : evidenceEntries tests = .ok entries) : ∃ names : List String, tests = names.map .str := by
  induction tests generalizing entries with
  | nil => exact ⟨[], rfl⟩
  | cons test tests ih =>
      cases test with
      | str name =>
          rw [evidenceEntries] at h
          cases htests : evidenceEntries tests with
          | error rv =>
              rw [htests] at h
              cases h
          | ok rest =>
              obtain ⟨names, rfl⟩ := ih htests
              exact ⟨name :: names, rfl⟩
      | null | bool | num | arr | obj => cases h

/-- A group is answered exactly when it is answerable, and then with its own answer. -/
theorem evidenceGroup_eq_ok_iff (group answer : Json) :
    evidenceGroup group = .ok answer ↔ AnswerableGroup group ∧ AnswersGroup group answer := by
  unfold evidenceGroup AnswerableGroup AnswersGroup HasNames teIdOf
  dsimp only
  constructor
  · intro h
    by_cases hzero : toInt (jsonObjectGetNumber (jsonValueGetObject (some group)) "teId") = 0
    · rw [if_pos hzero] at h
      cases h
    rw [if_neg hzero] at h
    rcases htests : jsonObjectGetArray (jsonValueGetObject (some group)) "autoTE" with
      _ | _ | ⟨test, tests⟩
    · rw [htests] at h
      cases h
    · rw [htests] at h
      cases h
    · rw [htests] at h
      dsimp only at h
      cases hentries : evidenceEntries (test :: tests) with
      | error rv =>
          rw [hentries] at h
          cases h
      | ok entries =>
          rw [hentries] at h
          obtain ⟨names, hnames⟩ := exists_names_of_evidenceEntries hentries
          rw [hnames, evidenceEntries_names] at hentries
          cases hentries
          cases h
          refine ⟨⟨hzero, names, ?_, ?_⟩, names, ?_, rfl⟩
          · rintro rfl
            cases hnames
          · rw [hnames]
          · rw [hnames]
  · rintro ⟨⟨hzero, names, hne, hnames⟩, names', hnames', rfl⟩
    obtain rfl : names = names' := by
      have hsame := Option.some.inj (hnames.symm.trans hnames')
      exact List.map_injective_iff.mpr (fun _ _ h => Json.str.inj h) hsame
    rw [if_neg hzero, hnames]
    cases names with
    | nil => exact absurd rfl hne
    | cons name names =>
        have hentries := evidenceEntries_names (name :: names)
        rw [List.map_cons] at hentries ⊢
        simp only [hentries]

/-! ## All groups -/

theorem evidenceGroups_eq_ok_iff (groups answers : List Json) :
    evidenceGroups groups = .ok answers ↔
      (∀ group ∈ groups, AnswerableGroup group) ∧ List.Forall₂ AnswersGroup groups answers := by
  induction groups generalizing answers with
  | nil =>
      rw [evidenceGroups, Except.ok.injEq]
      simp [eq_comm]
  | cons group groups ih =>
      rw [evidenceGroups, List.forall_mem_cons]
      cases hgroup : evidenceGroup group with
      | error rv =>
          refine iff_of_false (by simp) ?_
          rintro ⟨⟨hanswerable, -⟩, hall⟩
          cases hall with
          | cons hanswer _ =>
              have hok := (evidenceGroup_eq_ok_iff _ _).mpr ⟨hanswerable, hanswer⟩
              rw [hgroup] at hok
              cases hok
      | ok answer =>
          obtain ⟨hanswerable, hanswer⟩ := (evidenceGroup_eq_ok_iff _ _).mp hgroup
          dsimp only
          constructor
          · intro h
            cases hgroups : evidenceGroups groups with
            | error rv =>
                rw [hgroups] at h
                cases h
            | ok rest =>
                rw [hgroups] at h
                cases h
                obtain ⟨hall, hanswers⟩ := (ih rest).mp hgroups
                exact ⟨⟨hanswerable, hall⟩, .cons hanswer hanswers⟩
          · rintro ⟨⟨-, hall⟩, hanswers⟩
            cases hanswers with
            | cons hanswer' hanswers =>
                have hsame := (evidenceGroup_eq_ok_iff _ _).mpr ⟨hanswerable, hanswer'⟩
                rw [hgroup] at hsame
                cases hsame
                rw [(ih _).mpr ⟨hall, hanswers⟩]

theorem evidenceEntries_error {tests : List Json} {rv : AmvpResult}
    (h : evidenceEntries tests = .error rv) : rv = .missingArg := by
  induction tests with
  | nil => cases h
  | cons test tests ih =>
      cases test with
      | str name =>
          rw [evidenceEntries] at h
          cases htests : evidenceEntries tests with
          | error rv' =>
              rw [htests] at h
              cases h
              exact ih htests
          | ok rest =>
              rw [htests] at h
              dsimp only at h
              split at h <;> cases h
      | null | bool | num | arr | obj =>
          cases h
          rfl

/-- A set that is not answered is an error. -/
theorem evidenceGroups_error {groups : List Json} {rv : AmvpResult}
    (h : evidenceGroups groups = .error rv) : rv ≠ .success := by
  induction groups with
  | nil => cases h
  | cons group groups ih =>
      rw [evidenceGroups] at h
      cases hgroup : evidenceGroup group with
      | error rv' =>
          rw [hgroup] at h
          cases h
          unfold evidenceGroup at hgroup
          dsimp only at hgroup
          split at hgroup
          · cases hgroup
            decide
          split at hgroup
          · cases hgroup
            decide
          · cases hgroup
            decide
          · split at hgroup
            · next hentries =>
                cases hgroup
                rw [evidenceEntries_error hentries]
                decide
            · cases hgroup
      | ok answer =>
          rw [hgroup] at h
          dsimp only at h
          cases hgroups : evidenceGroups groups with
          | error rv' =>
              rw [hgroups] at h
              cases h
              exact ih hgroups
          | ok rest =>
              rw [hgroups] at h
              cases h

/-- Answerable groups have answers. -/
theorem exists_answers {groups : List Json} (h : ∀ group ∈ groups, AnswerableGroup group) :
    ∃ answers, List.Forall₂ AnswersGroup groups answers := by
  induction groups with
  | nil => exact ⟨[], .nil⟩
  | cons group groups ih =>
      obtain ⟨⟨-, names, -, hnames⟩, hall⟩ := List.forall_mem_cons.mp h
      obtain ⟨answers, hanswers⟩ := ih hall
      exact ⟨_, .cons ⟨names, hnames, rfl⟩ hanswers⟩

/-- A set is answered exactly when it has an array of groups that are all answerable.  The
response is an array of one object with the number of the set and the answers to its groups,
in order.  Numbers are converted to an {lit}`int`. -/
theorem dispatchIeSet_mirrors (obj : Option JsonObject) (w : World) :
    ((dispatchIeSet obj w).1 = .success ↔
      ∃ groups, jsonObjectGetArray obj "teGroups" = some groups ∧
        ∀ group ∈ groups, AnswerableGroup group) ∧
    ((dispatchIeSet obj w).1 = .success →
      ∃ groups answers, jsonObjectGetArray obj "teGroups" = some groups ∧
        List.Forall₂ AnswersGroup groups answers ∧
        (dispatchIeSet obj w).2.ctx.katResp =
          some (.arr [.obj [("ieId", .num (toInt (jsonObjectGetNumber obj "ievSetsId"))),
            ("teGroups", .arr answers)]])) := by
  rw [dispatchIeSet, modifyCtx_bind]
  cases jsonObjectGetArray obj "teGroups" with
  | none =>
      refine ⟨iff_of_false (fun h => ?_) (by simp), fun h => ?_⟩
      · cases h
      · cases h
  | some groups =>
      dsimp only
      cases hgroups : evidenceGroups groups with
      | error rv =>
          have hnot : ¬∀ group ∈ groups, AnswerableGroup group := by
            intro hall
            obtain ⟨answers, hanswers⟩ := exists_answers hall
            have hok := (evidenceGroups_eq_ok_iff _ _).mpr ⟨hall, hanswers⟩
            rw [hgroups] at hok
            cases hok
          refine ⟨iff_of_false (evidenceGroups_error hgroups) ?_, fun h => ?_⟩
          · rintro ⟨groups', hgroups', hall⟩
            cases hgroups'
            exact hnot hall
          · exact absurd h (evidenceGroups_error hgroups)
      | ok answers =>
          obtain ⟨hall, hanswers⟩ := (evidenceGroups_eq_ok_iff _ _).mp hgroups
          exact ⟨iff_of_true rfl ⟨groups, rfl, hall⟩, fun _ => ⟨groups, answers, rfl, hanswers, rfl⟩⟩

/-- The numbers of groups. -/
def teIdNumbers (groups : Option (List Json)) : List ℚ :=
  (jsonArrayElems groups).map fun group =>
    jsonObjectGetNumber (jsonValueGetObject (some group)) "teId"

/-- A set whose only group has the number 3/2. -/
def fractionalSet : JsonObject :=
  [("ievSetsId", .num 1), ("teGroups", .arr [.obj [("teId", .num (3 / 2)),
    ("autoTE", .arr [.str "TE02.20.02"])]])]

/-- The set is answered, but its group under another number. -/
theorem dispatchIeSet_truncates :
    (dispatchIeSet (some fractionalSet) World.start).1 = .success ∧
      teIdNumbers (jsonObjectGetArray (getObjFromRsp
        (dispatchIeSet (some fractionalSet) World.start).2.ctx.katResp) "teGroups") ≠
          teIdNumbers (jsonObjectGetArray (some fractionalSet) "teGroups") := by
  decide +kernel

end LibAmvp

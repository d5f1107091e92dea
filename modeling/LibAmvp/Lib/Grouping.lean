import Mathlib.Data.Finset.Dedup
import Mathlib.Tactic

/-!
# Grouping by a scan

A list of pairs is grouped by the values of its keys: the first pair whose key is not in a table
leads a group, the later pairs with its value join it, and all of their keys go into the table.
When the pairs of a key do not all have the same value, the scan may take a key into a group by
another pair than its first.

Main results:

- Theorem {lit}`scanGroups_perm`: every key is in one group.
- Theorem {lit}`isGrouping_scanGroups_iff`: when the first pair of every key has its own value and
  the others have a common one, the groups are those of the own values, unless a key that has
  only the common value comes before all the keys with a value.
-/

variable {κ ν : Type} [DecidableEq κ]

/-! ## First pairs and repetitions -/

/-- The pairs of some keys: the first pair of a key has the value of the key, the others have a
common value. -/
def firstMarked (value : κ → ν) (common : ν) : List κ → List κ → List (κ × ν)
  | _, [] => []
  | seen, k :: keys =>
    (k, if k ∈ seen then common else value k) :: firstMarked value common (k :: seen) keys

attribute [grind =] firstMarked

section FirstMarked

variable {value : κ → ν} {common : ν} {seen : List κ}

theorem firstMarked_keys (keys : List κ) :
    (firstMarked value common seen keys).map Prod.fst = keys := by
  induction keys generalizing seen with
  | nil => rfl
  | cons k keys ih => rw [firstMarked, List.map_cons, ih]

theorem firstMarked_append (keys : List κ) (k : κ) :
    firstMarked value common seen (keys ++ [k]) = firstMarked value common seen keys ++
      [(k, if k ∈ seen ∨ k ∈ keys then common else value k)] := by
  induction keys generalizing seen with
  | nil => simp [firstMarked]
  | cons k' keys ih =>
    rw [List.cons_append, firstMarked, firstMarked, ih, List.cons_append]
    have hseen : (k ∈ k' :: seen ∨ k ∈ keys) ↔ (k ∈ seen ∨ k ∈ k' :: keys) := by
      simp only [List.mem_cons]
      tauto
    simp only [hseen]

/-- The values of the keys that were seen do not matter. -/
theorem firstMarked_congr {value' : κ → ν} {keys : List κ}
    (h : ∀ k ∈ keys, k ∉ seen → value k = value' k) :
    firstMarked value common seen keys = firstMarked value' common seen keys := by
  induction keys generalizing seen with
  | nil => rfl
  | cons k keys ih =>
    have hrest : firstMarked value common (k :: seen) keys =
        firstMarked value' common (k :: seen) keys := ih fun k' hk' hseen =>
      h k' (List.mem_cons_of_mem _ hk') fun hmem => hseen (List.mem_cons_of_mem _ hmem)
    rw [firstMarked, firstMarked, hrest]
    by_cases hk : k ∈ seen
    · rw [if_pos hk, if_pos hk]
    · rw [if_neg hk, if_neg hk, h k List.mem_cons_self hk]

theorem firstMarked_map {ν' : Type} (f : ν → ν') (keys : List κ) :
    (firstMarked value common seen keys).map (fun x => (x.1, f x.2)) =
      firstMarked (fun k => f (value k)) (f common) seen keys := by
  induction keys generalizing seen with
  | nil => rfl
  | cons k keys ih =>
    rw [firstMarked, firstMarked, List.map_cons, ih]
    simp only [apply_ite f]

theorem mem_firstMarked_of_seen {keys : List κ} {k : κ} {v : ν} (h : k ∈ seen) :
    (k, v) ∈ firstMarked value common seen keys ↔ k ∈ keys ∧ v = common := by
  induction keys generalizing seen with
  | nil => simp [firstMarked]
  | cons k' keys ih =>
    rw [firstMarked, List.mem_cons, ih (List.mem_cons_of_mem _ h), Prod.mk.injEq, List.mem_cons]
    by_cases hk : k = k'
    · subst hk
      simp only [if_pos h, true_and, true_or]
      tauto
    · simp [hk]

/-- What pairs a key has that was not seen before. -/
theorem mem_firstMarked {keys : List κ} {k : κ} {v : ν} (h : k ∉ seen) :
    (k, v) ∈ firstMarked value common seen keys ↔
      k ∈ keys ∧ v = value k ∨ 2 ≤ keys.count k ∧ v = common := by
  induction keys generalizing seen with
  | nil => simp [firstMarked]
  | cons k' keys ih =>
    rw [firstMarked, List.mem_cons, Prod.mk.injEq]
    by_cases hk : k = k'
    · subst hk
      rw [mem_firstMarked_of_seen List.mem_cons_self, if_neg h, List.count_cons_self,
        Nat.succ_le_succ_iff, Nat.one_le_iff_ne_zero, Ne, List.count_eq_zero, not_not]
      simp
    · have hseen : k ∉ k' :: seen := fun hmem => (List.mem_cons.mp hmem).elim hk h
      have hrest := ih hseen
      rw [hrest, List.count_cons_of_ne fun heq => hk heq.symm]
      simp [hk]

/-! ## Keys that are taken into another group -/

/-- A key with the common value comes before every key with the value of a key that comes more
than once. -/
def MixesGroups (value : κ → ν) (common : ν) (track keys : List κ) : Prop :=
  ∃ front c back d, keys = front ++ c :: back ∧ c ∉ track ∧ value c = common ∧ d ∉ track ∧
    value d ≠ common ∧ 2 ≤ keys.count d ∧ ∀ k ∈ front, k ∉ track → value k ≠ value d

theorem mixesGroups_cons_of_mem {track keys : List κ} {k : κ} (hk : k ∈ track) :
    MixesGroups value common track (k :: keys) ↔ MixesGroups value common track keys := by
  have hcount {d : κ} (hd : d ∉ track) : (k :: keys).count d = keys.count d :=
    List.count_cons_of_ne fun heq => hd (by rwa [← heq])
  constructor
  · rintro ⟨front, c, back, d, hkeys, hc, hcommon, hd, hvalue, htwo, hfront⟩
    cases front with
    | nil =>
      obtain ⟨rfl, -⟩ := List.cons.inj hkeys
      exact absurd hk hc
    | cons k' front =>
      obtain ⟨rfl, rfl⟩ := List.cons.inj hkeys
      exact ⟨front, c, back, d, rfl, hc, hcommon, hd, hvalue, htwo.trans (hcount hd).le,
        fun e he => hfront e (List.mem_cons_of_mem _ he)⟩
  · rintro ⟨front, c, back, d, rfl, hc, hcommon, hd, hvalue, htwo, hfront⟩
    refine ⟨k :: front, c, back, d, rfl, hc, hcommon, hd, hvalue, by rwa [hcount hd], ?_⟩
    intro e he htrack
    rcases List.mem_cons.mp he with rfl | he
    · exact absurd hk htrack
    · exact hfront e he htrack

theorem not_mixesGroups {track keys : List κ} (h : keys.Nodup) :
    ¬MixesGroups value common track keys := by
  rintro ⟨front, c, back, d, -, -, -, -, -, htwo, -⟩
  have hone := List.nodup_iff_count_le_one.mp h d
  omega

/-- A group whose keys all have the value of its leader leaves the rest as it was. -/
theorem mixesGroups_cons_of_pure {track track' joined keys : List κ} {k : κ} (hk : k ∉ track)
    (htrack : ∀ d, d ∈ track' ↔ d ∈ k :: track ∨ d ∈ joined)
    (hjoined : ∀ d, d ∈ joined ↔ d ∉ k :: track ∧
      (d ∈ keys ∧ value k = value d ∨ 2 ≤ keys.count d ∧ value k = common))
    (hpure : ∀ d ∈ joined, value d = value k) :
    MixesGroups value common track' keys ↔ MixesGroups value common track (k :: keys) := by
  have hfree {d : κ} (hd : d ∉ track') : d ∉ track ∧ d ≠ k := by
    have hd' := fun h => hd ((htrack d).mpr (Or.inl h))
    exact ⟨fun h => hd' (List.mem_cons_of_mem _ h), fun h => hd' (h ▸ List.mem_cons_self)⟩
  have hvalues {d : κ} (hd : d ∈ track') (hd' : d ∉ track) : value d = value k := by
    rcases (htrack d).mp hd with hd | hd
    · rw [(List.mem_cons.mp hd).resolve_right hd']
    · exact hpure d hd
  constructor
  · rintro ⟨front, c, back, d, rfl, hc, hcommon, hd, hvalue, htwo, hfront⟩
    have hlead : value k ≠ value d := by
      intro heq
      have hmem : d ∈ front ++ c :: back := List.count_pos_iff.mp (by omega)
      refine hd ((htrack d).mpr (Or.inr ((hjoined d).mpr ⟨fun h => ?_, Or.inl ⟨hmem, heq⟩⟩)))
      exact hd ((htrack d).mpr (Or.inl h))
    refine ⟨k :: front, c, back, d, rfl, (hfree hc).1, hcommon, (hfree hd).1, hvalue,
      htwo.trans List.count_le_count_cons, fun e he hetrack => ?_⟩
    rcases List.mem_cons.mp he with rfl | he
    · exact hlead
    · by_cases hetrack' : e ∈ track'
      · rw [hvalues hetrack' hetrack]
        exact hlead
      · exact hfront e he hetrack'
  · rintro ⟨front, c, back, d, hkeys, hc, hcommon, hd, hvalue, htwo, hfront⟩
    -- A leader with the common value takes in all the keys that come more than once.
    have hlead : value k ≠ common := by
      intro heq
      have hdk : d ≠ k := fun h => hvalue (h ▸ heq)
      rw [List.count_cons_of_ne fun h => hdk h.symm] at htwo
      have hjoin : d ∈ joined := (hjoined d).mpr
        ⟨fun h => (List.mem_cons.mp h).elim hdk hd, Or.inr ⟨htwo, heq⟩⟩
      exact hvalue ((hpure d hjoin).trans heq)
    cases front with
    | nil =>
      obtain ⟨rfl, -⟩ := List.cons.inj hkeys
      exact absurd hcommon hlead
    | cons k' front =>
      obtain ⟨rfl, rfl⟩ := List.cons.inj hkeys
      have hother := hfront k List.mem_cons_self hk
      have hdk : d ≠ k := fun h => hother (h ▸ rfl)
      refine ⟨front, c, back, d, rfl, fun h => hlead ((hvalues h hc).symm.trans hcommon), hcommon,
        fun h => hother (hvalues h hd).symm, hvalue, ?_, fun e he hetrack => ?_⟩
      · rwa [List.count_cons_of_ne fun h => hdk h.symm] at htwo
      · exact hfront e (List.mem_cons_of_mem _ he) (hfree hetrack).1

end FirstMarked

variable [DecidableEq ν]

/-! ## The scan -/

/-- The keys that join a leader, and the table. -/
def joinLeader (leader : κ × ν) : List κ → List (κ × ν) → List κ × List κ
  | track, [] => ([], track)
  | track, x :: rest =>
    if leader.1 = x.1 ∨ x.1 ∈ track then joinLeader leader track rest
    else if leader.2 = x.2 then
      let out := joinLeader leader (x.1 :: track) rest
      (x.1 :: out.1, out.2)
    else joinLeader leader track rest

attribute [grind =] joinLeader

/-- The groups: their keys, and the value of the leader. -/
def scanGroups : List κ → List (κ × ν) → List (List κ × ν)
  | _, [] => []
  | track, x :: rest =>
    if x.1 ∈ track then scanGroups track rest
    else
      let joined := joinLeader x (x.1 :: track) rest
      (x.1 :: joined.1, x.2) :: scanGroups joined.2 rest

attribute [grind =] scanGroups

/-- The keys that have joined are in the table. -/
theorem mem_joinLeader_track {leader : κ × ν} {track : List κ} {l : List (κ × ν)} {k : κ} :
    k ∈ (joinLeader leader track l).2 ↔ k ∈ track ∨ k ∈ (joinLeader leader track l).1 := by
  induction l generalizing track with
  | nil => simp [joinLeader]
  | cons x rest ih =>
    unfold joinLeader
    split
    · exact ih
    · split
      · simp only [ih, List.mem_cons]
        tauto
      · exact ih

/-- The keys that join are those with the value of the leader. -/
theorem mem_joinLeader {leader : κ × ν} {track : List κ} {l : List (κ × ν)} {k : κ} :
    k ∈ (joinLeader leader track l).1 ↔ k ∉ track ∧ k ≠ leader.1 ∧ (k, leader.2) ∈ l := by
  induction l generalizing track with
  | nil => simp [joinLeader]
  | cons x rest ih =>
    obtain ⟨key, value⟩ := x
    unfold joinLeader
    split
    · rename_i hskip
      rw [ih, List.mem_cons, Prod.mk.injEq]
      refine and_congr_right fun htrack => and_congr_right fun hleader => ?_
      refine (or_iff_right ?_).symm
      rintro ⟨rfl, -⟩
      exact hskip.elim (fun heq => hleader heq.symm) htrack
    · rename_i hskip
      rw [not_or] at hskip
      split
      · rename_i hvalue
        simp only at hvalue
        simp only [List.mem_cons, ih, Prod.mk.injEq, hvalue, and_true, not_or]
        by_cases hk : k = key
        · subst hk
          simp only [true_or, true_iff, and_true]
          exact ⟨hskip.2, fun heq => hskip.1 heq.symm⟩
        · simp [hk]
      · rename_i hvalue
        rw [ih, List.mem_cons, Prod.mk.injEq]
        refine and_congr_right fun _ => and_congr_right fun _ => ?_
        exact (or_iff_right fun heq => hvalue heq.2).symm

theorem joinLeader_nodup (leader : κ × ν) (track : List κ) (l : List (κ × ν)) :
    (joinLeader leader track l).1.Nodup := by
  induction l generalizing track with
  | nil => exact List.nodup_nil
  | cons x rest ih =>
    unfold joinLeader
    split
    · exact ih track
    · split
      · refine List.nodup_cons.mpr ⟨fun hmem => ?_, ih _⟩
        exact (mem_joinLeader.mp hmem).1 List.mem_cons_self
      · exact ih track

/-! ## Every key is in one group -/

theorem mem_scanGroups {track : List κ} {l : List (κ × ν)} {k : κ} :
    k ∈ (scanGroups track l).flatMap Prod.fst ↔ k ∉ track ∧ k ∈ l.map Prod.fst := by
  induction l generalizing track with
  | nil => simp [scanGroups]
  | cons x rest ih =>
    unfold scanGroups
    split
    · rename_i hskip
      rw [ih, List.map_cons, List.mem_cons]
      refine and_congr_right fun htrack => (or_iff_right ?_).symm
      rintro rfl
      exact htrack hskip
    · rename_i hskip
      simp only [List.flatMap_cons, List.mem_append, ih, mem_joinLeader_track, List.map_cons,
        List.mem_cons]
      by_cases hk : k = x.1
      · simp [hk, hskip]
      · have hjoined : k ∈ (joinLeader x (x.1 :: track) rest).1 →
            k ∉ track ∧ k ∈ rest.map Prod.fst := by
          intro hmem
          obtain ⟨htrack, -, hrest⟩ := mem_joinLeader.mp hmem
          exact ⟨fun h => htrack (List.mem_cons_of_mem _ h), List.mem_map.mpr ⟨_, hrest, rfl⟩⟩
        simp only [hk, false_or]
        by_cases hmem : k ∈ (joinLeader x (x.1 :: track) rest).1
        · simp [hmem, hjoined hmem]
        · simp [hmem]

theorem scanGroups_nodup (track : List κ) (l : List (κ × ν)) :
    ((scanGroups track l).flatMap Prod.fst).Nodup := by
  induction l generalizing track with
  | nil => exact List.nodup_nil
  | cons x rest ih =>
    unfold scanGroups
    split
    · exact ih track
    · rw [List.flatMap_cons]
      refine List.Nodup.append (List.nodup_cons.mpr ⟨fun hmem => ?_, joinLeader_nodup _ _ _⟩)
        (ih _) fun k hgroup hlater => ?_
      · exact (mem_joinLeader.mp hmem).1 List.mem_cons_self
      · refine (mem_scanGroups.mp hlater).1 (mem_joinLeader_track.mpr ?_)
        rcases List.mem_cons.mp hgroup with rfl | hmem
        · exact Or.inl List.mem_cons_self
        · exact Or.inr hmem

/-- The groups hold the keys of the list, each of them once. -/
theorem scanGroups_perm (l : List (κ × ν)) :
    ((scanGroups [] l).flatMap Prod.fst).Perm (l.map Prod.fst).dedup := by
  refine (List.perm_ext_iff_of_nodup (scanGroups_nodup [] l) (List.nodup_dedup _)).mpr fun k => ?_
  rw [mem_scanGroups, List.mem_dedup]
  exact and_iff_right List.not_mem_nil

/-! ## Pure groups -/

section Pure

variable {value : κ → ν} {common : ν}

/-- The keys of every group have the value of its leader. -/
def PureGroups (value : κ → ν) (groups : List (List κ × ν)) : Prop :=
  ∀ g ∈ groups, ∀ k ∈ g.1, value k = g.2

/-- The groups are those of the values, unless a key with the common value alone comes first. -/
theorem pure_scanGroups_iff {seen track keys : List κ} (hseen : ∀ k ∈ seen, k ∈ track) :
    PureGroups value (scanGroups track (firstMarked value common seen keys)) ↔
      ¬MixesGroups value common track keys := by
  induction keys generalizing seen track with
  | nil =>
    refine iff_of_true (fun g hg => nomatch hg) ?_
    rintro ⟨front, c, back, d, hkeys, -⟩
    exact absurd hkeys (by simp)
  | cons k keys ih =>
    rw [firstMarked, scanGroups]
    dsimp only
    split
    · rename_i hk
      rw [mixesGroups_cons_of_mem hk]
      refine ih fun e he => ?_
      rcases List.mem_cons.mp he with rfl | he
      · exact hk
      · exact hseen e he
    · rename_i hk
      have hkseen : k ∉ seen := fun h => hk (hseen k h)
      rw [if_neg hkseen]
      generalize hout : joinLeader (k, value k) (k :: track)
        (firstMarked value common (k :: seen) keys) = out
      have htrack (d : κ) : d ∈ out.2 ↔ d ∈ k :: track ∨ d ∈ out.1 := by
        rw [← hout]
        exact mem_joinLeader_track
      have hjoined (d : κ) : d ∈ out.1 ↔ d ∉ k :: track ∧
          (d ∈ keys ∧ value k = value d ∨ 2 ≤ keys.count d ∧ value k = common) := by
        rw [← hout, mem_joinLeader]
        refine and_congr_right fun hd => ?_
        have hdk : d ≠ k := fun h => hd (h ▸ List.mem_cons_self)
        have hdseen : d ∉ k :: seen := fun h => (List.mem_cons.mp h).elim hdk fun h =>
          hd (List.mem_cons_of_mem _ (hseen d h))
        rw [mem_firstMarked hdseen]
        exact and_iff_right hdk
      have hseen' : ∀ e ∈ k :: seen, e ∈ out.2 := fun e he => (htrack e).mpr (Or.inl
        ((List.mem_cons.mp he).elim (fun h => h ▸ List.mem_cons_self) fun h =>
          List.mem_cons_of_mem _ (hseen e h)))
      have hrest := ih hseen'
      have hsplit (groups : List (List κ × ν)) :
          PureGroups value ((k :: out.1, value k) :: groups) ↔
            (∀ d ∈ out.1, value d = value k) ∧ PureGroups value groups := by
        simp [PureGroups]
      rw [hsplit, hrest]
      by_cases hpure : ∀ d ∈ out.1, value d = value k
      · rw [mixesGroups_cons_of_pure hk htrack hjoined hpure]
        exact and_iff_right hpure
      · refine iff_of_false (fun h => hpure h.1) (not_not_intro ?_)
        obtain ⟨d, hd, hvalue⟩ := not_forall₂.mp hpure
        obtain ⟨hdtrack, hsame⟩ := (hjoined d).mp hd
        obtain ⟨htwo, hcommon⟩ := hsame.resolve_left fun h => hvalue h.2.symm
        refine ⟨[], k, keys, d, rfl, hk, hcommon, fun h => hdtrack (List.mem_cons_of_mem _ h),
          hcommon ▸ hvalue, htwo.trans List.count_le_count_cons, fun e he => nomatch he⟩

/-- A leader has its own value. -/
theorem scanGroups_leader {seen track keys : List κ} (hseen : ∀ k ∈ seen, k ∈ track)
    {g : List κ × ν} (hg : g ∈ scanGroups track (firstMarked value common seen keys)) :
    ∃ k joined, g = (k :: joined, value k) := by
  induction keys generalizing seen track with
  | nil => cases hg
  | cons k keys ih =>
    rw [firstMarked, scanGroups] at hg
    dsimp only at hg
    split at hg
    · rename_i hk
      exact ih (fun e he => (List.mem_cons.mp he).elim (fun h => h ▸ hk) (hseen e)) hg
    · rename_i hk
      rcases List.mem_cons.mp hg with rfl | hg
      · rw [if_neg fun h => hk (hseen k h)]
        exact ⟨k, _, rfl⟩
      · refine ih (fun e he => mem_joinLeader_track.mpr (Or.inl ?_)) hg
        rcases List.mem_cons.mp he with rfl | he
        · exact List.mem_cons_self
        · exact List.mem_cons_of_mem _ (hseen e he)

/-- When all groups are pure, a group has all the keys with its value. -/
theorem mem_of_pure {seen track keys : List κ} (hseen : ∀ k ∈ seen, k ∈ track)
    (hpure : PureGroups value (scanGroups track (firstMarked value common seen keys)))
    {g : List κ × ν} (hg : g ∈ scanGroups track (firstMarked value common seen keys)) {d : κ}
    (hd : d ∈ keys) (hdtrack : d ∉ track) (hvalue : value d = g.2) : d ∈ g.1 := by
  induction keys generalizing seen track with
  | nil => cases hd
  | cons k keys ih =>
    rw [firstMarked, scanGroups] at hpure hg
    dsimp only at hpure hg
    split at hpure
    · rename_i hk
      rw [if_pos hk] at hg
      have hdk : d ≠ k := fun h => hdtrack (h ▸ hk)
      exact ih (fun e he => (List.mem_cons.mp he).elim (fun h => h ▸ hk) (hseen e)) hpure hg
        ((List.mem_cons.mp hd).resolve_left hdk) hdtrack
    · rename_i hk
      have hkseen : k ∉ seen := fun h => hk (hseen k h)
      rw [if_neg hk, if_neg hkseen] at hg
      rw [if_neg hkseen] at hpure
      generalize hout : joinLeader (k, value k) (k :: track)
        (firstMarked value common (k :: seen) keys) = out at hpure hg
      have hseen' : ∀ e ∈ k :: seen, e ∈ out.2 := by
        intro e he
        rw [← hout]
        refine mem_joinLeader_track.mpr (Or.inl ?_)
        rcases List.mem_cons.mp he with rfl | he
        · exact List.mem_cons_self
        · exact List.mem_cons_of_mem _ (hseen e he)
      have hjoins : ∀ e ∈ keys, e ∉ track → e ≠ k → value e = value k → e ∈ out.1 := by
        intro e he hetrack hek heq
        have hfree : e ∉ k :: seen := fun h => (List.mem_cons.mp h).elim hek fun h =>
          hetrack (hseen e h)
        rw [← hout]
        exact mem_joinLeader.mpr ⟨fun h => (List.mem_cons.mp h).elim hek hetrack, hek,
          (mem_firstMarked hfree).mpr (Or.inl ⟨he, heq.symm⟩)⟩
      have htrack {e : κ} : e ∈ out.2 ↔ e ∈ k :: track ∨ e ∈ out.1 := by
        rw [← hout]
        exact mem_joinLeader_track
      rcases List.mem_cons.mp hg with rfl | hg
      · by_cases hdk : d = k
        · exact hdk ▸ List.mem_cons_self
        · exact List.mem_cons_of_mem _
            (hjoins d ((List.mem_cons.mp hd).resolve_left hdk) hdtrack hdk hvalue)
      · obtain ⟨k', joined, rfl⟩ := scanGroups_leader hseen' hg
        by_cases hdout : d ∈ out.2
        · -- The leader would have joined the group that {lit}`d` is in.
          have hdk : value d = value k := by
            rcases htrack.mp hdout with hdout | hdout
            · rw [(List.mem_cons.mp hdout).resolve_right hdtrack]
            · exact hpure _ List.mem_cons_self d (List.mem_cons_of_mem _ hdout)
          obtain ⟨hfree, hkeys⟩ := mem_scanGroups.mp
            (List.mem_flatMap.mpr ⟨_, hg, List.mem_cons_self⟩)
          rw [firstMarked_keys] at hkeys
          refine absurd (htrack.mpr (Or.inr (hjoins k' hkeys (fun h => ?_) (fun h => ?_)
            (hvalue.symm.trans hdk)))) hfree
          · exact hfree (htrack.mpr (Or.inl (List.mem_cons_of_mem _ h)))
          · exact hfree (htrack.mpr (Or.inl (h ▸ List.mem_cons_self)))
        · have hdk : d ≠ k := fun h => hdout (htrack.mpr (Or.inl (h ▸ List.mem_cons_self)))
          exact ih hseen' (fun g hg => hpure g (List.mem_cons_of_mem _ hg)) hg
            ((List.mem_cons.mp hd).resolve_left hdk) hdout

/-! ## The grouping by value -/

/-- Groups of some keys by their values. -/
structure IsGrouping (value : κ → ν) (keys : List κ) (groups : List (List κ)) : Prop where
  partition : groups.flatten.Perm keys.dedup
  same_iff : ∀ g ∈ groups, ∀ c ∈ g, ∀ d ∈ keys, d ∈ g ↔ value d = value c

/-- The scan groups the keys by their own values, unless a key with the common value alone comes
before all the keys that have the value of a key that comes more than once. -/
theorem isGrouping_scanGroups_iff {keys : List κ} :
    IsGrouping value keys ((scanGroups [] (firstMarked value common [] keys)).map Prod.fst) ↔
      ¬MixesGroups value common [] keys := by
  rw [← pure_scanGroups_iff fun k hk => hk]
  have hperm := scanGroups_perm (firstMarked value common [] keys)
  rw [firstMarked_keys, List.flatMap_def] at hperm
  have hkeys {g : List κ × ν} (hg : g ∈ scanGroups [] (firstMarked value common [] keys)) {d : κ}
      (hd : d ∈ g.1) : d ∈ keys :=
    List.mem_dedup.mp (hperm.mem_iff.mp
      (List.mem_flatten.mpr ⟨_, List.mem_map.mpr ⟨g, hg, rfl⟩, hd⟩))
  constructor
  · intro h g hg d hd
    obtain ⟨k, joined, rfl⟩ := scanGroups_leader (fun _ h => h) hg
    exact (h.same_iff _ (List.mem_map.mpr ⟨_, hg, rfl⟩) k List.mem_cons_self d (hkeys hg hd)).mp hd
  · intro hpure
    refine ⟨hperm, fun group hgroup c hc d hd => ?_⟩
    obtain ⟨g, hg, rfl⟩ := List.mem_map.mp hgroup
    refine ⟨fun hmem => (hpure g hg d hmem).trans (hpure g hg c hc).symm, fun heq => ?_⟩
    exact mem_of_pure (fun _ h => h) hpure hg hd List.not_mem_nil
      (heq.trans (hpure g hg c hc))

end Pure

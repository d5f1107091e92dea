import LibAmvp.Lib.NulString

/-!
# JSON text

A JSON value over bytes, and the grammar of its text.  A rule of the grammar reads a value at
the front of a text and leaves a rest, so that the rules follow each other as the text does.
The texts of numbers are a parameter: what stands for which number depends on the format the
numbers are printed in, and on what follows.

Main results:

- Theorem {lit}`blanks_and_unled_iff`: the blanks before a value are those that a scan passes
  over.
- Theorem {lit}`itemsHeight_lt_iff`: the levels below an array are those below its items.
-/

/-- A JSON value over a type of numbers.  An object keeps its members in their order, and a
string may hold the terminator of a C string. -/
inductive JsonTree (ν : Type) where
  | null
  | bool (b : Bool)
  | num (x : ν)
  | str (chars : List UInt8)
  | arr (items : List (JsonTree ν))
  | obj (members : List (NulString × JsonTree ν))

namespace JsonTree

variable {ν : Type}

/-! ## Shapes of values -/

/-- Induction over a value, from its parts. -/
@[elab_as_elim]
theorem induction {P : JsonTree ν → Prop} (null : P .null) (bool : ∀ b, P (.bool b))
    (num : ∀ x, P (.num x)) (str : ∀ chars, P (.str chars))
    (arr : ∀ items, (∀ v ∈ items, P v) → P (.arr items))
    (obj : ∀ members, (∀ m ∈ members, P m.2) → P (.obj members)) (v : JsonTree ν) : P v := by
  cases v with
  | null => exact null
  | bool b => exact bool b
  | num x => exact num x
  | str chars => exact str chars
  | arr items => exact arr items fun v hv => induction null bool num str arr obj v
  | obj members => exact obj members fun m hm => induction null bool num str arr obj m.2
termination_by sizeOf v
decreasing_by
  · have hlt := List.sizeOf_lt_of_mem hv
    simp only [JsonTree.arr.sizeOf_spec]
    omega
  · have hlt := List.sizeOf_lt_of_mem hm
    obtain ⟨name, w⟩ := m
    simp only [Prod.mk.sizeOf_spec] at hlt
    simp only [JsonTree.obj.sizeOf_spec]
    omega

mutual

/-- How many levels of values are nested below a value. -/
def height : JsonTree ν → Nat
  | .arr items => itemsHeight items
  | .obj members => membersHeight members
  | _ => 0

/-- How many levels of values an array with these items has below it. -/
def itemsHeight : List (JsonTree ν) → Nat
  | [] => 0
  | v :: items => max (height v + 1) (itemsHeight items)

/-- How many levels of values an object with these members has below it. -/
def membersHeight : List (NulString × JsonTree ν) → Nat
  | [] => 0
  | m :: members => max (height m.2 + 1) (membersHeight members)

end

mutual

/-- A property holds of a value and of all the values in it. -/
def Everywhere (p : JsonTree ν → Prop) : JsonTree ν → Prop
  | .arr items => p (.arr items) ∧ ItemsEverywhere p items
  | .obj members => p (.obj members) ∧ MembersEverywhere p members
  | .null => p .null
  | .bool b => p (.bool b)
  | .num x => p (.num x)
  | .str chars => p (.str chars)

/-- A property holds of some items and of all the values in them. -/
def ItemsEverywhere (p : JsonTree ν → Prop) : List (JsonTree ν) → Prop
  | [] => True
  | v :: items => Everywhere p v ∧ ItemsEverywhere p items

/-- A property holds of the values of some members and of all the values in them. -/
def MembersEverywhere (p : JsonTree ν → Prop) : List (NulString × JsonTree ν) → Prop
  | [] => True
  | m :: members => Everywhere p m.2 ∧ MembersEverywhere p members

end

/-- The names of the members of an object. -/
def names (members : List (NulString × JsonTree ν)) : List NulString := members.map Prod.fst

/-! ## Text -/

/-- A quotation mark. -/
abbrev quote : UInt8 := 0x22

/-- A backslash. -/
abbrev backslash : UInt8 := 0x5c

/-- A comma. -/
abbrev comma : UInt8 := 0x2c

/-- A colon. -/
abbrev colon : UInt8 := 0x3a

/-- An opening bracket. -/
abbrev lbrack : UInt8 := 0x5b

/-- A closing bracket. -/
abbrev rbrack : UInt8 := 0x5d

/-- An opening brace. -/
abbrev lbrace : UInt8 := 0x7b

/-- A closing brace. -/
abbrev rbrace : UInt8 := 0x7d

/-- The text of the null value. -/
def nullText : List UInt8 := [0x6e, 0x75, 0x6c, 0x6c]

/-- The text of a truth value. -/
def boolText : Bool → List UInt8
  | true => [0x74, 0x72, 0x75, 0x65]
  | false => [0x66, 0x61, 0x6c, 0x73, 0x65]

/-- A byte that may stand between the parts of a text. -/
def IsBlank (c : UInt8) : Prop := c = 0x20 ∨ 0x09 ≤ c ∧ c ≤ 0x0d

instance (c : UInt8) : Decidable (IsBlank c) := inferInstanceAs (Decidable (_ ∨ _))

/-- Only blanks stand between two places of a text. -/
def Blanks (s s' : List UInt8) : Prop := ∃ w, s = w ++ s' ∧ ∀ c ∈ w, IsBlank c

/-- The character an escape with one letter stands for. -/
def shortEscape (e : UInt8) : Option UInt8 :=
  if e = quote then some quote
  else if e = backslash then some backslash
  else if e = 0x2f then some 0x2f
  else if e = 0x62 then some 0x08
  else if e = 0x66 then some 0x0c
  else if e = 0x6e then some 0x0a
  else if e = 0x72 then some 0x0d
  else if e = 0x74 then some 0x09
  else none

/-- The value of a hexadecimal digit. -/
def hexValue (c : UInt8) : Option Nat :=
  if 0x30 ≤ c ∧ c ≤ 0x39 then some (c.toNat - 0x30)
  else if 0x61 ≤ c ∧ c ≤ 0x66 then some (c.toNat - 0x61 + 10)
  else if 0x41 ≤ c ∧ c ≤ 0x46 then some (c.toNat - 0x41 + 10)
  else none

/-- The number that four hexadecimal digits write. -/
def hexUnit (a b c d : UInt8) : Option Nat := do
  let a ← hexValue a
  let b ← hexValue b
  let c ← hexValue c
  let d ← hexValue d
  some (((a * 16 + b) * 16 + c) * 16 + d)

/-- The character with a code point, and its bytes. -/
def utf8 (codePoint : Nat) : List UInt8 := String.utf8EncodeChar (Char.ofNat codePoint)

/-- The code point that a pair of surrogates stands for. -/
@[irreducible]
def pairPoint (lead trail : Nat) : Nat := 0x10000 + (lead - 0xd800) * 0x400 + (trail - 0xdc00)

/-- The characters of a string up to its closing quotation mark, and what follows that.  Unicode
escapes stand for the bytes of a character, two of them when they are a pair of surrogates. -/
inductive Quoted : List UInt8 → List UInt8 → List UInt8 → Prop
  | close (rest : List UInt8) : Quoted (quote :: rest) [] rest
  | raw {c : UInt8} {s chars rest : List UInt8} (hc : 0x20 ≤ c ∧ c ≠ quote ∧ c ≠ backslash)
      (h : Quoted s chars rest) : Quoted (c :: s) (c :: chars) rest
  | short {e c : UInt8} {s chars rest : List UInt8} (he : shortEscape e = some c)
      (h : Quoted s chars rest) : Quoted (backslash :: e :: s) (c :: chars) rest
  | unit {a b c d : UInt8} {n : Nat} {s chars rest : List UInt8} (hn : hexUnit a b c d = some n)
      (hrange : n < 0xd800 ∨ 0xdfff < n) (h : Quoted s chars rest) :
      Quoted (backslash :: 0x75 :: a :: b :: c :: d :: s) (utf8 n ++ chars) rest
  | pair {a b c d a' b' c' d' : UInt8} {lead trail : Nat} {s chars rest : List UInt8}
      (hlead : hexUnit a b c d = some lead) (hleadRange : 0xd800 ≤ lead ∧ lead ≤ 0xdbff)
      (htrail : hexUnit a' b' c' d' = some trail) (htrailRange : 0xdc00 ≤ trail ∧ trail ≤ 0xdfff)
      (h : Quoted s chars rest) :
      Quoted (backslash :: 0x75 :: a :: b :: c :: d ::
          backslash :: 0x75 :: a' :: b' :: c' :: d' :: s)
        (utf8 (pairPoint lead trail) ++ chars) rest

/-! ## The grammar -/

section Sequences

variable {α : Type} (R : List UInt8 → α → List UInt8 → Prop)

/-- Parts with commas between them are read. -/
inductive Separated : List UInt8 → List α → List UInt8 → Prop
  | last {s s₁ s₂ rest : List UInt8} {a : α} (hbefore : Blanks s s₁) (ha : R s₁ a s₂)
      (hafter : Blanks s₂ rest) : Separated s [a] rest
  | more {s s₁ s₂ s₃ rest : List UInt8} {a : α} {parts : List α} (hbefore : Blanks s s₁)
      (ha : R s₁ a s₂) (hafter : Blanks s₂ (comma :: s₃)) (h : Separated s₃ parts rest) :
      Separated s (a :: parts) rest

/-- Parts between an opening and a closing sign are read. -/
inductive Sequence (opening closing : UInt8) : List UInt8 → List α → List UInt8 → Prop
  | empty {s rest : List UInt8} (h : Blanks s (closing :: rest)) :
      Sequence opening closing (opening :: s) [] rest
  | parts {s rest : List UInt8} {parts : List α} (h : Separated R s parts (closing :: rest)) :
      Sequence opening closing (opening :: s) parts rest

/-- A name, a colon and a part are read. -/
inductive Named : List UInt8 → NulString × α → List UInt8 → Prop
  | mk {s s₁ s₂ s₃ rest : List UInt8} {name : NulString} {a : α}
      (hname : Quoted s name.chars s₁) (hcolon : Blanks s₁ (colon :: s₂)) (hblank : Blanks s₂ s₃)
      (ha : R s₃ a rest) : Named (quote :: s) (name, a) rest

end Sequences

/-- A value is read at the front of a text, and the rest is left. -/
inductive Reads (number : List UInt8 → ν → List UInt8 → Prop) :
    List UInt8 → JsonTree ν → List UInt8 → Prop
  | null (rest : List UInt8) : Reads number (nullText ++ rest) .null rest
  | bool (b : Bool) (rest : List UInt8) : Reads number (boolText b ++ rest) (.bool b) rest
  | num {s rest : List UInt8} {x : ν} (h : number s x rest) : Reads number s (.num x) rest
  | str {s chars rest : List UInt8} (h : Quoted s chars rest) :
      Reads number (quote :: s) (.str chars) rest
  | arr {s rest : List UInt8} {items : List (JsonTree ν)}
      (h : Sequence (Reads number) lbrack rbrack s items rest) : Reads number s (.arr items) rest
  | obj {s rest : List UInt8} {members : List (NulString × JsonTree ν)}
      (h : Sequence (Named (Reads number)) lbrace rbrace s members rest) :
      Reads number s (.obj members) rest

/-! ## Blanks -/

/-- A text that does not start with a blank. -/
def Unled (s : List UInt8) : Prop := ∀ c ∈ s.head?, ¬IsBlank c

theorem Blanks.refl (s : List UInt8) : Blanks s s := ⟨[], rfl, by simp⟩

theorem Blanks.trans {s s' s'' : List UInt8} (h : Blanks s s') (h' : Blanks s' s'') :
    Blanks s s'' := by
  obtain ⟨w, rfl, hw⟩ := h
  obtain ⟨w', rfl, hw'⟩ := h'
  refine ⟨w ++ w', (List.append_assoc w w' s'').symm, fun c hc => ?_⟩
  rcases List.mem_append.mp hc with hc | hc
  · exact hw c hc
  · exact hw' c hc

theorem Blanks.length_le {s s' : List UInt8} (h : Blanks s s') : s'.length ≤ s.length := by
  obtain ⟨w, rfl, -⟩ := h
  simp

theorem blanks_append {w : List UInt8} (hw : ∀ c ∈ w, IsBlank c) (s : List UInt8) :
    Blanks (w ++ s) s := ⟨w, rfl, hw⟩

theorem unled_cons {c : UInt8} {s : List UInt8} (h : ¬IsBlank c) : Unled (c :: s) := by
  simpa [Unled] using h

/-- The blanks before a place that is not blank are those that a scan passes over. -/
theorem blanks_and_unled_iff {s s' : List UInt8} :
    Blanks s s' ∧ Unled s' ↔ s.dropWhile (fun c => IsBlank c) = s' := by
  constructor
  · rintro ⟨⟨w, rfl, hw⟩, hs'⟩
    rw [List.dropWhile_append_of_pos (by simpa using hw)]
    cases s' with
    | nil => rfl
    | cons c t => simp [show ¬IsBlank c from hs' c rfl]
  · rintro rfl
    refine ⟨⟨s.takeWhile fun c => IsBlank c, List.takeWhile_append_dropWhile.symm,
      fun c hc => by simpa using List.mem_takeWhile_imp hc⟩, fun c hc => ?_⟩
    cases hdrop : s.dropWhile (fun c => IsBlank c) with
    | nil => simp [hdrop] at hc
    | cons d t =>
      rw [hdrop] at hc
      obtain rfl := Option.some.inj hc
      have hhead := List.dropWhile_get_zero_not (fun c => decide (IsBlank c)) s (by simp [hdrop])
      simpa [hdrop] using hhead

/-- Blanks before parts belong to them. -/
theorem Separated.blanks {α : Type} {R : List UInt8 → α → List UInt8 → Prop}
    {s s' rest : List UInt8} {parts : List α} (hblanks : Blanks s s')
    (h : Separated R s' parts rest) : Separated R s parts rest := by
  cases h with
  | last hbefore ha hafter => exact .last (hblanks.trans hbefore) ha hafter
  | more hbefore ha hafter h => exact .more (hblanks.trans hbefore) ha hafter h

/-! ## Properties of all nodes -/

theorem itemsHeight_lt_iff {items : List (JsonTree ν)} {n : Nat} :
    itemsHeight items < n + 1 ↔ ∀ v ∈ items, v.height < n := by
  induction items with
  | nil => simp [itemsHeight]
  | cons v items ih =>
    rw [itemsHeight, max_lt_iff, ih, List.forall_mem_cons, Nat.succ_lt_succ_iff]

theorem membersHeight_lt_iff {members : List (NulString × JsonTree ν)} {n : Nat} :
    membersHeight members < n + 1 ↔ ∀ m ∈ members, m.2.height < n := by
  induction members with
  | nil => simp [membersHeight]
  | cons m members ih =>
    rw [membersHeight, max_lt_iff, ih, List.forall_mem_cons, Nat.succ_lt_succ_iff]

theorem itemsEverywhere_iff {p : JsonTree ν → Prop} {items : List (JsonTree ν)} :
    ItemsEverywhere p items ↔ ∀ v ∈ items, Everywhere p v := by
  induction items with
  | nil => simp [ItemsEverywhere]
  | cons v items ih => rw [ItemsEverywhere, ih, List.forall_mem_cons]

theorem membersEverywhere_iff {p : JsonTree ν → Prop} {members : List (NulString × JsonTree ν)} :
    MembersEverywhere p members ↔ ∀ m ∈ members, Everywhere p m.2 := by
  induction members with
  | nil => simp [MembersEverywhere]
  | cons m members ih => rw [MembersEverywhere, ih, List.forall_mem_cons]

end JsonTree

import Mathlib.Data.Rat.Defs
import Mathlib.Tactic

/-!
# JSON values and their lexed text

A small JSON library: the value type, the lexed text a serializer emits, and a
recursive-descent parser for that text.  Text is kept at the level of lexemes:
strings and numbers are single tokens, blanks are dropped, and the punctuation
is what the grammar of arrays and objects inspects.  Like most C parsers, the
parser reads one value at the head of the text and leaves the remainder to its
caller.

Main results:

- Theorem {lit}`parseValue_tokens`: parsing inverts serialization, whatever
  text follows the value.
- Theorem {lit}`parse_tokens_append`: the whole-text parser inverts
  serialization and ignores trailing text.
-/

/-- A JSON value.  Objects keep their members in order. -/
inductive Json where
  | null
  | bool (b : Bool)
  | num (q : ℚ)
  | str (s : String)
  | arr (elems : List Json)
  | obj (members : List (String × Json))

namespace Json

/-- One lexeme of JSON text. -/
inductive Token where
  | lbrack
  | rbrack
  | lbrace
  | rbrace
  | comma
  | colon
  | null
  | bool (b : Bool)
  | num (q : ℚ)
  | str (s : String)
deriving DecidableEq

/-- Lexed text. -/
abbrev Text := List Token

/-! ## Serialization -/

mutual

/-- The lexemes a serializer emits for a value. -/
def tokens : Json → Text
  | .null => [.null]
  | .bool b => [.bool b]
  | .num q => [.num q]
  | .str s => [.str s]
  | .arr elems => .lbrack :: (elemTokens elems ++ [.rbrack])
  | .obj members => .lbrace :: (memberTokens members ++ [.rbrace])

/-- The comma-separated elements of an array. -/
def elemTokens : List Json → Text
  | [] => []
  | v :: vs => tokens v ++ moreElemTokens vs

/-- The elements of an array after the first, each led by a comma. -/
def moreElemTokens : List Json → Text
  | [] => []
  | v :: vs => .comma :: (tokens v ++ moreElemTokens vs)

/-- The comma-separated members of an object. -/
def memberTokens : List (String × Json) → Text
  | [] => []
  | (k, v) :: ms => .str k :: .colon :: (tokens v ++ moreMemberTokens ms)

/-- The members of an object after the first, each led by a comma. -/
def moreMemberTokens : List (String × Json) → Text
  | [] => []
  | (k, v) :: ms => .comma :: .str k :: .colon :: (tokens v ++ moreMemberTokens ms)

end

/-! ## Parsing -/

mutual

/-- Read one value at the head of the text; the fuel bounds the recursion. -/
def parseValue : Nat → Text → Option (Json × Text)
  | 0, _ => none
  | fuel + 1, t :: ts =>
    match t with
    | .null => some (.null, ts)
    | .bool b => some (.bool b, ts)
    | .num q => some (.num q, ts)
    | .str s => some (.str s, ts)
    | .lbrack => (parseElems fuel ts).map fun p => (.arr p.1, p.2)
    | .lbrace => (parseMembers fuel ts).map fun p => (.obj p.1, p.2)
    | _ => none
  | _ + 1, [] => none

/-- Read the elements of an array up to its closing bracket. -/
def parseElems : Nat → Text → Option (List Json × Text)
  | 0, _ => none
  | _ + 1, .rbrack :: ts => some ([], ts)
  | fuel + 1, ts =>
    match parseValue fuel ts with
    | none => none
    | some (v, rest) => (parseMoreElems fuel rest).map fun p => (v :: p.1, p.2)

/-- After an element: a comma and another element, or the closing bracket. -/
def parseMoreElems : Nat → Text → Option (List Json × Text)
  | 0, _ => none
  | _ + 1, .rbrack :: ts => some ([], ts)
  | fuel + 1, .comma :: ts =>
    match parseValue fuel ts with
    | none => none
    | some (v, rest) => (parseMoreElems fuel rest).map fun p => (v :: p.1, p.2)
  | _ + 1, _ => none

/-- Read the members of an object up to its closing brace. -/
def parseMembers : Nat → Text → Option (List (String × Json) × Text)
  | 0, _ => none
  | _ + 1, .rbrace :: ts => some ([], ts)
  | fuel + 1, .str k :: .colon :: ts =>
    match parseValue fuel ts with
    | none => none
    | some (v, rest) => (parseMoreMembers fuel rest).map fun p => ((k, v) :: p.1, p.2)
  | _ + 1, _ => none

/-- After a member: a comma and another member, or the closing brace. -/
def parseMoreMembers : Nat → Text → Option (List (String × Json) × Text)
  | 0, _ => none
  | _ + 1, .rbrace :: ts => some ([], ts)
  | fuel + 1, .comma :: .str k :: .colon :: ts =>
    match parseValue fuel ts with
    | none => none
    | some (v, rest) => (parseMoreMembers fuel rest).map fun p => ((k, v) :: p.1, p.2)
  | _ + 1, _ => none

end

/-- Parse the value at the head of a text, ignoring what follows it. -/
def parse (text : Text) : Option Json :=
  (parseValue (text.length + 1) text).map Prod.fst

/-! ## Parsing inverts serialization -/

/-- A serialized value never starts with a closing bracket. -/
theorem tokens_head (v : Json) : ∃ t ts, tokens v = t :: ts ∧ t ≠ .rbrack := by
  cases v <;> simp [tokens]

mutual

/-- Parsing inverts serialization, whatever text follows the value. -/
theorem parseValue_tokens : ∀ (v : Json) (fuel : Nat) (rest : Text),
    (tokens v).length ≤ fuel → parseValue fuel (tokens v ++ rest) = some (v, rest)
  | v, 0, rest, hfuel => by
      obtain ⟨t, ts, htokens, _⟩ := tokens_head v
      simp [htokens] at hfuel
  | .null, _ + 1, _, _ => by simp [tokens, parseValue]
  | .bool _, _ + 1, _, _ => by simp [tokens, parseValue]
  | .num _, _ + 1, _, _ => by simp [tokens, parseValue]
  | .str _, _ + 1, _, _ => by simp [tokens, parseValue]
  | .arr elems, fuel + 1, rest, hfuel => by
      have hlength : (elemTokens elems).length + 1 ≤ fuel := by
        simp [tokens] at hfuel
        omega
      simp [tokens, parseValue, parseElems_tokens elems fuel rest hlength]
  | .obj members, fuel + 1, rest, hfuel => by
      have hlength : (memberTokens members).length + 1 ≤ fuel := by
        simp [tokens] at hfuel
        omega
      simp [tokens, parseValue, parseMembers_tokens members fuel rest hlength]

private theorem parseElems_tokens : ∀ (vs : List Json) (fuel : Nat) (rest : Text),
    (elemTokens vs).length + 1 ≤ fuel →
      parseElems fuel (elemTokens vs ++ .rbrack :: rest) = some (vs, rest)
  | _, 0, _, hfuel => by omega
  | [], _ + 1, _, _ => by simp [elemTokens, parseElems]
  | v :: vs, fuel + 1, rest, hfuel => by
      simp only [elemTokens, List.length_append] at hfuel
      have hvalue := parseValue_tokens v fuel (moreElemTokens vs ++ .rbrack :: rest) (by omega)
      have hpos : 0 < (tokens v).length := by
        obtain ⟨t, ts, htokens, _⟩ := tokens_head v
        simp [htokens]
      have hmore := parseMoreElems_tokens vs fuel rest (by omega)
      obtain ⟨t, ts, htokens, hne⟩ := tokens_head v
      rw [htokens] at hvalue
      simp only [elemTokens, htokens, List.append_assoc, List.cons_append] at hvalue ⊢
      rw [parseElems]
      · simp [hvalue, hmore]
      · simpa using hne

private theorem parseMoreElems_tokens : ∀ (vs : List Json) (fuel : Nat) (rest : Text),
    (moreElemTokens vs).length + 1 ≤ fuel →
      parseMoreElems fuel (moreElemTokens vs ++ .rbrack :: rest) = some (vs, rest)
  | _, 0, _, hfuel => by omega
  | [], _ + 1, _, _ => by simp [moreElemTokens, parseMoreElems]
  | v :: vs, fuel + 1, rest, hfuel => by
      simp only [moreElemTokens, List.length_append, List.length_cons] at hfuel
      have hvalue := parseValue_tokens v fuel (moreElemTokens vs ++ .rbrack :: rest) (by omega)
      have hmore := parseMoreElems_tokens vs fuel rest (by omega)
      simp [moreElemTokens, parseMoreElems, hvalue, hmore]

private theorem parseMembers_tokens :
    ∀ (ms : List (String × Json)) (fuel : Nat) (rest : Text),
    (memberTokens ms).length + 1 ≤ fuel →
      parseMembers fuel (memberTokens ms ++ .rbrace :: rest) = some (ms, rest)
  | _, 0, _, hfuel => by omega
  | [], _ + 1, _, _ => by simp [memberTokens, parseMembers]
  | (k, v) :: ms, fuel + 1, rest, hfuel => by
      simp only [memberTokens, List.length_append, List.length_cons] at hfuel
      have hvalue := parseValue_tokens v fuel (moreMemberTokens ms ++ .rbrace :: rest) (by omega)
      have hmore := parseMoreMembers_tokens ms fuel rest (by omega)
      simp [memberTokens, parseMembers, hvalue, hmore]

private theorem parseMoreMembers_tokens :
    ∀ (ms : List (String × Json)) (fuel : Nat) (rest : Text),
    (moreMemberTokens ms).length + 1 ≤ fuel →
      parseMoreMembers fuel (moreMemberTokens ms ++ .rbrace :: rest) = some (ms, rest)
  | _, 0, _, hfuel => by omega
  | [], _ + 1, _, _ => by simp [moreMemberTokens, parseMoreMembers]
  | (k, v) :: ms, fuel + 1, rest, hfuel => by
      simp only [moreMemberTokens, List.length_append, List.length_cons] at hfuel
      have hvalue := parseValue_tokens v fuel (moreMemberTokens ms ++ .rbrace :: rest) (by omega)
      have hmore := parseMoreMembers_tokens ms fuel rest (by omega)
      simp [moreMemberTokens, parseMoreMembers, hvalue, hmore]

end

/-- The whole-text parser inverts serialization and ignores trailing text. -/
theorem parse_tokens_append (v : Json) (rest : Text) :
    parse (tokens v ++ rest) = some v := by
  have hvalue := parseValue_tokens v ((tokens v ++ rest).length + 1) rest
    (by simp only [List.length_append]; omega)
  rw [parse, hvalue]
  rfl

end Json

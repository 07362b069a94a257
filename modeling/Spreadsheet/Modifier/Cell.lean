import Spreadsheet.Modifier.Setting
import Spreadsheet.Text.Quoted

/-!
The modifiers in front of a cell's text:

    cell   →  ("![[" pairs "]]")? ("[[" pairs "]]")? text
    pairs  →  pair ("/" pair)*
    pair   →  key ("=" value)?
    value  →  "'" (any but "'" | "''")* "'" | (any but "/" or "]]")*
-/
namespace Spreadsheet

/-- A cell's text taken apart. -/
structure ParsedCell where
  /-- The row's modifier, if the cell opens with one. -/
  rowModifier : Option Modifier
  /-- The cell's settings over those of its row. -/
  modifier : Modifier
  value : List Char
deriving DecidableEq, Inhabited

namespace Modifier

def isKeyChar (c : Char) : Bool :=
  c.isAlphanum || c == '_'

/-- Splits a text in front of the first `/` or `]]`. -/
def splitPlain : List Char → List Char × List Char
  | [] => ([], [])
  | c :: rest =>
    if c = '/' ∨ (c = ']' ∧ rest.head? = some ']') then ([], c :: rest)
    else
      let (value, after) := splitPlain rest
      (c :: value, after)

theorem length_splitPlain_le (s : List Char) : (splitPlain s).2.length ≤ s.length := by
  induction s with
  | nil => simp [splitPlain]
  | cons c rest ih =>
    unfold splitPlain
    split
    · simp
    · simp only [List.length_cons]
      omega

/-- Reads a value, in quotes or up to the next separator. -/
def readValue (s : List Char) : Except ModifierError (List Char × List Char) :=
  match s with
  | '\'' :: quoted =>
    match Text.readQuoted '\'' quoted with
    | some (value, after) => .ok (value, after)
    | none => .error .unterminated
  | _ =>
    let (value, after) := splitPlain s
    .ok (Text.trimEnd value, after)

/-- Reads a key and, behind a `=`, its value; gives also the text behind them. -/
def readPair (s : List Char) :
    Except ModifierError (List Char × Option (List Char) × List Char) :=
  let start := Text.trimStart s
  let key := start.takeWhile isKeyChar
  if key = [] then
    .error (if start = [] then .unterminated else .expectedName (String.ofList start))
  else
    match Text.trimStart (start.dropWhile isKeyChar) with
    | '=' :: after =>
      match readValue (Text.trimStart after) with
      | .ok (value, rest) => .ok (key, some value, rest)
      | .error e => .error e
    | rest => .ok (key, none, rest)

theorem length_readValue {s value rest : List Char} (h : readValue s = .ok (value, rest)) :
    rest.length ≤ s.length := by
  unfold readValue at h
  split at h
  · split at h
    · rename_i hread
      have hlt := Text.length_readQuoted hread
      simp only [Except.ok.injEq, Prod.mk.injEq] at h
      simp only [List.length_cons, ← h.2]
      omega
    · simp at h
  · simp only [Except.ok.injEq, Prod.mk.injEq] at h
    exact h.2 ▸ length_splitPlain_le s

theorem length_readPair {s key rest : List Char} {value : Option (List Char)}
    (h : readPair s = .ok (key, value, rest)) : rest.length < s.length := by
  have hstart := Text.length_trimStart_le s
  generalize hs : Text.trimStart s = start at hstart
  simp only [readPair, hs] at h
  split at h
  · simp at h
  · rename_i hkey
    have hsplit := congrArg List.length
      (List.takeWhile_append_dropWhile (p := isKeyChar) (l := start))
    have hpos := List.length_pos_iff.2 hkey
    have hle := Text.length_trimStart_le (start.dropWhile isKeyChar)
    simp only [List.length_append] at hsplit
    split at h
    · rename_i after hafter
      have hblank := Text.length_trimStart_le after
      rw [hafter, List.length_cons] at hle
      split at h
      · rename_i hvalue
        have hrest := length_readValue hvalue
        simp only [Except.ok.injEq, Prod.mk.injEq] at h
        rw [← h.2.2]
        omega
      · simp at h
    · simp only [Except.ok.injEq, Prod.mk.injEq] at h
      rw [← h.2.2]
      omega

/-- What follows a pair: the end of the modifier with the text behind it, or another pair. -/
inductive PairEnd where
  | closed (rest : List Char)
  | more (rest : List Char)
deriving DecidableEq, Inhabited

/-- Reads the `]]` or the `/` behind a pair. -/
def readPairEnd (s : List Char) : Except ModifierError PairEnd :=
  match Text.trimStart s with
  | ']' :: ']' :: rest => .ok (.closed rest)
  | '/' :: rest => .ok (.more rest)
  | [] => .error .unterminated
  | other => .error (.expectedSeparator (String.ofList other))

theorem length_readPairEnd {s rest : List Char} (h : readPairEnd s = .ok (.more rest)) :
    rest.length ≤ s.length := by
  have hle := Text.length_trimStart_le s
  unfold readPairEnd at h
  split at h <;> simp_all
  omega

/-- Applies one pair to `m`. -/
def applyPair (row : Bool) (m : Modifier) (s : List Char) :
    Except ModifierError (Modifier × PairEnd) :=
  match readPair s with
  | .error e => .error e
  | .ok (key, value, after) =>
    match m.set (String.ofList key) (value.map String.ofList) row with
    | .error e => .error e
    | .ok m =>
      match readPairEnd after with
      | .error e => .error e
      | .ok pairEnd => .ok (m, pairEnd)

theorem length_applyPair {row : Bool} {m m' : Modifier} {s rest : List Char}
    (h : applyPair row m s = .ok (m', .more rest)) : rest.length < s.length := by
  unfold applyPair at h
  split at h
  · simp at h
  · rename_i hpair
    split at h
    · simp at h
    · split at h
      · simp at h
      · rename_i hend
        simp only [Except.ok.injEq, Prod.mk.injEq] at h
        rw [h.2] at hend
        exact Nat.lt_of_le_of_lt (length_readPairEnd hend) (length_readPair hpair)

/-- Applies pairs to `m` up to the closing `]]`, and gives the text behind it. -/
def readPairs (row : Bool) (m : Modifier) (s : List Char) :
    Except ModifierError (Modifier × List Char) :=
  match hpair : applyPair row m s with
  | .error e => .error e
  | .ok (m, .closed rest) => .ok (m, rest)
  | .ok (m, .more rest) =>
    have : rest.length < s.length := length_applyPair hpair
    readPairs row m rest
termination_by s.length

/-- Reads the row modifier at the front of a text, if there is one. -/
def readRowModifier (first : Bool) (s : List Char) :
    Except ModifierError (Option Modifier × List Char) :=
  match s with
  | '!' :: '[' :: '[' :: body =>
    if first then
      match readPairs true {} body with
      | .ok (m, rest) => .ok (some m, Text.trimStart rest)
      | .error e => .error e
    else
      .error .rowModifierNotFirst
  | _ => .ok (none, s)

/-- Reads the cell modifier at the front of a text, if there is one, over the given defaults. -/
def readCellModifier (defaults : Modifier) (s : List Char) :
    Except ModifierError (Modifier × List Char) :=
  match s with
  | '[' :: '[' :: body => readPairs false defaults body
  | _ => .ok (defaults, s)

end Modifier

namespace ParsedCell

/-- Takes a cell's text apart. `rowDefaults` is what the row hands down to its cells; a row
modifier found here, which only the first cell may have, takes its place. -/
def read (input : List Char) (rowDefaults : Modifier) (first : Bool) :
    Except ModifierError ParsedCell :=
  match Modifier.readRowModifier first (Text.trimStart input) with
  | .error e => .error e
  | .ok (rowModifier, rest) =>
    let defaults := match rowModifier with
      | some m => m.cellDefaults
      | none => rowDefaults
    match Modifier.readCellModifier defaults rest with
    | .error e => .error e
    | .ok (modifier, value) =>
      .ok { rowModifier := rowModifier, modifier := modifier, value := value }

end ParsedCell
end Spreadsheet

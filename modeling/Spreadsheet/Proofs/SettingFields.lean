import Spreadsheet.Modifier.Setting

/-!
What a setting touches. A key, for `align` together with its value, chooses one field of a modifier;
setting it reads and writes this field alone. Main statement: whether a pair can be set does not
depend on the modifier, a pair that cannot be set changes nothing, setting a pair again changes
nothing more, and pairs can be set in any order unless they choose the same field and it holds only
one value. A cell never changes what is for rows only.
-/
namespace Spreadsheet

namespace Modifier

/-- The fields of a modifier. -/
inductive Field where
  | horizontalAlign
  | verticalAlign
  | borders
  | borderColor
  | borderStyle
  | color
  | fontColor
  | fontFamily
  | fontSize
  | formats
  | note
  | numberFormat
  | validate
  | boundName
  | expand
  | freeze
deriving DecidableEq

/-- What a field holds. -/
def Field.Value : Field → Type
  | .horizontalAlign => Option HorizontalAlign
  | .verticalAlign => Option VerticalAlign
  | .borders => List BorderSide
  | .borderColor => Option Color
  | .borderStyle => Option BorderStyle
  | .color => Option Color
  | .fontColor => Option Color
  | .fontFamily => Option String
  | .fontSize => Option Nat
  | .formats => List TextFormat
  | .note => Option String
  | .numberFormat => Option NumberFormat
  | .validate => Option String
  | .boundName => Option String
  | .expand => Option Expand
  | .freeze => Bool

/-- Whether values add up in a field; in any other one the last value counts. -/
def Field.isSet : Field → Bool
  | .borders => true
  | .formats => true
  | _ => false

def get (m : Modifier) : (field : Field) → field.Value
  | .horizontalAlign => m.horizontalAlign
  | .verticalAlign => m.verticalAlign
  | .borders => m.borders
  | .borderColor => m.borderColor
  | .borderStyle => m.borderStyle
  | .color => m.color
  | .fontColor => m.fontColor
  | .fontFamily => m.fontFamily
  | .fontSize => m.fontSize
  | .formats => m.formats
  | .note => m.note
  | .numberFormat => m.numberFormat
  | .validate => m.validate
  | .boundName => m.boundName
  | .expand => m.expand
  | .freeze => m.freeze

/-- There is nothing in a modifier beside its fields. -/
theorem ext_get {m m' : Modifier} (h : ∀ field, m.get field = m'.get field) : m = m' := by
  cases m
  cases m'
  rw [Modifier.mk.injEq]
  exact ⟨h .horizontalAlign, h .verticalAlign, h .borders, h .borderColor, h .borderStyle,
    h .color, h .fontColor, h .fontFamily, h .fontSize, h .formats, h .note, h .numberFormat,
    h .validate, h .boundName, h .expand, h .freeze⟩

end Modifier

open Modifier

/-- The field that a key chooses. For `align` this is the horizontal one if the value is a word for
it. -/
def SettingKey.field (value : Option String) : SettingKey → Field
  | .align =>
    if (value.bind Keywords.horizontalAlign.read).isSome then .horizontalAlign else .verticalAlign
  | .border => .borders
  | .borderColor => .borderColor
  | .borderStyle => .borderStyle
  | .color => .color
  | .expand => .expand
  | .fontColor => .fontColor
  | .fontFamily => .fontFamily
  | .fontSize => .fontSize
  | .format => .formats
  | .freeze => .freeze
  | .horizontalAlign => .horizontalAlign
  | .verticalAlign => .verticalAlign
  | .note => .note
  | .numberFormat => .numberFormat
  | .validate => .validate
  | .boundName => .boundName

/-- The key that a text spells, in any mixture of ASCII cases and with blanks around it. -/
def SettingKey.spelled? (text : String) : Option SettingKey :=
  spellings.lookup (String.ofList (Text.lowerAscii (Text.trim text.toList)))

theorem SettingKey.field_ne_of_cell {key : SettingKey} (hexpand : key ≠ .expand)
    (hfreeze : key ≠ .freeze) (value : Option String) :
    key.field value ≠ .expand ∧ key.field value ≠ .freeze := by
  cases key with
  | expand => exact absurd rfl hexpand
  | freeze => exact absurd rfl hfreeze
  | align =>
    rw [field]
    split <;> decide
  | _ => constructor <;> intro hfield <;> cases hfield

namespace Setting

/-- The field that a setting changes. -/
def field : Setting → Field
  | .horizontalAlign _ => .horizontalAlign
  | .verticalAlign _ => .verticalAlign
  | .border _ => .borders
  | .borderColor _ => .borderColor
  | .borderStyle _ => .borderStyle
  | .color _ => .color
  | .fontColor _ => .fontColor
  | .fontFamily _ => .fontFamily
  | .fontSize _ => .fontSize
  | .format _ => .formats
  | .note _ => .note
  | .numberFormat _ => .numberFormat
  | .validate _ => .validate
  | .boundName _ => .boundName
  | .expand _ => .expand
  | .freeze => .freeze

theorem field_of_map {α : Type} {value : Option α} {make : α → Setting} {target : Field}
    {s : Setting} (hmake : ∀ a, (make a).field = target) (h : value.map make = some s) :
    s.field = target := by
  obtain ⟨a, -, rfl⟩ := Option.map_eq_some_iff.1 h
  exact hmake a

theorem field_of_readValue {key : SettingKey} {value : String} {s : Setting}
    (h : readValue key value = some s) : s.field = key.field (some value) := by
  cases key with
  | align =>
    rw [SettingKey.field, Option.bind_some]
    unfold readValue at h
    dsimp only at h
    split at h
    next hword =>
      cases h
      rw [hword]
      rfl
    next hword =>
      rw [hword]
      exact field_of_map (fun _ => rfl) h
  | horizontalAlign | verticalAlign | border | borderColor | borderStyle | color | fontColor
  | fontSize | format | numberFormat | expand => exact field_of_map (fun _ => rfl) h
  | fontFamily | note | validate | freeze =>
    cases h
    rfl
  | boundName =>
    unfold readValue at h
    dsimp only at h
    split at h
    · cases h
      rfl
    · cases h

/-- What is read for a key changes the field that the key chooses; on a cell there are no keys for
rows only. -/
theorem read_eq_ok {key : String} {value : Option String} {row : Bool} {s : Setting}
    (h : read key value row = .ok s) :
    ∃ k, SettingKey.spelled? key = some k ∧ s.field = k.field value ∧
      (row = false → k ≠ .expand ∧ k ≠ .freeze) := by
  unfold read at h
  dsimp only at h
  split at h
  next => cases h
  next k hspelled =>
    split at h
    next => cases h
    next hrow =>
      refine ⟨k, hspelled, ?_, fun hcell => ?_⟩
      · split at h
        · cases h
          rfl
        · cases h
          rfl
        · cases h
        · split at h
          next setting hsetting =>
            cases h
            exact field_of_readValue hsetting
          next => cases h
      · rw [hcell] at hrow
        simpa using hrow

end Setting

namespace Modifier

variable {m m' : Modifier} {s t : Setting}

/-! ## One setting -/

theorem get_apply_of_ne (m : Modifier) {field : Field} (h : field ≠ s.field) :
    (m.apply s).get field = m.get field := by
  -- a setting leaves every field by definition but its own, which `h` excludes
  cases s <;> cases field <;> first | rfl | exact absurd rfl h

/-- The field is changed without a look at the others. -/
theorem get_apply_congr (h : m.get s.field = m'.get s.field) :
    (m.apply s).get s.field = (m'.apply s).get s.field := by
  cases s with
  | border value => exact congrArg (insertOrdered BorderSide.sides value) h
  | format value => exact congrArg (insertOrdered TextFormat.formats value) h
  | _ => rfl

/-- A field that holds one value forgets the one before. -/
theorem get_apply_of_not_isSet (h : s.field.isSet = false) (m m' : Modifier) :
    (m.apply s).get s.field = (m'.apply s).get s.field := by
  cases s with
  | border value => cases h
  | format value => cases h
  | _ => rfl

section

variable {α : Type} [DecidableEq α]

theorem contains_insertOrdered {members : List α} {member : α} (h : member ∈ members) (item : α)
    (set : List α) :
    (insertOrdered members item set).contains member = (member == item || set.contains member) := by
  rw [Bool.eq_iff_iff]
  simp [insertOrdered, h]

theorem insertOrdered_comm (members : List α) (a b : α) (set : List α) :
    insertOrdered members a (insertOrdered members b set) =
      insertOrdered members b (insertOrdered members a set) := by
  refine List.filter_congr fun member hmember => ?_
  rw [contains_insertOrdered hmember, contains_insertOrdered hmember, Bool.or_left_comm]

theorem insertOrdered_self (members : List α) (a : α) (set : List α) :
    insertOrdered members a (insertOrdered members a set) = insertOrdered members a set := by
  refine List.filter_congr fun member hmember => ?_
  rw [contains_insertOrdered hmember, ← Bool.or_assoc, Bool.or_self]

end

theorem apply_apply_self (m : Modifier) (s : Setting) : (m.apply s).apply s = m.apply s := by
  cases s with
  | border value => simp only [apply, insertOrdered_self]
  | format value => simp only [apply, insertOrdered_self]
  | _ => rfl

/-! ## Two settings -/

theorem apply_comm_of_ne (m : Modifier) (h : s.field ≠ t.field) :
    (m.apply s).apply t = (m.apply t).apply s := by
  -- each of the two fields is changed by one of the settings and left alone by the other
  apply ext_get
  intro field
  by_cases hs : field = s.field
  · subst hs
    calc ((m.apply s).apply t).get s.field
      _ = (m.apply s).get s.field := get_apply_of_ne _ h
      _ = ((m.apply t).apply s).get s.field := get_apply_congr (get_apply_of_ne m h).symm
  by_cases ht : field = t.field
  · subst ht
    calc ((m.apply s).apply t).get t.field
      _ = (m.apply t).get t.field := get_apply_congr (get_apply_of_ne m h.symm)
      _ = ((m.apply t).apply s).get t.field := (get_apply_of_ne _ h.symm).symm
  rw [get_apply_of_ne _ ht, get_apply_of_ne _ hs, get_apply_of_ne _ hs, get_apply_of_ne _ ht]

theorem apply_comm_of_isSet (m : Modifier) (hfield : s.field = t.field)
    (hset : s.field.isSet = true) : (m.apply s).apply t = (m.apply t).apply s := by
  cases s with
  | border value =>
    cases t with
    | border value' => simp only [apply, insertOrdered_comm _ value]
    | _ => cases hfield
  | format value =>
    cases t with
    | format value' => simp only [apply, insertOrdered_comm _ value]
    | _ => cases hfield
  | _ => cases hset

theorem apply_apply_of_not_isSet (m : Modifier) (hfield : s.field = t.field)
    (hset : t.field.isSet = false) : (m.apply s).apply t = m.apply t := by
  apply ext_get
  intro field
  by_cases ht : field = t.field
  · subst ht
    exact get_apply_of_not_isSet hset _ _
  · rw [get_apply_of_ne _ ht, get_apply_of_ne _ ht, get_apply_of_ne _ (hfield ▸ ht)]

/-! ## Setting in place -/

/-- A key with or without a value, to be set on a row or on a cell. -/
structure Assignment where
  key : String
  value : Option String
  row : Bool

namespace Assignment

/-- The field that the key chooses, if it is one. -/
def field? (a : Assignment) : Option Field :=
  (SettingKey.spelled? a.key).map fun key => key.field a.value

/-- How setting it ends. -/
def result (a : Assignment) (m : Modifier) : Except ModifierError Unit :=
  (m.setInPlace a.key a.value a.row).1

/-- The modifier after it has been set, or could not be set. -/
def after (a : Assignment) (m : Modifier) : Modifier :=
  (m.setInPlace a.key a.value a.row).2

/-- The two choose the same field, which holds only one value. -/
def Clashes (a b : Assignment) : Prop :=
  ∃ field, a.field? = some field ∧ b.field? = some field ∧ field.isSet = false

variable {a b : Assignment}

theorem setInPlace_of_ok (h : Setting.read a.key a.value a.row = .ok s) (m : Modifier) :
    m.setInPlace a.key a.value a.row = (.ok (), m.apply s) := by
  rw [setInPlace, change, h]
  rfl

theorem setInPlace_of_error {e : ModifierError}
    (h : Setting.read a.key a.value a.row = .error e) (m : Modifier) :
    m.setInPlace a.key a.value a.row = (.error e, m) := by
  rw [setInPlace, change, h]
  rfl

/-- An assignment that succeeds applies one setting, the same to every modifier. -/
theorem exists_setting (h : a.result m = .ok ()) :
    ∃ s, Setting.read a.key a.value a.row = .ok s ∧ ∀ m, a.after m = m.apply s := by
  cases hread : Setting.read a.key a.value a.row with
  | ok s => exact ⟨s, rfl, fun m => by rw [after, setInPlace_of_ok hread]⟩
  | error e =>
    rw [result, setInPlace_of_error hread] at h
    cases h

theorem result_eq (a : Assignment) (m m' : Modifier) : a.result m = a.result m' := by
  cases hread : Setting.read a.key a.value a.row with
  | ok s => rw [result, result, setInPlace_of_ok hread, setInPlace_of_ok hread]
  | error e => rw [result, result, setInPlace_of_error hread, setInPlace_of_error hread]

theorem after_of_error {e : ModifierError} (h : a.result m = .error e) : a.after m = m := by
  cases hread : Setting.read a.key a.value a.row with
  | ok s =>
    rw [result, setInPlace_of_ok hread] at h
    cases h
  | error e => rw [after, setInPlace_of_error hread]

/-- Setting and setting in place agree. -/
theorem set_eq_ok_iff :
    m.set a.key a.value a.row = .ok m' ↔ a.result m = .ok () ∧ a.after m = m' := by
  unfold Modifier.set
  cases hread : Setting.read a.key a.value a.row with
  | ok s =>
    rw [result, after, setInPlace_of_ok hread]
    simp
  | error e =>
    rw [result, after, setInPlace_of_error hread]
    simp

theorem field_of_read (h : Setting.read a.key a.value a.row = .ok s) : a.field? = some s.field := by
  obtain ⟨key, hspelled, hfield, -⟩ := Setting.read_eq_ok h
  rw [field?, hspelled, hfield]
  rfl

theorem get_after_of_ne (h : a.result m = .ok ()) :
    ∃ field, a.field? = some field ∧ ∀ other ≠ field, (a.after m).get other = m.get other := by
  obtain ⟨s, hread, hafter⟩ := exists_setting h
  refine ⟨s.field, field_of_read hread, fun other hother => ?_⟩
  rw [hafter, get_apply_of_ne m hother]

theorem after_after (a : Assignment) (m : Modifier) : a.after (a.after m) = a.after m := by
  cases hresult : a.result m with
  | ok _ =>
    obtain ⟨s, -, hafter⟩ := exists_setting hresult
    rw [hafter, hafter, apply_apply_self]
  | error e => rw [after_of_error hresult, after_of_error hresult]

theorem after_comm (ha : a.result m = .ok ()) (hb : b.result m = .ok ()) (h : ¬a.Clashes b) :
    b.after (a.after m) = a.after (b.after m) := by
  obtain ⟨s, hs, hafter⟩ := exists_setting ha
  obtain ⟨t, ht, hafter'⟩ := exists_setting hb
  simp only [hafter, hafter']
  by_cases hfield : s.field = t.field
  · cases hset : s.field.isSet with
    | true => exact apply_comm_of_isSet m hfield hset
    | false => exact absurd ⟨s.field, field_of_read hs, hfield ▸ field_of_read ht, hset⟩ h
  · exact apply_comm_of_ne m hfield

theorem after_of_clashes (ha : a.result m = .ok ()) (hb : b.result m = .ok ()) (h : a.Clashes b) :
    b.after (a.after m) = b.after m := by
  obtain ⟨s, hs, hafter⟩ := exists_setting ha
  obtain ⟨t, ht, hafter'⟩ := exists_setting hb
  obtain ⟨field, hfield, hfield', hsingle⟩ := h
  rw [field_of_read hs, Option.some.injEq] at hfield
  rw [field_of_read ht, Option.some.injEq] at hfield'
  rw [hafter, hafter', hafter']
  exact apply_apply_of_not_isSet m (hfield.trans hfield'.symm) (hfield' ▸ hsingle)

/-- The fields for rows only are not chosen on a cell. -/
theorem after_of_cell (hcell : a.row = false) (m : Modifier) :
    (a.after m).expand = m.expand ∧ (a.after m).freeze = m.freeze := by
  cases hresult : a.result m with
  | error e =>
    rw [after_of_error hresult]
    exact ⟨rfl, rfl⟩
  | ok _ =>
    obtain ⟨s, hread, hafter⟩ := exists_setting hresult
    obtain ⟨key, -, hfield, hrow⟩ := Setting.read_eq_ok hread
    obtain ⟨hexpand, hfreeze⟩ := SettingKey.field_ne_of_cell (hrow hcell).1 (hrow hcell).2 a.value
    rw [← hfield] at hexpand hfreeze
    rw [hafter]
    have hsame (field : Field) (hne : s.field ≠ field) : (m.apply s).get field = m.get field :=
      get_apply_of_ne m hne.symm
    exact ⟨hsame .expand hexpand, hsame .freeze hfreeze⟩

/-- The modifier after the assignments, whether they succeed or not. -/
def afterAll : List Assignment → Modifier → Modifier
  | [], m => m
  | a :: as, m => afterAll as (a.after m)

theorem afterAll_of_cells {as : List Assignment} (hcells : ∀ a ∈ as, a.row = false)
    (m : Modifier) :
    (afterAll as m).expand = m.expand ∧ (afterAll as m).freeze = m.freeze := by
  induction as generalizing m with
  | nil => exact ⟨rfl, rfl⟩
  | cons a as ih =>
    obtain ⟨hcell, hrest⟩ := List.forall_mem_cons.1 hcells
    obtain ⟨hexpand, hfreeze⟩ := after_of_cell hcell m
    obtain ⟨hexpand', hfreeze'⟩ := ih hrest (a.after m)
    rw [afterAll]
    exact ⟨hexpand'.trans hexpand, hfreeze'.trans hfreeze⟩

end Assignment

open Assignment

/-- Whether a pair can be set, and why not, is said by the pair alone. A pair that cannot be set
changes nothing; one that can be set changes at most the field it chooses, and nothing more when it
is set again. Two of them can be set in either order unless they choose the same field and it holds
only one value, in which case the last one counts. On a cell, what is for rows only never
changes. -/
theorem setInPlace_atomic_and_local :
    (∀ (a : Assignment) (m m' : Modifier),
      m.set a.key a.value a.row = .ok m' ↔ a.result m = .ok () ∧ a.after m = m') ∧
    (∀ (a : Assignment) m m', a.result m = a.result m') ∧
    (∀ (a : Assignment) m e, a.result m = .error e → a.after m = m) ∧
    (∀ (a : Assignment) m, a.result m = .ok () → ∃ field, a.field? = some field ∧
      ∀ other ≠ field, (a.after m).get other = m.get other) ∧
    (∀ (a : Assignment) m, a.after (a.after m) = a.after m) ∧
    (∀ (a b : Assignment) m, a.result m = .ok () → b.result m = .ok () → ¬a.Clashes b →
      b.after (a.after m) = a.after (b.after m)) ∧
    (∀ (a b : Assignment) m, a.result m = .ok () → b.result m = .ok () → a.Clashes b →
      b.after (a.after m) = b.after m) ∧
    ∀ (as : List Assignment) m, (∀ a ∈ as, a.row = false) →
      (afterAll as m).expand = m.expand ∧ (afterAll as m).freeze = m.freeze :=
  ⟨fun _ _ _ => set_eq_ok_iff, result_eq, fun _ _ _ => after_of_error, fun _ _ => get_after_of_ne,
    after_after, fun _ _ _ => after_comm, fun _ _ _ => after_of_clashes,
    fun _ m hcells => afterAll_of_cells hcells m⟩

def topBorder : Assignment :=
  { key := "B", value := some "top", row := false }

def leftBorder : Assignment :=
  { key := " border", value := some "LEFT", row := true }

def expandedCell : Assignment :=
  { key := "Expand", value := some "3", row := false }

/-- Two borders add up in either order, and a cell is not expanded. -/
theorem setInPlace_atomic_and_local_borders :
    topBorder.result {} = .ok () ∧ leftBorder.result {} = .ok () ∧
    ¬topBorder.Clashes leftBorder ∧
    leftBorder.after (topBorder.after {}) = topBorder.after (leftBorder.after {}) ∧
    expandedCell.result { freeze := true } = .error (.rowOnly "expand") ∧
    expandedCell.after { freeze := true } = { freeze := true } := by
  obtain ⟨-, -, herror, -, -, hcomm, -, -⟩ := setInPlace_atomic_and_local
  have htop : topBorder.result {} = .ok () := rfl
  have hleft : leftBorder.result {} = .ok () := rfl
  have hdistinct : ¬topBorder.Clashes leftBorder := by
    rintro ⟨field, hfield, -, hsingle⟩
    have hborders : topBorder.field? = some .borders := rfl
    rw [hborders, Option.some.injEq] at hfield
    rw [← hfield] at hsingle
    cases hsingle
  have hcell : expandedCell.result { freeze := true } = .error (.rowOnly "expand") := rfl
  exact ⟨htop, hleft, hdistinct, hcomm _ _ _ htop hleft hdistinct, hcell, herror _ _ _ hcell⟩

end Modifier
end Spreadsheet

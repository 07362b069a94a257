import Spreadsheet.Backup
import Spreadsheet.Proofs.FileNames
import Spreadsheet.Proofs.NumberText

/-!
The names of backups. A moment whose fields fit into their digits is stamped as one number of
fourteen digits. Main statement: a file whose stem has no dot but a leading one has its backups
beside it, under its own name with the stamp behind the stem, and no two moments have one backup. A
stem with a further dot is cut off there together with the stamp, so that all its backups are one
file.
-/
namespace Spreadsheet

namespace Text

theorem isDigit_of_mem_decimalPadded {width n : Nat} {c : Char} (h : c ∈ decimalPadded width n) :
    c.isDigit = true := by
  rcases List.mem_append.1 h with hzero | hdigit
  · exact Number.isDigit_of_mem_zeros hzero
  · exact Number.isDigit_of_mem_decimal hdigit

theorem length_decimalPadded {width n : Nat} (hwidth : 0 < width) (hn : n < Nat.pow 10 width) :
    (decimalPadded width n).length = width := by
  have hle : (decimal n).length ≤ width := (Nat.length_toDigits_le_iff (by decide) hwidth).2 hn
  rw [decimalPadded, List.length_append, List.length_replicate]
  omega

theorem digitsValue_decimalPadded {width n : Nat} (hwidth : 0 < width) (hn : n < Nat.pow 10 width)
    (start : Nat) : digitsValue start (decimalPadded width n) = Nat.pow 10 width * start + n := by
  have hzero : digitsValue 0 (decimalPadded width n) = n := by
    rw [decimalPadded, Number.digitsValue_append, Number.digitsValue_zeros, Nat.zero_mul,
      Number.digitsValue_decimal]
  have hstart : digitsValue start (decimalPadded width n) =
      Nat.pow 10 (decimalPadded width n).length * start + digitsValue 0 (decimalPadded width n) :=
    Nat.ofDigitChars_eq_ofDigitChars_zero
  rw [hstart, length_decimalPadded hwidth hn, hzero]

/-- Numbers of two digits each, side by side. -/
theorem length_pairs {fields : List Nat} (h : ∀ field ∈ fields, field < 100) :
    (fields.flatMap (decimalPadded 2)).length = 2 * fields.length := by
  induction fields with
  | nil => rfl
  | cons field rest ih =>
    obtain ⟨hfield, hrest⟩ := List.forall_mem_cons.1 h
    rw [List.flatMap_cons, List.length_append, length_decimalPadded (by decide) hfield, ih hrest,
      List.length_cons]
    omega

theorem digitsValue_pairs {fields : List Nat} (h : ∀ field ∈ fields, field < 100) (start : Nat) :
    digitsValue start (fields.flatMap (decimalPadded 2)) =
      fields.foldl (fun value field => 100 * value + field) start := by
  induction fields generalizing start with
  | nil => rfl
  | cons field rest ih =>
    obtain ⟨hfield, hrest⟩ := List.forall_mem_cons.1 h
    rw [List.flatMap_cons, Number.digitsValue_append, digitsValue_decimalPadded (by decide) hfield,
      ih hrest]
    exact List.foldl_cons.symm

end Text

namespace Moment

/-- What follows the year in a stamp. -/
def fields (m : Moment) : List Nat :=
  [m.month, m.day, m.hour, m.minute, m.second]

/-- The year fits into four digits, and every other field into two. -/
structure Fits (m : Moment) : Prop where
  year_nonneg : 0 ≤ m.year
  year_le : m.year ≤ 9999
  fields_lt : ∀ field ∈ m.fields, field < 100

/-- The moment as one number, in which a field behind the year takes two digits. -/
def number (m : Moment) : Nat :=
  m.fields.foldl (fun value field => 100 * value + field) m.year.toNat

/-- Fourteen digits that stand for the number of a moment. -/
structure IsStamp (m : Moment) (stamp : List Char) : Prop where
  length_eq : stamp.length = 14
  isDigit : ∀ c ∈ stamp, c.isDigit = true
  digitsValue_eq : Text.digitsValue 0 stamp = m.number

variable {m m' : Moment}

theorem number_injective (h : m.Fits) (h' : m'.Fits) (heq : m.number = m'.number) : m = m' := by
  obtain ⟨year, month, day, hour, minute, second⟩ := m
  obtain ⟨year', month', day', hour', minute', second'⟩ := m'
  obtain ⟨hyear, -, hfields⟩ := h
  obtain ⟨hyear', -, hfields'⟩ := h'
  simp only [number, fields, List.foldl_cons, List.foldl_nil, List.forall_mem_cons] at *
  -- each field is a remainder by 100, from the seconds up to the year
  rw [mk.injEq]
  omega

theorem IsStamp.unique {stamp : List Char} (h : m.Fits) (h' : m'.Fits) (hstamp : m.IsStamp stamp)
    (hstamp' : m'.IsStamp stamp) : m = m' :=
  number_injective h h' (hstamp.digitsValue_eq.symm.trans hstamp'.digitsValue_eq)

theorem yearChars_eq (h : m.Fits) : yearChars m.year = Text.decimalPadded 4 m.year.toNat := by
  have hnonneg := h.year_nonneg
  have hle := h.year_le
  have habs : m.year.natAbs = m.year.toNat := by omega
  rw [yearChars, if_neg (by omega), if_neg (by omega), habs]

theorem isStamp_stamp (h : m.Fits) : m.IsStamp m.stamp := by
  have hyear : m.year.toNat < Nat.pow 10 4 := by
    have hle := h.year_le
    show m.year.toNat < 10000
    omega
  have hstamp : m.stamp =
      Text.decimalPadded 4 m.year.toNat ++ m.fields.flatMap (Text.decimalPadded 2) := by
    rw [← yearChars_eq h]
    rfl
  constructor
  · rw [hstamp, List.length_append, Text.length_decimalPadded (by decide) hyear,
      Text.length_pairs h.fields_lt]
    rfl
  · intro c hc
    rw [hstamp] at hc
    rcases List.mem_append.1 hc with hfirst | hrest
    · exact Text.isDigit_of_mem_decimalPadded hfirst
    · obtain ⟨field, -, hfield⟩ := List.mem_flatMap.1 hrest
      exact Text.isDigit_of_mem_decimalPadded hfield
  · rw [hstamp, Number.digitsValue_append, Text.digitsValue_decimalPadded (by decide) hyear,
      Text.digitsValue_pairs h.fields_lt, Nat.mul_zero, Nat.zero_add]
    rfl

end Moment

namespace Path

/-- The extension that a changed name gets: an empty one is left out. -/
def keptExtension? (path : List Char) : Option (List Char) :=
  (extension? path).filter (!·.isEmpty)

theorem splitExtension_fileName {path name : List Char} (hname : fileName? path = some name) :
    splitExtension name = (stem path, extension? path) := by
  rw [stem, extension?, hname]
  rfl

theorem fileName_eq {path name : List Char} (hname : fileName? path = some name) :
    name = stem path ++ dotted (extension? path) := by
  have hsplit := splitExtension_dotted name
  rw [splitExtension_fileName hname] at hsplit
  exact hsplit.symm

theorem withExtension_eq {path extension : List Char} (hext : extension? path = some extension)
    (name : List Char) :
    withExtension name extension = (splitExtension name).1 ++ dotted (keptExtension? path) := by
  rw [keptExtension?, hext]
  cases extension with
  | nil => exact (List.append_nil _).symm
  | cons c rest => rfl

theorem kept_isPrefix_dotted (path : List Char) :
    dotted (keptExtension? path) <+: dotted (extension? path) := by
  unfold keptExtension?
  match extension? path with
  | none => exact List.prefix_refl _
  | some [] => exact List.nil_prefix
  | some (c :: rest) => exact List.prefix_refl _

theorem no_slash_of_parts {path name : List Char} (hname : fileName? path = some name) :
    '/' ∉ stem path ∧ '/' ∉ dotted (keptExtension? path) := by
  obtain ⟨root, body, before, h⟩ := exists_names hname
  have hslash := h.isFileName.no_slash
  rw [fileName_eq hname, List.mem_append, not_or] at hslash
  exact ⟨hslash.1, fun hmem => hslash.2 ((kept_isPrefix_dotted path).mem hmem)⟩

end Path

variable {path name stamp : List Char}

theorem backupPath_of_not_mem (hstem : '.' ∉ (Path.stem path).tail) (hstamp : '.' ∉ stamp) :
    backupPath path stamp = Path.withFileName path
      (Path.stem path ++ '-' :: stamp ++ Path.dotted (Path.keptExtension? path)) := by
  have hdot : '.' ∉ (Path.stem path ++ '-' :: stamp).tail := by
    cases hcases : Path.stem path with
    | nil => exact hstamp
    | cons c rest =>
      rw [hcases] at hstem
      simpa using ⟨hstem, hstamp⟩
  cases hext : Path.extension? path with
  | none => simp [backupPath, Path.keptExtension?, hext, Path.dotted]
  | some extension =>
    simp only [backupPath, hext]
    rw [Path.withExtension_eq hext, Path.splitExtension_of_not_mem_tail hdot]

/-- The stamp is lost with what stands behind the last dot of the stem. -/
theorem backupPath_of_dot (hname : Path.fileName? path = some name) {front behind : List Char}
    (hstem : Path.stem path = front ++ '.' :: behind) (hfront : front ≠ []) (hbehind : '.' ∉ behind)
    (hstamp : '.' ∉ stamp) :
    backupPath path stamp =
      Path.withFileName path (front ++ Path.dotted (Path.keptExtension? path)) := by
  cases hext : Path.extension? path with
  | none =>
    -- then the stem is the name, which has an extension behind its last dot
    have hsplit := Path.splitExtension_fileName hname
    rw [Path.fileName_eq hname, hext, hstem, Path.dotted, List.append_nil,
      Path.splitExtension_append hfront hbehind] at hsplit
    cases congrArg Prod.snd hsplit
  | some extension =>
    have hdot : '.' ∉ behind ++ '-' :: stamp := by simpa using ⟨hbehind, hstamp⟩
    simp only [backupPath, hext]
    rw [Path.withExtension_eq hext, hstem, List.append_assoc, List.cons_append,
      Path.splitExtension_append hfront hdot]

theorem isFileName_stamped (hname : Path.fileName? path = some name) (hstamp : '/' ∉ stamp) :
    Path.IsFileName (Path.stem path ++ '-' :: stamp ++ Path.dotted (Path.keptExtension? path)) := by
  obtain ⟨hstem, hkept⟩ := Path.no_slash_of_parts hname
  have hdash : '-' ∈ Path.stem path ++ '-' :: stamp ++ Path.dotted (Path.keptExtension? path) := by
    simp
  constructor
  · exact List.ne_nil_of_mem hdash
  · simpa using ⟨hstem, hstamp, hkept⟩
  · intro heq
    rw [heq] at hdash
    exact absurd hdash (by decide)
  · intro heq
    rw [heq] at hdash
    exact absurd hdash (by decide)

/-- With an extension there are three characters at least, and so no `.` and no `..`. -/
theorem isFileName_cut (hname : Path.fileName? path = some name) {front behind : List Char}
    (hstem : Path.stem path = front ++ '.' :: behind) (hfront : front ≠ [])
    (hkept : Path.keptExtension? path ≠ none) :
    Path.IsFileName (front ++ Path.dotted (Path.keptExtension? path)) := by
  obtain ⟨hslash, hkeptSlash⟩ := Path.no_slash_of_parts hname
  rw [hstem, List.mem_append, not_or] at hslash
  have hlength : 2 < (front ++ Path.dotted (Path.keptExtension? path)).length := by
    have hpos := List.length_pos_of_ne_nil hfront
    obtain ⟨extension, hext⟩ := Option.ne_none_iff_exists'.1 hkept
    have hne : extension ≠ [] := by
      have hempty := (Option.filter_eq_some_iff.1 hext).2
      simpa using hempty
    have hextPos := List.length_pos_of_ne_nil hne
    rw [hext, Path.dotted, List.length_append, List.length_cons]
    omega
  constructor
  · intro heq
    simp [heq] at hlength
  · rw [List.mem_append, not_or]
    exact ⟨hslash.1, hkeptSlash⟩
  · intro heq
    simp [heq] at hlength
  · intro heq
    simp [heq] at hlength

theorem length_kept_le (path : List Char) :
    (Path.dotted (Path.keptExtension? path)).length ≤ (Path.dotted (Path.extension? path)).length ∧
      (Path.dotted (Path.extension? path)).length ≤
        (Path.dotted (Path.keptExtension? path)).length + 1 := by
  refine ⟨(Path.kept_isPrefix_dotted path).length_le, ?_⟩
  unfold Path.keptExtension?
  match Path.extension? path with
  | none => exact Nat.le_succ _
  | some [] => exact Nat.le_refl _
  | some (c :: rest) => exact Nat.le_succ _

theorem not_mem_of_isStamp {m : Moment} (h : m.IsStamp stamp) : '.' ∉ stamp ∧ '/' ∉ stamp :=
  ⟨fun hdot => absurd (h.isDigit _ hdot) (by decide),
    fun hslash => absurd (h.isDigit _ hslash) (by decide)⟩

/-- The backups of a file whose stem has no dot but a leading one lie beside it, and have its name
with the stamp behind the stem. -/
theorem backupPath_stamped (hname : Path.fileName? path = some name)
    (hstem : '.' ∉ (Path.stem path).tail) {m : Moment} (hm : m.Fits) :
    Path.parent? (backupPath path m.stamp) = Path.parent? path ∧
      Path.fileName? (backupPath path m.stamp) =
        some (Path.stem path ++ '-' :: m.stamp ++ Path.dotted (Path.keptExtension? path)) := by
  obtain ⟨hdot, hslash⟩ := not_mem_of_isStamp (Moment.isStamp_stamp hm)
  have hnew := isFileName_stamped hname hslash
  rw [backupPath_of_not_mem hstem hdot]
  exact ⟨Path.parent?_withFileName hname hnew, Path.fileName?_withFileName hname hnew⟩

theorem backupPath_injective (hname : Path.fileName? path = some name)
    (hstem : '.' ∉ (Path.stem path).tail) {m m' : Moment} (hm : m.Fits) (hm' : m'.Fits)
    (heq : backupPath path m.stamp = backupPath path m'.stamp) : m = m' := by
  have hnames := (backupPath_stamped hname hstem hm).2
  rw [heq, (backupPath_stamped hname hstem hm').2, Option.some.injEq] at hnames
  -- both names have the same stem in front of the stamp and the same extension behind it
  have hstamps : m'.stamp = m.stamp :=
    (List.cons.inj (List.append_cancel_left (List.append_cancel_right hnames))).2
  exact Moment.IsStamp.unique hm hm' (Moment.isStamp_stamp hm)
    (hstamps ▸ Moment.isStamp_stamp hm')

theorem backupPath_ne (hname : Path.fileName? path = some name) {m : Moment} (hm : m.Fits) :
    backupPath path m.stamp ≠ path := by
  have hstamp := Moment.isStamp_stamp hm
  have hfile := congrArg List.length (Path.fileName_eq hname)
  rw [List.length_append] at hfile
  obtain ⟨hle, hge⟩ := length_kept_le path
  intro heq
  by_cases hstem : '.' ∈ (Path.stem path).tail
  · -- the name is shorter than before
    obtain ⟨front, behind, hcut, hfront, hbehind⟩ := Path.exists_last_dot hstem
    have hshort : (front ++ Path.dotted (Path.keptExtension? path)).length < name.length := by
      rw [hfile, hcut]
      simp only [List.length_append, List.length_cons]
      omega
    have hlt := Path.length_withFileName_lt hname hshort
    rw [← backupPath_of_dot hname hcut hfront hbehind (not_mem_of_isStamp hstamp).1, heq] at hlt
    exact Nat.lt_irrefl _ hlt
  · -- the name is longer than before
    have hnew := (backupPath_stamped hname hstem hm).2
    rw [heq, hname, Option.some.injEq] at hnew
    have hlength := congrArg List.length hnew
    simp only [List.length_append, List.length_cons, hstamp.length_eq] at hlength
    omega

/-- No backup is the file itself. If the stem has no dot but a leading one, the backup lies beside
the file, is named by stem, stamp and extension, and tells its moment. Otherwise the stem is cut off
at its last dot together with the stamp, and the moment plays no part. -/
theorem backupPath_names (hname : Path.fileName? path = some name) :
    name = Path.stem path ++ Path.dotted (Path.extension? path) ∧
    (∀ m : Moment, m.Fits → m.IsStamp m.stamp ∧ backupPath path m.stamp ≠ path) ∧
    ('.' ∉ (Path.stem path).tail →
      (∀ m : Moment, m.Fits →
        Path.parent? (backupPath path m.stamp) = Path.parent? path ∧
        Path.fileName? (backupPath path m.stamp) =
          some (Path.stem path ++ '-' :: m.stamp ++ Path.dotted (Path.keptExtension? path))) ∧
      ∀ m m' : Moment, m.Fits → m'.Fits →
        backupPath path m.stamp = backupPath path m'.stamp → m = m') ∧
    ('.' ∈ (Path.stem path).tail →
      ∃ front behind, Path.stem path = front ++ '.' :: behind ∧ front ≠ [] ∧ '.' ∉ behind ∧
        ∀ m : Moment, m.Fits →
          backupPath path m.stamp =
            Path.withFileName path (front ++ Path.dotted (Path.keptExtension? path)) ∧
          (Path.keptExtension? path ≠ none →
            Path.parent? (backupPath path m.stamp) = Path.parent? path ∧
            Path.fileName? (backupPath path m.stamp) =
              some (front ++ Path.dotted (Path.keptExtension? path)))) := by
  refine ⟨Path.fileName_eq hname, ?_, ?_, ?_⟩
  · intro m hm
    exact ⟨Moment.isStamp_stamp hm, backupPath_ne hname hm⟩
  · intro hstem
    exact ⟨fun m hm => backupPath_stamped hname hstem hm,
      fun m m' hm hm' heq => backupPath_injective hname hstem hm hm' heq⟩
  · intro hstem
    obtain ⟨front, behind, hcut, hfront, hbehind⟩ := Path.exists_last_dot hstem
    refine ⟨front, behind, hcut, hfront, hbehind, fun m hm => ?_⟩
    have hpath := backupPath_of_dot hname hcut hfront hbehind
      (not_mem_of_isStamp (Moment.isStamp_stamp hm)).1
    refine ⟨hpath, fun hkept => ?_⟩
    have hnew := isFileName_cut hname hcut hfront hkept
    rw [hpath]
    exact ⟨Path.parent?_withFileName hname hnew, Path.fileName?_withFileName hname hnew⟩

/-- The leap second at the end of a year. -/
def leapSecond : Moment :=
  ⟨2016, 12, 31, 23, 59, 60⟩

theorem leapSecond_fits : leapSecond.Fits :=
  ⟨by decide, by decide, by decide⟩

theorem backupPath_names_leadingDot :
    Path.fileName? "./out//.report.csv".toList = some ".report.csv".toList ∧
      leapSecond.Fits ∧
      backupPath "./out//.report.csv".toList leapSecond.stamp =
        "./out/.report-20161231235960.csv".toList ∧
      ∀ m : Moment, m.Fits → backupPath "./out//.report.csv".toList leapSecond.stamp =
        backupPath "./out//.report.csv".toList m.stamp → leapSecond = m := by
  have hname : Path.fileName? "./out//.report.csv".toList = some ".report.csv".toList := by
    decide +kernel
  obtain ⟨-, -, hplain, -⟩ := backupPath_names hname
  have hstem : '.' ∉ (Path.stem "./out//.report.csv".toList).tail := by decide +kernel
  exact ⟨hname, leapSecond_fits, by decide +kernel,
    fun m hm => (hplain hstem).2 leapSecond m leapSecond_fits hm⟩

/-- The stem `a.b` loses its end and the stamp, so that two moments have one backup, and that has
the name of another file. -/
theorem backupPath_dottedStem :
    Path.stem "out/a.b.csv".toList = "a.b".toList ∧
      Path.extension? "out/a.b.csv".toList = some "csv".toList ∧
      backupPath "out/a.b.csv".toList (Moment.stamp ⟨2024, 5, 6, 7, 8, 9⟩) = "out/a.csv".toList ∧
      backupPath "out/a.b.csv".toList leapSecond.stamp = "out/a.csv".toList := by
  decide +kernel

end Spreadsheet

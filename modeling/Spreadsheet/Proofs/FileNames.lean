import Mathlib.Data.List.DropRight
import Spreadsheet.Path

/-!
File names and their directories. Main statements: a path with another file name lies in the same
directory and has that name, and a name is taken apart at its last dot unless that is the first
character of it.
-/
namespace Spreadsheet

namespace Text

theorem piecesFrom_eq (cut : Char → Bool) (pieces : List (List Char)) (done s : List Char) :
    piecesFrom cut pieces done s = pieces.reverse ++ List.splitOnPPrepend cut s done := by
  induction s generalizing pieces done with
  | nil => simp [piecesFrom]
  | cons c rest ih =>
    by_cases hcut : cut c = true
    · rw [piecesFrom, if_pos hcut, ih, List.splitOnPPrepend_cons_pos hcut]
      simp
    · rw [piecesFrom, if_neg hcut, ih, List.splitOnPPrepend_cons_neg (by simpa using hcut)]

theorem splitAt_eq_splitOn (separator : Char) (s : List Char) :
    splitAt separator s = s.splitOn separator :=
  piecesFrom_eq (· == separator) [] [] s

/-- No piece has a separator in it. -/
theorem not_mem_of_mem_splitOn {separator : Char} {s piece : List Char}
    (h : piece ∈ s.splitOn separator) : separator ∉ piece := by
  induction s generalizing piece with
  | nil =>
    rw [List.splitOn_nil, List.mem_singleton] at h
    rw [h]
    exact List.not_mem_nil
  | cons c rest ih =>
    rw [List.splitOn_cons_eq_if_modifyHead] at h
    by_cases hc : (c == separator) = true
    · rw [if_pos hc] at h
      rcases List.mem_cons.1 h with rfl | hrest
      · exact List.not_mem_nil
      · exact ih hrest
    · -- the character goes to the first piece of the rest
      rw [if_neg hc] at h
      cases hpieces : rest.splitOn separator with
      | nil => exact absurd hpieces (List.splitOn_ne_nil separator rest)
      | cons first more =>
        rw [hpieces, List.modifyHead_cons] at h
        rcases List.mem_cons.1 h with rfl | hmore
        · have hfirst : separator ∉ first := ih (by rw [hpieces]; exact List.mem_cons_self)
          intro hmem
          rcases List.mem_cons.1 hmem with heq | htail
          · exact hc (by rw [heq]; exact beq_self_eq_true c)
          · exact hfirst htail
        · exact ih (by rw [hpieces]; exact List.mem_cons_of_mem _ hmore)

end Text

namespace Path

/-! ## Components -/

theorem intercalate_append {front back : List (List Char)} (hfront : front ≠ [])
    (hback : back ≠ []) :
    ['/'].intercalate (front ++ back) =
      ['/'].intercalate front ++ '/' :: ['/'].intercalate back := by
  induction front with
  | nil => exact absurd rfl hfront
  | cons first rest ih =>
    by_cases hrest : rest = []
    · subst hrest
      rw [List.singleton_append, List.intercalate_cons_of_ne_nil hback, List.intercalate_singleton,
        List.append_assoc, List.singleton_append]
    · rw [List.cons_append, List.intercalate_cons_of_ne_nil (by simp [hrest]), ih hrest,
        List.intercalate_cons_of_ne_nil hrest]
      simp

theorem join_append {after before : List (List Char)} (hafter : after ≠ [])
    (hbefore : before ≠ []) :
    join (after ++ before) = join before ++ '/' :: join after := by
  rw [join, List.reverse_append, intercalate_append]
  · rfl
  · simpa using hbefore
  · simpa using hafter

theorem join_nil : join [] = [] :=
  rfl

theorem join_singleton (component : List Char) : join [component] = component :=
  List.intercalate_singleton

theorem length_join_le_of_suffix {before all : List (List Char)} (h : before <:+ all) :
    (join before).length ≤ (join all).length := by
  obtain ⟨after, rfl⟩ := h
  by_cases hafter : after = []
  · exact Nat.le_of_eq (by rw [hafter, List.nil_append])
  · by_cases hbefore : before = []
    · rw [hbefore]
      exact Nat.zero_le _
    · rw [join_append hafter hbefore, List.length_append]
      omega

theorem length_le_join_concat (after : List (List Char)) (component : List Char) :
    component.length ≤ (join (after ++ [component])).length := by
  have hle := length_join_le_of_suffix (List.suffix_append after [component])
  rwa [join_singleton] at hle

theorem join_splitAt (body : List Char) : join (Text.splitAt '/' body).reverse = body := by
  rw [join, List.reverse_reverse, Text.splitAt_eq_splitOn]
  exact List.intercalate_splitOn '/'

theorem splitAt_join {before : List (List Char)} (hne : before ≠ [])
    (hslash : ∀ component ∈ before, '/' ∉ component) :
    Text.splitAt '/' (join before) = before.reverse := by
  rw [Text.splitAt_eq_splitOn]
  exact List.splitOn_intercalate '/' (by simpa using hslash) (by simpa using hne)

theorem isIdle_eq_false {component : List Char} :
    isIdle component = false ↔ component ≠ [] ∧ component ≠ ['.'] := by
  simp [isIdle]

/-! ## Roots -/

theorem splitRoot_append (path : List Char) : (splitRoot path).1 ++ (splitRoot path).2 = path := by
  unfold splitRoot
  split <;> rfl

theorem splitRoot_eq_self {path : List Char} (hslash : ∀ rest, path ≠ '/' :: rest)
    (hdot : path ≠ ['.']) (hdotSlash : ∀ rest, path ≠ '.' :: '/' :: rest) :
    splitRoot path = ([], path) := by
  unfold splitRoot
  split
  next rest => exact absurd rfl (hslash rest)
  next => exact absurd rfl hdot
  next rest => exact absurd rfl (hdotSlash rest)
  next => rfl

theorem splitRoot_fst_cases (path : List Char) :
    (splitRoot path).1 = [] ∨ (splitRoot path).1 = ['/'] ∨ (splitRoot path).1 = ['.'] := by
  unfold splitRoot
  split <;> simp

theorem body_of_splitRoot_dot {path body : List Char} (h : splitRoot path = (['.'], body)) :
    body = [] ∨ ∃ rest, body = '/' :: rest := by
  unfold splitRoot at h
  split at h <;> cases h
  · exact .inl rfl
  · exact .inr ⟨_, rfl⟩

/-- What stands behind a slash does not matter for the root. -/
theorem splitRoot_of_slash {path root front tail : List Char}
    (h : splitRoot path = (root, front ++ '/' :: tail)) (tail' : List Char) :
    splitRoot (root ++ (front ++ '/' :: tail')) = (root, front ++ '/' :: tail') := by
  unfold splitRoot at h
  split at h
  next =>
    cases h
    rfl
  next => simp at h
  next rest =>
    rw [Prod.mk.injEq] at h
    obtain ⟨rfl, hbody⟩ := h
    cases front with
    | nil => rfl
    | cons c front =>
      cases hbody
      rfl
  next hslash hdot hdotSlash =>
    rw [Prod.mk.injEq] at h
    obtain ⟨rfl, rfl⟩ := h
    -- the first two characters are those of `path`, which has no root
    apply splitRoot_eq_self
    · intro rest heq
      cases front with
      | nil => exact hslash tail rfl
      | cons c more =>
        cases heq
        exact hslash (more ++ '/' :: tail) rfl
    · intro heq
      cases front with
      | nil => exact hslash tail rfl
      | cons c more => simp at heq
    · intro rest heq
      match front with
      | [] => exact hslash tail rfl
      | [c] =>
        cases heq
        exact hdotSlash tail rfl
      | c :: d :: more =>
        cases heq
        exact hdotSlash (more ++ '/' :: tail) rfl

/-! ## File names -/

/-- Whether a text can be the name of a file. -/
structure IsFileName (name : List Char) : Prop where
  ne_nil : name ≠ []
  no_slash : '/' ∉ name
  ne_dot : name ≠ ['.']
  ne_dots : name ≠ ['.', '.']

theorem IsFileName.isIdle {name : List Char} (h : IsFileName name) : isIdle name = false :=
  isIdle_eq_false.2 ⟨h.ne_nil, h.ne_dot⟩

theorem IsFileName.splitRoot_eq {name : List Char} (h : IsFileName name) :
    splitRoot name = ([], name) := by
  have hslash := h.no_slash
  apply splitRoot_eq_self
  · rintro rest rfl
    exact hslash List.mem_cons_self
  · exact h.ne_dot
  · rintro rest rfl
    exact hslash (List.mem_cons_of_mem _ List.mem_cons_self)

/-- The path is a root and a body whose components, last one first and without those at the end that
mean nothing, are a file name and what stands before it. -/
structure Names (path root body name : List Char) (before : List (List Char)) : Prop where
  splitRoot_eq : splitRoot path = (root, body)
  components_eq : components body = name :: before
  ne_dots : name ≠ ['.', '.']

theorem exists_names {path name : List Char} (h : fileName? path = some name) :
    ∃ root body before, Names path root body name before := by
  unfold fileName? at h
  split at h
  next first before hcomponents =>
    split at h
    next => cases h
    next hdots =>
      cases h
      exact ⟨_, _, before, rfl, hcomponents, hdots⟩
  next => cases h

namespace Names

variable {path root body name : List Char} {before : List (List Char)}

theorem fileName?_eq (h : Names path root body name before) : fileName? path = some name := by
  rw [fileName?, h.splitRoot_eq, h.components_eq]
  exact if_neg h.ne_dots

theorem parent?_eq (h : Names path root body name before) :
    parent? path = some (root ++ join (before.dropWhile isIdle)) := by
  rw [parent?, h.splitRoot_eq]
  dsimp only
  rw [h.components_eq]

/-- Among all components of the body there are some that mean nothing behind the name. -/
theorem exists_idle (h : Names path root body name before) :
    ∃ idle, (Text.splitAt '/' body).reverse = idle ++ name :: before := by
  obtain ⟨idle, hidle⟩ := List.dropWhile_suffix (l := (Text.splitAt '/' body).reverse) isIdle
  refine ⟨idle, ?_⟩
  rw [← h.components_eq, components, hidle]

theorem no_slash (h : Names path root body name before) :
    ∀ component ∈ name :: before, '/' ∉ component := by
  intro component hmem
  obtain ⟨idle, hidle⟩ := h.exists_idle
  have hall : component ∈ (Text.splitAt '/' body).reverse := by
    rw [hidle]
    exact List.mem_append_right idle hmem
  rw [List.mem_reverse, Text.splitAt_eq_splitOn] at hall
  exact Text.not_mem_of_mem_splitOn hall

theorem no_slash_kept (h : Names path root body name before) :
    ∀ component ∈ before.dropWhile isIdle, '/' ∉ component := by
  intro component hmem
  have hbefore := (List.dropWhile_sublist isIdle).mem hmem
  exact h.no_slash component (List.mem_cons_of_mem name hbefore)

theorem isFileName (h : Names path root body name before) : IsFileName name := by
  have hhead := List.head?_dropWhile_not isIdle (Text.splitAt '/' body).reverse
  rw [← components, h.components_eq] at hhead
  obtain ⟨hnil, hdot⟩ := isIdle_eq_false.1 hhead
  exact ⟨hnil, h.no_slash name List.mem_cons_self, hdot, h.ne_dots⟩

end Names

/-! ## Another file name -/

theorem components_name {name : List Char} (h : IsFileName name) : components name = [name] := by
  rw [components, Text.splitAt_eq_splitOn, List.splitOn_eq_singleton h.no_slash]
  exact List.dropWhile_cons_of_neg (by rw [h.isIdle]; exact Bool.false_ne_true)

theorem components_slash_name {name : List Char} (h : IsFileName name) (front : List Char) :
    components (front ++ '/' :: name) = name :: (Text.splitAt '/' front).reverse := by
  rw [components, Text.splitAt_eq_splitOn, List.splitOn_append_cons_self,
    List.splitOn_eq_singleton h.no_slash, List.reverse_append, Text.splitAt_eq_splitOn]
  exact List.dropWhile_cons_of_neg (by rw [h.isIdle]; exact Bool.false_ne_true)

theorem append_of_getLast? {directory : List Char} {last : Char}
    (hlast : directory.getLast? = some last) (hne : last ≠ '/') (name : List Char) :
    append directory name = directory ++ '/' :: name := by
  rw [append, if_neg]
  rintro (rfl | hslash)
  · cases hlast
  · exact hne (Option.some.inj (hlast.symm.trans hslash))

theorem length_append_le_add (directory name : List Char) :
    (append directory name).length ≤ directory.length + name.length + 1 := by
  unfold append
  split <;> simp +arith

theorem length_append_add (directory name new : List Char) :
    (append directory new).length + name.length = (append directory name).length + new.length := by
  unfold append
  split <;> simp +arith

namespace Names

variable {path root body name : List Char} {before : List (List Char)}

/-- The last components before the name that are kept stand in front of a slash. -/
theorem exists_body_eq (h : Names path root body name before) {kept : List (List Char)}
    (hkept : kept <:+ before) (hne : kept ≠ []) : ∃ tail, body = join kept ++ '/' :: tail := by
  obtain ⟨idle, hidle⟩ := h.exists_idle
  obtain ⟨dropped, rfl⟩ := hkept
  refine ⟨join (idle ++ name :: dropped), ?_⟩
  rw [← join_append (by simp) hne, ← join_splitAt body, hidle]
  simp

/-- A directory with components does not end with a slash. -/
theorem getLast?_directory (h : Names path root body name before)
    (hkept : before.dropWhile isIdle ≠ []) :
    ∃ last, (root ++ join (before.dropWhile isIdle)).getLast? = some last ∧ last ≠ '/' := by
  obtain ⟨first, more, hcons⟩ := List.exists_cons_of_ne_nil hkept
  -- the last component is not idle, so its last character is that of the directory
  have hhead := List.head?_dropWhile_not isIdle before
  rw [hcons] at hhead
  have hslash : '/' ∉ first := h.no_slash_kept first (by rw [hcons]; exact List.mem_cons_self)
  obtain ⟨last, hlast⟩ := Option.ne_none_iff_exists'.1
    (mt List.getLast?_eq_none_iff.1 (isIdle_eq_false.1 hhead).1)
  refine ⟨last, ?_, fun heq => hslash (heq ▸ List.mem_of_getLast? hlast)⟩
  have hjoin : (join (first :: more)).getLast? = some last := by
    by_cases hmore : more = []
    · rw [hmore, join_singleton, hlast]
    · rw [← List.singleton_append, join_append (by simp) hmore, join_singleton,
        List.getLast?_append, List.getLast?_cons, hlast]
      rfl
  rw [hcons, List.getLast?_append, hjoin]
  rfl

theorem withFileName_eq (h : Names path root body name before) (new : List Char) :
    Path.withFileName path new = append (root ++ join (before.dropWhile isIdle)) new := by
  rw [Path.withFileName, h.fileName?_eq, h.parent?_eq]

/-- A path with another file name has the same root, the same components before the name, and the
new name. -/
theorem withFileName (h : Names path root body name before) {new : List Char}
    (hnew : IsFileName new) :
    ∃ body' before', Names (Path.withFileName path new) root body' new before' ∧
      before'.dropWhile isIdle = before.dropWhile isIdle := by
  rw [h.withFileName_eq]
  by_cases hkept : before.dropWhile isIdle = []
  · -- only the root stands in front of the new name
    rw [hkept, join_nil, List.append_nil]
    rcases splitRoot_fst_cases path with hroot | hroot | hroot
    all_goals
      rw [h.splitRoot_eq] at hroot
      subst hroot
    · exact ⟨new, [], ⟨hnew.splitRoot_eq, components_name hnew, hnew.ne_dots⟩, rfl⟩
    · exact ⟨new, [], ⟨rfl, components_name hnew, hnew.ne_dots⟩, rfl⟩
    · -- behind a `.` the body starts with a slash, and so with an empty component
      exact ⟨'/' :: new, [[]], ⟨rfl, components_slash_name hnew [], hnew.ne_dots⟩, rfl⟩
  · -- the path is kept up to a slash, so its root is the same
    obtain ⟨tail, hbody⟩ := h.exists_body_eq (List.dropWhile_suffix isIdle) hkept
    obtain ⟨last, hlast, hne⟩ := h.getLast?_directory hkept
    rw [append_of_getLast? hlast hne, List.append_assoc]
    refine ⟨join (before.dropWhile isIdle) ++ '/' :: new, before.dropWhile isIdle,
      ⟨?_, ?_, hnew.ne_dots⟩, ?_⟩
    · exact splitRoot_of_slash (hbody ▸ h.splitRoot_eq) new
    · rw [components_slash_name hnew, splitAt_join hkept h.no_slash_kept, List.reverse_reverse]
    · exact List.dropWhile_idempotent isIdle before

/-- Behind a `.` at the start there is an empty component before the name. -/
theorem root_ne_dot (h : Names path root body name []) : root ≠ ['.'] := by
  rintro rfl
  rcases body_of_splitRoot_dot h.splitRoot_eq with rfl | ⟨rest, rfl⟩
  · cases h.components_eq
  · obtain ⟨idle, hidle⟩ := h.exists_idle
    have hsplit : Text.splitAt '/' ('/' :: rest) = [] :: Text.splitAt '/' rest := by
      rw [Text.splitAt_eq_splitOn, Text.splitAt_eq_splitOn]
      exact List.splitOn_append_cons_self [] rest
    rw [hsplit, List.reverse_cons] at hidle
    have hnil : [[]] = [name] := (List.append_inj' hidle rfl).2
    exact h.isFileName.ne_nil (List.cons.inj hnil).1.symm

/-- Naming a file by its directory and its name makes the path no longer. -/
theorem length_append_le (h : Names path root body name before) :
    (append (root ++ join (before.dropWhile isIdle)) name).length ≤ path.length := by
  obtain ⟨idle, hidle⟩ := h.exists_idle
  have hpath : root.length + (join (idle ++ name :: before)).length = path.length := by
    rw [← hidle, join_splitAt, ← List.length_append, ← splitRoot_append path, h.splitRoot_eq]
  have hname := length_le_join_concat idle name
  by_cases hbefore : before = []
  · subst hbefore
    rw [List.dropWhile_nil, join_nil, List.append_nil]
    rcases splitRoot_fst_cases path with hroot | hroot | hroot
    all_goals
      rw [h.splitRoot_eq] at hroot
      subst hroot
    · have hnone : (append [] name).length = name.length := rfl
      omega
    · have hslash : (append ['/'] name).length = name.length + 1 := rfl
      rw [List.length_singleton] at hpath
      omega
    · exact absurd rfl h.root_ne_dot
  · have hjoin : (join (idle ++ name :: before)).length =
        (join before).length + (join (idle ++ [name])).length + 1 := by
      rw [← List.singleton_append, ← List.append_assoc, join_append (by simp) hbefore]
      simp +arith
    have hkept := length_join_le_of_suffix (List.dropWhile_suffix (l := before) isIdle)
    have hle := length_append_le_add (root ++ join (before.dropWhile isIdle)) name
    rw [List.length_append] at hle
    omega

end Names

variable {path name new : List Char}

theorem fileName?_withFileName (hname : fileName? path = some name) (hnew : IsFileName new) :
    fileName? (withFileName path new) = some new := by
  obtain ⟨root, body, before, h⟩ := exists_names hname
  obtain ⟨body', before', h', -⟩ := h.withFileName hnew
  exact h'.fileName?_eq

theorem parent?_withFileName (hname : fileName? path = some name) (hnew : IsFileName new) :
    parent? (withFileName path new) = parent? path := by
  obtain ⟨root, body, before, h⟩ := exists_names hname
  obtain ⟨body', before', h', hkept⟩ := h.withFileName hnew
  rw [h'.parent?_eq, h.parent?_eq, hkept]

/-- A shorter name makes a path shorter, whatever the name is. -/
theorem length_withFileName_lt (hname : fileName? path = some name)
    (hlt : new.length < name.length) : (withFileName path new).length < path.length := by
  obtain ⟨root, body, before, h⟩ := exists_names hname
  have hle := h.length_append_le
  have hadd := length_append_add (root ++ join (before.dropWhile isIdle)) name new
  rw [h.withFileName_eq]
  omega

/-! ## Extensions -/

/-- An extension with its dot. -/
def dotted : Option (List Char) → List Char
  | some extension => '.' :: extension
  | none => []

theorem splitExtension_of_not_mem_tail {name : List Char} (h : '.' ∉ name.tail) :
    splitExtension name = (name, none) := by
  unfold splitExtension
  rw [Text.splitAt_eq_splitOn]
  by_cases hdot : '.' ∈ name
  · -- the only dot is the first character
    match name with
    | [] => rfl
    | c :: rest =>
      rw [List.tail_cons] at h
      rcases List.mem_cons.1 hdot with rfl | hrest
      · rw [← List.nil_append ('.' :: rest), List.splitOn_append_cons_self,
          List.splitOn_eq_singleton h]
        rfl
      · exact absurd hrest h
  · rw [List.splitOn_eq_singleton hdot]
    rfl

theorem splitExtension_append {front behind : List Char} (hfront : front ≠ [])
    (hbehind : '.' ∉ behind) :
    splitExtension (front ++ '.' :: behind) = (front, some behind) := by
  unfold splitExtension
  rw [Text.splitAt_eq_splitOn, List.splitOn_append_cons_self, List.splitOn_eq_singleton hbehind,
    List.reverse_append, List.reverse_singleton, List.singleton_append]
  dsimp only
  rw [List.reverse_reverse, List.intercalate_splitOn, if_neg hfront]

/-- A dot that is not the first character of a name is the last one or has another behind it. -/
theorem exists_last_dot {name : List Char} (h : '.' ∈ name.tail) :
    ∃ front behind, name = front ++ '.' :: behind ∧ front ≠ [] ∧ '.' ∉ behind := by
  match name with
  | c :: rest =>
    obtain ⟨behind, front, hsplit, hbehind⟩ :=
      List.eq_append_cons_of_mem (List.mem_reverse.2 h)
    rw [List.tail_cons, List.reverse_eq_iff, List.reverse_append, List.reverse_cons] at hsplit
    refine ⟨c :: front.reverse, behind.reverse, ?_, List.cons_ne_nil _ _, by simpa using hbehind⟩
    rw [hsplit]
    simp

theorem splitExtension_dotted (name : List Char) :
    (splitExtension name).1 ++ dotted (splitExtension name).2 = name := by
  by_cases hdot : '.' ∈ name.tail
  · obtain ⟨front, behind, rfl, hfront, hbehind⟩ := exists_last_dot hdot
    rw [splitExtension_append hfront hbehind]
    rfl
  · rw [splitExtension_of_not_mem_tail hdot]
    exact List.append_nil name

end Path
end Spreadsheet

/-!
Finite maps from texts to values, listed in increasing order of their keys. Equal look-ups make
equal dictionaries, so the order in which entries were put in leaves no trace.
-/
namespace Spreadsheet

/-- A finite map with text keys. -/
structure Dictionary (α : Type) where
  entries : List (String × α)
  sorted : entries.Pairwise fun a b => a.1 < b.1

namespace Dictionary

variable {α β : Type}

/-- Puts a value under a key of an ordered list, in place of the one that was there. -/
def insertEntry (key : String) (value : α) : List (String × α) → List (String × α)
  | [] => [(key, value)]
  | entry :: rest =>
    if key < entry.1 then (key, value) :: entry :: rest
    else if key = entry.1 then (key, value) :: rest
    else entry :: insertEntry key value rest

theorem mem_insertEntry {key : String} {value : α} {entries : List (String × α)}
    {entry : String × α} (h : entry ∈ insertEntry key value entries) :
    entry = (key, value) ∨ entry ∈ entries := by
  induction entries with
  | nil => simpa [insertEntry] using h
  | cons first rest ih =>
    unfold insertEntry at h
    split at h
    · simpa using h
    · split at h
      · cases List.mem_cons.1 h with
        | inl heq => exact .inl heq
        | inr hmem => exact .inr (List.mem_cons_of_mem _ hmem)
      · cases List.mem_cons.1 h with
        | inl heq => exact .inr (heq ▸ List.mem_cons_self)
        | inr hmem => exact (ih hmem).imp id (List.mem_cons_of_mem _)

private theorem lt_of_not_lt_of_ne {a b : String} (hlt : ¬a < b) (hne : a ≠ b) : b < a := by
  apply Classical.byContradiction
  intro hba
  exact hne (String.le_antisymm (String.not_lt.1 hba) (String.not_lt.1 hlt))

theorem sorted_insertEntry (key : String) (value : α) {entries : List (String × α)}
    (h : entries.Pairwise fun a b => a.1 < b.1) :
    (insertEntry key value entries).Pairwise fun a b => a.1 < b.1 := by
  induction entries with
  | nil => simp [insertEntry]
  | cons first rest ih =>
    obtain ⟨hfirst, hrest⟩ := List.pairwise_cons.1 h
    unfold insertEntry
    split
    · rename_i hlt
      refine List.pairwise_cons.2 ⟨fun entry hmem => ?_, h⟩
      cases List.mem_cons.1 hmem with
      | inl heq => exact heq ▸ hlt
      | inr hin => exact String.lt_trans hlt (hfirst entry hin)
    · split
      · rename_i heq
        exact List.pairwise_cons.2 ⟨fun entry hmem => heq ▸ hfirst entry hmem, hrest⟩
      · rename_i hlt hne
        refine List.pairwise_cons.2 ⟨fun entry hmem => ?_, ih hrest⟩
        cases mem_insertEntry hmem with
        | inl heq => exact heq ▸ lt_of_not_lt_of_ne hlt hne
        | inr hin => exact hfirst entry hin

/-- The dictionary without entries. -/
def empty : Dictionary α :=
  ⟨[], .nil⟩

instance : Inhabited (Dictionary α) :=
  ⟨empty⟩

/-- Puts `value` under `key`, in place of the one that was there. -/
def insert (d : Dictionary α) (key : String) (value : α) : Dictionary α :=
  ⟨insertEntry key value d.entries, sorted_insertEntry key value d.sorted⟩

/-- The value under a key. -/
def get? (d : Dictionary α) (key : String) : Option α :=
  (d.entries.find? fun entry => entry.1 == key).map (·.2)

def contains (d : Dictionary α) (key : String) : Bool :=
  (d.get? key).isSome

/-- The keys, in increasing order. -/
def keys (d : Dictionary α) : List String :=
  d.entries.map (·.1)

def size (d : Dictionary α) : Nat :=
  d.entries.length

/-- Puts the pairs in one after another, so that the last value given for a key stays. -/
def insertAll (d : Dictionary α) (pairs : List (String × α)) : Dictionary α :=
  pairs.foldl (fun d pair => d.insert pair.1 pair.2) d

def ofList (pairs : List (String × α)) : Dictionary α :=
  empty.insertAll pairs

/-- Every value through `f`, the keys kept. -/
def mapValues (f : α → β) (d : Dictionary α) : Dictionary β :=
  ⟨d.entries.map fun entry => (entry.1, f entry.2), List.pairwise_map.2 d.sorted⟩

/-- The texts in increasing order, each once. -/
def sortedNames (names : List String) : List String :=
  (ofList (names.map fun name => (name, ()))).keys

theorem mem_keys_of_get? {d : Dictionary α} {key : String} {value : α}
    (h : d.get? key = some value) : key ∈ d.keys := by
  unfold get? at h
  cases hfind : d.entries.find? fun entry => entry.1 == key with
  | none => simp [hfind] at h
  | some entry =>
    have hkey : entry.1 = key := by simpa using List.find?_some hfind
    exact List.mem_map.2 ⟨entry, List.mem_of_find?_eq_some hfind, hkey⟩

theorem get?_empty (key : String) : (empty : Dictionary α).get? key = none := rfl

theorem get?_insert (d : Dictionary α) (key : String) (value : α) (other : String) :
    (d.insert key value).get? other = if key = other then some value else d.get? other := by
  obtain ⟨entries, hsorted⟩ := d
  simp only [get?, insert]
  induction entries with
  | nil => by_cases h : key = other <;> simp [insertEntry, h]
  | cons first rest ih =>
    have hrest := (List.pairwise_cons.1 hsorted).2
    unfold insertEntry
    split
    · by_cases h : key = other <;> simp [h]
    · split
      · rename_i heq
        by_cases h : key = other
        · simp [h]
        · have hfirst : (first.1 == other) = false := by simpa [← heq] using h
          simp [h, hfirst]
      · rename_i hne
        by_cases hfirst : first.1 = other
        · have hkey : key ≠ other := fun h => hne (h.trans hfirst.symm)
          simp [hfirst, hkey]
        · simp [hfirst, ih hrest]

/-- After entries are put in one after another, the last one under a key counts. -/
theorem get?_foldl_insert {ι : Type} (key : ι → String) (value : ι → α) (items : List ι)
    (d : Dictionary α) (other : String) :
    (items.foldl (fun d item => d.insert (key item) (value item)) d).get? other =
      ((items.reverse.find? fun item => key item == other).map value).or (d.get? other) := by
  -- on the items, the first of which is the last of the reversed list and so is found only where
  -- no later one has the key
  induction items generalizing d with
  | nil => rfl
  | cons item rest ih =>
    rw [List.foldl_cons, ih, List.reverse_cons, List.find?_append, get?_insert]
    cases rest.reverse.find? fun item => key item == other with
    | some later => rfl
    | none => by_cases h : key item = other <;> simp [h]

theorem get?_eq_some_iff {d : Dictionary α} {key : String} {value : α} :
    d.get? key = some value ↔ (key, value) ∈ d.entries := by
  obtain ⟨entries, hsorted⟩ := d
  simp only [get?]
  induction entries with
  | nil => simp
  | cons first rest ih =>
    obtain ⟨hfirst, hrest⟩ := List.pairwise_cons.1 hsorted
    by_cases hkey : first.1 = key
    · -- the later keys are greater, so the entry can only be the first
      subst hkey
      have hlater : (first.1, value) ∉ rest := fun hmem =>
        String.lt_irrefl first.1 (hfirst (first.1, value) hmem)
      simp [hlater, Prod.ext_iff, eq_comm]
    · have hne : (key, value) ≠ first := fun heq => hkey (heq ▸ rfl)
      simp [hkey, hne, ih hrest]

theorem contains_iff {d : Dictionary α} {key : String} :
    d.contains key = true ↔ ∃ value, d.get? key = some value :=
  Option.isSome_iff_exists

theorem mem_keys_iff {d : Dictionary α} {key : String} :
    key ∈ d.keys ↔ d.contains key = true := by
  simp [keys, contains_iff, get?_eq_some_iff]

theorem contains_ofList_iff {pairs : List (String × α)} {key : String} :
    (ofList pairs).contains key = true ↔ ∃ value, (key, value) ∈ pairs := by
  simp [contains, ofList, insertAll, get?_foldl_insert, get?_empty]

theorem mem_sortedNames_iff {names : List String} {name : String} :
    name ∈ sortedNames names ↔ name ∈ names := by
  simp [sortedNames, mem_keys_iff, contains_ofList_iff]

theorem get?_mapValues (f : α → β) (d : Dictionary α) (key : String) :
    (d.mapValues f).get? key = (d.get? key).map f := by
  simp only [get?, mapValues, List.find?_map, Option.map_map]
  rfl

private theorem eq_of_forall_mem_iff : {entries entries' : List (String × α)} →
    (entries.Pairwise fun a b => a.1 < b.1) → (entries'.Pairwise fun a b => a.1 < b.1) →
    (∀ entry, entry ∈ entries ↔ entry ∈ entries') → entries = entries'
  | [], [], _, _, _ => rfl
  | [], entry :: _, _, _, h => nomatch (h entry).2 List.mem_cons_self
  | entry :: _, [], _, _, h => nomatch (h entry).1 List.mem_cons_self
  | first :: rest, first' :: rest', hsorted, hsorted', h => by
    obtain ⟨hfirst, hrest⟩ := List.pairwise_cons.1 hsorted
    obtain ⟨hfirst', hrest'⟩ := List.pairwise_cons.1 hsorted'
    -- each of the two first entries would have to come before the other
    have heq : first = first' := by
      rcases List.mem_cons.1 ((h first).1 List.mem_cons_self) with heq | hmem
      · exact heq
      rcases List.mem_cons.1 ((h first').2 List.mem_cons_self) with heq | hmem'
      · exact heq.symm
      exact absurd (hfirst' first hmem) (String.lt_asymm (hfirst first' hmem'))
    subst heq
    rw [eq_of_forall_mem_iff hrest hrest' fun entry => ?_]
    have hiff := h entry
    constructor
    · intro hmem
      rcases List.mem_cons.1 (hiff.1 (List.mem_cons_of_mem _ hmem)) with rfl | hin
      · exact absurd (hfirst entry hmem) (String.lt_irrefl entry.1)
      · exact hin
    · intro hmem
      rcases List.mem_cons.1 (hiff.2 (List.mem_cons_of_mem _ hmem)) with rfl | hin
      · exact absurd (hfirst' entry hmem) (String.lt_irrefl entry.1)
      · exact hin

/-- Equal look-ups make equal dictionaries. -/
theorem ext_get? {d d' : Dictionary α} (h : ∀ key, d.get? key = d'.get? key) : d = d' := by
  have hentries : d.entries = d'.entries :=
    eq_of_forall_mem_iff d.sorted d'.sorted fun (key, value) => by
      rw [← get?_eq_some_iff, ← get?_eq_some_iff, h key]
  cases d
  cases d'
  cases hentries
  rfl

end Dictionary
end Spreadsheet

import Spreadsheet.Command.Config
import Spreadsheet.Proofs.EffectiveDefinitions
import Spreadsheet.Proofs.SettledVariables

/-!
Where the value of a variable comes from. The arguments come before the config file key by key, and
keys that differ in case are different keys; the variables are defined in the order of the keys,
without regard to case. Main statement: a variable that the arguments give has their value, unless
the config file has a later key for the same variable, and no definition of the source file counts.
-/
namespace Spreadsheet

open Text

/-! ## The last key -/

namespace Dictionary

variable {α : Type}

/-- The last entry of a class is the one with the greatest key. -/
theorem find?_reverse_entries {d : Dictionary α} {p : String → Bool} {key : String} {value : α} :
    (d.entries.reverse.find? fun entry => p entry.1) = some (key, value) ↔
      d.get? key = some value ∧ p key = true ∧
        ∀ other, d.contains other = true → p other = true → ¬key < other := by
  have hsorted : d.entries.reverse.Pairwise fun a b => b.1 < a.1 :=
    List.pairwise_reverse.2 d.sorted
  have hmem (other : String) : d.contains other = true ↔ ∃ v, (other, v) ∈ d.entries.reverse := by
    simp only [contains_iff, get?_eq_some_iff, List.mem_reverse]
  rw [get?_eq_some_iff, ← List.mem_reverse, List.find?_eq_some_iff_append]
  constructor
  · rintro ⟨hp, before, after, hsplit, hbefore⟩
    refine ⟨by rw [hsplit]; simp, hp, fun other hother hpother hlt => ?_⟩
    obtain ⟨v, hv⟩ := (hmem other).1 hother
    rw [hsplit] at hv hsorted
    have hbehind := (List.pairwise_cons.1 (List.pairwise_append.1 hsorted).2.1).1
    rcases List.mem_append.1 hv with hin | hin
    · simpa [hpother] using hbefore _ hin
    · rcases List.mem_cons.1 hin with heq | hin
      · cases heq
        exact String.lt_irrefl _ hlt
      · exact String.lt_asymm hlt (hbehind _ hin)
  · rintro ⟨hentry, hp, hgreatest⟩
    obtain ⟨before, after, hsplit⟩ := List.append_of_mem hentry
    refine ⟨hp, before, after, hsplit, fun entry hin => ?_⟩
    have hfront := (List.pairwise_append.1 (hsplit ▸ hsorted)).2.2
    have hother : d.contains entry.1 = true :=
      (hmem entry.1).2 ⟨entry.2, by rw [hsplit]; exact List.mem_append_left _ hin⟩
    cases hpentry : p entry.1 with
    | false => rfl
    | true =>
      have hlt := hfront entry hin (key, value) List.mem_cons_self
      exact absurd hlt (hgreatest entry.1 hother hpentry)

/-- Of two dictionaries put together the second comes first. -/
theorem get?_insertAll_entries (d d' : Dictionary α) (key : String) :
    (d.insertAll d'.entries).get? key = (d'.get? key).or (d.get? key) := by
  rw [insertAll, get?_foldl_insert, find?_of_perm (List.reverse_perm d'.entries)]

end Dictionary

namespace Scope

/-! ## Values that refer to nothing -/

theorem settle_literal (settled : Dictionary Formula) (dependencies : List String)
    (value : Literal) : settle settled dependencies (.literal value) = .literal value := by
  induction dependencies with
  | nil => rfl
  | cons id rest ih => exact ih

theorem get?_settleAll_literal {values : Dictionary Formula} {id : String} {value : Literal}
    (hvalue : values.get? id = some (.literal value)) (g : DependencyGraph) {order : List String}
    (hid : id ∈ order) : (settleAll values g order).get? id = some (.literal value) := by
  -- the last variable of the order is the one that is settled last
  induction order using List.reverseRecOn with
  | nil => cases hid
  | append_singleton before last ih =>
    by_cases hlast : last = id
    · subst hlast
      rw [settleAll_snoc hvalue, settle_literal, Dictionary.get?_insert, if_pos rfl]
    · have hbefore : id ∈ before := by
        rcases List.mem_append.1 hid with hin | hin
        · exact hin
        · exact absurd (List.mem_singleton.1 hin).symm hlast
      cases hother : values.get? last with
      | some other =>
        rw [settleAll_snoc hother, Dictionary.get?_insert, if_neg hlast]
        exact ih hbefore
      | none =>
        have hsame : settleAll values g (before ++ [last]) = settleAll values g before := by
          simp [settleAll, hother]
        rw [hsame]
        exact ih hbefore

theorem get?_resolveVariables_literal {s s' : Scope} (h : s.resolveVariables = .ok s')
    {id : String} {value : Literal} (hvalue : s.values.get? id = some (.literal value)) :
    s'.values.get? id = some (.literal value) := by
  unfold resolveVariables at h
  split at h
  next => cases h
  next g hgraph =>
    split at h
    next => cases h
    next order horder =>
      cases h
      rcases DependencyGraph.ofVariables_cases s.values with
        ⟨hclosed, g', hgraph', hg⟩ | ⟨-, ids, herror⟩
      · cases hgraph.symm.trans hgraph'
        apply get?_settleAll_literal hvalue
        rw [mem_topologicalOrder_iff hg hclosed horder]
        exact Dictionary.contains_iff.2 ⟨_, hvalue⟩
      · cases hgraph.symm.trans herror

end Scope

namespace Source

theorem defines_of_buildScope {source : Source} {options : Options} {s : Scope}
    (h : source.buildScope options = .ok s) : ∃ d, source.Defines d := by
  unfold Defines
  unfold buildScope addDefinitions at h
  cases hsection : source.definitions with
  | none => exact ⟨{}, rfl⟩
  | some text =>
    cases hparse : Definitions.parse (String.ofList text) with
    | ok d => exact ⟨d, hparse⟩
    | error e =>
      simp only [hsection, hparse] at h
      cases h

/-- A scope comes from the definitions of its file. -/
theorem exists_of_buildScope {source : Source} {options : Options} {s : Scope}
    (h : source.buildScope options = .ok s) :
    ∃ d, source.Defines d ∧ (Scope.ofDefinitions d options).resolveVariables = .ok s := by
  obtain ⟨d, hd⟩ := defines_of_buildScope h
  refine ⟨d, hd, ?_⟩
  rw [buildScope_of_defines hd] at h
  cases hresolve : (Scope.ofDefinitions d options).resolveVariables with
  | error e =>
    rw [hresolve] at h
    cases h
  | ok resolved =>
    rw [hresolve] at h
    cases h
    rfl

/-- A text from the options is the value of its variable, whatever the file defines. -/
theorem get?_buildScope_text {source : Source} {options : Options} {s : Scope}
    (h : source.buildScope options = .ok s) {id text : String}
    (htext : options.lastText? id = some text) : s.values.get? id = some (.text text) := by
  obtain ⟨d, _, hresolve⟩ := exists_of_buildScope h
  apply Scope.get?_resolveVariables_literal hresolve
  rw [Scope.get?_values_ofDefinitions, htext]
  rfl

end Source

namespace Command

/-- The text that the config file has for the variable of `key` under a later key, the last one if
there are several. -/
def Config.laterText? (c : Config) (key : String) : Option String :=
  ((c.keyValues.getD .empty).entries.reverse.find? fun entry =>
    lower entry.1 == lower key && decide (key < entry.1)).map (·.2)

namespace Arguments

variable {a : Arguments} {c : Config} {text : String} {given : Dictionary String}
  {options : Options} {key value : String}

theorem options_of_readKeyValues (htext : a.keyValues = some text)
    (hgiven : Options.readKeyValues text = .ok given) (c : Config) :
    ∃ options, a.options c = .ok options ∧
      options.keyValues = (c.keyValues.getD .empty).insertAll given.entries := by
  unfold Arguments.options
  rw [htext]
  dsimp only
  rw [hgiven]
  exact ⟨_, rfl, rfl⟩

theorem get?_keyValues_options (htext : a.keyValues = some text)
    (hgiven : Options.readKeyValues text = .ok given) (hoptions : a.options c = .ok options)
    (other : String) :
    options.keyValues.get? other =
      (given.get? other).or ((c.keyValues.getD .empty).get? other) := by
  obtain ⟨merged, hmerged, hkeys⟩ := options_of_readKeyValues htext hgiven c
  cases hoptions.symm.trans hmerged
  rw [hkeys, Dictionary.get?_insertAll_entries]

theorem contains_keyValues_options (htext : a.keyValues = some text)
    (hgiven : Options.readKeyValues text = .ok given) (hoptions : a.options c = .ok options)
    {other : String} (h : options.keyValues.contains other = true) :
    given.contains other = true ∨ (c.keyValues.getD .empty).contains other = true := by
  obtain ⟨v, hv⟩ := Dictionary.contains_iff.1 h
  rw [get?_keyValues_options htext hgiven hoptions] at hv
  rcases Option.or_eq_some_iff.1 hv with hv | ⟨-, hv⟩
  · exact .inl (Dictionary.contains_iff.2 ⟨v, hv⟩)
  · exact .inr (Dictionary.contains_iff.2 ⟨v, hv⟩)

/-- A later key of the config file for the same variable is the last key for it, and without one
the key of the arguments is. -/
theorem lastText?_options (htext : a.keyValues = some text)
    (hgiven : Options.readKeyValues text = .ok given) (hoptions : a.options c = .ok options)
    (hvalue : given.get? key = some value)
    (honly : ∀ other, given.contains other = true → lower other = lower key → other = key) :
    options.lastText? (lower key) = some ((c.laterText? key).getD value) := by
  have hget := get?_keyValues_options htext hgiven hoptions
  -- a key of the variable other than the argument's own comes from the config file
  have hsource (other : String) (hother : options.keyValues.contains other = true)
      (hsame : lower other = lower key) (hne : other ≠ key) :
      (c.keyValues.getD .empty).contains other = true := by
    rcases contains_keyValues_options htext hgiven hoptions hother with hin | hin
    · exact absurd (honly other hin hsame) hne
    · exact hin
  unfold Options.lastText? Config.laterText?
  cases hlater : (c.keyValues.getD .empty).entries.reverse.find? fun entry =>
      lower entry.1 == lower key && decide (key < entry.1) with
  | some entry =>
    obtain ⟨later, found⟩ := entry
    obtain ⟨hfound, hclass, hgreatest⟩ := Dictionary.find?_reverse_entries
      (p := fun other => lower other == lower key && decide (key < other)).1 hlater
    obtain ⟨hsame, hlt⟩ : lower later = lower key ∧ key < later := by simpa using hclass
    have hlast : (options.keyValues.entries.reverse.find? fun entry =>
        lower entry.1 == lower key) = some (later, found) := by
      refine Dictionary.find?_reverse_entries
        (p := fun other => lower other == lower key).2 ⟨?_, by simpa using hsame, ?_⟩
      · cases hgivenLater : given.get? later with
        | none => rw [hget later, hgivenLater, hfound, Option.none_or]
        | some _ =>
          have heq := honly later (Dictionary.contains_iff.2 ⟨_, hgivenLater⟩) hsame
          exact absurd (heq ▸ hlt) (String.lt_irrefl _)
      · intro other hother hclass hbehind
        have hafter : key < other := String.lt_trans hlt hbehind
        have hne : other ≠ key := fun heq => String.lt_irrefl _ (heq ▸ hafter)
        have hin := hsource other hother (by simpa using hclass) hne
        exact hgreatest other hin (by simpa [hafter] using hclass) hbehind
    rw [hlast]
    rfl
  | none =>
    have hlast : (options.keyValues.entries.reverse.find? fun entry =>
        lower entry.1 == lower key) = some (key, value) := by
      refine Dictionary.find?_reverse_entries
        (p := fun other => lower other == lower key).2 ⟨?_, beq_self_eq_true _, ?_⟩
      · rw [hget key, hvalue, Option.some_or]
      · intro other hother hclass hbehind
        have hne : other ≠ key := fun heq => String.lt_irrefl _ (heq ▸ hbehind)
        have hin := hsource other hother (by simpa using hclass) hne
        obtain ⟨v, hv⟩ := Dictionary.contains_iff.1 hin
        have hentry := List.mem_reverse.2 (Dictionary.get?_eq_some_iff.1 hv)
        exact List.find?_eq_none.1 hlater _ hentry (by simpa [hbehind] using hclass)
    rw [hlast]
    rfl

/-- A variable of the arguments has their value, whatever the file defines, unless the config file
has a text for it under a key that comes later than theirs. -/
theorem get?_buildScope_options (htext : a.keyValues = some text)
    (hgiven : Options.readKeyValues text = .ok given) (hoptions : a.options c = .ok options)
    (hvalue : given.get? key = some value)
    (honly : ∀ other, given.contains other = true → lower other = lower key → other = key)
    {source : Source} {s : Scope} (hscope : source.buildScope options = .ok s) :
    s.values.get? (lower key) = some (.text ((c.laterText? key).getD value)) ∧
      (s.values.get? (lower key) = some (.text value) ↔
        ∀ later, c.laterText? key = some later → later = value) := by
  have hfound := Source.get?_buildScope_text hscope
    (lastText?_options htext hgiven hoptions hvalue honly)
  refine ⟨hfound, ?_⟩
  rw [hfound]
  cases c.laterText? key with
  | none => simp
  | some later => simp [Formula.text]

/-- A file whose only variable refers to itself. -/
def selfReference : Source :=
  { filename := "rate.csvpp"
    definitions := some "rate := $$rate\n".toList
    sheet := []
    sheetLine := 3 }

theorem defines_selfReference : selfReference.Defines { values := [("rate", .name "rate")] } := by
  show Definitions.parse _ = _
  cbv

/-- A file whose only variable has a text from outside has a scope. -/
theorem buildScope_rate {source : Source} {d : Definitions} {text : String}
    (hd : source.Defines d)
    (h : Scope.ofDefinitions d options = { values := .ofList [("rate", .text text)] }) :
    source.buildScope options = .ok { values := .ofList [("rate", .text text)] } := by
  have hgraph : DependencyGraph.ofVariables (.ofList [("rate", .text text)]) =
      .ok ⟨.ofList [("rate", [])]⟩ := rfl
  have horder : (⟨.ofList [("rate", [])]⟩ : DependencyGraph).topologicalOrder = .ok ["rate"] := by
    cbv
  rw [Source.buildScope_of_defines hd, h, Scope.resolveVariables, hgraph]
  dsimp only
  rw [horder]
  rfl

/-- The keys of the config file are the same and an earlier one, and the file cannot be resolved
without the value from outside. -/
theorem get?_buildScope_options_selfReference :
    ∃ options s,
      Arguments.options { input := "rate.csvpp", keyValues := some "rate=flag" }
        { keyValues := some (.ofList [("RATE", "early"), ("rate", "same")]) } = .ok options ∧
      selfReference.buildScope options = .ok s ∧
      s.values.get? "rate" = some (.text "flag") := by
  have hgiven : Options.readKeyValues "rate=flag" = .ok (.ofList [("rate", "flag")]) := by
    cbv
  have honly (other : String)
      (hother : (Dictionary.ofList [("rate", "flag")]).contains other = true)
      (_ : lower other = lower "rate") : other = "rate" := by
    obtain ⟨v, hv⟩ := Dictionary.contains_iff.1 hother
    have hentry : (other, v) ∈ [("rate", "flag")] := Dictionary.get?_eq_some_iff.1 hv
    simpa using congrArg Prod.fst (List.mem_singleton.1 hentry)
  obtain ⟨options, hoptions, hkeys⟩ := options_of_readKeyValues
    (a := { input := "rate.csvpp", keyValues := some "rate=flag" }) rfl hgiven
    { keyValues := some (.ofList [("RATE", "early"), ("rate", "same")]) }
  have hscope : selfReference.buildScope options =
      .ok { values := .ofList [("rate", .text "flag")] } := by
    apply buildScope_rate defines_selfReference
    rw [Scope.ofDefinitions, hkeys]
    rfl
  refine ⟨options, _, hoptions, hscope, ?_⟩
  exact (get?_buildScope_options rfl hgiven hoptions rfl honly hscope).2.2 (by decide)

/-- A file whose only cell shows the variable. -/
def rateCell : Source :=
  Source.split "in.csvpp" "---\n=$$rate\n".toList

theorem defines_rateCell : rateCell.Defines {} := by
  show Definitions.parse _ = _
  cbv

/-- The config file has the variable in small letters, which come later, and its text stays. -/
theorem get?_buildScope_laterKey :
    ∃ options s,
      Arguments.options { input := "in.csvpp", keyValues := some "Rate=flag" }
        { keyValues := some (.ofList [("rate", "file")]) } = .ok options ∧
      rateCell.buildScope options = .ok s ∧
      s.values.get? (lower "Rate") = some (.text "file") := by
  have hgiven : Options.readKeyValues "Rate=flag" = .ok (.ofList [("Rate", "flag")]) := by
    cbv
  obtain ⟨options, hoptions, hkeys⟩ := options_of_readKeyValues
    (a := { input := "in.csvpp", keyValues := some "Rate=flag" }) rfl hgiven
    { keyValues := some (.ofList [("rate", "file")]) }
  have hscope : rateCell.buildScope options =
      .ok { values := .ofList [("rate", .text "file")] } := by
    apply buildScope_rate defines_rateCell
    rw [Scope.ofDefinitions, hkeys]
    rfl
  exact ⟨options, _, hoptions, hscope, rfl⟩

end Arguments
end Command
end Spreadsheet

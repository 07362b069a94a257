import Spreadsheet.Proofs.StalledPasses

/-!
Runs of passes. A run comes to its end when nothing is left to replace, when a pass fails or changes
nothing, or when its passes are used up. Main statement: a run that does not converge reports what
its last formula still asks for, and reports nothing exactly if the last pass it was allowed was the
one that left nothing.
-/
namespace Spreadsheet.Scope

variable {s : Scope} {p : Position} {f g : Formula} {j k limit : Nat}

/-! ## Passes one after another -/

/-- So many passes over a formula, whether there is something to replace or not. -/
def passes (s : Scope) (p : Position) : (count : Nat) → Formula → Except FormulaError Formula
  | 0, f => .ok f
  | count + 1, f => (s.pass p f).bind (passes s p count)

theorem passes_succ_eq_ok_iff :
    s.passes p (k + 1) f = .ok g ↔ ∃ next, s.pass p f = .ok next ∧ s.passes p k next = .ok g := by
  rw [passes]
  cases s.pass p f <;> simp [Except.bind]

theorem passes_add_eq_ok_iff :
    s.passes p (j + k) f = .ok g ↔
      ∃ middle, s.passes p j f = .ok middle ∧ s.passes p k middle = .ok g := by
  induction j generalizing f with
  | zero => simp [passes]
  | succ j ih =>
    rw [show j + 1 + k = (j + k) + 1 by omega]
    simp only [passes_succ_eq_ok_iff, ih]
    constructor
    · rintro ⟨next, hpass, middle, hfirst, hlast⟩
      exact ⟨middle, ⟨next, hpass, hfirst⟩, hlast⟩
    · rintro ⟨middle, ⟨next, hpass, hfirst⟩, hlast⟩
      exact ⟨next, hpass, middle, hfirst, hlast⟩

theorem passes_error {e : FormulaError} (h : s.passes p k f = .error e) (ids : List String) :
    e ≠ .didNotConverge ids := by
  induction k generalizing f with
  | zero => cases h
  | succ k ih =>
    rw [passes] at h
    cases hpass : s.pass p f with
    | error e' =>
      rw [hpass] at h
      cases h
      exact pass_error hpass ids
    | ok next =>
      rw [hpass] at h
      exact ih h

/-- A pass that changes nothing goes on to change nothing: what is asked for stays. -/
theorem passes_of_stalled {next : Formula} (hpass : s.pass p f = .ok next)
    (hsame : next.same f = true) (k : Nat) :
    ∃ g, s.passes p k f = .ok g ∧ s.pending g = s.pending f := by
  have hback : next.outline = f.outline := Formula.outline_eq_of_same hsame
  -- on the passes; the outline stays the one that the formula had
  have houtline : ∃ g, s.passes p k f = .ok g ∧ f.outline = g.outline := by
    induction k with
    | zero => exact ⟨f, rfl, rfl⟩
    | succ k ih =>
      obtain ⟨g, hg, hsofar⟩ := ih
      obtain ⟨g', hg', hlast⟩ := pass_of_outline hsofar hpass
      refine ⟨g', passes_add_eq_ok_iff.2 ⟨g, hg, ?_⟩, hback.symm.trans hlast⟩
      exact passes_succ_eq_ok_iff.2 ⟨g', hg', rfl⟩
  obtain ⟨g, hg, hsame⟩ := houtline
  refine ⟨g, hg, ?_⟩
  rw [← pending_outline s g, ← hsame, pending_outline]

/-! ## Passes with something to replace -/

/-- So many passes that lead from one formula to another, each with something to replace. -/
inductive Reaches (s : Scope) (p : Position) : Nat → Formula → Formula → Prop
  | refl (f : Formula) : Reaches s p 0 f f
  | step {k : Nat} {f next g : Formula} (hpending : s.pending f ≠ [])
    (hpass : s.pass p f = .ok next) (hrest : Reaches s p k next g) : Reaches s p (k + 1) f g

theorem Reaches.trans {middle : Formula} (hfirst : s.Reaches p j f middle)
    (hlast : s.Reaches p k middle g) : s.Reaches p (j + k) f g := by
  induction hfirst with
  | refl f => simpa using hlast
  | step hpending hpass _ ih =>
    rw [show ∀ j, j + 1 + k = (j + k) + 1 by omega]
    exact .step hpending hpass (ih hlast)

/-- What a pass keeps, a run keeps. -/
theorem Reaches.keeps {P : Formula → Prop} (h : s.Reaches p k f g)
    (hP : ∀ f next, P f → s.pass p f = .ok next → P next) (hf : P f) : P g := by
  induction h with
  | refl f => exact hf
  | step _ hpass _ ih => exact ih (hP _ _ hf hpass)

/-- The passes lead to the last formula, and to none before it that leaves nothing to replace. -/
theorem reaches_iff :
    s.Reaches p k f g ↔ s.passes p k f = .ok g ∧
      ∀ j < k, ∃ middle, s.passes p j f = .ok middle ∧ s.pending middle ≠ [] := by
  constructor
  · intro h
    induction h with
    | refl f => exact ⟨rfl, fun j hj => absurd hj (by omega)⟩
    | @step k f next g hpending hpass _ ih =>
      refine ⟨passes_succ_eq_ok_iff.2 ⟨next, hpass, ih.1⟩, fun j hj => ?_⟩
      cases j with
      | zero => exact ⟨f, rfl, hpending⟩
      | succ j =>
        obtain ⟨middle, hmiddle, hleft⟩ := ih.2 j (by omega)
        exact ⟨middle, passes_succ_eq_ok_iff.2 ⟨next, hpass, hmiddle⟩, hleft⟩
  · rintro ⟨hpasses, hbefore⟩
    induction k generalizing f with
    | zero =>
      cases hpasses
      exact .refl _
    | succ k ih =>
      obtain ⟨next, hpass, hrest⟩ := passes_succ_eq_ok_iff.1 hpasses
      obtain ⟨first, hfirst, hpending⟩ := hbefore 0 (by omega)
      cases hfirst
      refine .step hpending hpass (ih hrest fun j hj => ?_)
      obtain ⟨middle, hmiddle, hleft⟩ := hbefore (j + 1) (by omega)
      obtain ⟨next', hpass', hlater⟩ := passes_succ_eq_ok_iff.1 hmiddle
      cases hpass.symm.trans hpass'
      exact ⟨middle, hlater, hleft⟩

/-! ## The end of a run -/

/-- How a run of at most `limit` passes ends after `k` of them, which gave `g`, and its result. -/
inductive StopsAt (s : Scope) (p : Position) (limit k : Nat) (g : Formula) :
    Except FormulaError Formula → Prop
  | resolved (hk : k < limit) (hdone : s.pending g = []) : StopsAt s p limit k g (.ok g)
  | failed {e : FormulaError} (hk : k < limit) (hpending : s.pending g ≠ [])
    (hpass : s.pass p g = .error e) : StopsAt s p limit k g (.error e)
  | stalled {next : Formula} (hk : k < limit) (hpending : s.pending g ≠ [])
    (hpass : s.pass p g = .ok next) (hsame : next.same g = true) :
    StopsAt s p limit k g (.error (.didNotConverge (s.pending g)))
  | usedUp (hk : k = limit) : StopsAt s p limit k g (.error (.didNotConverge (s.pending g)))

theorem StopsAt.succ {result : Except FormulaError Formula} (h : StopsAt s p limit k g result) :
    StopsAt s p (limit + 1) (k + 1) g result := by
  cases h with
  | resolved hk hdone => exact .resolved (by omega) hdone
  | failed hk hpending hpass => exact .failed (by omega) hpending hpass
  | stalled hk hpending hpass hsame => exact .stalled (by omega) hpending hpass hsame
  | usedUp hk => exact .usedUp (by omega)

theorem resolveWithin_of_done (hdone : s.pending f = []) :
    s.resolveWithin p (limit + 1) f = .ok f := by
  rw [resolveWithin, hdone]

theorem resolveWithin_of_error {e : FormulaError} (hpending : s.pending f ≠ [])
    (hpass : s.pass p f = .error e) : s.resolveWithin p (limit + 1) f = .error e := by
  rw [resolveWithin]
  split
  next hdone => exact absurd hdone hpending
  next => rw [hpass]

theorem resolveWithin_of_step {next : Formula} (hpending : s.pending f ≠ [])
    (hpass : s.pass p f = .ok next) (hchanged : next.same f = false) :
    s.resolveWithin p (limit + 1) f = s.resolveWithin p limit next := by
  rw [resolveWithin]
  split
  next hdone => exact absurd hdone hpending
  next =>
    rw [hpass]
    dsimp only
    rw [if_neg (by simp [hchanged])]

/-- Every run goes on while there is something to replace, and then ends in one of the four
ways. -/
theorem resolveWithin_stops (limit : Nat) (f : Formula) :
    ∃ k g, s.Reaches p k f g ∧ StopsAt s p limit k g (s.resolveWithin p limit f) := by
  induction limit generalizing f with
  | zero => exact ⟨0, f, .refl f, .usedUp rfl⟩
  | succ limit ih =>
    by_cases hdone : s.pending f = []
    · rw [resolveWithin_of_done hdone]
      exact ⟨0, f, .refl f, .resolved (by omega) hdone⟩
    cases hpass : s.pass p f with
    | error e =>
      rw [resolveWithin_of_error hdone hpass]
      exact ⟨0, f, .refl f, .failed (by omega) hdone hpass⟩
    | ok next =>
      by_cases hsame : next.same f = true
      · refine ⟨0, f, .refl f, ?_⟩
        rw [resolveWithin]
        split
        next hnone => exact absurd hnone hdone
        next =>
          rw [hpass]
          dsimp only
          rw [if_pos hsame]
          exact .stalled (by omega) hdone hpass hsame
      · obtain ⟨k, g, hreaches, hstops⟩ := ih next
        rw [resolveWithin_of_step hdone hpass (by simpa using hsame)]
        exact ⟨k + 1, g, .step hdone hpass hreaches, hstops.succ⟩

/-- A formula that passes resolve is never given up before: no pass on the way changes nothing. -/
theorem Reaches.same_eq_false {next : Formula} (hrest : s.Reaches p k next g)
    (hdone : s.pending g = []) (hpending : s.pending f ≠ []) (hpass : s.pass p f = .ok next) :
    next.same f = false := by
  apply Bool.eq_false_iff.2
  intro hsame
  obtain ⟨g', hg', hstuck⟩ := passes_of_stalled hpass hsame (k + 1)
  have hg : s.passes p (k + 1) f = .ok g :=
    passes_succ_eq_ok_iff.2 ⟨next, hpass, (reaches_iff.1 hrest).1⟩
  cases hg.symm.trans hg'
  exact hpending (hstuck.symm.trans hdone)

/-- A formula that so many passes resolve is resolved by a run that is allowed more of them; a run
that is allowed just as many gives up without having anything to name. -/
theorem Reaches.resolveWithin (h : s.Reaches p k f g) (hdone : s.pending g = [])
    (hk : k ≤ limit) :
    s.resolveWithin p limit f = if k < limit then .ok g else .error (.didNotConverge []) := by
  induction h generalizing limit with
  | refl f =>
    cases limit with
    | zero => rw [Scope.resolveWithin, hdone, if_neg (by omega)]
    | succ limit => rw [resolveWithin_of_done hdone, if_pos (by omega)]
  | @step k f next g hpending hpass hrest ih =>
    obtain ⟨limit, rfl⟩ : ∃ smaller, limit = smaller + 1 := ⟨limit - 1, by omega⟩
    have hchanged := hrest.same_eq_false hdone hpending hpass
    rw [resolveWithin_of_step hpending hpass hchanged, ih hdone (by omega)]
    by_cases hlimit : k < limit
    · rw [if_pos hlimit, if_pos (by omega)]
    · rw [if_neg hlimit, if_neg (by omega)]

/-- A formula on which passes come to fail is not given up before either. -/
theorem Reaches.resolveWithin_error {e : FormulaError} (h : s.Reaches p k f g)
    (hpending : s.pending g ≠ []) (herror : s.pass p g = .error e) (hk : k < limit) :
    s.resolveWithin p limit f = .error e := by
  obtain ⟨limit, rfl⟩ : ∃ smaller, limit = smaller + 1 := ⟨limit - 1, by omega⟩
  induction h generalizing limit with
  | refl f => exact resolveWithin_of_error hpending herror
  | @step k f next g hfirst hpass hrest ih =>
    have hchanged : next.same f = false := by
      apply Bool.eq_false_iff.2
      intro hsame
      -- passes that change nothing never fail
      obtain ⟨last, hlast, _⟩ := passes_of_stalled hpass hsame (k + 1 + 1)
      obtain ⟨middle, hmiddle, hfailed⟩ := passes_add_eq_ok_iff.1 hlast
      cases (reaches_iff.1 (.step hfirst hpass hrest)).1.symm.trans hmiddle
      obtain ⟨_, hok, _⟩ := passes_succ_eq_ok_iff.1 hfailed
      cases herror.symm.trans hok
    rw [resolveWithin_of_step hfirst hpass hchanged]
    obtain ⟨limit, rfl⟩ : ∃ smaller, limit = smaller + 1 := ⟨limit - 1, by omega⟩
    exact ih hpending herror limit (by omega)

theorem resolveWithin_eq_ok_iff :
    s.resolveWithin p limit f = .ok g ↔
      ∃ k < limit, s.Reaches p k f g ∧ s.pending g = [] := by
  constructor
  · intro h
    obtain ⟨k, g', hreaches, hstops⟩ := s.resolveWithin_stops (p := p) limit f
    rw [h] at hstops
    cases hstops with
    | resolved hk hdone => exact ⟨k, hk, hreaches, hdone⟩
  · rintro ⟨k, hk, hreaches, hdone⟩
    rw [hreaches.resolveWithin hdone (by omega), if_pos hk]

/-! ## Runs that do not converge -/

/-- A run that does not converge names what its last formula asks for. It names nothing exactly if
all the passes that it may make, and no fewer, resolve the formula. -/
theorem resolve_didNotConverge (s : Scope) (p : Position) (f : Formula) :
    (∀ ids, s.resolve p f = .error (.didNotConverge ids) →
      ∃ k ≤ maxPasses, ∃ g, s.Reaches p k f g ∧ ids = s.pending g) ∧
    (s.resolve p f = .error (.didNotConverge []) ↔
      ∃ g, s.Reaches p maxPasses f g ∧ s.pending g = []) := by
  obtain ⟨k, g, hreaches, hstops⟩ := s.resolveWithin_stops (p := p) maxPasses f
  refine ⟨fun ids h => ?_, fun h => ?_, fun ⟨last, hlast, hdone⟩ => ?_⟩
  · rw [← resolve, h] at hstops
    cases hstops with
    | failed _ _ hpass => exact absurd rfl (pass_error hpass ids)
    | stalled hk _ _ _ => exact ⟨k, by omega, g, hreaches, rfl⟩
    | usedUp hk => exact ⟨k, by omega, g, hreaches, rfl⟩
  · rw [← resolve, h] at hstops
    generalize hresult : Except.error (FormulaError.didNotConverge []) = result at hstops
    cases hstops with
    | resolved _ _ => cases hresult
    | failed _ _ hpass =>
      cases hresult
      exact absurd rfl (pass_error hpass [])
    | stalled _ hpending _ _ =>
      simp only [Except.error.injEq, FormulaError.didNotConverge.injEq] at hresult
      exact absurd hresult.symm hpending
    | usedUp hk =>
      simp only [Except.error.injEq, FormulaError.didNotConverge.injEq] at hresult
      exact ⟨g, hk ▸ hreaches, hresult.symm⟩
  · rw [resolve, hlast.resolveWithin hdone (by omega), if_neg (by omega)]

/-! ## A formula that is given up too early -/

/-- So many calls of a function, each around the next, and a formula inside. -/
def nested (id : String) : Nat → Formula → Formula
  | 0, f => f
  | count + 1, f => .call .named id [nested id count f]

/-- `once(x)` is its argument, and `often(x)` has fifteen calls of `once` around it. -/
def idleCalls : Scope :=
  { functions := .ofList [
      ("once", { id := "once", formals := ["x"], body := .name "x" }),
      ("often", { id := "often", formals := ["x"], body := nested "once" 15 (.name "x") })] }

theorem substitute_nested (σ : String → Option Formula) (id : String) (count : Nat)
    (f : Formula) : (nested id count f).substitute σ = nested id count (f.substitute σ) := by
  induction count with
  | zero => rfl
  | succ count ih => rw [nested, Formula.substitute, Formula.substituteAll_eq, List.map_singleton, ih,
      nested]

theorem pending_call_ne_nil {form : CallForm} {id : String} {arguments : List Formula}
    (h : s.isFunction id = true) : s.pending (.call form id arguments) ≠ [] := by
  simp [pending, Formula.nodes, h]

theorem reaches_once (count : Nat) (f : Formula) :
    idleCalls.Reaches p count (nested "once" count f) f := by
  induction count with
  | zero => exact .refl f
  | succ count ih =>
    refine .step (pending_call_ne_nil rfl) ?_ ih
    rw [nested, pass_defined rfl, apply_eq_ok_iff]
    exact ⟨rfl, rfl⟩

/-- A call of `often` is gone after sixteen passes, the first of which puts in its body. -/
theorem reaches_often (count : Nat) (f : Formula) :
    idleCalls.Reaches p (16 * count) (nested "often" count f) f := by
  induction count with
  | zero => exact .refl f
  | succ count ih =>
    have hinline : idleCalls.pass p (nested "often" (count + 1) f) =
        .ok (nested "once" 15 (nested "often" count f)) := by
      rw [nested, pass_defined rfl, apply_eq_ok_iff]
      refine ⟨rfl, ?_⟩
      rw [Function.inline, substitute_nested]
      rfl
    have hcall : idleCalls.Reaches p 16 (nested "often" (count + 1) f) (nested "often" count f) :=
      .step (pending_call_ne_nil rfl) hinline (reaches_once 15 _)
    have htwice := hcall.trans ih
    rwa [show 16 + 16 * count = 16 * (count + 1) by omega] at htwice

/-- Sixteen calls of `often` around a number need all 256 passes. What they leave has nothing in it
to replace, and yet the formula is given up, with nothing named. -/
theorem resolve_nested_often :
    idleCalls.passes {} maxPasses (nested "often" 16 (.number (.ofNat 1))) =
        .ok (.number (.ofNat 1)) ∧
      idleCalls.pending (.number (.ofNat 1)) = [] ∧
      idleCalls.resolve {} (nested "often" 16 (.number (.ofNat 1))) =
        .error (.didNotConverge []) := by
  have hreaches : idleCalls.Reaches {} maxPasses (nested "often" 16 (.number (.ofNat 1)))
      (.number (.ofNat 1)) := reaches_often 16 _
  refine ⟨(reaches_iff.1 hreaches).1, rfl, ?_⟩
  rw [resolve, hreaches.resolveWithin rfl (by omega), if_neg (by omega)]

end Spreadsheet.Scope

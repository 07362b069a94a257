import Spreadsheet.Proofs.ResolutionRuns
import Spreadsheet.Proofs.WrittenOutRows
import Spreadsheet.Sheet.Session

/-!
The phases of a sheet. Main statement: in whatever order the steps of a session are asked for and
however often, each succeeds only in its phase, one that fails leaves everything as it was, except
that resolving keeps the cells before the one it failed at, and a session that comes to its end
has the sheet that expanding, binding and resolving once gives.
-/
namespace Spreadsheet

/-! ## Resolving up to a failure -/

namespace Scope

variable {s : Scope} {p : Position} {f g : Formula}

/-- A resolved formula is resolved as it stands. -/
theorem resolve_resolved (h : s.resolve p f = .ok g) : s.resolve p g = .ok g := by
  obtain ⟨_, _, _, hdone⟩ := resolveWithin_eq_ok_iff.1 h
  exact resolveWithin_of_done hdone

end Scope

namespace Sheet

variable {filename : String} {s : Scope}

/-- What happened to a sheet on which resolving failed: there is a cell that cannot be resolved, the
cells before it, row by row, are resolved, and that is all. -/
def StoppedAtCell (s : Scope) (t t' : Sheet) (e : CompileError) : Prop :=
  ∃ above row below before cell after above' before' f error,
    t.rows = above ++ row :: below ∧ row.cells = before ++ cell :: after ∧
    cell.formula = some f ∧ s.resolve cell.position f = .error error ∧
    e = .cell { filename := t.filename, line := cell.line, row := cell.row,
                column := cell.column } error ∧
    above.Forall₂ (Row.ResolvesTo s) above' ∧ before.Forall₂ (Cell.ResolvesTo s) before' ∧
    t' = { t with rows := above' ++ { row with cells := before' ++ cell :: after } :: below }

theorem settles_attemptCell (filename : String) (s : Scope) :
    Settles (attemptCell filename s) := by
  intro cell
  unfold attemptCell
  cases hcell : resolveCell filename s cell with
  | error e =>
    dsimp only
    rw [hcell]
  | ok cell' =>
    dsimp only
    have hagain : resolveCell filename s cell' = .ok cell' := by
      rcases resolvesTo_resolveCell hcell with ⟨hnone, rfl⟩ | ⟨f, g, -, hg, rfl⟩
      · exact hcell
      · -- a new formula does not move the cell, so that it is resolved from where it was
        have hresolved : s.resolve (Cell.position { cell with formula := some g }) g = .ok g :=
          Scope.resolve_resolved hg
        simp only [resolveCell, hresolved]
    rw [hagain]

theorem settles_attemptRow (filename : String) (s : Scope) : Settles (attemptRow filename s) := by
  intro row
  have hcells := settles_mapUntilError (settles_attemptCell filename s) row.cells
  simp only [attemptRow, hcells]

/-- Resolving either goes through or stops at a cell. -/
theorem stoppedAtCell_of_resolve {t t' : Sheet} {e : CompileError} (hphase : t.phase = .bound)
    (h : t.resolve s = (t', some e)) : StoppedAtCell s t t' e := by
  have hrequire : t.requirePhase .bound "resolve" = .ok () := by
    rw [requirePhase, if_pos hphase]
  unfold Sheet.resolve at h
  rw [hrequire] at h
  dsimp only at h
  split at h
  next rows e' hrows =>
    cases h
    obtain ⟨above, row, below, above', row', habove, hrow, rfl, hdone⟩ :=
      exists_of_mapUntilError_failure hrows
    cases hcells : mapUntilError (attemptCell t.filename s) row.cells with
    | mk cells failure =>
      simp only [attemptRow, hcells, Prod.mk.injEq] at hrow
      obtain ⟨rfl, rfl⟩ := hrow
      obtain ⟨before, cell, after, before', cell', hbefore, hcell, rfl, hdone'⟩ :=
        exists_of_mapUntilError_failure hcells
      obtain ⟨rfl, f, error, hf, hresolve, rfl⟩ := failure_attemptCell hcell
      exact ⟨above, row, below, before, cell', after, above', before', f, error, habove, hbefore,
        hf, hresolve, rfl, hdone.imp fun _ _ => resolvesTo_attemptRow,
        hdone'.imp fun _ _ => resolvesTo_attemptCell, rfl⟩
  next => cases h

/-- Resolving again after a failure fails in the same way and changes nothing more. -/
theorem resolve_again {t t' : Sheet} {e : CompileError} (h : t.resolve s = (t', some e)) :
    t'.resolve s = (t', some e) := by
  unfold Sheet.resolve at h
  split at h
  next hrequire =>
    cases h
    rw [Sheet.resolve, hrequire]
  next hrequire =>
    split at h
    next rows e' hrows =>
      cases h
      have hagain := settles_mapUntilError (settles_attemptRow t.filename s) t.rows
      rw [hrows] at hagain
      have hrequire' : ({ t with rows := rows } : Sheet).requirePhase .bound "resolve" = .ok () :=
        hrequire
      rw [Sheet.resolve, hrequire']
      dsimp only
      rw [hagain]
    next => cases h

/-! ## The phase that a step asks for -/

theorem requirePhase_iff {t : Sheet} {phase : Phase} (action : String) :
    t.requirePhase phase action = .ok () ↔ t.phase = phase := by
  unfold requirePhase
  split <;> simp [*]

theorem checkUnbounded_iff {t : Sheet} :
    t.checkUnbounded = .ok () ↔ (t.rows.filter Row.isUnbounded).length ≤ 1 := by
  unfold checkUnbounded
  split
  next first second more hmore =>
    rw [hmore]
    simp
  next hfew =>
    refine ⟨fun _ => ?_, fun _ => rfl⟩
    cases hrows : t.rows.filter Row.isUnbounded with
    | nil => simp
    | cons first rest =>
      cases rest with
      | nil => simp
      | cons second more => exact absurd hrows (hfew first second more)

theorem expand_iff {t : Sheet} :
    (∃ t', t.expand = .ok t') ↔
      t.phase = .parsed ∧ (t.rows.filter Row.isUnbounded).length ≤ 1 := by
  constructor
  · rintro ⟨t', h⟩
    unfold Sheet.expand at h
    split at h
    next => cases h
    next hrequire =>
      split at h
      next => cases h
      next hcheck => exact ⟨(requirePhase_iff _).1 hrequire, checkUnbounded_iff.1 hcheck⟩
  · exact fun ⟨hphase, hunbounded⟩ => ⟨_, expand_of_unbounded hphase hunbounded⟩

theorem bind_iff {t : Sheet} : (∃ bound, t.bind s = .ok bound) ↔ t.phase = .expanded := by
  unfold Sheet.bind
  rw [← requirePhase_iff "bind variables of"]
  cases t.requirePhase .expanded "bind variables of" with
  | error e => simp
  | ok => simp

theorem phase_of_resolve {t t' : Sheet} (h : t.resolve s = (t', none)) : t.phase = .bound := by
  unfold Sheet.resolve at h
  split at h
  next => cases h
  next hrequire => exact (requirePhase_iff _).1 hrequire

theorem resolve_of_phase {t : Sheet} (hphase : t.phase ≠ .bound) :
    ∃ e, t.resolve s = (t, some e) := by
  have hrequire : ¬t.requirePhase .bound "resolve" = .ok () :=
    fun hok => hphase ((requirePhase_iff _).1 hok)
  unfold Sheet.resolve
  cases herror : t.requirePhase .bound "resolve" with
  | error e => exact ⟨e, rfl⟩
  | ok => exact absurd herror hrequire

theorem phase_bind {t t' : Sheet} {s' : Scope} (h : t.bind s = .ok (t', s')) :
    t'.phase = .bound := by
  unfold Sheet.bind at h
  split at h
  next => cases h
  next =>
    cases h
    rfl

theorem phase_resolve {t t' : Sheet} (h : t.resolve s = (t', none)) : t'.phase = .resolved := by
  unfold Sheet.resolve at h
  split at h
  next => cases h
  next =>
    split at h
    next => cases h
    next =>
      cases h
      rfl

theorem phase_resolve_failure {t t' : Sheet} {e : CompileError}
    (h : t.resolve s = (t', some e)) : t'.phase = t.phase := by
  unfold Sheet.resolve at h
  split at h
  next =>
    cases h
    rfl
  next =>
    split at h
    next =>
      cases h
      rfl
    next => cases h

theorem renderCsv_iff {t : Sheet} {options : Options} :
    (∃ text, t.renderCsv options = .ok text) ↔ t.phase = .resolved := by
  unfold renderCsv
  split <;> simp [*]

end Sheet

/-! ## Sessions -/

namespace Session

variable {options : Options} {session session' : Session} {t : Sheet} {s : Scope}

/-- The session after the steps, whether they succeed or not. -/
def run (options : Options) (session : Session) (steps : List Step) : Session :=
  steps.foldl (fun session step => (session.take options step).1) session

def Succeeds (options : Options) (session : Session) (step : Step) : Prop :=
  ∃ given, (session.take options step).2 = .ok given

/-- How the steps fit the phase of a session, and what one that fails leaves behind. -/
structure Safe (options : Options) (session : Session) : Prop where
  expand : session.Succeeds options .expand ↔
    session.sheet.phase = .parsed ∧ (session.sheet.rows.filter Row.isUnbounded).length ≤ 1
  bind : session.Succeeds options .bind ↔ session.sheet.phase = .expanded
  resolve : session.Succeeds options .resolve → session.sheet.phase = .bound
  render : session.Succeeds options .render ↔ session.sheet.phase = .resolved
  unchanged : ∀ step session' e, session.take options step = (session', .error e) →
    ¬(step = .resolve ∧ session.sheet.phase = .bound) → session' = session
  stopped : ∀ session' e, session.take options .resolve = (session', .error e) →
    session.sheet.phase = .bound →
      session'.scope = session.scope ∧
      Sheet.StoppedAtCell session.scope session.sheet session'.sheet e ∧
      session'.take options .resolve = (session', .error e)

theorem succeeds_expand :
    session.Succeeds options .expand ↔ ∃ sheet, session.sheet.expand = .ok sheet := by
  unfold Succeeds take
  cases session.sheet.expand <;> simp

theorem succeeds_bind :
    session.Succeeds options .bind ↔ ∃ bound, session.sheet.bind session.scope = .ok bound := by
  unfold Succeeds take
  cases session.sheet.bind session.scope <;> simp

theorem succeeds_render :
    session.Succeeds options .render ↔ ∃ text, session.sheet.renderCsv options = .ok text := by
  unfold Succeeds take
  cases session.sheet.renderCsv options <;> simp

theorem take_resolve_failure {e : CompileError} :
    session.take options .resolve = (session', .error e) ↔
      session'.scope = session.scope ∧
        session.sheet.resolve session.scope = (session'.sheet, some e) := by
  unfold take
  cases session.sheet.resolve session.scope with
  | mk sheet failure =>
    cases failure with
    | none => simp
    | some e' =>
      constructor
      · intro h
        cases h
        exact ⟨rfl, rfl⟩
      · rintro ⟨hscope, hsheet⟩
        cases hsheet
        rw [← hscope]

theorem phase_of_succeeds_resolve (h : session.Succeeds options .resolve) :
    session.sheet.phase = .bound := by
  obtain ⟨given, hgiven⟩ := h
  unfold take at hgiven
  cases hresolve : session.sheet.resolve session.scope with
  | mk sheet failure =>
    cases failure with
    | none => exact Sheet.phase_of_resolve hresolve
    | some e =>
      rw [hresolve] at hgiven
      cases hgiven

/-- Only resolving changes anything when it fails. -/
theorem eq_of_failure {step : Step} {e : CompileError}
    (h : session.take options step = (session', .error e)) (hstep : step ≠ .resolve) :
    session' = session := by
  cases step with
  | resolve => exact absurd rfl hstep
  | validate | expand | bind | render =>
    unfold take at h
    dsimp only at h
    split at h
    next => cases h
    next =>
      cases h
      rfl

theorem safe (options : Options) (session : Session) : session.Safe options where
  expand := succeeds_expand.trans Sheet.expand_iff
  bind := succeeds_bind.trans Sheet.bind_iff
  resolve := phase_of_succeeds_resolve
  render := succeeds_render.trans Sheet.renderCsv_iff
  unchanged := by
    intro step session' e h hstep
    by_cases hresolve : step = .resolve
    · subst hresolve
      -- in the wrong phase, resolving is refused before it touches the sheet
      obtain ⟨hscope, hsheet⟩ := take_resolve_failure.1 h
      obtain ⟨e', hsame⟩ := Sheet.resolve_of_phase (s := session.scope) fun hphase =>
        hstep ⟨rfl, hphase⟩
      rw [hsame] at hsheet
      cases session
      cases session'
      cases hsheet
      cases hscope
      rfl
    · exact eq_of_failure h hresolve
  stopped := by
    intro session' e h hphase
    obtain ⟨hscope, hsheet⟩ := take_resolve_failure.1 h
    refine ⟨hscope, Sheet.stoppedAtCell_of_resolve hphase hsheet, ?_⟩
    rw [take_resolve_failure, hscope]
    exact ⟨rfl, Sheet.resolve_again hsheet⟩

/-! ## Runs -/

/-- All that a step can do to a session: nothing, or one of the three steps of its sheet. -/
theorem take_cases (options : Options) (session : Session) (step : Step) :
    (session.take options step).1 = session ∨
      (∃ sheet, session.sheet.expand = .ok sheet ∧
        (session.take options step).1 = ⟨sheet, session.scope⟩) ∨
      (∃ sheet scope, session.sheet.bind session.scope = .ok (sheet, scope) ∧
        (session.take options step).1 = ⟨sheet, scope⟩) ∨
      ∃ sheet failure, session.sheet.resolve session.scope = (sheet, failure) ∧
        (session.take options step).1 = ⟨sheet, session.scope⟩ := by
  cases step with
  | validate | render =>
    left
    unfold take
    dsimp only
    split <;> rfl
  | expand =>
    unfold take
    cases hexpand : session.sheet.expand with
    | error e => exact .inl rfl
    | ok sheet => exact .inr (.inl ⟨sheet, rfl, rfl⟩)
  | bind =>
    unfold take
    cases hbind : session.sheet.bind session.scope with
    | error e => exact .inl rfl
    | ok bound => exact .inr (.inr (.inl ⟨bound.1, bound.2, rfl, rfl⟩))
  | resolve =>
    unfold take
    cases hresolve : session.sheet.resolve session.scope with
    | mk sheet failure =>
      refine .inr (.inr (.inr ⟨sheet, failure, rfl, ?_⟩))
      cases failure <;> rfl

/-- The sessions that can be reached from a sheet and a scope, by their phase. A bound sheet may be
one on which resolving has stopped. -/
inductive Reached (t : Sheet) (s : Scope) : Phase → Session → Prop
  | parsed : Reached t s .parsed ⟨t, s⟩
  | expanded {t₁ : Sheet} (hexpand : t.expand = .ok t₁) : Reached t s .expanded ⟨t₁, s⟩
  | bound {t₁ t₂ : Sheet} {s' : Scope} (hexpand : t.expand = .ok t₁)
    (hbind : t₁.bind s = .ok (t₂, s')) : Reached t s .bound ⟨t₂, s'⟩
  | stopped {t₁ t₂ t₃ : Sheet} {s' : Scope} {e : CompileError} (hexpand : t.expand = .ok t₁)
    (hbind : t₁.bind s = .ok (t₂, s')) (hresolve : t₂.resolve s' = (t₃, some e)) :
    Reached t s .bound ⟨t₃, s'⟩
  | resolved {t₁ t₂ t₃ : Sheet} {s' : Scope} (hexpand : t.expand = .ok t₁)
    (hbind : t₁.bind s = .ok (t₂, s')) (hresolve : t₂.resolve s' = (t₃, none)) :
    Reached t s .resolved ⟨t₃, s'⟩

theorem Reached.sheet_phase {phase : Phase} (ht : t.phase = .parsed)
    (h : Reached t s phase session) : session.sheet.phase = phase := by
  cases h with
  | parsed => exact ht
  | expanded hexpand => rw [Sheet.eq_of_expand hexpand]
  | bound hexpand hbind => exact Sheet.phase_bind hbind
  | stopped hexpand hbind hresolve =>
    exact (Sheet.phase_resolve_failure hresolve).trans (Sheet.phase_bind hbind)
  | resolved hexpand hbind hresolve => exact Sheet.phase_resolve hresolve

/-- What one step keeps. -/
theorem Reached.take (ht : t.phase = .parsed) {phase : Phase} (h : Reached t s phase session)
    (options : Options) (step : Step) :
    ∃ phase', Reached t s phase' (session.take options step).1 := by
  have hphase : session.sheet.phase = phase := h.sheet_phase ht
  rcases take_cases options session step with heq | ⟨sheet, hexpand, heq⟩ |
    ⟨sheet, scope, hbind, heq⟩ | ⟨sheet, failure, hresolve, heq⟩
  · rw [heq]
    exact ⟨phase, h⟩
  · rw [heq]
    obtain ⟨hparsed, -⟩ := Sheet.expand_iff.1 ⟨sheet, hexpand⟩
    rw [hphase] at hparsed
    subst hparsed
    cases h
    exact ⟨_, .expanded hexpand⟩
  · rw [heq]
    have hexpanded := Sheet.bind_iff.1 ⟨(sheet, scope), hbind⟩
    rw [hphase] at hexpanded
    subst hexpanded
    cases h with
    | expanded hexpand => exact ⟨_, .bound hexpand hbind⟩
  · rw [heq]
    by_cases hbound : session.sheet.phase = .bound
    · rw [hphase] at hbound
      subst hbound
      cases h with
      | bound hexpand hbind =>
        cases failure with
        | none => exact ⟨_, .resolved hexpand hbind hresolve⟩
        | some e => exact ⟨_, .stopped hexpand hbind hresolve⟩
      | stopped hexpand hbind hstopped =>
        -- resolving goes no further the second time
        rw [Sheet.resolve_again hstopped] at hresolve
        cases hresolve
        exact ⟨_, .stopped hexpand hbind hstopped⟩
    · obtain ⟨e, hsame⟩ := Sheet.resolve_of_phase (s := session.scope) hbound
      rw [hsame] at hresolve
      cases hresolve
      exact ⟨phase, h⟩

theorem Reached.run (ht : t.phase = .parsed) {phase : Phase} (h : Reached t s phase session)
    (options : Options) (steps : List Step) :
    ∃ phase', Reached t s phase' (session.run options steps) := by
  induction steps generalizing session phase with
  | nil => exact ⟨phase, h⟩
  | cons step rest ih =>
    obtain ⟨phase', hstep⟩ := h.take ht options step
    exact ih hstep

/-- A session that is resolved has the sheet that finishing it at once gives. -/
theorem Reached.finish (h : Reached t s .resolved session) : t.finish s = .ok session.sheet := by
  cases h with
  | resolved hexpand hbind hresolve =>
    simp only [Sheet.finish, hexpand, hbind, hresolve]

/-- Steps in any order are safe, and those that come to a resolved sheet come to the sheet, and so
to the rows and the text, that expanding, binding and resolving once give. -/
theorem run_safe {t : Sheet} (ht : t.phase = .parsed) (s : Scope) (options : Options)
    (steps : List Step) :
    (run options ⟨t, s⟩ steps).Safe options ∧
      ((run options ⟨t, s⟩ steps).sheet.phase = .resolved →
        t.finish s = .ok (run options ⟨t, s⟩ steps).sheet) := by
  refine ⟨safe options _, fun hresolved => ?_⟩
  obtain ⟨phase, hreached⟩ := Reached.run ht (.parsed (t := t) (s := s)) options steps
  rw [hreached.sheet_phase ht] at hresolved
  subst hresolved
  exact hreached.finish

/-- A row that binds `x` and sums it, and sums another variable. -/
def twoSums (other : String) : Sheet :=
  { filename := "sums.csvpp", rowOffset := 0, rows :=
    [{ index := 0, line := 1, modifier := {}, cells :=
        [{ column := 0, row := 0, line := 1, value := "1", modifier := { boundName := some "x" },
           formula := none },
         { column := 1, row := 0, line := 1, value := "", modifier := {},
           formula := some (.call .named "sum" [.name "x"]) },
         { column := 2, row := 0, line := 1, value := "", modifier := {},
           formula := some (.call .named "sum" [.name other]) }] }] }

/-- Six steps, of which the first and the third come too early. -/
def sixSteps : List Step :=
  [.render, .expand, .resolve, .bind, .validate, .resolve]

theorem run_safe_twoSums :
    (twoSums "x").phase = .parsed ∧
    (run {} ⟨twoSums "x", {}⟩ sixSteps).sheet.phase = .resolved ∧
    (twoSums "x").finish {} = .ok (run {} ⟨twoSums "x", {}⟩ sixSteps).sheet ∧
    ∃ session e, (run {} ⟨twoSums "y", {}⟩ sixSteps).take {} .resolve = (session, .error e) ∧
      Sheet.StoppedAtCell session.scope (run {} ⟨twoSums "y", {}⟩ sixSteps).sheet session.sheet e ∧
      session.take {} .resolve = (session, .error e) := by
  have hresolved := (run_safe (t := twoSums "x") rfl {} {} sixSteps).2
  have hstopped := (run_safe (t := twoSums "y") rfl {} {} sixSteps).1.stopped
  refine ⟨rfl, rfl, hresolved rfl, ?_⟩
  obtain ⟨hscope, hcell, hagain⟩ := hstopped _ _ rfl rfl
  refine ⟨_, _, rfl, ?_, hagain⟩
  rw [hscope]
  exact hcell

end Session
end Spreadsheet

import Spreadsheet.Sheet.Render
import Spreadsheet.Sheet.Resolve

/-!
Sheets on their way to a CSV text. The steps may be asked for in any order; one that does not fit
the phase of the sheet is refused.
-/
namespace Spreadsheet

/-- A sheet and the scope in which its variables are bound. -/
structure Session where
  sheet : Sheet
  scope : Scope
deriving Inhabited

/-- What can be asked of a session. -/
inductive Step where
  | validate
  | expand
  | bind
  | resolve
  | render
deriving DecidableEq, Inhabited

namespace Session

/-- Takes a step: the session after it, and what it gives, which is a text where the sheet is
rendered. -/
def take (options : Options) (session : Session) :
    Step → Session × Except CompileError (Option String)
  | .validate =>
    match session.sheet.checkUnbounded with
    | .ok () => (session, .ok none)
    | .error e => (session, .error e)
  | .expand =>
    match session.sheet.expand with
    | .ok sheet => ({ session with sheet := sheet }, .ok none)
    | .error e => (session, .error e)
  | .bind =>
    match session.sheet.bind session.scope with
    | .ok (sheet, scope) => ({ sheet := sheet, scope := scope }, .ok none)
    | .error e => (session, .error e)
  | .resolve =>
    match session.sheet.resolve session.scope with
    | (sheet, none) => ({ session with sheet := sheet }, .ok none)
    | (sheet, some e) => ({ session with sheet := sheet }, .error e)
  | .render =>
    match session.sheet.renderCsv options with
    | .ok text => (session, .ok (some text))
    | .error e => (session, .error e)

end Session
end Spreadsheet

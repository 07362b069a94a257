import Spreadsheet.Sheet.Render
import Spreadsheet.Sheet.Resolve

/-!
Compiling a source file: its definitions become a scope, its sheet section a sheet, which is
expanded, bound and resolved.
-/
namespace Spreadsheet

namespace Source

/-- Adds the definition section to a scope. -/
def addDefinitions (source : Source) (s : Scope) : Except CompileError Scope :=
  match source.definitions with
  | none => .ok s
  | some text =>
    match Definitions.parse (String.ofList text) with
    | .ok definitions => .ok (s.addDefinitions definitions)
    | .error e =>
      .error (.definitionSection source.filename (Text.lineOf text e.offset) (.malformed e))

/-- The definitions of a file, resolved against each other. The variables of the options take the
place of those of the file before anything is resolved. -/
def buildScope (source : Source) (options : Options) : Except CompileError Scope :=
  match source.addDefinitions {} with
  | .error e => .error e
  | .ok s =>
    let s := options.keyValues.entries.foldl
      (fun s (id, value) => s.defineVariable id (.text value)) s
    match s.resolveVariables with
    | .ok s => .ok s
    | .error e => .error (.definitions source.filename e)

/-- Compiles a file. -/
def compile (source : Source) (options : Options) : Except CompileError Sheet :=
  match source.buildScope options with
  | .error e => .error e
  | .ok s =>
    match Sheet.read source options with
    | .error e => .error e
    | .ok sheet =>
      match sheet.expand with
      | .error e => .error e
      | .ok sheet =>
        match sheet.bind s with
        | .error e => .error e
        | .ok (sheet, s) =>
          match sheet.resolve s with
          | (_, some e) => .error e
          | (sheet, none) => .ok sheet

end Source
end Spreadsheet

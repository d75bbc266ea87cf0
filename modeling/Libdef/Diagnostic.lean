import Libdef.Text.Split

set_option autoImplicit false

namespace Libdef

inductive DiagnosticKind where
  | unsupportedKind
  | unresolvedExport
  | deepNamespace
  | droppedVariable
  | ignoredStatement
  deriving Repr, DecidableEq, Inhabited

namespace DiagnosticKind

def all : List DiagnosticKind :=
  [.unsupportedKind, .unresolvedExport, .deepNamespace, .droppedVariable, .ignoredStatement]

def name : DiagnosticKind → Text
  | .unsupportedKind => "unsupported_kind"
  | .unresolvedExport => "unresolved_export"
  | .deepNamespace => "deep_namespace"
  | .droppedVariable => "dropped_variable"
  | .ignoredStatement => "ignored_statement"

def ofName? (s : Text) : Option DiagnosticKind :=
  all.find? fun k => k.name == s

/-- The kinds that make the output poorer. -/
def isWarning : DiagnosticKind → Bool
  | .unsupportedKind | .deepNamespace => true
  | _ => false

end DiagnosticKind

structure Diagnostic where
  kind : DiagnosticKind
  subject : Option Text
  message : Text
  context : Option Text := none
  deriving Repr, DecidableEq, Inhabited

namespace Diagnostic

def subjectPart (d : Diagnostic) : Text :=
  match d.subject with
  | none => ""
  | some s => if s = "" then "" else "'" ++ s ++ "': "

def contextPart (d : Diagnostic) : Text :=
  match d.context with
  | none => ""
  | some s => if s = "" then "" else " [" ++ s ++ "]"

/-- An absent or empty subject or context is left out. -/
def format (d : Diagnostic) : Text :=
  d.kind.name ++ " - " ++ d.subjectPart ++ d.message ++ d.contextPart

end Diagnostic

structure Figures where
  total : Nat
  byKind : List (DiagnosticKind × Nat)
  warnings : Nat
  deriving Repr, DecidableEq, Inhabited

/-- The kinds are followed by an empty line. -/
def Figures.kindLines (f : Figures) : List Text :=
  if f.byKind.isEmpty then []
  else
    let entries := f.byKind.map fun entry =>
      ("  " : Text) ++ entry.1.name ++ ": " ++ toString entry.2
    "Diagnostics by kind:" :: (entries ++ [("" : Text)])

structure Log where
  records : List Diagnostic := []
  warnings : List Text := []
  deriving Repr, DecidableEq, Inhabited

namespace Log

def add (log : Log) (d : Diagnostic) : Log where
  records := log.records ++ [d]
  warnings := if d.kind.isWarning then log.warnings ++ [d.format] else log.warnings

def addAll (log : Log) (ds : List Diagnostic) : Log :=
  ds.foldl add log

theorem records_addAll (log : Log) (ds : List Diagnostic) :
    (log.addAll ds).records = log.records ++ ds := by
  induction ds generalizing log with
  | nil => simp [addAll]
  | cons d ds ih =>
    have h := ih (log.add d)
    simp only [addAll, List.foldl_cons] at h ⊢
    rw [h]
    simp [add]

def clear (_ : Log) : Log := {}

def count (log : Log) (kind : DiagnosticKind) : Nat :=
  log.records.countP fun d => d.kind == kind

def size (log : Log) : Nat := log.records.length

def warningCount (log : Log) : Nat := log.warnings.length

def hasWarnings (log : Log) : Bool := !log.warnings.isEmpty

def Kept (log : Log) : Prop :=
  log.warnings = (log.records.filter fun d => d.kind.isWarning).map Diagnostic.format

theorem Kept.add {log : Log} (h : log.Kept) (d : Diagnostic) : (log.add d).Kept := by
  rw [Kept] at h
  cases hd : d.kind.isWarning <;> simp [Kept, Log.add, hd, h]

theorem Kept.addAll {log : Log} (h : log.Kept) (ds : List Diagnostic) : (log.addAll ds).Kept := by
  induction ds generalizing log with
  | nil => exact h
  | cons d ds ih => exact ih (h.add d)

theorem Kept.warningCount_eq_countP {log : Log} (h : log.Kept) :
    log.warningCount = log.records.countP fun d => d.kind.isWarning := by
  rw [warningCount, h, List.length_map, List.countP_eq_length_filter]

/-- One more occurrence of a kind in a tally that keeps the order of first occurrences. -/
def tally (kind : DiagnosticKind) : List (DiagnosticKind × Nat) → List (DiagnosticKind × Nat)
  | [] => [(kind, 1)]
  | (k, n) :: rest => if k = kind then (k, n + 1) :: rest else (k, n) :: tally kind rest

def byKind (log : Log) : List (DiagnosticKind × Nat) :=
  log.records.foldl (fun counts d => tally d.kind counts) []

def figures (log : Log) : Figures := ⟨log.size, log.byKind, log.warningCount⟩

def warningLines (log : Log) : List Text :=
  if log.warnings.isEmpty then []
  else "Warning details:" :: log.warnings.map fun w => "  " ++ w

def summary (log : Log) : Text :=
  let title : List Text :=
    ["=== Conversion Diagnostics ===", "Total diagnostics: " ++ toString log.figures.total]
  let warnings : Text := "Warnings: " ++ toString log.figures.warnings
  Text.join "\n" (title ++ log.figures.kindLines ++ [warnings] ++ log.warningLines)

end Log
end Libdef

import Mathlib.Algebra.BigOperators.Group.List.Lemmas
import Mathlib.Algebra.GroupWithZero.Nat
import Mathlib.Data.List.DropRight
import Libdef.Diagnostic

set_option autoImplicit false

namespace Libdef

/-! Orders of first occurrence. -/

/-- The kinds are those that were seen, in the order in which they were seen first. -/
structure FirstSeen (kinds seen : List DiagnosticKind) : Prop where
  mem_iff (kind : DiagnosticKind) : kind ∈ kinds ↔ kind ∈ seen
  ordered : kinds.Pairwise fun j k => seen.idxOf j < seen.idxOf k

namespace FirstSeen

variable {kinds seen : List DiagnosticKind}

theorem nil : FirstSeen [] [] := ⟨fun _ => Iff.rfl, .nil⟩

theorem nodup (h : FirstSeen kinds seen) : kinds.Nodup :=
  h.ordered.imp fun hlt heq => Nat.ne_of_lt hlt (congrArg seen.idxOf heq)

theorem concat (h : FirstSeen kinds seen) (kind : DiagnosticKind) :
    FirstSeen (if kind ∈ kinds then kinds else kinds ++ [kind]) (seen ++ [kind]) := by
  have hplace {k : DiagnosticKind} (hk : k ∈ kinds) : (seen ++ [kind]).idxOf k = seen.idxOf k :=
    List.idxOf_append_of_mem ((h.mem_iff k).mp hk)
  have hordered : kinds.Pairwise fun j k => (seen ++ [kind]).idxOf j < (seen ++ [kind]).idxOf k :=
    h.ordered.imp_of_mem fun hj hk hlt => by rwa [hplace hj, hplace hk]
  split
  · rename_i hold
    refine ⟨fun k => ?_, hordered⟩
    have hseen := (h.mem_iff kind).mp hold
    simp only [h.mem_iff, List.mem_append, List.mem_singleton]
    exact ⟨.inl, fun hk => hk.elim id fun heq => heq ▸ hseen⟩
  · rename_i hnew
    refine ⟨fun k => by simp [h.mem_iff], List.pairwise_append.mpr
      ⟨hordered, List.pairwise_singleton _ _, fun j hj k hk => ?_⟩⟩
    -- The new kind comes after all that was seen before.
    rw [List.mem_singleton.mp hk, hplace hj,
      List.idxOf_append_of_notMem ((h.mem_iff kind).not.mp hnew)]
    exact Nat.lt_add_right _ (List.idxOf_lt_length_of_mem ((h.mem_iff j).mp hj))

end FirstSeen

theorem DiagnosticKind.line_feed_not_mem_name (kind : DiagnosticKind) :
    CodePoint.char '\n' ∉ kind.name.toList := by
  cases kind <;> decide

theorem Figures.line_feed_not_mem_kindLines (f : Figures) :
    ∀ line ∈ f.kindLines, CodePoint.char '\n' ∉ line.toList := by
  intro line hline
  rw [kindLines] at hline
  split at hline
  · cases hline
  · simp only [List.mem_cons, List.mem_append, List.mem_map, List.not_mem_nil, or_false] at hline
    obtain rfl | ⟨entry, -, rfl⟩ | rfl := hline
    · decide
    · simp only [Text.toList_append, List.mem_append, not_or]
      exact ⟨⟨⟨by decide, entry.1.line_feed_not_mem_name⟩, by decide⟩,
        Text.not_mem_numeral (by decide) entry.2⟩
    · decide

namespace Log

theorem tally_map {kinds : List DiagnosticKind} {count : DiagnosticKind → Nat}
    {kind : DiagnosticKind} (hnodup : kinds.Nodup) (hnew : kind ∉ kinds → count kind = 0) :
    tally kind (kinds.map fun k => (k, count k)) =
      (if kind ∈ kinds then kinds else kinds ++ [kind]).map fun k =>
        (k, count k + if kind = k then 1 else 0) := by
  induction kinds with
  | nil => simp [tally, hnew]
  | cons first rest ih =>
    obtain ⟨hfirst, hrest⟩ := List.nodup_cons.mp hnodup
    by_cases heq : first = kind
    · subst heq
      have hsame : rest.map (fun k => (k, count k + if first = k then 1 else 0)) =
          rest.map fun k => (k, count k) :=
        List.map_congr_left fun k hk => by simp [(ne_of_mem_of_not_mem hk hfirst).symm]
      simp [tally, hsame]
    · have htail := ih hrest fun hk => hnew (by simp [Ne.symm heq, hk])
      rw [List.map_cons, tally, if_neg heq, htail]
      by_cases hk : kind ∈ rest <;> simp [hk, Ne.symm heq]

theorem exists_byKind_eq (log : Log) : ∃ kinds, FirstSeen kinds (log.records.map Diagnostic.kind) ∧
    log.byKind = kinds.map fun kind => (kind, log.count kind) := by
  simp only [byKind, count]
  -- Along the records: the last one is entered in the tally of those before it.
  induction log.records using List.reverseRecOn with
  | nil => exact ⟨[], .nil, rfl⟩
  | append_singleton ds d ih =>
    obtain ⟨kinds, hseen, hcounts⟩ := ih
    have hnew (h : d.kind ∉ kinds) : (ds.countP fun e => e.kind == d.kind) = 0 := by
      rw [hseen.mem_iff, List.mem_map] at h
      exact List.countP_eq_zero.mpr fun e he => by simpa using fun heq => h ⟨e, he, heq⟩
    have hseen' : FirstSeen (if d.kind ∈ kinds then kinds else kinds ++ [d.kind])
        ((ds ++ [d]).map Diagnostic.kind) := by
      rw [List.map_append]
      exact hseen.concat d.kind
    refine ⟨_, hseen', ?_⟩
    rw [List.foldl_append, hcounts]
    refine (tally_map hseen.nodup hnew).trans (List.map_congr_left fun k _ => ?_)
    rw [List.countP_append, List.countP_singleton]
    simp only [beq_iff_eq]

theorem firstSeen_byKind (log : Log) :
    FirstSeen (log.byKind.map Prod.fst) (log.records.map Diagnostic.kind) := by
  obtain ⟨kinds, hseen, hcounts⟩ := log.exists_byKind_eq
  have hkinds : log.byKind.map Prod.fst = kinds := by
    rw [hcounts, List.map_map]
    exact List.map_id kinds
  exact hkinds ▸ hseen

theorem byKind_eq (log : Log) :
    log.byKind = (log.byKind.map Prod.fst).map fun kind => (kind, log.count kind) := by
  obtain ⟨kinds, -, hcounts⟩ := log.exists_byKind_eq
  rw [hcounts, List.map_map, List.map_map]
  rfl

/-- The counts of the kinds of some sort add up to the records of these kinds. -/
theorem sum_byKind (log : Log) (p : DiagnosticKind → Bool) :
    ((log.byKind.filter fun entry => p entry.1).map Prod.snd).sum =
      log.records.countP fun d => p d.kind := by
  have hseen := log.firstSeen_byKind
  have hperm : (log.byKind.map Prod.fst).Perm (log.records.map Diagnostic.kind).dedup :=
    (List.perm_ext_iff_of_nodup hseen.nodup (List.nodup_dedup _)).mpr fun kind => by
      rw [hseen.mem_iff, List.mem_dedup]
  have hcount : log.count = fun kind => (log.records.map Diagnostic.kind).count kind := by
    funext kind
    rw [count, List.count, List.countP_map]
    rfl
  calc ((log.byKind.filter fun entry => p entry.1).map Prod.snd).sum
    _ = (((log.byKind.map Prod.fst).filter p).map log.count).sum := by
      conv_lhs => rw [log.byKind_eq, List.filter_map, List.map_map]
      rfl
    _ = (((log.records.map Diagnostic.kind).dedup.filter p).map log.count).sum :=
      ((hperm.filter p).map log.count).sum_eq
    _ = (log.records.map Diagnostic.kind).countP p := by
      rw [hcount, List.sum_map_count_dedup_filter_eq_countP]
    _ = log.records.countP fun d => p d.kind := List.countP_map

inductive Call where
  | add (d : Diagnostic)
  | clear

def Call.added? : Call → Option Diagnostic
  | .add d => some d
  | .clear => none

def perform (log : Log) : Call → Log
  | .add d => log.add d
  | .clear => log.clear

def ofCalls (calls : List Call) : Log := calls.foldl perform {}

/-- What was added after the last clearing. -/
def sinceCleared (calls : List Call) : List Diagnostic :=
  (calls.rtakeWhile fun call => call.added?.isSome).filterMap Call.added?

theorem ofCalls_concat (calls : List Call) (call : Call) :
    ofCalls (calls ++ [call]) = (ofCalls calls).perform call := by
  simp [ofCalls]

theorem sinceCleared_add (calls : List Call) (d : Diagnostic) :
    sinceCleared (calls ++ [.add d]) = sinceCleared calls ++ [d] := by
  simp [sinceCleared, Call.added?]

theorem sinceCleared_clear (calls : List Call) : sinceCleared (calls ++ [.clear]) = [] := by
  simp [sinceCleared, Call.added?]

theorem Kept.perform {log : Log} (h : log.Kept) (call : Call) : (log.perform call).Kept := by
  cases call with
  | add d => exact h.add d
  | clear => rfl

theorem kept_ofCalls (calls : List Call) : (ofCalls calls).Kept := by
  induction calls using List.reverseRecOn with
  | nil => rfl
  | append_singleton calls call ih => exact ofCalls_concat calls call ▸ ih.perform call

theorem records_ofCalls (calls : List Call) : (ofCalls calls).records = sinceCleared calls := by
  induction calls using List.reverseRecOn with
  | nil => rfl
  | append_singleton calls call ih =>
    rw [ofCalls_concat]
    cases call with
    | add d => rw [sinceCleared_add, ← ih]; rfl
    | clear => rw [sinceCleared_clear]; rfl

/-- Only a warning can take more than one line. -/
theorem lines_summary (log : Log) : Text.split '\n' log.summary =
    [("=== Conversion Diagnostics ===" : Text),
        "Total diagnostics: " ++ toString log.figures.total] ++
      log.figures.kindLines ++ [("Warnings: " : Text) ++ toString log.figures.warnings] ++
      log.warningLines.flatMap (Text.split '\n') := by
  have hnumber {label : Text} (h : CodePoint.char '\n' ∉ label.toList) (n : Nat) :
      CodePoint.char '\n' ∉ (label ++ toString n).toList := by
    rw [Text.toList_append, List.mem_append, not_or]
    exact ⟨h, Text.not_mem_numeral (by decide) n⟩
  have hplain : ∀ line ∈
      [("=== Conversion Diagnostics ===" : Text),
        "Total diagnostics: " ++ toString log.figures.total] ++
        log.figures.kindLines ++ [("Warnings: " : Text) ++ toString log.figures.warnings],
      CodePoint.char '\n' ∉ line.toList := by
    simp only [List.forall_mem_append, List.forall_mem_cons]
    exact ⟨⟨⟨by decide, hnumber (by decide) _, by simp⟩, log.figures.line_feed_not_mem_kindLines⟩,
      hnumber (by decide) _, by simp⟩
  refine (Text.split_join '\n' (by simp)).trans ?_
  rw [List.flatMap_append, Text.flatMap_split_of_not_mem hplain]

theorem kindLines_figures (log : Log) : log.figures.kindLines =
    if (log.byKind.map Prod.fst).isEmpty then []
    else ("Diagnostics by kind:" : Text) :: ((log.byKind.map Prod.fst).map fun kind =>
      "  " ++ kind.name ++ ": " ++ toString (log.count kind)) ++ [("" : Text)] := by
  have hlines : (log.byKind.map fun entry =>
      ("  " : Text) ++ entry.1.name ++ ": " ++ toString entry.2) =
      (log.byKind.map Prod.fst).map fun kind =>
        ("  " : Text) ++ kind.name ++ ": " ++ toString (log.count kind) := by
    conv_lhs => rw [log.byKind_eq, List.map_map]
    rfl
  rw [← hlines, List.isEmpty_map]
  rfl

theorem Kept.lines_warningLines {log : Log} (h : log.Kept) :
    log.warningLines.flatMap (Text.split '\n') =
      if (log.records.filter fun d => d.kind.isWarning).isEmpty then []
      else ("Warning details:" : Text) ::
        (log.records.filter fun d => d.kind.isWarning).flatMap fun d =>
        Text.split '\n' ("  " ++ d.format) := by
  rw [warningLines, h, List.isEmpty_map]
  split
  · rfl
  · rw [List.flatMap_cons, Text.split_of_not_mem (by decide), List.flatMap_map, List.flatMap_map]
    rfl

/-- Each kind is listed once, where it came up first. In the summary it has a line of its own, and
each warning is told in full. -/
theorem figures_agree_ofCalls (calls : List Call) :
    let log := ofCalls calls
    let figures := log.figures
    let kinds := figures.byKind.map Prod.fst
    let seen := log.records.map Diagnostic.kind
    let warned := log.records.filter fun d => d.kind.isWarning
    log.records = sinceCleared calls ∧
    log.warnings = warned.map Diagnostic.format ∧
    (∀ kind, kind ∈ kinds ↔ kind ∈ seen) ∧ kinds.Nodup ∧
    kinds.Pairwise (fun j k => seen.idxOf j < seen.idxOf k) ∧
    figures.byKind = kinds.map (fun kind => (kind, log.count kind)) ∧
    (figures.byKind.map Prod.snd).sum = figures.total ∧ figures.total = log.size ∧
    figures.warnings =
      ((figures.byKind.filter fun entry => entry.1.isWarning).map Prod.snd).sum ∧
    Text.split '\n' log.summary =
      [("=== Conversion Diagnostics ===" : Text),
        "Total diagnostics: " ++ toString figures.total] ++
      (if kinds.isEmpty then [] else
        ("Diagnostics by kind:" : Text) ::
          kinds.map (fun kind => ("  " : Text) ++ kind.name ++ ": " ++ toString (log.count kind)) ++
            [("" : Text)]) ++
      [("Warnings: " : Text) ++ toString figures.warnings] ++
      (if warned.isEmpty then [] else
        ("Warning details:" : Text) ::
          warned.flatMap fun d => Text.split '\n' ("  " ++ d.format)) := by
  intro log figures kinds seen warned
  have hkept : log.Kept := kept_ofCalls calls
  have hseen : FirstSeen kinds seen := log.firstSeen_byKind
  refine ⟨records_ofCalls calls, hkept, hseen.mem_iff, hseen.nodup, hseen.ordered, log.byKind_eq,
    ?_, rfl, ?_, ?_⟩
  · have htotal := log.sum_byKind fun _ => true
    rwa [List.filter_true, List.countP_true] at htotal
  · exact hkept.warningCount_eq_countP.trans (log.sum_byKind DiagnosticKind.isWarning).symm
  · rw [lines_summary, kindLines_figures, hkept.lines_warningLines]
    rfl

example :
    let report (kind : DiagnosticKind) := Call.add { kind, subject := none, message := "m" }
    (ofCalls [report .unsupportedKind, .clear, report .ignoredStatement, report .deepNamespace,
      report .ignoredStatement]).figures =
        ⟨3, [(.ignoredStatement, 2), (.deepNamespace, 1)], 1⟩ := by decide

end Log
end Libdef

import ProtoExtensions.Diagnostic

/-!
The flag of a report. It is never computed from the findings: a report starts out fine and each
error that comes in takes the flag back. That it tells whether there is an error among the findings
is an invariant (`Report.IsConsistent`), which every way of building a report up keeps.
-/

namespace ProtoExtensions

namespace Report

/-- The flag says whether the report is free of errors. -/
def IsConsistent (report : Report) : Prop :=
  report.ok = true ↔ ∀ d ∈ report.entries, d.severity ≠ .error

namespace IsConsistent

variable {report : Report}

theorem empty : Report.empty.IsConsistent := by
  simp [IsConsistent, Report.empty]

theorem ofEntries (entries : List Diagnostic) : (Report.ofEntries entries).IsConsistent := by
  simp [IsConsistent, Report.ofEntries, Diagnostic.isError]

theorem push (h : report.IsConsistent) (d : Diagnostic) : (report.push d).IsConsistent := by
  unfold IsConsistent at h ⊢
  rw [entries_push, List.forall_mem_append, List.forall_mem_singleton, ← h]
  by_cases hd : d.severity = .error
  · simp [Report.push, Diagnostic.isError, hd]
  · simp [Report.push, Diagnostic.isError, hd]

theorem pushAll (h : report.IsConsistent) (entries : List Diagnostic) :
    (report.pushAll entries).IsConsistent := by
  induction entries generalizing report with
  | nil => exact h
  | cons d entries ih => exact ih (h.push d)

/-- What is merged in need not be consistent itself, for only its findings are looked at. -/
theorem merge (h : report.IsConsistent) (other : Report) : (report.merge other).IsConsistent :=
  h.pushAll other.entries

theorem eq_ofEntries (h : report.IsConsistent) : report = .ofEntries report.entries := by
  have hflag : report.ok = (Report.ofEntries report.entries).ok := by
    rw [Bool.eq_iff_iff, show _ ↔ _ from h, show _ ↔ _ from ofEntries report.entries]
    rfl
  calc report = ⟨report.ok, report.entries⟩ := rfl
    _ = .ofEntries report.entries := by rw [hflag]; rfl

theorem ok_iff_count (h : report.IsConsistent) : report.ok = true ↔ report.count .error = 0 := by
  rw [show _ ↔ _ from h, count, List.countP_eq_zero]
  simp

end IsConsistent

end Report

end ProtoExtensions

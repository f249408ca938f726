import Mathlib.Data.List.DropRight
import Mathlib.Data.List.Induction
import PascalCheck.Diagnostic.Record

/-! # The views of a bag of diagnostics

A bag is added to, emptied and asked, in any order.  What is in it can be told from the requests
alone: what was added since it was last emptied (`Bag.added`).  All that it can be asked for are
views of this list, and no view loses an entry, invents one, or changes what later views show
(`Bag.shows_after`). -/
namespace PascalCheck

/-- What a bag can be asked for. -/
inductive BagQuery where
  | entries | sorted | errors | warnings
  | ofPhase (phase : Phase)
  | formatted | texts | size | isEmpty | hasErrors | report
  /-- To stop the run if there are errors. -/
  | refusal

/-- What can be done with a bag. -/
inductive BagRequest where
  /-- To add a diagnostic as it is given. -/
  | add (d : Diagnostic)
  /-- To add a diagnostic about a site. -/
  | note (severity : Severity) (phase : Phase) (message : String) (site : Site) (hint : String)
  | clear
  | ask (query : BagQuery)

inductive BagReply where
  | done
  | listed (diagnostics : List Diagnostic)
  | recorded (records : List DiagnosticRecord)
  | written (texts : List String)
  | counted (number : Nat)
  | met (holds : Bool)
  | refused (refusal : Option Refusal)

namespace BagRequest

/-- What a request adds. -/
def entered? : BagRequest → Option Diagnostic
  | add d => some d
  | note severity phase message site hint => some (.of severity phase message site hint)
  | _ => none

def isClear : BagRequest → Bool
  | clear => true
  | _ => false

def isQuery : BagRequest → Bool
  | ask _ => true
  | _ => false

end BagRequest

namespace Bag

def answer (bag : Bag) : BagQuery → BagReply
  | .entries => .listed bag.entries
  | .sorted => .listed bag.sorted
  | .errors => .listed bag.errors
  | .warnings => .listed bag.warnings
  | .ofPhase phase => .listed (bag.ofPhase phase)
  | .formatted => .recorded bag.formatted
  | .texts => .written (bag.entries.map Diagnostic.render)
  | .size => .counted bag.size
  | .isEmpty => .met bag.isEmpty
  | .hasErrors => .met bag.hasErrors
  | .report => .written [bag.report]
  | .refusal => .refused bag.refusal?

/-- The reply to a request, and the bag after it. -/
def serve (bag : Bag) : BagRequest → BagReply × Bag
  | .add d => (.done, bag.add d)
  | .note severity phase message site hint =>
    (.done, bag.add (.of severity phase message site hint))
  | .clear => (.done, {})
  | .ask query => (bag.answer query, bag)

/-- The bag after requests to an empty one. -/
def after (requests : List BagRequest) : Bag :=
  requests.foldl (fun bag request => (bag.serve request).2) {}

@[simp] theorem after_concat (requests : List BagRequest) (request : BagRequest) :
    after (requests ++ [request]) = ((after requests).serve request).2 := by
  simp [after]

/-- What requests have added since the last one of them that empties the bag. -/
def added (requests : List BagRequest) : List Diagnostic :=
  (requests.rtakeWhile fun request => !request.isClear).filterMap BagRequest.entered?

theorem added_concat (requests : List BagRequest) (request : BagRequest) :
    added (requests ++ [request]) =
      if request.isClear then [] else added requests ++ request.entered?.toList := by
  unfold added
  rw [List.rtakeWhile_concat]
  cases request with
  | clear => rfl
  | add d | note severity phase message site hint | ask query =>
    simp [BagRequest.isClear, BagRequest.entered?]

/-! ## What is in a bag -/

/-- A request adds its diagnostic behind all others, or empties the bag. -/
theorem entries_serve (bag : Bag) (request : BagRequest) :
    (bag.serve request).2.entries =
      if request.isClear then [] else bag.entries ++ request.entered?.toList := by
  cases request with
  | add d | note severity phase message site hint | clear => rfl
  | ask query => exact (List.append_nil _).symm

/-- **A bag holds what was added since it was last emptied**, in this order. -/
theorem entries_after (requests : List BagRequest) :
    (after requests).entries = added requests := by
  induction requests using List.reverseRecOn with
  | nil => rfl
  | append_singleton requests request ih =>
    rw [after_concat, entries_serve, ih, added_concat]

/-- Questions leave no trace. -/
theorem after_filter_not_isQuery (requests : List BagRequest) :
    after (requests.filter fun request => !request.isQuery) = after requests := by
  induction requests using List.reverseRecOn with
  | nil => rfl
  | append_singleton requests request ih =>
    rw [List.filter_append, after_concat]
    cases request with
    | ask query =>
      rw [List.filter_cons_of_neg (by simp [BagRequest.isQuery]), List.filter_nil, List.append_nil]
      exact ih
    | add d | note severity phase message site hint | clear =>
      rw [List.filter_cons_of_pos rfl, List.filter_nil, after_concat, ih]

/-! ## Views -/

variable (bag : Bag)

theorem sorted_perm : bag.sorted.Perm bag.entries :=
  List.mergeSort_perm bag.entries _

theorem line_trans (a b c : Diagnostic) (hab : decide (a.line ≤ b.line) = true)
    (hbc : decide (b.line ≤ c.line) = true) : decide (a.line ≤ c.line) = true := by
  rw [decide_eq_true_eq] at hab hbc ⊢
  exact Int.le_trans hab hbc

theorem line_total (a b : Diagnostic) :
    (decide (a.line ≤ b.line) || decide (b.line ≤ a.line)) = true := by
  rw [Bool.or_eq_true, decide_eq_true_eq, decide_eq_true_eq]
  exact Int.le_total a.line b.line

theorem sorted_pairwise : bag.sorted.Pairwise fun a b => a.line ≤ b.line := by
  have h := List.pairwise_mergeSort line_trans line_total bag.entries
  exact h.imp fun hab => of_decide_eq_true hab

/-- **Sorting is stable**: the diagnostics of one line stay in the order in which they were found. -/
theorem filter_line_sorted (line : Int) :
    bag.sorted.filter (·.line = line) = bag.entries.filter (·.line = line) := by
  -- The diagnostics of the line are in order already, so that they stay a part of the sorted ones.
  have hordered : (bag.entries.filter (·.line = line)).Pairwise
      fun a b => decide (a.line ≤ b.line) = true := by
    apply List.pairwise_of_forall_mem_list
    intro a ha b hb
    have hla : a.line = line := by simpa using (List.mem_filter.mp ha).2
    have hlb : b.line = line := by simpa using (List.mem_filter.mp hb).2
    rw [hla, hlb]
    exact decide_eq_true (Int.le_refl line)
  have hpart := List.sublist_mergeSort line_trans line_total hordered List.filter_sublist
  have hfilter := hpart.filter (fun d => decide (d.line = line))
  rw [List.filter_filter] at hfilter
  simp only [Bool.and_self] at hfilter
  exact (hfilter.eq_of_length ((bag.sorted_perm.filter _).length_eq).symm).symm

theorem warnings_eq : bag.warnings = bag.entries.filter fun d => !d.isError := by
  unfold warnings
  congr 1
  funext d
  cases h : d.severity <;> simp [Diagnostic.isWarning, Diagnostic.isError, h]

theorem errors_append_warnings_perm : (bag.errors ++ bag.warnings).Perm bag.entries := by
  rw [warnings_eq]
  exact List.filter_append_perm Diagnostic.isError bag.entries

theorem phases_perm :
    (bag.ofPhase .lexical ++ bag.ofPhase .syntactic ++ bag.ofPhase .semantic).Perm
      bag.entries := by
  -- What is not lexical is syntactic or semantic.
  have hrest : (bag.ofPhase .syntactic ++ bag.ofPhase .semantic).Perm
      (bag.entries.filter fun d => !decide (d.phase = .lexical)) := by
    refine (List.Perm.of_eq ?_).trans
      (List.filter_append_perm (fun d => decide (d.phase = .syntactic)) _)
    unfold ofPhase
    rw [List.filter_filter, List.filter_filter]
    congr 2
    all_goals
      funext d
      cases d.phase <;> simp
  rw [List.append_assoc]
  refine (hrest.append_left _).trans ?_
  exact List.filter_append_perm (fun d : Diagnostic => decide (d.phase = .lexical)) bag.entries

theorem report_of_nil (h : bag.entries = []) : bag.report = "No diagnostics." := by
  unfold report isEmpty
  rw [h]
  rfl

theorem report_eq_append_tally (h : bag.entries ≠ []) :
    ∃ shown, bag.report = shown ++ "\n" ++ bag.tally := by
  have hempty : bag.isEmpty = false := by simpa [isEmpty] using h
  unfold report
  rw [hempty, if_neg Bool.false_ne_true]
  dsimp only
  rw [← List.concat_append, String.intercalate_append_of_ne_nil (by simp) (by simp),
    String.intercalate_singleton]
  exact ⟨_, rfl⟩

theorem refusal?_isSome : bag.refusal?.isSome = true ↔ ∃ d ∈ bag.entries, d.severity = .error := by
  have herrors : bag.errors ≠ [] ↔ ∃ d ∈ bag.entries, d.severity = .error := by
    unfold errors
    rw [ne_eq, List.filter_eq_nil_iff]
    simp [Diagnostic.isError]
  rw [← herrors]
  unfold refusal?
  cases bag.errors <;> simp

/-- A run is stopped at the first error. -/
theorem refusal?_line {refusal : Refusal} (h : bag.refusal? = some refusal) :
    ∃ before first rest, bag.entries = before ++ first :: rest ∧ first.severity = .error ∧
      (∀ d ∈ before, d.severity ≠ .error) ∧ refusal.line = first.line := by
  unfold refusal? at h
  cases herrors : bag.errors with
  | nil =>
    rw [herrors] at h
    cases h
  | cons first more =>
    rw [herrors] at h
    cases h
    obtain ⟨before, rest, hentries, hbefore, hfirst, -⟩ := List.filter_eq_cons_iff.mp herrors
    refine ⟨before, first, rest, hentries, of_decide_eq_true hfirst, ?_, rfl⟩
    intro d hd herror
    exact hbefore d hd (decide_eq_true herror)

/-! ## All of them together -/

/-- What the views of a bag show of the diagnostics in it, in the order in which they were added. -/
structure Shows (bag : Bag) (added : List Diagnostic) : Prop where
  entries : bag.entries = added
  size : bag.size = added.length
  /-- By line, with what stands on one line in the order in which it was added. -/
  sorted : bag.sorted.Perm added ∧ (bag.sorted.Pairwise fun a b => a.line ≤ b.line) ∧
    ∀ line, bag.sorted.filter (·.line = line) = added.filter (·.line = line)
  formatted : bag.formatted = bag.sorted.map Diagnostic.record
  errors : bag.errors.Sublist added ∧ ∀ d, d ∈ bag.errors ↔ d ∈ added ∧ d.severity = .error
  warnings : bag.warnings.Sublist added ∧
    ∀ d, d ∈ bag.warnings ↔ d ∈ added ∧ d.severity = .warning
  severities : (bag.errors ++ bag.warnings).Perm added
  ofPhase : ∀ phase, (bag.ofPhase phase).Sublist added ∧
    ∀ d, d ∈ bag.ofPhase phase ↔ d ∈ added ∧ d.phase = phase
  phases : (bag.ofPhase .lexical ++ bag.ofPhase .syntactic ++ bag.ofPhase .semantic).Perm added
  numbers : bag.errors.length + bag.warnings.length = bag.size
  /-- A report ends in these two numbers. -/
  report : (added = [] → bag.report = "No diagnostics.") ∧
    (added ≠ [] → ∃ shown, bag.report =
      shown ++ "\n" ++ s!"{bag.errors.length} error(s), {bag.warnings.length} warning(s)")
  refused : bag.refusal?.isSome = true ↔ ∃ d ∈ added, d.severity = .error
  /-- The run is stopped at the first error that was added. -/
  refusal : ∀ refusal, bag.refusal? = some refusal →
    ∃ before first rest, added = before ++ first :: rest ∧ first.severity = .error ∧
      (∀ d ∈ before, d.severity ≠ .error) ∧ refusal.line = first.line

theorem shows_entries : bag.Shows bag.entries where
  entries := rfl
  size := rfl
  sorted := ⟨sorted_perm bag, sorted_pairwise bag, filter_line_sorted bag⟩
  formatted := rfl
  errors := ⟨List.filter_sublist, fun d => by simp [Bag.errors, Diagnostic.isError]⟩
  warnings := ⟨List.filter_sublist, fun d => by simp [Bag.warnings, Diagnostic.isWarning]⟩
  severities := errors_append_warnings_perm bag
  ofPhase := fun phase => ⟨List.filter_sublist, fun d => by simp [Bag.ofPhase]⟩
  phases := phases_perm bag
  numbers := by
    rw [← List.length_append]
    exact (errors_append_warnings_perm bag).length_eq
  report := ⟨report_of_nil bag, report_eq_append_tally bag⟩
  refused := refusal?_isSome bag
  refusal := fun _ => refusal?_line bag

/-- **The views of a bag show what was added since it was last emptied**, all of it and nothing
else, and asking for them changes none of them. -/
theorem shows_after (requests : List BagRequest) :
    (after requests).Shows (added requests) ∧
      after (requests.filter fun request => !request.isQuery) = after requests := by
  rw [← entries_after]
  exact ⟨shows_entries _, after_filter_not_isQuery requests⟩

end Bag
end PascalCheck

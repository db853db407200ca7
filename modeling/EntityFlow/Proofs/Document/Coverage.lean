import EntityFlow.Proofs.Document.Explanations

/-!
# Coverage of remarks

Remarks explain diagnostics, and those that no diagnostic covers are added behind them (`explain`).
Nothing is lost, and nothing is said twice (`explain_covers_and_settles`):

* every remark is covered by some diagnostic;
* the diagnostics from before stand in front as they stood, with their ranges and texts, and behind
  them stands one diagnostic for each remark that none of them covers;
* a second explanation by the same remarks finds every remark covered, so it adds nothing and leaves
  every range as it is.

Messages need the second explanation: of several remarks on one place, all take the message of the
first one. From then on they do not change any more (`explain_settles`). Whether the remarks are on
faults of the grammar plays no part in this: any place and any message will do.
-/

namespace EntityFlow

variable {remarks : List Remark} {ds : List Diagnostic} {d : Diagnostic} {r : Remark}

/-! ## Ranges -/

namespace Diagnostic

instance (d : Diagnostic) (r : Remark) : Decidable (d.Covers r) :=
  decidable_of_iff _ coversRemark_iff

/-- What a diagnostic says of the construct, apart from the reason: its range and its text. -/
structure Extent where
  place : ℕ ×ₗ ℕ
  endPlace : ℕ ×ₗ ℕ
  skipped : String

/-- The range and the text of the construct. -/
def extent (d : Diagnostic) : Extent := ⟨d.place, d.endPlace, d.skipped⟩

/-- Coverage is a matter of the range. -/
theorem covers_congr {d' : Diagnostic} (same : d.extent = d'.extent) :
    d.Covers r ↔ d'.Covers r := by
  obtain ⟨places, endPlaces, -⟩ := Extent.mk.inj same
  rw [Covers, Covers, places, endPlaces]

theorem coversRemark_congr {d' : Diagnostic} (same : d.extent = d'.extent) :
    d.coversRemark r = d'.coversRemark r :=
  Bool.eq_iff_iff.mpr (coversRemark_iff.trans ((covers_congr same).trans coversRemark_iff.symm))

@[simp] theorem extent_explainedBy (remarks : List Remark) (d : Diagnostic) :
    (d.explainedBy remarks).extent = d.extent := by
  unfold explainedBy
  split <;> rfl

/-- The same remarks explain a diagnostic once and for all. -/
@[simp] theorem explainedBy_explainedBy (remarks : List Remark) (d : Diagnostic) :
    (d.explainedBy remarks).explainedBy remarks = d.explainedBy remarks := by
  have range : (d.explainedBy remarks).coversRemark = d.coversRemark :=
    funext fun r => coversRemark_congr (d.extent_explainedBy remarks)
  rw [explainedBy, range]
  unfold explainedBy
  cases remarks.find? d.coversRemark <;> rfl

/-- The diagnostic of a remark covers it, though its range is a single place. -/
theorem covers_ofRemark (r : Remark) : (ofRemark r).Covers r := ⟨le_rfl, le_rfl⟩

end Diagnostic

/-! ## Remarks in no range -/

/-- The remarks that no diagnostic covers, in their order. -/
def uncovered (remarks : List Remark) (ds : List Diagnostic) : List Remark :=
  remarks.filter fun r => ∀ d ∈ ds, ¬ d.Covers r

theorem mem_uncovered : r ∈ uncovered remarks ds ↔ r ∈ remarks ∧ ∀ d ∈ ds, ¬ d.Covers r := by
  simp [uncovered]

theorem uncovered_eq_nil_iff :
    uncovered remarks ds = [] ↔ ∀ r ∈ remarks, ∃ d ∈ ds, d.Covers r := by
  simp [uncovered]

theorem explain_eq (remarks : List Remark) (ds : List Diagnostic) :
    explain remarks ds =
      ds.map (·.explainedBy remarks) ++ (uncovered remarks ds).map Diagnostic.ofRemark := by
  have same : (fun r => !ds.any (·.coversRemark r)) =
      fun r => decide (∀ d ∈ ds, ¬ d.Covers r) := by
    funext r
    simp only [← Diagnostic.coversRemark_iff]
    rw [Bool.eq_iff_iff]
    simp
  rw [explain, same]
  rfl

/-- Where every remark is covered, nothing is added. -/
theorem explain_of_covered (covered : ∀ r ∈ remarks, ∃ d ∈ ds, d.Covers r) :
    explain remarks ds = ds.map (·.explainedBy remarks) := by
  rw [explain_eq, uncovered_eq_nil_iff.mpr covered, List.map_nil, List.append_nil]

theorem map_extent_explainedBy (remarks : List Remark) (ds : List Diagnostic) :
    (ds.map (·.explainedBy remarks)).map Diagnostic.extent = ds.map Diagnostic.extent := by
  simp [Function.comp_def]

/-! ## Explaining once and again -/

/-- Every remark is covered: by a diagnostic from before, whose range stays, or by its own. -/
theorem exists_covers_explain (member : r ∈ remarks) : ∃ d ∈ explain remarks ds, d.Covers r := by
  rw [explain_eq]
  by_cases covered : ∃ d ∈ ds, d.Covers r
  · obtain ⟨d, before, covers⟩ := covered
    refine ⟨d.explainedBy remarks, List.mem_append_left _ (List.mem_map_of_mem before), ?_⟩
    exact (Diagnostic.covers_congr (d.extent_explainedBy remarks)).mpr covers
  · have alone : r ∈ uncovered remarks ds :=
      mem_uncovered.mpr ⟨member, fun d before covers => covered ⟨d, before, covers⟩⟩
    exact ⟨.ofRemark r, List.mem_append_right _ (List.mem_map_of_mem alone),
      Diagnostic.covers_ofRemark r⟩

theorem explain_explain (remarks : List Remark) (ds : List Diagnostic) :
    explain remarks (explain remarks ds) = (explain remarks ds).map (·.explainedBy remarks) :=
  explain_of_covered fun _ member => exists_covers_explain member

/-- The second explanation is the last one that changes anything. -/
theorem explain_settles (remarks : List Remark) (ds : List Diagnostic) :
    explain remarks (explain remarks (explain remarks ds)) =
      explain remarks (explain remarks ds) := by
  rw [explain_explain, explain_explain, List.map_map]
  refine List.map_congr_left ?_
  intro d _
  exact d.explainedBy_explainedBy remarks

/-- Two remarks on one place: each is added with its own message, and then both say the same. -/
example :
    let r : Remark := ⟨2, 7, "expected '\x7d'"⟩
    let s : Remark := ⟨2, 7, "expected a key"⟩
    explain [r, s] [] = [.ofRemark r, .ofRemark s] ∧
      explain [r, s] (explain [r, s] []) = [.ofRemark r, .ofRemark r] := by
  decide

/-- **Explaining loses and repeats nothing.** Every remark is covered afterwards. The diagnostics
from before come first, in their order and with their ranges and texts, and behind them comes one
diagnostic for each remark that none of them covers, in the order of the remarks. Explaining again
by the same remarks adds no diagnostic and changes no range. -/
theorem explain_covers_and_settles (remarks : List Remark) (ds : List Diagnostic) :
    (∀ r ∈ remarks, ∃ d ∈ explain remarks ds, d.Covers r) ∧
    (∃ kept added, explain remarks ds = kept ++ added ∧
      kept.map Diagnostic.extent = ds.map Diagnostic.extent ∧
      added = (uncovered remarks ds).map Diagnostic.ofRemark) ∧
    (explain remarks (explain remarks ds)).map Diagnostic.extent =
      (explain remarks ds).map Diagnostic.extent := by
  refine ⟨fun r member => exists_covers_explain member, ?_, ?_⟩
  · exact ⟨_, _, explain_eq remarks ds, map_extent_explainedBy remarks ds, rfl⟩
  · rw [explain_explain, map_extent_explainedBy]

end EntityFlow

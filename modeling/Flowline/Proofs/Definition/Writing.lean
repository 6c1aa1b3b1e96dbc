import Flowline.Definition.Scan
import Flowline.Proofs.Definition.Line

/-!
# What is written is read

* `outcomes`: what the lines of a document do, by their texts alone.
* `outcomes_stageTexts`, `outcomes_categoryTexts`, `outcomes_texts`: the lines of a written
  definition do what its listing says, by the recursion of the printer.
* `read_write`: a written definition is read as its overall line and its listing, trimmed, and no
  line of it is dropped.
-/

namespace Flowline

open Text

/-- Writes the stages of one category, trimmed. -/
def Spec.insertBlock (spec : Spec) (block : Category × List (String × String)) : Spec :=
  block.2.foldl (fun spec stage => spec.insertStage block.1 (trimmed stage.1) (trimmed stage.2))
    (spec.enter block.1)

/-- The specification that an overall line and a listing make, trimmed. -/
def Spec.ofListing (overall : String) (listing : Definition.Listing) : Spec :=
  listing.foldl Spec.insertBlock (Spec.ofOverall (trimmed overall))

namespace Definition

/-- Every stage of the listing has a name. -/
def Named (listing : Listing) : Prop :=
  ∀ block ∈ listing, ∀ stage ∈ block.2, trimmed stage.1 ≠ ""

/-! ## Lines without their numbers -/

/-- What the lines say, the state carried from line to line. -/
def outcomes (state : State) : List String → List Action
  | [] => []
  | text :: rest =>
    let (next, action) := step state (Line.classify text) text
    action :: outcomes next rest

theorem outcomes_cons (state : State) (text : String) (rest : List String) :
    outcomes state (text :: rest) = (step state (Line.classify text) text).2 ::
      outcomes (step state (Line.classify text) text).1 rest := rfl

theorem map_snd_actions (state : State) (doc : List NumberedLine) :
    (actions state doc).map Prod.snd = outcomes state (doc.map NumberedLine.text) := by
  induction doc generalizing state with
  | nil => rfl
  | cons line rest ih => exact congrArg (List.cons _) (ih _)

/-- The lines of a text that are not blank, trimmed. -/
theorem map_text_numberedLines (text : String) :
    (numberedLines text).map NumberedLine.text =
      (((lines text.toList).map trim).filter (· ≠ [])).map String.ofList := by
  unfold numberedLines
  generalize 1 = number
  induction lines text.toList generalizing number with
  | nil => rfl
  | cons line rest ih =>
    rw [List.zipIdx_cons, List.filterMap_cons, List.map_cons]
    by_cases hblank : trim line = []
    · rw [List.filter_cons_of_neg (by simp [hblank])]
      simp only [hblank, if_true]
      exact ih (number + 1)
    · rw [List.filter_cons_of_pos (by simp [hblank])]
      simp only [hblank, if_false, List.map_cons]
      exact congrArg _ (ih (number + 1))

/-- The meaning of a text is what its lines record. -/
theorem parse_eq (text : String) : parse text =
    (outcomes State.initial ((numberedLines text).map NumberedLine.text)).foldl record
      (Spec.ofOverall "") := by
  rw [← map_snd_actions, List.foldl_map]
  rfl

theorem dropped_eq_nil {text : String}
    (h : ∀ reason, .drop reason ∉
      outcomes State.initial ((numberedLines text).map NumberedLine.text)) :
    (read text).dropped = [] := by
  rw [← map_snd_actions] at h
  refine List.filterMap_eq_nil_iff.2 fun entry hentry => ?_
  obtain ⟨line, action⟩ := entry
  cases action with
  | drop reason => exact absurd (List.mem_map_of_mem hentry) (h reason)
  | _ => rfl

theorem read_eq {text : String} {spec : Spec} (hspec : parse text = spec)
    (hdropped : (read text).dropped = []) : read text = ⟨spec, []⟩ := by
  subst hspec
  exact congrArg (Reading.mk (parse text)) hdropped

/-! ## The lines of a written definition -/

section Lines

variable {c : Category} {category : Option Category} {captured : Bool}

theorem classify_token (c : Category) : Line.classify (trimmed c.token) = .category c := by
  cases c <;> decide

theorem outcomes_stageTexts {stages : List (String × String)}
    (h : ∀ stage ∈ stages, WritableStage stage ∧ trimmed stage.1 ≠ "") (rest : List String) :
    outcomes ⟨.subStages, some c, captured⟩ ((stages.map stageText).map trimmed ++ rest) =
      (stages.map fun stage => .recordStage c (trimmed stage.1) (trimmed stage.2)) ++
        outcomes ⟨.subStages, some c, captured⟩ rest := by
  induction stages with
  | nil => rfl
  | cons stage stages ih =>
    obtain ⟨⟨hwritable, hname⟩, hstages⟩ := List.forall_mem_cons.1 h
    rw [List.map_cons, List.map_cons, List.cons_append, outcomes_cons,
      Line.classify_stageText hwritable hname]
    exact congrArg _ (ih hstages)

/-- What the lines of one category do. -/
def blockActions (block : Category × List (String × String)) : List Action :=
  .enterCategory block.1 ::
    block.2.map fun stage => .recordStage block.1 (trimmed stage.1) (trimmed stage.2)

theorem outcomes_categoryTexts {listing : Listing}
    (h : ∀ block ∈ listing, ∀ stage ∈ block.2, WritableStage stage ∧ trimmed stage.1 ≠ "") :
    outcomes ⟨.subStages, category, captured⟩ ((listing.flatMap categoryTexts).map trimmed) =
      listing.flatMap blockActions := by
  induction listing generalizing category with
  | nil => rfl
  | cons block listing ih =>
    obtain ⟨hblock, hlisting⟩ := List.forall_mem_cons.1 h
    rw [List.flatMap_cons, List.map_append, categoryTexts, List.map_cons, List.cons_append,
      outcomes_cons, classify_token, List.flatMap_cons, blockActions, List.cons_append]
    refine congrArg _ ((outcomes_stageTexts hblock _).trans ?_)
    rw [ih hlisting]

end Lines

theorem classify_overallHeader : Line.classify (trimmed "Overall flow") = .overallHeader := by
  decide

theorem classify_subStagesHeader : Line.classify (trimmed "Sub-stages") = .subStagesHeader := by
  decide

theorem noHeader_iff {s : String} : NoHeader s ↔ (Line.classify (trimmed s)).header? = none := by
  rw [Line.header?_classify_eq_none_iff, toList_trimmed, NoHeader]

/-- What the overall line and its header do. -/
def overallActions (headed : Bool) (overall : String) : List Action :=
  if trimmed overall = "" then
    if headed then [.skip] else []
  else [.skip, .captureOverall (trimmed overall)]

theorem outcomes_overallTexts {overall : String} (h : NoHeader overall) (headed : Bool) :
    ∃ state, ∀ rest, outcomes State.initial ((overallTexts headed overall).map trimmed ++ rest) =
      overallActions headed overall ++ outcomes state rest := by
  have hheader : step State.initial .overallHeader (trimmed "Overall flow") =
      (⟨.overall, none, false⟩, .skip) := step_header rfl
  unfold overallTexts overallActions
  split
  · cases headed with
    | false => exact ⟨State.initial, fun rest => rfl⟩
    | true =>
      refine ⟨⟨.overall, none, false⟩, fun rest => ?_⟩
      simp only [if_true, List.map_cons, List.map_nil, List.cons_append, List.nil_append,
        outcomes_cons, classify_overallHeader, hheader]
  · have hcapture : step ⟨.overall, none, false⟩ (Line.classify (trimmed overall))
        (trimmed overall) = (⟨.overall, none, true⟩, .captureOverall (trimmed overall)) :=
      step_overall (noHeader_iff.1 h) rfl
    refine ⟨⟨.overall, none, true⟩, fun rest => ?_⟩
    simp only [List.map_cons, List.map_nil, List.cons_append, List.nil_append, outcomes_cons,
      classify_overallHeader, hheader, hcapture]

/-- What the lines of a written definition do. -/
def writtenActions (headed : Bool) (overall : String) (listing : Listing) : List Action :=
  overallActions headed overall ++ .skip :: listing.flatMap blockActions

theorem outcomes_texts {overall : String} {listing : Listing} (h : Writable overall listing)
    (hnames : Named listing) (headed : Bool) :
    outcomes State.initial ((texts headed overall listing).map trimmed) =
      writtenActions headed overall listing := by
  have hstages : ∀ block ∈ listing, ∀ stage ∈ block.2, WritableStage stage ∧ trimmed stage.1 ≠ "" :=
    fun block hblock stage hstage =>
      ⟨h.stages block hblock stage hstage, hnames block hblock stage hstage⟩
  obtain ⟨state, hstate⟩ := outcomes_overallTexts h.overall.2 headed
  rw [texts, List.map_append, hstate, List.map_cons, outcomes_cons, classify_subStagesHeader]
  exact congrArg (fun rest => _ ++ _ :: rest) (outcomes_categoryTexts hstages)

theorem drop_notMem_writtenActions (headed : Bool) (overall : String) (listing : Listing)
    (reason : DropReason) : .drop reason ∉ writtenActions headed overall listing := by
  intro hdrop
  rcases List.mem_append.1 hdrop with hdrop | hdrop
  · unfold overallActions at hdrop
    revert hdrop
    split <;> simp
  · rcases List.mem_cons.1 hdrop with hdrop | hdrop
    · cases hdrop
    · obtain ⟨block, -, hdrop⟩ := List.mem_flatMap.1 hdrop
      simp [blockActions] at hdrop

theorem foldl_record_blockActions (spec : Spec) (block : Category × List (String × String)) :
    (blockActions block).foldl record spec = spec.insertBlock block := by
  rw [blockActions, List.foldl_cons, List.foldl_map]
  rfl

theorem foldl_record_writtenActions (headed : Bool) (overall : String) (listing : Listing) :
    (writtenActions headed overall listing).foldl record (Spec.ofOverall "") =
      Spec.ofListing overall listing := by
  have hoverall : (overallActions headed overall).foldl record (Spec.ofOverall "") =
      Spec.ofOverall (trimmed overall) := by
    unfold overallActions
    split
    · next hblank =>
      rw [hblank]
      cases headed <;> rfl
    · rfl
  rw [writtenActions, List.foldl_append, hoverall, List.foldl_cons, List.foldl_flatMap]
  simp only [foldl_record_blockActions]
  rfl

/-! ## The text -/

section Text

variable {overall : String} {listing : Listing}

theorem trimmed_stageText_ne_empty {stage : String × String} (h : trimmed stage.1 ≠ "") :
    trimmed (stageText stage) ≠ "" := by
  obtain ⟨after, -, hline⟩ := Line.exists_trimmed_stageText stage.2 (trimmed_ne_empty_iff.1 h)
  intro hnil
  rw [hnil] at hline
  simp at hline

theorem oneLine_stageText {stage : String × String} (h : WritableStage stage) :
    OneLine (stageText stage) := by
  have hname := h.name.1
  have hexpr := h.expr.1
  simp only [OneLine, stageText, String.toList_append, List.mem_append, not_or] at hname hexpr ⊢
  exact ⟨⟨⟨hname, by decide⟩, hexpr⟩, by decide⟩

/-- Every line of a written definition is one line, and none is blank. -/
theorem mem_texts (h : Writable overall listing) (hnames : Named listing) {headed : Bool}
    {l : String} (hl : l ∈ texts headed overall listing) : OneLine l ∧ trimmed l ≠ "" := by
  rcases List.mem_append.1 hl with hl | hl
  · unfold overallTexts at hl
    split at hl
    · cases headed with
      | false => cases hl
      | true =>
        rw [if_pos rfl, List.mem_singleton] at hl
        subst hl
        exact ⟨by decide, by decide⟩
    · next hblank =>
      rcases List.mem_pair.1 hl with rfl | rfl
      · exact ⟨by decide, by decide⟩
      · exact ⟨h.overall.1, hblank⟩
  · rcases List.mem_cons.1 hl with rfl | hl
    · exact ⟨by decide, by decide⟩
    · obtain ⟨block, hblock, hl⟩ := List.mem_flatMap.1 hl
      rcases List.mem_cons.1 hl with rfl | hl
      · cases block.1 with
        | _ => exact ⟨by decide, by decide⟩
      · obtain ⟨stage, hstage, rfl⟩ := List.mem_map.1 hl
        exact ⟨oneLine_stageText (h.stages block hblock stage hstage),
          trimmed_stageText_ne_empty (hnames block hblock stage hstage)⟩

/-- The lines of a written definition are read back, trimmed. -/
theorem map_text_numberedLines_write (h : Writable overall listing) (hnames : Named listing)
    (headed : Bool) :
    (numberedLines (write headed overall listing)).map NumberedLine.text =
      (texts headed overall listing).map trimmed := by
  have hlines : lines (write headed overall listing).toList =
      (texts headed overall listing).map String.toList ++ [[]] :=
    lines_unlines fun l hl => (mem_texts h hnames hl).1
  have hnonblank : ((texts headed overall listing).map (trim ∘ String.toList)).filter (· ≠ []) =
      (texts headed overall listing).map (trim ∘ String.toList) := by
    refine List.filter_eq_self.2 fun line hline => ?_
    obtain ⟨l, hl, rfl⟩ := List.mem_map.1 hline
    exact decide_eq_true (trimmed_ne_empty_iff.1 (mem_texts h hnames hl).2)
  have hlast : (([[]] : List (List Char)).map trim).filter (· ≠ []) = [] := by decide
  rw [map_text_numberedLines, hlines, List.map_append, List.map_map, List.filter_append, hnonblank,
    hlast, List.append_nil, List.map_map]
  rfl

/-- A written definition is read as its overall line and its stages, trimmed, and none of its lines
is dropped. -/
theorem read_write (h : Writable overall listing) (hnames : Named listing) (headed : Bool) :
    read (write headed overall listing) = ⟨Spec.ofListing overall listing, []⟩ := by
  have hacts := outcomes_texts h hnames headed
  rw [← map_text_numberedLines_write h hnames headed] at hacts
  refine read_eq ?_ ?_
  · rw [parse_eq, hacts, foldl_record_writtenActions]
  · refine dropped_eq_nil ?_
    rw [hacts]
    exact drop_notMem_writtenActions headed overall listing

end Text

end Definition

end Flowline

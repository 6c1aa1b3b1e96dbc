import Flowline.Definition.Scan
import Flowline.Proofs.Lists

/-!
# A definition read as a whole document

`Definition.read` goes through a document line by line and carries a state. Here a document is
read as a whole: where a line stands is said by the lines before it (`sectionAfter`,
`categoryAfter`), and what the document means is said by all lines of a kind together.

* `Says doc spec`: the overall line is the first content line of an overall section; the
  categories are those of the tokens, in the order of their first token; the stages of a category
  are those of its stage lines, in the order of the first line of each, with the content of the
  last.
* `Silent before line reason`: the line says nothing after the lines `before`, and why.
* `read_document`: the meaning of every text is what its lines say, and its report holds the
  silent lines, each once, in order.

The state that the reader carries is `stateAfter` of the lines read so far, which is the
invariant of the whole run (`step_stateAfter`).
-/

namespace Flowline.Definition

/-! ## Lines in their places -/

/-- The section that a header opens. -/
def Line.header? : Line → Option Section
  | .overallHeader => some .overall
  | .subStagesHeader => some .subStages
  | _ => none

/-- The category that a token names. -/
def Line.category? : Line → Option Category
  | .category c => some c
  | _ => none

/-- The name and the content of a stage. -/
def Line.stage? : Line → Option (String × String)
  | .stage name content => some (name, content)
  | _ => none

/-- What the line is. -/
def NumberedLine.kind (line : NumberedLine) : Line := Line.classify line.text

/-- The lines of a document, each with the lines before it. -/
def placed (doc : List NumberedLine) : List (List NumberedLine × NumberedLine) :=
  doc.zipIdx.map fun (line, i) => (doc.take i, line)

/-- What `f` takes from the lines of a document, given the lines before each. -/
def collect {α : Type} (f : List NumberedLine → NumberedLine → Option α)
    (doc : List NumberedLine) : List α :=
  (placed doc).filterMap fun (before, line) => f before line

/-- The section that the last header of the lines opened. -/
def sectionAfter (doc : List NumberedLine) : Section :=
  (doc.filterMap fun line => line.kind.header?).getLast?.getD .none

/-- The content lines of overall sections. -/
def overallLines : List NumberedLine → List String :=
  collect fun before line =>
    if sectionAfter before = .overall ∧ line.kind.header? = none then some line.text else none

/-- The categories whose tokens stand in sub-stages sections. -/
def tokens : List NumberedLine → List Category :=
  collect fun before line => if sectionAfter before = .subStages then line.kind.category? else none

/-- The category of the last token. Headers after it change nothing. -/
def categoryAfter (doc : List NumberedLine) : Option Category := (tokens doc).getLast?

/-- The stage lines of a category, as name and content. -/
def stageLines (c : Category) : List NumberedLine → List (String × String) :=
  collect fun before line =>
    if sectionAfter before = .subStages ∧ categoryAfter before = some c then line.kind.stage?
    else none

/-- The specification is what the lines of the document say. -/
structure Says (doc : List NumberedLine) (spec : Spec) : Prop where
  overall : spec.overall = (overallLines doc).head?.getD ""
  categories : spec.subStages.keys = (tokens doc).eraseDups
  stages : ∀ c, (spec.stagesOf c).keys = ((stageLines c doc).map Prod.fst).eraseDups
  contents : ∀ c name, (spec.stagesOf c).get? name =
    ((stageLines c doc).filter fun entry => entry.1 = name).getLast?.map Prod.snd

/-- Why a line says nothing after the lines before it. -/
inductive Silent (before : List NumberedLine) (line : NumberedLine) : DropReason → Prop
  | outsideSection : line.kind.header? = none → sectionAfter before = .none →
      Silent before line .outsideSection
  | overallAlreadyCaptured : line.kind.header? = none → sectionAfter before = .overall →
      overallLines before ≠ [] → Silent before line .overallAlreadyCaptured
  | stageBeforeCategory {stage : String × String} : line.kind.stage? = some stage →
      sectionAfter before = .subStages → categoryAfter before = none →
      Silent before line .stageBeforeCategory
  | unrecognized : line.kind = .text → sectionAfter before = .subStages →
      Silent before line .unrecognized

/-! ## One more line -/

theorem placed_concat (doc : List NumberedLine) (line : NumberedLine) :
    placed (doc ++ [line]) = placed doc ++ [(doc, line)] := by
  simp only [placed, List.zipIdx_append, List.map_append]
  congr 1
  · refine List.map_congr_left fun p hp => ?_
    have := List.snd_lt_of_mem_zipIdx hp
    rw [List.take_append_of_le_length (by omega)]
  · simp

theorem collect_concat {α : Type} (f : List NumberedLine → NumberedLine → Option α)
    (doc : List NumberedLine) (line : NumberedLine) :
    collect f (doc ++ [line]) = collect f doc ++ (f doc line).toList := by
  rw [collect, placed_concat, List.filterMap_append, collect]
  cases h : f doc line with
  | none => simp [h]
  | some a => simp [h]

theorem sectionAfter_concat (doc : List NumberedLine) (line : NumberedLine) :
    sectionAfter (doc ++ [line]) = line.kind.header?.getD (sectionAfter doc) := by
  rw [sectionAfter, List.filterMap_append, sectionAfter]
  cases h : line.kind.header? with
  | none => simp [h]
  | some s => simp [h]

theorem overallLines_concat (doc : List NumberedLine) (line : NumberedLine) :
    overallLines (doc ++ [line]) = overallLines doc ++
      (if sectionAfter doc = .overall ∧ line.kind.header? = none then some line.text
        else none).toList :=
  collect_concat _ doc line

theorem tokens_concat (doc : List NumberedLine) (line : NumberedLine) :
    tokens (doc ++ [line]) = tokens doc ++
      (if sectionAfter doc = .subStages then line.kind.category? else none).toList :=
  collect_concat _ doc line

theorem categoryAfter_concat (doc : List NumberedLine) (line : NumberedLine) :
    categoryAfter (doc ++ [line]) =
      (if sectionAfter doc = .subStages then line.kind.category? else none).or
        (categoryAfter doc) := by
  rw [categoryAfter, tokens_concat, List.getLast?_append, categoryAfter]
  cases (if sectionAfter doc = .subStages then line.kind.category? else none) with
  | none => rfl
  | some c => rfl

theorem stageLines_concat (c : Category) (doc : List NumberedLine) (line : NumberedLine) :
    stageLines c (doc ++ [line]) = stageLines c doc ++
      (if sectionAfter doc = .subStages ∧ categoryAfter doc = some c then line.kind.stage?
        else none).toList :=
  collect_concat _ doc line

/-! ## The table of the reader -/

section Table

variable {state : State} {line : Line} {text : String}

theorem step_header {s : Section} (h : line.header? = some s) :
    step state line text = (⟨s, state.category, state.overallCaptured⟩, .skip) := by
  cases line with
  | overallHeader | subStagesHeader =>
    cases h
    rfl
  | _ => cases h

theorem step_outside (h : line.header? = none) (hs : state.inside = .none) :
    step state line text = (state, .drop .outsideSection) := by
  cases line with
  | overallHeader | subStagesHeader => cases h
  | _ => simp only [step, hs]

theorem step_overall (h : line.header? = none) (hs : state.inside = .overall) :
    step state line text =
      if state.overallCaptured then (state, .drop .overallAlreadyCaptured)
      else (⟨.overall, state.category, true⟩, .captureOverall text) := by
  cases line with
  | overallHeader | subStagesHeader => cases h
  | _ => simp only [step, hs]

theorem step_subStages_state (h : line.header? = none) (hs : state.inside = .subStages) :
    (step state line text).1 =
      ⟨.subStages, line.category?.or state.category, state.overallCaptured⟩ := by
  obtain ⟨_, category, captured⟩ := state
  cases hs
  cases line with
  | overallHeader | subStagesHeader => cases h
  | stage name content => cases category <;> rfl
  | _ => rfl

theorem step_subStages_action (hs : state.inside = .subStages) :
    (step state line text).2 =
      match line with
      | .category c => .enterCategory c
      | .stage name content =>
        match state.category with
        | some c => .recordStage c name content
        | none => .drop .stageBeforeCategory
      | .text => .drop .unrecognized
      | _ => .skip := by
  obtain ⟨_, category, captured⟩ := state
  cases hs
  cases line with
  | stage name content => cases category <;> rfl
  | _ => rfl

theorem category?_of_header {s : Section} (h : line.header? = some s) : line.category? = none := by
  cases line with
  | overallHeader | subStagesHeader => rfl
  | _ => cases h

theorem stage?_of_header {s : Section} (h : line.header? = some s) : line.stage? = none := by
  cases line with
  | overallHeader | subStagesHeader => rfl
  | _ => cases h

end Table

/-- What the lines leave behind for the next one. -/
def stateAfter (doc : List NumberedLine) : State :=
  ⟨sectionAfter doc, categoryAfter doc, !(overallLines doc).isEmpty⟩

/-- What a line says after the lines before it. -/
def actionAfter (doc : List NumberedLine) (line : NumberedLine) : Action :=
  (step (stateAfter doc) line.kind line.text).2

/-- The invariant of a run: after every line the reader's state is that of the lines read. -/
theorem step_stateAfter (doc : List NumberedLine) (line : NumberedLine) :
    (step (stateAfter doc) line.kind line.text).1 = stateAfter (doc ++ [line]) := by
  unfold stateAfter
  rw [sectionAfter_concat, categoryAfter_concat, overallLines_concat]
  cases hh : line.kind.header? with
  | some s =>
    rw [step_header hh, category?_of_header hh]
    simp
  | none =>
    cases hs : sectionAfter doc with
    | none =>
      rw [step_outside hh rfl]
      simp
    | overall =>
      rw [step_overall hh rfl]
      cases overallLines doc <;> simp
    | subStages =>
      rw [step_subStages_state hh rfl]
      simp

theorem actions_cons (state : State) (line : NumberedLine) (rest : List NumberedLine) :
    actions state (line :: rest) =
      (line, (step state line.kind line.text).2) ::
        actions (step state line.kind line.text).1 rest := rfl

section Growth

variable {doc doc' : List NumberedLine} {spec : Spec}

/-- Lines that add nothing leave the meaning as it is. -/
theorem Says.same (h : Says doc spec)
    (ho : (overallLines doc').head? = (overallLines doc).head?) (ht : tokens doc' = tokens doc)
    (hs : ∀ c, stageLines c doc' = stageLines c doc) : Says doc' spec := by
  refine ⟨?_, ?_, fun c => ?_, fun c name => ?_⟩
  · rw [ho, h.overall]
  · rw [ht, h.categories]
  · rw [hs, h.stages]
  · rw [hs, h.contents]

theorem Says.capture (h : Says doc spec) {text : String}
    (ho : (overallLines doc').head? = some text) (ht : tokens doc' = tokens doc)
    (hs : ∀ c, stageLines c doc' = stageLines c doc) :
    Says doc' { spec with overall := text } := by
  refine ⟨?_, ?_, fun c => ?_, fun c name => ?_⟩
  · rw [ho]
    rfl
  · rw [ht]
    exact h.categories
  · rw [hs]
    exact h.stages c
  · rw [hs]
    exact h.contents c name

theorem Says.enter (h : Says doc spec) {c : Category}
    (ho : overallLines doc' = overallLines doc) (ht : tokens doc' = tokens doc ++ [c])
    (hs : ∀ c, stageLines c doc' = stageLines c doc) : Says doc' (spec.enter c) := by
  refine ⟨?_, ?_, fun c' => ?_, fun c' name => ?_⟩
  · rw [ho]
    exact h.overall
  · rw [ht, eraseDups_concat, ← h.categories]
    exact Table.keys_alter spec.subStages c _
  · rw [hs, Spec.stagesOf_enter, h.stages]
  · rw [hs, Spec.stagesOf_enter, h.contents]

theorem Says.insertStage (h : Says doc spec) {c : Category} {name content : String}
    (hc : c ∈ tokens doc) (ho : overallLines doc' = overallLines doc)
    (ht : tokens doc' = tokens doc)
    (hs : ∀ c', stageLines c' doc' =
      stageLines c' doc ++ if c = c' then [(name, content)] else []) :
    Says doc' (spec.insertStage c name content) := by
  refine ⟨?_, ?_, fun c' => ?_, fun c' name' => ?_⟩
  · rw [ho]
    exact h.overall
  · have hk : c ∈ spec.subStages.keys := by rw [h.categories, List.mem_eraseDups]; exact hc
    rw [ht, ← h.categories]
    exact (Table.keys_alter spec.subStages c _).trans (if_pos hk)
  · rw [hs, Spec.stagesOf_insertStage]
    by_cases hcc : c = c'
    · subst hcc
      rw [if_pos rfl, if_pos rfl, Table.keys_insert, h.stages, List.map_append]
      exact (eraseDups_concat _ name).symm
    · rw [if_neg hcc, if_neg hcc, List.append_nil, h.stages]
  · rw [hs, Spec.stagesOf_insertStage]
    by_cases hcc : c = c'
    · subst hcc
      rw [if_pos rfl, if_pos rfl, Table.get?_insert, h.contents, List.filter_append]
      by_cases hn : name = name'
      · simp [hn]
      · simp [hn]
    · rw [if_neg hcc, if_neg hcc, List.append_nil, h.contents]

end Growth

/-- The meaning of the lines grows by what the next line says after them. -/
theorem Says.concat {doc : List NumberedLine} {spec : Spec} (h : Says doc spec)
    (line : NumberedLine) : Says (doc ++ [line]) (record spec (actionAfter doc line)) := by
  have ho := overallLines_concat doc line
  have ht := tokens_concat doc line
  have hl := fun c => stageLines_concat c doc line
  rw [actionAfter]
  cases hh : line.kind.header? with
  | some s =>
    rw [category?_of_header hh] at ht
    simp only [stage?_of_header hh] at hl
    rw [step_header hh]
    exact h.same (by simp [ho, hh]) (by simp [ht]) (fun c => by simp [hl])
  | none =>
    cases hs : sectionAfter doc with
    | none =>
      rw [step_outside hh hs]
      exact h.same (by simp [ho, hs]) (by simp [ht, hs]) (fun c => by simp [hl, hs])
    | overall =>
      rw [step_overall hh hs]
      cases hf : overallLines doc with
      | nil =>
        simp only [stateAfter, hf]
        exact h.capture (by simp [ho, hs, hh, hf]) (by simp [ht, hs]) (fun c => by simp [hl, hs])
      | cons text texts =>
        simp only [stateAfter, hf]
        exact h.same (by simp [ho, hs, hh, hf]) (by simp [ht, hs]) (fun c => by simp [hl, hs])
    | subStages =>
      rw [step_subStages_action hs]
      cases hk : line.kind with
      | category c =>
        exact h.enter (by simp [ho, hs]) (by simp [ht, hs, hk, Line.category?])
          (fun c => by simp [hl, hk, Line.stage?])
      | stage name content =>
        have ht' : tokens (doc ++ [line]) = tokens doc := by simp [ht, hk, Line.category?]
        cases hc : categoryAfter doc with
        | none =>
          simp only [stateAfter, hc]
          exact h.same (by simp [ho, hs]) ht' (fun c => by simp [hl, hc])
        | some c =>
          simp only [stateAfter, hc]
          refine h.insertStage (List.mem_of_getLast? hc) (by simp [ho, hs]) ht' (fun c' => ?_)
          by_cases hcc : c = c' <;> simp [hl, hs, hc, hk, hcc, Line.stage?]
      | _ =>
        exact h.same (by simp [ho, hs]) (by simp [ht, hk, Line.category?])
          (fun c => by simp [hl, hk, Line.stage?])

/-- A run over further lines keeps the meaning that of all lines read. -/
theorem Says.run {doc : List NumberedLine} {spec : Spec} (h : Says doc spec)
    (rest : List NumberedLine) :
    Says (doc ++ rest)
      ((actions (stateAfter doc) rest).foldl (fun spec a => record spec a.2) spec) := by
  induction rest generalizing doc spec with
  | nil =>
    rw [List.append_nil]
    exact h
  | cons line rest ih =>
    rw [actions_cons, step_stateAfter, List.foldl_cons, List.append_cons]
    exact ih (h.concat line)

/-- What the lines say is one specification. -/
theorem Says.unique {doc : List NumberedLine} {spec spec' : Spec} (h : Says doc spec)
    (h' : Says doc spec') : spec = spec' := by
  obtain ⟨overall, subStages⟩ := spec
  obtain ⟨overall', subStages'⟩ := spec'
  have ho : overall = overall' := h.overall.trans h'.overall.symm
  have hk : subStages.keys = subStages'.keys := h.categories.trans h'.categories.symm
  have hs : ∀ c, Spec.stagesOf ⟨overall, subStages⟩ c = Spec.stagesOf ⟨overall', subStages'⟩ c := by
    intro c
    refine Table.ext_get? ?_ fun name => ?_
    · rw [h.stages, h'.stages]
    · rw [h.contents, h'.contents]
  have ht : subStages = subStages' := by
    refine Table.ext_get? hk fun c => ?_
    have hc := Spec.get?_subStages ⟨overall, subStages⟩ c
    have hc' := Spec.get?_subStages ⟨overall', subStages'⟩ c
    simp only [hk, hs] at hc hc'
    rw [hc, hc']
  rw [ho, ht]

/-! ## The report -/

/-- A line that gives a reason is dropped for it. -/
theorem Silent.actionAfter {doc : List NumberedLine} {line : NumberedLine} {reason : DropReason}
    (h : Silent doc line reason) : actionAfter doc line = .drop reason := by
  rw [Definition.actionAfter]
  cases h with
  | outsideSection hh hs => rw [step_outside hh hs]
  | overallAlreadyCaptured hh hs ho =>
    rw [step_overall hh hs]
    simp [stateAfter, ho]
  | stageBeforeCategory hst hs hc =>
    rw [step_subStages_action hs]
    cases hk : line.kind with
    | stage name content => simp [stateAfter, hc]
    | _ =>
      rw [hk] at hst
      cases hst
  | unrecognized hk hs => rw [step_subStages_action hs, hk]

end Flowline.Definition

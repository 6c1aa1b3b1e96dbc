import Flowline.Definition.Writing
import Flowline.Proofs.Graph.Apart
import Flowline.Proofs.Render.Tree
import Flowline.Proofs.Text.Blank
import Mathlib.Data.List.Count

/-!
# The lines of a tree

Below its header a tree has one row for each category with stages, stage and sub-stage of the
specification, in the order in which they are declared, each under what it belongs to (`specRows`).

The tree looks for the stages of each category among all stages of the graph. That it finds exactly
those that are declared for it is `stagesOf_build`; so the rows that it shows (`viewRows`) are those
of the specification (`viewRows_project`).

* `filterMap_specRows_eq`: the rows of stages and sub-stages are those of the stages of the graph,
  in their order, so each of them has one.
* `lines_tree`: no line is broken if no name is, but the header if the name of the flow is.
* `tree_rows`: the tree line by line, its nodes and its counts.
-/

namespace Flowline

open Text Definition

theorem Status.name_injective : Function.Injective Status.name := by
  intro s s' h
  cases s <;> cases s' <;> first | rfl | simp [name] at h

namespace Render

/-! ## Rows -/

/-- What a line below the header shows. -/
inductive Row where
  | category (c : Category)
  /-- A stage with its aggregate, and its kind if it has sub-stages. -/
  | stage (name : String) (status : Status) (kind : Option SubStageKind)
  | subStage (name : String) (status : Status)
deriving DecidableEq

namespace Row

/-- The line of the row. -/
def text : Row → String
  | category c => c.token
  | stage name status kind => "  " ++ name ++ " [" ++ status.name ++ "] " ++ kindLabel kind
  | subStage name status => "    " ++ marker status ++ " " ++ name ++ "  " ++ status.name

def category? : Row → Option Category
  | category c => some c
  | _ => none

def stage? : Row → Option (String × Status × Option SubStageKind)
  | stage name status kind => some (name, status, kind)
  | _ => none

def subStage? : Row → Option (String × Status)
  | subStage name status => some (name, status)
  | _ => none

/-- No name in the row is broken over lines. -/
def IsOneLine : Row → Prop
  | category _ => True
  | stage name _ _ => OneLine name
  | subStage name _ => OneLine name

theorem oneLine_text {row : Row} (h : row.IsOneLine) : OneLine row.text := by
  cases row with
  | category c => cases c <;> decide
  | stage name status kind =>
    have hname : '\n' ∉ name.toList := h
    have hstatus : '\n' ∉ status.name.toList := by cases status <;> decide
    have hkind : '\n' ∉ (kindLabel kind).toList := by
      cases kind with
      | none => decide
      | some kind => cases kind <;> decide
    simp [OneLine, text, hname, hstatus, hkind]
  | subStage name status =>
    have hname : '\n' ∉ name.toList := h
    have hmarker : '\n' ∉ (marker status).toList := by cases status <;> decide
    have hstatus : '\n' ∉ status.name.toList := by cases status <;> decide
    simp [OneLine, text, hname, hmarker, hstatus]

end Row

/-! ## The rows of a specification -/

/-- The statuses of some sub-stages. -/
def statusesOf (statuses : StatusMap) (names : List String) : List Status :=
  names.map fun name => (statuses.shown name).status

/-- The rows of a stage entry: the stage, with the aggregate of its sub-stages, and these. -/
def entryRows (statuses : StatusMap) (entry : String × String) : List Row :=
  let (kind, names) := deriveSubStages entry.2
  .stage entry.1 (Status.aggregate (statusesOf statuses names))
      (if names = [] then none else some kind) ::
    names.map fun name => .subStage name (statuses.shown name).status

/-- The rows of a category: the category, and those of its stages. -/
def categoryRows (statuses : StatusMap) (entry : Category × Table String String) : List Row :=
  .category entry.1 :: entry.2.entries.flatMap (entryRows statuses)

/-- The rows of a specification. -/
def specRows (statuses : StatusMap) (spec : Spec) : List Row :=
  spec.shown.flatMap (categoryRows statuses)

/-- No name of a stage or of a sub-stage is broken over lines. -/
def NamesOnOneLine (spec : Spec) : Prop :=
  ∀ entry ∈ spec.stageEntries,
    OneLine entry.2.1 ∧ ∀ name ∈ (deriveSubStages entry.2.2).2, OneLine name

instance (spec : Spec) : Decidable (NamesOnOneLine spec) :=
  List.decidableBAll (fun entry : Category × String × String =>
    OneLine entry.2.1 ∧ ∀ name ∈ (deriveSubStages entry.2.2).2, OneLine name) spec.stageEntries

/-! ## The rows of a view -/

/-- The rows of a stage of a graph. -/
def stageRows (s : StageNode) : List Row :=
  .stage s.name s.status s.kind :: s.subStages.map fun sub => .subStage sub.name sub.status.status

/-- The rows of a view. -/
def viewRows (v : View) : List Row :=
  v.graph.categories.flatMap fun c =>
    .category c.name :: (v.graph.stagesOf c.name).flatMap stageRows

theorem map_text_stageRows (s : StageNode) : (stageRows s).map Row.text = stageLines s := by
  rw [stageRows, stageLines, List.map_cons, List.map_map]
  rfl

theorem treeLines_eq (name : String) (v : View) :
    treeLines name v = headerLine name v :: (viewRows v).map Row.text ++ warningLines v.graph := by
  have hrows : (viewRows v).map Row.text = v.graph.categories.flatMap (categoryLines v.graph) := by
    rw [viewRows, List.map_flatMap]
    refine List.flatMap_congr fun c _ => ?_
    rw [List.map_cons, List.map_flatMap, categoryLines]
    exact congrArg (List.cons _) (List.flatMap_congr fun s _ => map_text_stageRows s)
  rw [treeLines, hrows]

/-! ## The rows of a projected graph -/

section Project

variable (statuses : StatusMap)

theorem map_name_categories (mapping : Mapping) (spec : Spec) :
    (Graph.build mapping spec).categories.map CategoryNode.name = spec.shown.map Prod.fst :=
  Graph.map_name_blocks (Graph.forall₂_blocks mapping spec)

/-- A stage has the kind that its expression says, if that names a sub-stage. -/
theorem kind_of_shows {s : StageNode} {entry : Category × String × String} (h : s.Shows entry) :
    s.kind = if (deriveSubStages entry.2.2).2 = [] then none
      else some (deriveSubStages entry.2.2).1 := by
  rw [← h.subStageNames, StageNode.kind]
  cases hsubs : s.subStages with
  | nil => rfl
  | cons sub subs =>
    rw [List.map_cons, if_neg (List.cons_ne_nil _ _), List.head?_cons, Option.map_some,
      h.kind sub (hsubs ▸ List.mem_cons_self)]

/-- A stage with the statuses laid over it has the rows of its entry. -/
theorem stageRows_withStatus {s : StageNode} {entry : Category × String × String}
    (h : s.Shows entry) : stageRows (s.withStatus statuses) = entryRows statuses entry.2 := by
  have hstatus : (s.withStatus statuses).status =
      Status.aggregate (statusesOf statuses (deriveSubStages entry.2.2).2) := by
    rw [← h.subStageNames, statusesOf, List.map_map]
    unfold StageNode.withStatus
    dsimp only
    rw [statuses_withStatus]
    rfl
  have hsubs : ((s.withStatus statuses).subStages.map fun sub =>
      Row.subStage sub.name sub.status.status) =
        (deriveSubStages entry.2.2).2.map fun name =>
          .subStage name (statuses.shown name).status := by
    rw [← h.subStageNames]
    unfold StageNode.withStatus
    dsimp only
    rw [List.map_map, List.map_map]
    rfl
  have hname : (s.withStatus statuses).name = entry.2.1 := h.name
  rw [stageRows, entryRows, hsubs, hstatus, hname, kind_withStatus, kind_of_shows h]

/-- So the rows of some stages are those of their entries. -/
theorem flatMap_stageRows {entries : List (Category × String × String)} {stages : List StageNode}
    (h : List.Forall₂ (fun entry s => StageNode.Shows s entry) entries stages) :
    (stages.map (StageNode.withStatus statuses)).flatMap stageRows =
      entries.flatMap fun entry => entryRows statuses entry.2 := by
  induction h with
  | nil => rfl
  | cons hshows _ ih =>
    rw [List.map_cons, List.flatMap_cons, ih, stageRows_withStatus statuses hshows,
      List.flatMap_cons]

theorem stagesOf_project (g : Graph) (c : Category) :
    (g.project statuses).graph.stagesOf c = (g.stagesOf c).map (StageNode.withStatus statuses) :=
  List.filter_map

/-- The stages that are found for a category are those that are declared for it. -/
theorem flatMap_stageRows_stagesOf (mapping : Mapping) (spec : Spec) (c : Category) :
    (((Graph.build mapping spec).project statuses).graph.stagesOf c).flatMap stageRows =
      (spec.stagesOf c).entries.flatMap (entryRows statuses) := by
  have hshows := Graph.forall₂_makeStages mapping c (Graph.categoryId c) 0
    (Ids.none.claim (Graph.categoryId c)).2 (spec.stagesOf c).entries
  rw [stagesOf_project, Graph.stagesOf_build, Graph.stagesAlone,
    flatMap_stageRows statuses (List.forall₂_map_left_iff.2 hshows), List.flatMap_map]

/-- What is shown of a specification is what it declares. -/
theorem viewRows_project (mapping : Mapping) (spec : Spec) :
    viewRows ((Graph.build mapping spec).project statuses) = specRows statuses spec := by
  have hview : viewRows ((Graph.build mapping spec).project statuses) =
      ((Graph.build mapping spec).categories.map CategoryNode.name).flatMap fun c =>
        Row.category c :: (((Graph.build mapping spec).project statuses).graph.stagesOf c).flatMap
          stageRows := by
    rw [List.flatMap_map]
    rfl
  rw [hview, map_name_categories, List.flatMap_map, specRows]
  refine List.flatMap_congr fun entry hentry => ?_
  -- The category has no other entry than this one.
  have hstages : spec.stagesOf entry.1 = entry.2 := by
    have hget := (spec.subStages.get?_eq_some_iff entry.1 entry.2).2 (List.mem_filter.1 hentry).1
    rw [Spec.stagesOf, hget]
    rfl
  rw [flatMap_stageRows_stagesOf, hstages, categoryRows]

end Project

/-! ## What the rows are of -/

section Kinds

variable {β : Type} {f : Row → Option β}

/-- Of the rows of a specification without its categories those of its stages remain. -/
theorem filterMap_specRows (hf : ∀ c, f (.category c) = none) (statuses : StatusMap) (spec : Spec) :
    (specRows statuses spec).filterMap f =
      (spec.stageEntries.flatMap fun entry => entryRows statuses entry.2).filterMap f := by
  rw [specRows, Spec.stageEntries, List.flatMap_assoc, List.filterMap_flatMap,
    List.filterMap_flatMap]
  refine List.flatMap_congr fun entry _ => ?_
  rw [categoryRows, List.filterMap_cons_none (hf entry.1), List.flatMap_map]

/-- They are those of the stages of the projected graph. -/
theorem filterMap_specRows_eq (hf : ∀ c, f (.category c) = none) (mapping : Mapping)
    (statuses : StatusMap) (spec : Spec) :
    (specRows statuses spec).filterMap f =
      ((Graph.build mapping spec).project statuses).graph.stages.flatMap fun s =>
        (stageRows s).filterMap f := by
  rw [filterMap_specRows hf, ← flatMap_stageRows statuses (Graph.stages_shown mapping spec),
    List.filterMap_flatMap]
  rfl

end Kinds

theorem filterMap_category?_specRows (statuses : StatusMap) (spec : Spec) :
    (specRows statuses spec).filterMap Row.category? = spec.shown.map Prod.fst := by
  have hentry : ∀ entry, (entryRows statuses entry).filterMap Row.category? = [] := by
    intro entry
    refine List.filterMap_eq_nil_iff.2 fun row hrow => ?_
    rcases List.mem_cons.1 hrow with rfl | hrow
    · rfl
    · obtain ⟨name, -, rfl⟩ := List.mem_map.1 hrow
      rfl
  rw [specRows, List.filterMap_flatMap, List.map_eq_flatMap]
  refine List.flatMap_congr fun entry _ => ?_
  have hcons : (categoryRows statuses entry).filterMap Row.category? =
      entry.1 :: (entry.2.entries.flatMap (entryRows statuses)).filterMap Row.category? := rfl
  have hnone : (entry.2.entries.flatMap (entryRows statuses)).filterMap Row.category? = [] := by
    rw [List.filterMap_flatMap, List.flatMap_eq_nil_iff]
    exact fun entry _ => hentry entry
  rw [hcons, hnone]

theorem filterMap_stage?_stageRows (s : StageNode) :
    (stageRows s).filterMap Row.stage? = [(s.name, s.status, s.kind)] := by
  have hnone : (s.subStages.map fun sub => Row.subStage sub.name sub.status.status).filterMap
      Row.stage? = [] :=
    List.filterMap_eq_nil_iff.2 (List.forall_mem_map.2 fun _ _ => rfl)
  have hcons : (stageRows s).filterMap Row.stage? = (s.name, s.status, s.kind) ::
      (s.subStages.map fun sub => Row.subStage sub.name sub.status.status).filterMap Row.stage? :=
    rfl
  rw [hcons, hnone]

theorem filterMap_subStage?_stageRows (s : StageNode) :
    (stageRows s).filterMap Row.subStage? =
      s.subStages.map fun sub => (sub.name, sub.status.status) := by
  rw [stageRows, List.filterMap_cons_none rfl, List.filterMap_map, ← List.filterMap_eq_map]
  rfl

/-- No row has a line feed if no name has one. -/
theorem isOneLine_of_mem_specRows {spec : Spec} (h : NamesOnOneLine spec) {statuses : StatusMap} :
    ∀ row ∈ specRows statuses spec, row.IsOneLine := by
  intro row hrow
  obtain ⟨⟨c, stages⟩, hshown, hrow⟩ := List.mem_flatMap.1 hrow
  rcases List.mem_cons.1 hrow with rfl | hrow
  · trivial
  · obtain ⟨entry, hentry, hrow⟩ := List.mem_flatMap.1 hrow
    obtain ⟨hstage, hsubs⟩ := h (c, entry)
      (List.mem_flatMap.2 ⟨(c, stages), hshown, List.mem_map_of_mem hentry⟩)
    rcases List.mem_cons.1 hrow with rfl | hrow
    · exact hstage
    · obtain ⟨name, hname, rfl⟩ := List.mem_map.1 hrow
      exact hsubs name hname

/-! ## The tree -/

/-- The words for the statuses of the sub-stages among some rows. -/
def statusWords (rows : List Row) : List String :=
  (rows.filterMap Row.subStage?).map fun sub => sub.2.name

/-- How often each of the words for a status is among some words. -/
def countWords (words : List String) : StatusCounts where
  pending := words.count "pending"
  running := words.count "running"
  completed := words.count "completed"
  failed := words.count "failed"
  error := words.count "error"
  unknown := words.count "unknown"

/-- The text is the tree of the view, with the rows of the specification under the statuses. -/
structure Pictures (name : String) (spec : Spec) (statuses : StatusMap) (v : View) (text : String) :
    Prop where
  /-- The lines are the header, the rows, and the number of the warnings if there are any; each is
  ended by a line feed. -/
  lines : lines text.toList =
    lines (name ++ " [" ++ v.status.name ++ "] " ++ v.counts.completed.repr ++ "/" ++
        v.counts.total.repr ++ " completed").toList ++
      ((specRows statuses spec).map Row.text ++
        if v.graph.warnings = [] then []
        else [v.graph.warnings.length.repr ++ " warning(s)"]).map String.toList ++ [[]]
  /-- Each category of the view has one row. -/
  categories : (specRows statuses spec).filterMap Row.category? =
    v.graph.categories.map CategoryNode.name
  /-- No two categories are the same. -/
  nodup : (v.graph.categories.map CategoryNode.name).Nodup
  /-- Each stage has one row, with its aggregate and its kind. -/
  stages : (specRows statuses spec).filterMap Row.stage? =
    v.graph.stages.map fun s => (s.name, s.status, s.kind)
  /-- Each sub-stage has one row, with its status. -/
  subStages : (specRows statuses spec).filterMap Row.subStage? =
    v.graph.subStages.map fun sub => (sub.name, sub.status.status)
  /-- The status in the header is that of the stages together. -/
  status : v.status =
    Status.aggregate (((specRows statuses spec).filterMap Row.stage?).map fun s => s.2.1)
  /-- The counts are how often each word stands in the rows of sub-stages. -/
  counts : v.counts = countWords (statusWords (specRows statuses spec))
  /-- Together they are as many as there are such rows. -/
  total : v.counts.total = (statusWords (specRows statuses spec)).length

/-- Statuses are counted like the words for them. -/
theorem ofList_eq_countWords (parts : List Status) :
    StatusCounts.ofList parts = countWords (parts.map Status.name) := by
  have hcount : ∀ s : Status, (parts.map Status.name).count s.name = parts.count s :=
    List.count_map_of_injective parts Status.name Status.name_injective
  unfold StatusCounts.ofList
  simp only [← hcount]
  rfl

theorem oneLine_warningLines (g : Graph) : ∀ line ∈ warningLines g, OneLine line := by
  intro line hline
  unfold warningLines at hline
  split at hline
  · cases hline
  · rw [List.mem_singleton.1 hline]
    have hdigits : '\n' ∉ g.warnings.length.repr.toList := by
      rw [Nat.toList_repr]
      exact fun h => absurd (Nat.isDigit_of_mem_toDigits (by decide) (by decide) h) (by decide)
    unfold OneLine
    rw [String.toList_append, List.mem_append, not_or]
    exact ⟨hdigits, by decide⟩

/-- The lines of a tree, of which none but the header can be broken. -/
theorem lines_tree (mapping : Mapping) {spec : Spec} (h : NamesOnOneLine spec) (name : String)
    (statuses : StatusMap) :
    let v := (Graph.build mapping spec).project statuses
    lines (tree name v).toList = lines (headerLine name v).toList ++
      ((specRows statuses spec).map Row.text ++ warningLines v.graph).map String.toList ++
        [[]] := by
  intro v
  -- The header is split from the rest, whatever lines it has itself.
  have hbody : ∀ line ∈ (specRows statuses spec).map Row.text ++ warningLines v.graph,
      OneLine line := by
    intro line hline
    rcases List.mem_append.1 hline with hline | hline
    · obtain ⟨row, hrow, rfl⟩ := List.mem_map.1 hline
      exact Row.oneLine_text (isOneLine_of_mem_specRows h row hrow)
    · exact oneLine_warningLines v.graph line hline
  rw [tree, treeLines_eq, viewRows_project, List.cons_append, toList_unlines_cons,
    lines_append_cons, lines_unlines hbody, List.append_assoc]

/-- A tree of a built graph has its header, one line for each category with stages, stage and
sub-stage of the specification, in order and each under what it belongs to, and a last line if there
are warnings. The header counts the words in the lines of the sub-stages. -/
theorem tree_rows (mapping : Mapping) {spec : Spec} (h : NamesOnOneLine spec) (name : String)
    (statuses : StatusMap) :
    let v := (Graph.build mapping spec).project statuses
    Pictures name spec statuses v (tree name v) := by
  intro v
  have hstages : (specRows statuses spec).filterMap Row.stage? =
      v.graph.stages.map fun s => (s.name, s.status, s.kind) := by
    rw [filterMap_specRows_eq (fun _ => rfl) mapping, List.map_eq_flatMap]
    exact List.flatMap_congr fun s _ => filterMap_stage?_stageRows s
  have hsubStages : (specRows statuses spec).filterMap Row.subStage? =
      v.graph.subStages.map fun sub => (sub.name, sub.status.status) := by
    rw [filterMap_specRows_eq (fun _ => rfl) mapping, Graph.subStages, List.map_flatMap]
    exact List.flatMap_congr fun s _ => filterMap_subStage?_stageRows s
  have hcategories : v.graph.categories.map CategoryNode.name = spec.shown.map Prod.fst :=
    map_name_categories mapping spec
  have hwords : statusWords (specRows statuses spec) =
      (v.graph.subStages.map (·.status.status)).map Status.name := by
    rw [statusWords, hsubStages, List.map_map, List.map_map]
    rfl
  have hcounts : v.counts = StatusCounts.ofList (v.graph.subStages.map (·.status.status)) := rfl
  have hlines : Text.lines (tree name v).toList = Text.lines (headerLine name v).toList ++
      ((specRows statuses spec).map Row.text ++ warningLines v.graph).map String.toList ++ [[]] :=
    lines_tree mapping h name statuses
  have hwarnings : warningLines v.graph = if v.graph.warnings = [] then []
      else [v.graph.warnings.length.repr ++ " warning(s)"] := by
    unfold warningLines
    simp only [List.isEmpty_iff]
  refine ⟨hwarnings ▸ hlines, ?_, ?_, hstages, hsubStages, ?_, ?_, ?_⟩
  · rw [filterMap_category?_specRows, hcategories]
  · rw [hcategories]
    exact spec.subStages.keys_nodup.sublist (List.filter_sublist.map Prod.fst)
  · rw [hstages, List.map_map]
    rfl
  · rw [hwords, hcounts, ofList_eq_countWords]
  · rw [hwords, hcounts, StatusCounts.total_ofList]
    exact (List.length_map Status.name).symm

/-- A stage whose name begins with blanks, one without sub-stages, a sub-stage that stands twice,
one that nothing is known of, and a record of none. -/
theorem tree_rows_mixed :
    let spec := (((Spec.ofOverall "AWS\x7bX\x7d").insertStage .onPrem "P" "C, C").insertStage .aws
      "  Calc" "A -> B").insertStage .aws "T" ""
    let statuses : StatusMap := .ofList [("A", .ofStatus .completed), ("B", .ofStatus .running),
      ("Z", .ofStatus .failed)]
    let v := (Graph.build Mapping.empty spec).project statuses
    (NamesOnOneLine spec ∧ (specRows statuses spec).map Row.text =
      ["On-PREM", "  P [pending] parallel", "    ? C  unknown", "    ? C  unknown",
        "AWS", "    Calc [running] sequential", "    ✓ A  completed", "    ▶ B  running",
        "  T [pending] empty"]) ∧
      Pictures "two\nlines" spec statuses v (tree "two\nlines" v) := by
  intro spec statuses v
  have h : NamesOnOneLine spec := by decide
  exact ⟨⟨h, by decide⟩, tree_rows Mapping.empty h "two\nlines" statuses⟩

end Render

end Flowline

import Flowline.Graph.Format
import Flowline.Proofs.Graph.NodeIds
import Flowline.Proofs.Registration.RoundTrip
import Flowline.Proofs.Status.Aggregate
import Flowline.Proofs.Status.Reading

/-!
# Projected graphs are read back

There is one lemma for each type of node: what is written for it is read as it, if its numbers fit
(`Layout.IsSmall`, `Target.IsSmall`) and the records in it are proper. A projected graph is proper
if all of its parts are (`View.IsProper`). It is read back from its text, without blanks or over
lines, as long as no more than 127 lists and objects nest in it (`View.run_written`).

Whatever is built with ids that 64 bits hold and projected with proper records is proper
(`isProper_project_build`): coordinates wrap around at 32 bits, and a sub-stage shows a record of
the statuses or none.
-/

namespace Flowline

open Json

/-! ## Categories, kinds, layouts and targets -/

theorem Category.reads_toJson (c : Category) : Category.reader.Reads 0 c.toJson c :=
  reads_variant (by cases c <;> decide)

theorem SubStageKind.reads_toJson (k : SubStageKind) : SubStageKind.reader.Reads 0 k.toJson k :=
  reads_variant (by cases k <;> decide)

/-- The coordinates and the sizes fit into 32 bits. -/
structure Layout.IsSmall (l : Layout) : Prop where
  x : -0x80000000 ≤ l.x ∧ l.x ≤ 0x7FFFFFFF
  y : -0x80000000 ≤ l.y ∧ l.y ≤ 0x7FFFFFFF
  width : ∀ n ∈ l.width, n ≤ 0xFFFFFFFF
  height : ∀ n ∈ l.height, n ≤ 0xFFFFFFFF

theorem Layout.reads_toJson {l : Layout} (h : l.IsSmall) : Layout.reader.Reads 1 l.toJson l := by
  obtain ⟨x, y, width, height⟩ := l
  have hsize : ∀ {o : Option Nat}, (∀ n ∈ o, n ≤ 0xFFFFFFFF) →
      ∀ n ∈ o, Reader.u32.Reads 0 (.nat n) n ∧ Json.nat n ≠ .null :=
    fun ho n hn => ⟨reads_natural (ho n hn) "u32", nofun⟩
  have hheight := spelled_memberIfSome "height" (hsize h.height) (.nil (d := 0))
  rw [List.append_nil] at hheight
  exact (reads_record "struct LayoutHints" rfl
    (.present (reads_integer h.x.1 h.x.2 "i32")
    (.present (reads_integer h.y.1 h.y.2 "i32")
    (spelled_memberIfSome "width" (hsize h.width) hheight)))).map _

/-- The ids of a process fit into 64 bits. -/
def Target.IsSmall : Target → Prop
  | .dag _ => True
  | .onPrem ids => ids.IsSmall

theorem Target.reads_toJson {t : Target} (h : t.IsSmall) : Target.reader.Reads 1 t.toJson t := by
  cases t with
  | dag dagId =>
    refine reads_tagged "ExecutionTarget" rfl ?_
      ((reads_record _ rfl (.present (reads_text dagId) .nil)).map _)
    simp [tagName, depth]
  | onPrem ids =>
    refine reads_tagged "ExecutionTarget" rfl ?_ ((OnPremIds.reads_toJson h).map Target.onPrem)
    simp [OnPremIds.toMembers, tagName, Json.int, depth]

/-! ## Sub-stages -/

/-- The target fits and the record is proper. -/
structure SubStage.IsProper (s : SubStage) : Prop where
  target : ∀ t ∈ s.target, t.IsSmall
  status : s.status.IsProper

theorem SubStage.reads_toJson {s : SubStage} (h : s.IsProper) {d : Nat}
    (hd : ∀ e ∈ s.status.details.entries, e.2.depth ≤ d) :
    SubStage.reader.Reads (d + 3) s.toJson s := by
  obtain ⟨id, name, kind, next, target, status⟩ := s
  have hstatus : (Fields.cons (.required "status" Record.reader) .nil).Spelled (d + 2)
      [("status", status.toJson)] (status, ()) :=
    .present (Record.reads_toJson h.status hd) .nil
  have htarget : ∀ t ∈ target, Target.reader.Reads (d + 2) t.toJson t ∧ t.toJson ≠ .null := by
    intro t ht
    exact ⟨(Target.reads_toJson (h.target t ht)).mono (by omega), by cases t <;> exact nofun⟩
  have hnext : ∀ id ∈ next, Reader.text.Reads (d + 2) (.text id) id ∧ Json.text id ≠ .null :=
    fun id _ => ⟨(reads_text id).mono (Nat.zero_le _), nofun⟩
  have hmembers := reads_record "struct SubStageDescriptor" rfl
    (.present (f := .required "id" Reader.text) ((reads_text id).mono (Nat.zero_le _))
    (.present (f := .required "name" Reader.text) ((reads_text name).mono (Nat.zero_le _))
    (.present (f := .required "kind" SubStageKind.reader) (kind.reads_toJson.mono (Nat.zero_le _))
    (spelled_memberIfSome "next" hnext (spelled_memberIfSome "target" htarget hstatus)))))
  rw [toJson, List.append_assoc, List.append_assoc]
  exact hmembers.map _

/-! ## Stages, categories and edges -/

/-- The coordinates fit and the sub-stages are proper. -/
structure StageNode.IsProper (s : StageNode) : Prop where
  subStages : ∀ sub ∈ s.subStages, sub.IsProper
  layout : s.layout.IsSmall

theorem StageNode.reads_toJson {s : StageNode} (h : s.IsProper) {d : Nat}
    (hd : ∀ sub ∈ s.subStages, ∀ e ∈ sub.status.details.entries, e.2.depth ≤ d) :
    StageNode.reader.Reads (d + 5) s.toJson s := by
  have hsubs := reads_list fun sub hsub =>
    SubStage.reads_toJson (h.subStages sub hsub) (hd sub hsub)
  exact (reads_record "struct StageNode" rfl
    (.present ((reads_text s.id).mono (Nat.zero_le _))
    (.present ((reads_text s.name).mono (Nat.zero_le _))
    (.present (s.category.reads_toJson.mono (Nat.zero_le _))
    (.present ((reads_text s.parentId).mono (Nat.zero_le _))
    (.present hsubs
    (.present (s.status.reads_toJson.mono (Nat.zero_le _))
    (.present ((Layout.reads_toJson h.layout).mono (by omega)) .nil)))))))).map _

theorem CategoryNode.reads_toJson {c : CategoryNode} (h : c.layout.IsSmall) :
    CategoryNode.reader.Reads 2 c.toJson c :=
  (reads_record "struct CategoryNode" rfl
    (.present ((reads_text c.id).mono (Nat.zero_le _))
    (.present (c.name.reads_toJson.mono (Nat.zero_le _))
    (.present (reads_list fun id _ => reads_text id)
    (.present (Layout.reads_toJson h) .nil))))).map _

theorem Edge.reads_toJson (e : Edge) : Edge.reader.Reads 1 e.toJson e :=
  (reads_record "struct FlowEdge" rfl
    (.present (reads_text e.id) (.present (reads_text e.source)
    (.present (reads_text e.target) .nil)))).map _

/-! ## Warnings -/

theorem GraphWarning.reads_toJson (w : GraphWarning) : GraphWarning.reader.Reads 1 w.toJson w := by
  cases w with
  | duplicateSubStage stageId name assignedId =>
    refine reads_tagged "GraphWarning" rfl ?_ ((reads_record _ rfl
      (.present (reads_text stageId) (.present (reads_text name)
      (.present (reads_text assignedId) .nil)))).map _)
    simp [tagName, depth]
  | outlineStageMissing category stage =>
    refine reads_tagged "GraphWarning" rfl ?_ ((reads_record _ rfl
      (.present category.reads_toJson (.present (reads_text stage) .nil))).map _)
    simp [tagName, depth, Category.toJson]
  | emptyStage stageId =>
    refine reads_tagged "GraphWarning" rfl ?_
      ((reads_record _ rfl (.present (reads_text stageId) .nil)).map _)
    simp [tagName, depth]

/-! ## Counts -/

/-- The counts fit into 64 bits. -/
def StatusCounts.IsSmall (c : StatusCounts) : Prop := c.total ≤ 0xFFFFFFFFFFFFFFFF

theorem StatusCounts.reads_toJson {c : StatusCounts} (h : c.IsSmall) :
    StatusCounts.reader.Reads 1 c.toJson c := by
  unfold IsSmall total at h
  exact (reads_record "struct StatusCounts" rfl
    (.present (reads_natural (by omega) "usize")
    (.present (reads_natural (by omega) "usize")
    (.present (reads_natural (by omega) "usize")
    (.present (reads_natural (by omega) "usize")
    (.present (reads_natural (by omega) "usize")
    (.present (reads_natural (by omega) "usize") .nil))))))).map _

/-! ## Projected graphs -/

/-- All parts of the projected graph can be read back. -/
structure View.IsProper (v : View) : Prop where
  categories : ∀ c ∈ v.graph.categories, c.layout.IsSmall
  stages : ∀ s ∈ v.graph.stages, s.IsProper
  counts : v.counts.IsSmall

theorem Graph.spelled_toMembers {g : Graph} (hcategories : ∀ c ∈ g.categories, c.layout.IsSmall)
    (hstages : ∀ s ∈ g.stages, s.IsProper) {d : Nat}
    (hd : ∀ s ∈ g.stages, ∀ sub ∈ s.subStages, ∀ e ∈ sub.status.details.entries, e.2.depth ≤ d) :
    Graph.fields.Spelled (d + 6) g.toMembers
      (g.categories, g.stages, g.edges, g.warnings, ()) := by
  have hwarnings : (Fields.cons (.withDefault "warnings" GraphWarning.reader.list []) .nil).Spelled
      (d + 6) (if g.warnings.isEmpty then [] else
        [("warnings", .list (g.warnings.map GraphWarning.toJson))]) (g.warnings, ()) := by
    cases hempty : g.warnings with
    | nil => exact .absent rfl .nil
    | cons w ws => exact .present ((reads_list fun w _ => w.reads_toJson).mono (by omega)) .nil
  have hread := reads_list fun c hc => CategoryNode.reads_toJson (hcategories c hc)
  exact .present (hread.mono (by omega))
    (.present (reads_list fun s hs => StageNode.reads_toJson (hstages s hs) (hd s hs))
    (.present ((reads_list fun e _ => e.reads_toJson).mono (by omega)) hwarnings))

namespace View

variable {v : View}

/-- The details of a record are seven levels inside the text. -/
theorem depth_details_le (h : v.toJson.depth ≤ 127) : ∀ s ∈ v.graph.stages, ∀ sub ∈ s.subStages,
    ∀ e ∈ sub.status.details.entries, e.2.depth ≤ 120 := by
  intro s hs sub hsub e he
  have hstages : (Json.list (v.graph.stages.map StageNode.toJson)).depth ≤ 126 :=
    depth_object_le.1 h ("stages", _) (by simp [Graph.toMembers])
  have hstage : s.toJson.depth ≤ 125 := depth_list_le.1 hstages _ (List.mem_map_of_mem hs)
  have hsubs : (Json.list (s.subStages.map SubStage.toJson)).depth ≤ 124 :=
    depth_object_le.1 hstage ("sub_stages", _) (by simp)
  have hsub : sub.toJson.depth ≤ 123 := depth_list_le.1 hsubs _ (List.mem_map_of_mem hsub)
  have hrecord : sub.status.toJson.depth ≤ 122 :=
    depth_object_le.1 hsub ("status", sub.status.toJson)
      (List.mem_append_right _ List.mem_cons_self)
  have hdetails : (Json.ofNameMap sub.status.details).depth ≤ 121 :=
    depth_object_le.1 hrecord ("details", Json.ofNameMap sub.status.details) (by simp)
  exact depth_object_le.1 hdetails e he

theorem read_toJson (h : v.IsProper) (hdepth : v.toJson.depth ≤ 127) :
    View.reader Mode.start (Node.ofJson v.toJson) = .ok v := by
  have hstart : Mode.start.Allows (126 + 1) := fun _ => Nat.le_refl 127
  obtain ⟨inner, henter, hinner⟩ := Mode.exists_enter hstart
  have hmembers := depth_object_le.1 hdepth
  have hown : View.ownFields.Spelled 126
      [("counts", v.counts.toJson), ("status", v.status.toJson)] (v.counts, v.status, ()) :=
    .present ((StatusCounts.reads_toJson h.counts).mono (by decide))
      (.present (v.status.reads_toJson.mono (by decide)) .nil)
  have hgraph := Graph.spelled_toMembers h.categories h.stages (depth_details_le hdepth)
  have hnames : ∀ name ∈ Graph.fields.names, View.ownFields.knows name = false := by decide
  have hothers : ∀ e ∈ v.graph.toMembers, View.ownFields.knows e.1 = false ∧ e.2.depth ≤ 126 :=
    fun e he => ⟨hnames e.1 (hgraph.mem_names e he), hmembers e (List.mem_append_left _ he)⟩
  obtain ⟨slots, hslots, hfinish⟩ := hown.readBeside rfl hinner hothers
  obtain ⟨kept, hkept, hvalues⟩ := hgraph.readMembers rfl (inner.allows_again 126)
  simp only [View.reader, View.toJson, Node.ofJson, henter, hslots, hfinish, hkept, hvalues, bind,
    Except.bind]
  rfl

end View

/-! ## No floats -/

theorem isIntegral_members {α : Type} {f : α → Json} {xs : List α}
    (h : ∀ x ∈ xs, (f x).IsIntegral) : (Json.list (xs.map f)).IsIntegral :=
  isIntegral_list.2 (List.forall_mem_map.2 h)

theorem Layout.IsSmall.isIntegral {l : Layout} (h : l.IsSmall) : l.toJson.IsIntegral := by
  have hint : ∀ {n : Int}, -0x80000000 ≤ n ∧ n ≤ 0x7FFFFFFF → (Json.int n).IsIntegral :=
    fun hn => isIntegral_int (by unfold IsInteger64; omega)
  have hnat : ∀ {n : Nat}, n ≤ 0xFFFFFFFF → (Json.nat n).IsIntegral :=
    fun hn => isIntegral_nat (by omega)
  simp only [toJson, isIntegral_object, List.forall_mem_append, List.forall_mem_cons]
  exact ⟨⟨⟨hint h.x, hint h.y, List.forall_mem_nil _⟩,
    isIntegral_memberIfSome fun n hn => hnat (h.width n hn)⟩,
    isIntegral_memberIfSome fun n hn => hnat (h.height n hn)⟩

theorem Target.IsSmall.isIntegral {t : Target} (h : t.IsSmall) : t.toJson.IsIntegral := by
  cases t with
  | dag dagId => simp [toJson, isIntegral_object, isIntegral_text]
  | onPrem ids =>
    have hbpf := isIntegral_int (isInteger64_of_isInt64 h.1)
    have hprocess := isIntegral_int (isInteger64_of_isInt64 h.2)
    simp [toJson, OnPremIds.toMembers, isIntegral_object, isIntegral_text, hbpf, hprocess]

theorem SubStage.IsProper.isIntegral {s : SubStage} (h : s.IsProper) : s.toJson.IsIntegral := by
  simp only [toJson, isIntegral_object, List.forall_mem_append, List.forall_mem_cons]
  exact ⟨⟨⟨⟨isIntegral_text _, isIntegral_text _, isIntegral_text _, List.forall_mem_nil _⟩,
    isIntegral_memberIfSome fun _ _ => isIntegral_text _⟩,
    isIntegral_memberIfSome fun t ht => (h.target t ht).isIntegral⟩,
    h.status.isIntegral, List.forall_mem_nil _⟩

theorem StageNode.IsProper.isIntegral {s : StageNode} (h : s.IsProper) : s.toJson.IsIntegral := by
  simp only [toJson, isIntegral_object, List.forall_mem_cons]
  exact ⟨isIntegral_text _, isIntegral_text _, isIntegral_text _, isIntegral_text _,
    isIntegral_members fun sub hsub => (h.subStages sub hsub).isIntegral, isIntegral_text _,
    h.layout.isIntegral, List.forall_mem_nil _⟩

theorem GraphWarning.isIntegral (w : GraphWarning) : w.toJson.IsIntegral := by
  cases w <;> simp [toJson, Category.toJson, isIntegral_object, isIntegral_text]

theorem StatusCounts.IsSmall.isIntegral {c : StatusCounts} (h : c.IsSmall) :
    c.toJson.IsIntegral := by
  unfold IsSmall total at h
  simp only [toJson, isIntegral_object, List.forall_mem_cons]
  exact ⟨isIntegral_nat (by omega), isIntegral_nat (by omega), isIntegral_nat (by omega),
    isIntegral_nat (by omega), isIntegral_nat (by omega), isIntegral_nat (by omega),
    List.forall_mem_nil _⟩

namespace View

variable {v : View}

theorem IsProper.isIntegral (h : v.IsProper) : v.toJson.IsIntegral := by
  have hcategory : ∀ c ∈ v.graph.categories, c.toJson.IsIntegral := by
    intro c hc
    simp only [CategoryNode.toJson, isIntegral_object, List.forall_mem_cons]
    exact ⟨isIntegral_text _, isIntegral_text _, isIntegral_members fun id _ => isIntegral_text id,
      (h.categories c hc).isIntegral, List.forall_mem_nil _⟩
  have hedge : ∀ e : Edge, e.toJson.IsIntegral := fun e => by
    simp [Edge.toJson, isIntegral_object, isIntegral_text]
  have hwarnings : ∀ e ∈ (if v.graph.warnings.isEmpty then [] else
      [("warnings", Json.list (v.graph.warnings.map GraphWarning.toJson))]), e.2.IsIntegral := by
    split
    · exact List.forall_mem_nil _
    · intro e he
      rw [List.mem_singleton.1 he]
      exact isIntegral_members fun w _ => w.isIntegral
  simp only [toJson, Graph.toMembers, isIntegral_object, List.forall_mem_append,
    List.forall_mem_cons]
  exact ⟨⟨⟨isIntegral_members hcategory,
    isIntegral_members fun s hs => (h.stages s hs).isIntegral,
    isIntegral_members fun e _ => hedge e, List.forall_mem_nil _⟩, hwarnings⟩,
    h.counts.isIntegral, isIntegral_text _, List.forall_mem_nil _⟩

/-- A proper projected graph is read back from the bytes that are written for it, unless too many
lists and objects nest in them. -/
theorem run_written (h : v.IsProper) (hdepth : v.toJson.depth ≤ 127) {write : Json → String}
    (hwrite : write = Json.compact ∨ write = Json.pretty) :
    View.reader.run (Text.Glyph.ofBytes (write v.toJson).toUTF8.toList) = .ok v := by
  rw [h.isIntegral.run_written hwrite, read_toJson h hdepth]

end View

/-! ## Built and projected graphs -/

namespace Graph

/-- Coordinates wrap around, so 32 bits hold them. -/
theorem wrapped_mem (n : Int) : -0x80000000 ≤ wrapped n ∧ wrapped n ≤ 0x7FFFFFFF := by
  have hlow := Int.le_bmod (x := n) (m := 0x100000000) (by decide)
  have hhigh := Int.bmod_lt (x := n) (m := 0x100000000) (by decide)
  unfold wrapped
  omega

theorem isSmall_categoryLayout (index : Nat) : (categoryLayout index).IsSmall where
  x := by
    dsimp only [categoryLayout]
    exact wrapped_mem _
  y := by simp [categoryLayout]
  width := by simp [categoryLayout]
  height := by simp [categoryLayout]

theorem isSmall_stageLayout (index : Nat) : (stageLayout index).IsSmall where
  x := by
    dsimp only [stageLayout]
    exact wrapped_mem _
  y := by simp [stageLayout]
  width := by simp [stageLayout]
  height := by simp [stageLayout]

section Built

variable {mapping : Mapping} (h : ∀ e ∈ mapping.onPrem.entries, e.2.IsSmall)

include h

/-- A target comes from the tables. -/
theorem isSmall_targetFor {c : Category} {stage subStage : String} :
    ∀ t ∈ mapping.targetFor c stage subStage, t.IsSmall := by
  intro t ht
  cases c with
  | aws =>
    obtain ⟨dagId, -, rfl⟩ := Option.map_eq_some_iff.1 ht
    trivial
  | onPrem =>
    obtain ⟨ids, hids, rfl⟩ := Option.map_eq_some_iff.1 ht
    have hget : ∀ name, mapping.onPrem.get? name = some ids → ids.IsSmall := fun name hname =>
      h (name, ids) ((Table.get?_eq_some_iff _ _ _).1 hname)
    rcases Option.or_eq_some_iff.1 hids with hids | ⟨-, hids⟩
    · exact hget _ hids
    · exact hget _ hids

/-- What is built can be read back as to its numbers. -/
structure IsSmall (s : StageNode) : Prop where
  targets : ∀ sub ∈ s.subStages, ∀ t ∈ sub.target, t.IsSmall
  layout : s.layout.IsSmall

theorem isSmall_makeStage (c : Category) (parentId : String) (index : Nat) (ids : Ids)
    (stage expr : String) : IsSmall (makeStage mapping c parentId index ids stage expr).1 where
  layout := isSmall_stageLayout index
  targets := forall_mem_subStages_makeStage (fun _ _ _ => isSmall_targetFor h) parentId index ids

theorem isSmall_makeBlocks (index : Nat) (ids : Ids)
    (entries : List (Category × Table String String)) :
    ∀ b ∈ makeBlocks mapping index ids entries,
      b.category.layout.IsSmall ∧ ∀ s ∈ b.stages, IsSmall s := by
  refine forall_mem_makeBlocks (fun c index ids entries _ => ?_) index ids entries
  exact ⟨isSmall_categoryLayout index,
    forall_mem_makeStages (isSmall_makeStage h c _) 0 _ entries⟩

end Built

/-- A built graph that is projected with proper records is proper. -/
theorem isProper_project_build {mapping : Mapping} (h : ∀ e ∈ mapping.onPrem.entries, e.2.IsSmall)
    {spec : Spec} {statuses : StatusMap} (hstatuses : ∀ e ∈ statuses.entries, e.2.IsProper)
    (hcount : (build mapping spec).subStages.length ≤ 0xFFFFFFFFFFFFFFFF) :
    ((build mapping spec).project statuses).IsProper where
  categories := by
    intro c hc
    obtain ⟨b, hb, rfl⟩ := List.mem_map.1 hc
    exact (isSmall_makeBlocks h _ _ _ b hb).1
  stages := by
    refine List.forall_mem_map.2 fun s hs => ?_
    obtain ⟨b, hb, hs⟩ := List.mem_flatMap.1 hs
    have hsmall := (isSmall_makeBlocks h _ _ _ b hb).2 s hs
    refine ⟨List.forall_mem_map.2 fun sub hsub => ⟨hsmall.targets sub hsub, ?_⟩, hsmall.layout⟩
    -- The record of the name, if there is one.
    cases hget : statuses.get? sub.name with
    | none => simpa [SubStage.withStatus, hget] using Record.isProper_ofStatus .unknown
    | some r =>
      have hr := hstatuses _ (NameMap.get?_eq_some_iff.1 hget)
      simpa [SubStage.withStatus, hget] using hr
  counts := by
    have hlength : ((build mapping spec).stages.map (StageNode.withStatus statuses)).flatMap
          StageNode.subStages =
        (build mapping spec).subStages.map (SubStage.withStatus statuses) := by
      rw [List.flatMap_map, subStages, List.map_flatMap]
      rfl
    show (StatusCounts.ofList _).total ≤ _
    rw [StatusCounts.total_ofList, List.length_map]
    show (((build mapping spec).stages.map (StageNode.withStatus statuses)).flatMap
        StageNode.subStages).length ≤ _
    rw [hlength, List.length_map]
    exact hcount

/-- The graph of a specification, with targets and with statuses laid over it, is read back from
the bytes that are written for it: with all of its nodes, edges, warnings, targets and links, its
records, counts and aggregates. -/
theorem run_written_project {mapping : Mapping} (h : ∀ e ∈ mapping.onPrem.entries, e.2.IsSmall)
    {spec : Spec} {statuses : StatusMap} (hstatuses : ∀ e ∈ statuses.entries, e.2.IsProper)
    (hcount : (build mapping spec).subStages.length ≤ 0xFFFFFFFFFFFFFFFF)
    (hdepth : ((build mapping spec).project statuses).toJson.depth ≤ 127) {write : Json → String}
    (hwrite : write = Json.compact ∨ write = Json.pretty) :
    View.reader.run (Text.Glyph.ofBytes
      (write ((build mapping spec).project statuses).toJson).toUTF8.toList) =
        .ok ((build mapping spec).project statuses) :=
  View.run_written (isProper_project_build h hstatuses hcount) hdepth hwrite

/-- Targets at the ends of their range, a name that is taken, a stage that is missing and one that
is empty, a leap second and details that nest. -/
theorem run_written_project_leap :
    let mapping : Mapping := ⟨.ofList [("é", "dag \"1\"")],
      .ofList [("y", ⟨.negSucc 9223372036854775807, 9223372036854775807⟩)]⟩
    let spec := (((Spec.ofOverall "AWS\x7bA->C\x7d").insertStage .aws "A" "é->x->é").insertStage
      .aws "B" "").insertStage .onPrem "P" "y,z"
    let start : Time.Instant := ⟨2932896, 86399, 1000000001, by decide, by decide⟩
    let statuses : StatusMap := .ofList
      [("é", ⟨.running, some start, none,
          .ofList [("k", .list [.object [("n", .int (.negSucc 0))]])]⟩),
        ("y", ⟨.completed, some default, some default, NameMap.empty⟩)]
    ((∀ e ∈ mapping.onPrem.entries, e.2.IsSmall) ∧ (∀ e ∈ statuses.entries, e.2.IsProper) ∧
      (build mapping spec).subStages.length ≤ 0xFFFFFFFFFFFFFFFF ∧
      ((build mapping spec).project statuses).toJson.depth ≤ 127) ∧
      View.reader.run (Text.Glyph.ofBytes
        ((build mapping spec).project statuses).toJson.compact.toUTF8.toList) =
          .ok ((build mapping spec).project statuses) := by
  intro mapping spec start statuses
  have h : ∀ e ∈ mapping.onPrem.entries, e.2.IsSmall := by
    unfold OnPremIds.IsSmall
    decide +kernel
  have hstatuses : ∀ e ∈ statuses.entries, e.2.IsProper := by decide +kernel
  have hcount : (build mapping spec).subStages.length ≤ 0xFFFFFFFFFFFFFFFF := by decide +kernel
  have hdepth : ((build mapping spec).project statuses).toJson.depth ≤ 127 := by decide +kernel
  exact ⟨⟨h, hstatuses, hcount, hdepth⟩, run_written_project h hstatuses hcount hdepth (.inl rfl)⟩

end Graph

end Flowline
